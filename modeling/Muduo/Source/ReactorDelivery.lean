import Muduo.Source.ReactorSending

/-!
# What becomes of an accepted message

Along every run an accepted message has been handed over except for what is on its
way, unless its connection went down; and what was handed over has left, or waits in
`output_buffer_`, in this order.
-/
namespace Muduo.Source
open Muduo.Support

namespace World

variable {σ : Type} {settings : Settings} {impl : Polling σ} {w w' : World σ} {c : ConnId}
  {old new : Option Carried} {events : List Event}

/-- A remainder of `sendInLoop` is not empty. -/
def Remains (w : World σ) : Prop :=
  ∀ c id rest, .sendInLoopRest c id rest ∈ w.stack → rest.bytes ≠ []

theorem Advance.remains {onLoop : Bool} {frame : Frame} {input : Input} {frames : List Frame}
    (advance : Advance settings impl onLoop w frame input w' frames) {id : SendId} {rest : Message}
    (member : .sendInLoopRest c id rest ∈ frames) :
    rest.bytes ≠ [] ∧ ∃ message, frame = .sendInLoopStart c id message := by
  cases advance with
  | yes tested => cases frame <;> cases tested <;> simp at member
  | no tested _ none => cases frame <;> cases tested <;> cases none <;> simp at member
  | @call _ frame entered =>
    have enters := enter_enters entered
    cases frame <;> simp_all [Frame.enters]
  | accept | shutdown | forceCloseStore =>
    cases onLoop <;> simp [runInLoop, Task.frame] at member
  | @dispatch _ event => cases event <;> simp [callback] at member
  | handleRead ran =>
    obtain ⟨_, _, _, ⟨_, _, rfl⟩ | ⟨_, _, rfl⟩ | ⟨_, _, rfl⟩⟩ := handleRead_ok ran <;>
      simp at member
  | handleWrite _ _ ran =>
    obtain ⟨_, _, ⟨_, _, rfl⟩ | ⟨_, rfl, _⟩⟩ := handleWrite_ok ran <;> simp at member
  | @sendInLoopStart conn number message _ _ _ sent =>
    obtain ⟨answer, _, ran⟩ := sent
    obtain ⟨_, rfl⟩ := Prod.mk.inj ran
    split at member
    · simp at member
    · next nonempty =>
      have own : Frame.sendInLoopRest c id rest = .sendInLoopRest conn number
          (message.drop ((w.conns conn).nWrote (w.heap conn) answer)) := by
        split at member <;> simpa using member
      cases own
      exact ⟨nonempty, message, rfl⟩
  | _ => simp at member

theorem Step.remains_origin {action : Action impl.Answer}
    (step : Step settings impl w action w') {id : SendId} {rest : Message}
    (member : .sendInLoopRest c id rest ∈ w'.stack) :
    .sendInLoopRest c id rest ∈ w.stack ∨
      rest.bytes ≠ [] ∧ ∃ message, w.stack.head? = some (.sendInLoopStart c id message) := by
  generalize shape : Frame.sendInLoopRest c id rest = frame at member
  cases step.origin frame member with
  | kept old => exact Or.inl (shape ▸ old)
  | advanced head advance _ _ new =>
    subst shape
    obtain ⟨nonempty, message, rfl⟩ := advance.remains new
    exact Or.inr ⟨nonempty, message, head⟩
  | @started task => cases task <;> cases shape
  | dispatched | resumed | destroyed => cases shape

theorem Remains.step {action : Action impl.Answer} (remains : w.Remains)
    (step : Step settings impl w action w') : w'.Remains := by
  intro c id rest member
  rcases step.remains_origin member with old | ⟨nonempty, _⟩
  · exact remains c id rest old
  · exact nonempty

/-- Numbers of sends are given out once. -/
structure Numbered (w : World σ) : Prop where
  carried : ∀ p ∈ w.carried, ∃ message, .accepted p.conn p.id message ∈ w.trace
  accepted : ∀ c id message, .accepted c id message ∈ w.trace → id < w.nextSend
  handed : ∀ c id, w.nextSend ≤ id → handedOver w.trace (c, id) = []

theorem Numbered.carried_lt (numbered : w.Numbered) {p : Carried} (member : p ∈ w.carried) :
    p.id < w.nextSend := by
  obtain ⟨message, accepted⟩ := numbered.carried p member
  exact numbered.accepted _ _ _ accepted

theorem handedOver_key {trace events : List Event} {key : ConnId × SendId}
    (apart : ∀ e ∈ events, e.handed key = none) :
    handedOver (trace ++ events) key = handedOver trace key := by
  have none : handedOver events key = [] := by
    rw [handedOver, List.filterMap_eq_nil_iff.mpr apart, List.flatten_nil]
  rw [handedOver_append, none, List.append_nil]

/-- What a step hands over belongs to the message that it moves. -/
theorem Handles.handed {next : SendId} (handles : Handles w next old new events)
    {key : ConnId × SendId} (other : ∀ p, old = some p → (p.conn, p.id) ≠ key) :
    ∀ e ∈ events, e.handed key = none := by
  cases handles with
  | idle silent =>
    intro e member
    exact Event.handed_silent (silent e member) key
  | accept => simp [Event.handed]
  | write | append => simp [Event.handed, other _ rfl]
  | move | drop | skip => simp

theorem Handles.next_le {next : SendId} (handles : Handles w next old new events) :
    w.nextSend ≤ next := by
  cases handles with
  | accept _ grown => exact grown ▸ Nat.le_succ _
  | idle _ same | move same | drop _ same | skip _ same | write _ same | append same =>
    exact same.ge

/-- A message that is accepted gets the next number. -/
theorem Handles.accepted {next : SendId} (handles : Handles w next old new events) {id : SendId}
    {message : Message} (member : .accepted c id message ∈ events) :
    w.state c = .kConnected ∧ id = w.nextSend ∧ next = w.nextSend + 1 ∧
      old = none ∧ new = some ⟨c, id, message⟩ := by
  cases handles with
  | idle silent => cases silent _ member
  | accept open_ grown =>
    cases List.mem_singleton.mp member
    exact ⟨open_, rfl, grown, rfl, rfl⟩
  | write | append => simp at member
  | move | drop | skip => cases member

/-- What is on its way after a step was on its way, or is accepted in it. -/
theorem Handles.origin {next : SendId} (handles : Handles w next old new events) {p : Carried}
    (own : new = some p) : (∃ q, old = some q ∧ q.conn = p.conn ∧ q.id = p.id ∧
      ∃ part, part ++ p.message.bytes = q.message.bytes) ∨
        .accepted p.conn p.id p.message ∈ events := by
  cases handles with
  | idle | drop | skip | append => cases own
  | accept =>
    cases own
    exact Or.inr List.mem_cons_self
  | move =>
    cases own
    exact Or.inl ⟨_, rfl, rfl, rfl, [], rfl⟩
  | write parts =>
    split at own <;> cases own
    exact Or.inl ⟨_, rfl, rfl, rfl, _, parts⟩

theorem Sends.old_mem {answer : Type} {action : Action answer}
    (sends : Sends w action w' old new events) {p : Carried} (own : old = some p) :
    p ∈ w.carried := by
  obtain ⟨kept, before, _⟩ := sends.others
  exact before.mem_iff.mpr (by simp [own])

theorem Sends.carried_origin {answer : Type} {action : Action answer}
    (sends : Sends w action w' old new events) {p : Carried} (member : p ∈ w'.carried) :
    p ∈ w.carried ∨ new = some p := by
  obtain ⟨kept, before, after⟩ := sends.others
  rcases List.mem_append.mp (after.mem_iff.mp member) with own | kept
  · exact Or.inr (Option.mem_toList.mp own)
  · exact Or.inl (before.mem_iff.mpr (List.mem_append_right _ kept))

theorem Numbered.step {answer : Type} {action : Action answer} (numbered : w.Numbered)
    (sends : Sends w action w' old new events) : w'.Numbered where
  carried p member := by
    rw [sends.trace]
    rcases sends.carried_origin member with old | own
    · obtain ⟨message, accepted⟩ := numbered.carried p old
      exact ⟨message, List.mem_append_left _ accepted⟩
    · rcases sends.handles.origin own with ⟨q, before, conn, id, _⟩ | accepted
      · obtain ⟨message, accepted⟩ := numbered.carried q (sends.old_mem before)
        exact ⟨message, List.mem_append_left _ (conn ▸ id ▸ accepted)⟩
      · exact ⟨p.message, List.mem_append_right _ accepted⟩
  accepted c id message member := by
    rw [sends.trace] at member
    rcases List.mem_append.mp member with old | new
    · exact lt_of_lt_of_le (numbered.accepted c id message old) sends.handles.next_le
    · obtain ⟨_, rfl, grown, _⟩ := sends.handles.accepted new
      exact grown ▸ Nat.lt_succ_self _
  handed c id beyond := by
    have later : w.nextSend ≤ id := le_trans sends.handles.next_le beyond
    rw [sends.trace, handedOver_key (sends.handles.handed fun p own same => ?_)]
    · exact numbered.handed c id later
    · have known := numbered.carried_lt (sends.old_mem own)
      have equal : p.id = id := congrArg Prod.snd same
      exact absurd (equal ▸ known) (Nat.not_lt.mpr later)

/-- The accepted bytes of a send. -/
def Due (w : World σ) (key : ConnId × SendId) (bytes : Bytes) : Prop :=
  ∃ message, .accepted key.1 key.2 message ∈ w.trace ∧ message.bytes = bytes

/-- The account of all sends: what was promised, what was handed over, what is on its
way; only a connection that went down drops messages. -/
def Ledger (w : World σ) : Prop :=
  Balanced w.Due (handedOver w.trace)
    (w.carried.map fun p => ((p.conn, p.id), p.message.bytes)) fun key => .down key.1 ∈ w.trace

theorem due_append (trace : w'.trace = w.trace ++ events)
    (none : ∀ c id message, .accepted c id message ∉ events) (key : ConnId × SendId)
    (bytes : Bytes) (due : w'.Due key bytes) : w.Due key bytes := by
  obtain ⟨message, member, same⟩ := due
  rw [trace, List.mem_append] at member
  exact ⟨message, member.resolve_right (none _ _ _), same⟩

/-- No message on its way has the next number. -/
theorem Numbered.fresh (numbered : w.Numbered) (c : ConnId) {kept : List Carried}
    (carried : ∀ p ∈ kept, p ∈ w.carried) :
    (c, w.nextSend) ∉ (kept.map fun p => ((p.conn, p.id), p.message.bytes)).map Prod.fst := by
  intro member
  obtain ⟨_, listed, same⟩ := List.mem_map.mp member
  obtain ⟨p, present, rfl⟩ := List.mem_map.mp listed
  have known := numbered.carried_lt (carried p present)
  have equal : p.id = w.nextSend := congrArg Prod.snd same
  exact absurd known (by simp [equal])

/-- The accepted message is due under the next number, the others as before. -/
theorem due_accepted (numbered : w.Numbered) {c : ConnId} {message : Message}
    (trace : w'.trace = w.trace ++ [.accepted c w.nextSend message]) (key : ConnId × SendId)
    (bytes : Bytes) (due : w'.Due key bytes) :
    w.Due key bytes ∧ key ≠ (c, w.nextSend) ∨
      key = (c, w.nextSend) ∧ bytes = message.bytes := by
  obtain ⟨message', member, rfl⟩ := due
  rw [trace, List.mem_append, List.mem_singleton] at member
  rcases member with old | new
  · refine Or.inl ⟨⟨message', old, rfl⟩, fun same => ?_⟩
    have known := numbered.accepted _ _ _ old
    have equal : key.2 = w.nextSend := congrArg Prod.snd same
    exact absurd known (by simp [equal])
  · obtain ⟨conn, number, rfl⟩ := Event.accepted.inj new
    exact Or.inr ⟨Prod.ext conn number, rfl⟩

/-- An event that hands over bytes of one send pays for no other. -/
theorem handedOver_one {e : Event} {key : ConnId × SendId} {bytes : Bytes}
    (hands : ∀ other, e.handed other = if key = other then some bytes else none)
    (trace : w'.trace = w.trace ++ [e]) :
    handedOver w'.trace key = handedOver w.trace key ++ bytes ∧
      ∀ other, other ≠ key → handedOver w'.trace other = handedOver w.trace other := by
  have added (other : ConnId × SendId) :
      handedOver w'.trace other = handedOver w.trace other ++ (e.handed other).toList.flatten := by
    rw [trace, handedOver_append]
    cases taken : e.handed other <;> simp [handedOver, taken]
  refine ⟨?_, fun other apart => ?_⟩
  · rw [added key, hands key, if_pos rfl]
    simp
  · rw [added other, hands other, if_neg apart.symm]
    simp

theorem Ledger.step {answer : Type} {action : Action answer} (ledger : w.Ledger)
    (numbered : w.Numbered) (downs : ∀ c, w.state c = .kDisconnected → .down c ∈ w.trace)
    (sends : Sends w action w' old new events) : w'.Ledger := by
  obtain ⟨kept, before, after⟩ := sends.others
  have trace := sends.trace
  have more : ∀ key : ConnId × SendId, .down key.1 ∈ w.trace → .down key.1 ∈ w'.trace :=
    fun key member => trace ▸ List.mem_append_left _ member
  have still (none : ∀ key, handedOver events key = []) (key : ConnId × SendId) :
      handedOver w'.trace key = handedOver w.trace key := by
    rw [trace, handedOver_append, none, List.append_nil]
  have balanced := Balanced.perm ledger (before.map fun p => ((p.conn, p.id), p.message.bytes))
  refine Balanced.perm ?_ (after.map fun p => ((p.conn, p.id), p.message.bytes)).symm
  cases sends.handles with
  | idle silent =>
    exact balanced.mono (due_append trace fun c id message member => by cases silent _ member)
      (still (handedOver_silent silent)) more
  | @accept c message =>
    have unpaid := numbered.handed c w.nextSend (Nat.le_refl _)
    have fresh : (c, w.nextSend) ∉ (kept.map fun p => ((p.conn, p.id), p.message.bytes)).map
        Prod.fst :=
      numbered.fresh c fun p present => before.mem_iff.mpr (List.mem_append_right _ present)
    have entered := balanced.enter fresh unpaid (due_accepted numbered trace)
    exact entered.mono (fun _ _ due => due) (still fun key => rfl) more
  | move =>
    exact balanced.mono (due_append trace (by simp)) (still fun key => rfl) more
  | @drop p closed =>
    have forgiven := balanced.forgive (downs p.conn closed)
    exact forgiven.mono (due_append trace (by simp)) (still fun key => rfl) more
  | @skip p empty =>
    rw [Option.toList_some, List.singleton_append, List.map_cons, empty] at balanced
    exact balanced.close.mono (due_append trace (by simp)) (still fun key => rfl) more
  | @write p taken rest parts =>
    rw [Option.toList_some, List.singleton_append, List.map_cons, ← parts] at balanced
    obtain ⟨own, apart⟩ := handedOver_one (fun key => rfl) trace
    have paid := (balanced.mono (due_append trace (by simp)) (fun _ => rfl) more).pay own apart
    split
    · next none =>
      rw [none] at paid
      exact paid.close
    · exact paid
  | @append p =>
    rw [Option.toList_some, List.singleton_append, List.map_cons,
      ← List.append_nil p.message.bytes] at balanced
    obtain ⟨own, apart⟩ := handedOver_one (fun key => rfl) trace
    exact ((balanced.mono (due_append trace (by simp)) (fun _ => rfl) more).pay own apart).close

/-- A closed connection has had its down callback. -/
def Downed (w : World σ) : Prop := ∀ c, w.state c = .kDisconnected → .down c ∈ w.callbacks

theorem Downed.step {action : Action impl.Answer} (downed : w.Downed)
    (step : Step settings impl w action w') : w'.Downed := by
  intro c closed
  rw [step.callbacks, List.mem_append]
  rcases step.state with ⟨same, _⟩ | ⟨frame, c', s, runs, stores, changed⟩
  · exact Or.inl (downed c (same ▸ closed))
  · rw [changed] at closed
    split at closed
    · next own =>
      subst own
      refine Or.inr ?_
      rw [newCallbacks, runs]
      cases stores with
      | handleClose | connectDestroyed => exact List.mem_cons_self
      | shutdown | forceClose | connectEstablished => cases closed
    · exact Or.inl (downed c closed)

theorem Downed.trace (downed : w.Downed) (closed : w.state c = .kDisconnected) :
    .down c ∈ w.trace :=
  (List.mem_filter.mp (downed c closed)).1

/-- On a connection that is not down, what was handed over has been taken by the
kernel, or waits in `output_buffer_`; the channel watches writability exactly then. -/
def Streaming (w : World σ) : Prop :=
  ∀ c, .down c ∉ w.trace →
    Outgoing (w.conns c).outputBuffer (w.heap c).isWriting ∧
      Carries (pieces w.trace c) (acceptedBytes w.trace c ++ (w.conns c).outputBuffer.value)

theorem Streaming.step {running : Option Frame} (streaming : w.Streaming)
    (trace : w'.trace = w.trace ++ events)
    (outflow : ∀ c, Outflow w w' c running events) : w'.Streaming := by
  intro c up
  rw [trace, List.mem_append, not_or] at up
  obtain ⟨outgoing, carries⟩ := streaming c up.1
  have pieces' : pieces w'.trace c = pieces w.trace c ++ pieces events c := by
    rw [trace, pieces_append]
  have accepted' : acceptedBytes w'.trace c =
      acceptedBytes w.trace c ++ acceptedBytes events c := by
    rw [trace, acceptedBytes_append]
  cases outflow c with
  | same buffer writing apart =>
    obtain ⟨none, nothing⟩ := stream_silent apart
    rw [pieces', accepted', none, nothing, List.append_nil, List.append_nil, buffer, writing]
    exact ⟨outgoing, carries⟩
  | down _ noted => exact absurd (by simp [noted]) up.2
  | @direct id message answer _ direct buffer writing noted =>
    have empty : (w.conns c).outputBuffer.value = [] := by
      rw [TcpConnection.writesDirectly_eq outgoing] at direct
      exact of_decide_eq_true direct
    have shape : acceptedBytes w.trace c ++ message.bytes.take answer.count ++ [] =
        acceptedBytes w.trace c ++ [] ++ [] ++ message.bytes.take answer.count := by simp
    have piece : pieces events c = [message.bytes.take answer.count] := by
      simp [noted, pieces, Event.piece]
    have taken : acceptedBytes events c = message.bytes.take answer.count := by
      simp [noted, acceptedBytes, Event.taken]
    rw [pieces', accepted', piece, taken, buffer, writing]
    refine ⟨outgoing, ?_⟩
    rw [empty] at carries ⊢
    rw [shape]
    exact carries.snoc
  | @append id rest conn _ nonempty ran buffer writing noted =>
    have fit : (w.conns c).outputBuffer.Fits rest.bytes.length := by
      by_contra excess
      rw [TcpConnection.sendInLoopRest_error outgoing.wf excess (rest.fits_sum outgoing.wf)] at ran
      cases ran
    rw [TcpConnection.sendInLoopRest_ok outgoing.wf fit] at ran
    cases ran
    have piece : pieces events c = [rest.bytes] := by simp [noted, pieces, Event.piece]
    have taken : acceptedBytes events c = [] := by simp [noted, acceptedBytes, Event.taken]
    rw [pieces', accepted', piece, taken, buffer, writing, List.append_nil]
    refine ⟨outgoing.appended fit nonempty, ?_⟩
    rw [outgoing.wf.value_appended fit, ← List.append_assoc, ← List.append_assoc]
    exact carries.snoc
  | @drain answer start busy valid started buffer writing noted =>
    have shape := TcpConnection.handleWriteStart_ok outgoing.wf valid
    rw [started, Except.ok.injEq] at shape
    have piece : pieces events c = [] := by simp [noted, pieces, Event.piece]
    have taken : acceptedBytes events c = start.written := by
      simp [noted, acceptedBytes, Event.taken]
    rw [pieces', accepted', piece, taken, buffer, writing, List.append_nil]
    by_cases none : answer.count = 0
    · rw [if_pos none] at shape
      subst shape
      rw [busy] at outgoing
      rw [List.append_nil]
      exact ⟨outgoing, carries⟩
    · rw [if_neg none] at shape
      subst shape
      have retrieved := Outgoing.retrieved (busy ▸ outgoing) (n := answer.count)
      refine ⟨retrieved, ?_⟩
      rw [outgoing.wf.value_retrieved, List.append_assoc, List.take_append_drop]
      exact carries

/-- What all runs keep about sending. -/
structure Delivering (w : World σ) : Prop where
  orderly : w.Orderly
  remains : w.Remains
  numbered : w.Numbered
  downed : w.Downed
  ledger : w.Ledger
  streaming : w.Streaming

theorem start_delivering (settings : Settings) (poller : σ) :
    (start settings poller).Delivering where
  orderly := start_orderly settings poller
  remains := by simp [start, Remains]
  numbered :=
    ⟨by simp [start, World.carried, World.tasks], by simp [start], fun _ _ _ => rfl⟩
  downed c closed := by cases closed
  ledger := .empty (by simp [start, Due])
  streaming c _ := by
    have idle : ((start settings poller).heap c).isWriting = false := by
      simp [start, Channel.new, Channel.isWriting]
    rw [idle]
    exact ⟨.fresh, .nil⟩

theorem Delivering.step (delivering : w.Delivering) {mentions : σ → ChannelId → Prop}
    (lawful : impl.Lawful mentions) {action : Action impl.Answer}
    (step : Step settings impl w action w') : w'.Delivering := by
  obtain ⟨orderly, remains, numbered, downed, ledger, streaming⟩ := delivering
  obtain ⟨old, new, events, sends⟩ := step.sending
  exact ⟨step.orderly orderly, remains.step step, numbered.step sends, downed.step step,
    ledger.step numbered (fun c => downed.trace) sends,
    streaming.step sends.trace (step.outflow lawful orderly remains sends.trace)⟩

end World

end Muduo.Source
