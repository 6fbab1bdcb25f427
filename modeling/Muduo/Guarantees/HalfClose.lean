import Muduo.Source.ReactorDelivery

/-!
# A half-close and the messages before it

`shutdownInLoop` looks at the write interest only. A message that is still in a
functor, about to be queued, or inside a `sendInLoop` is overtaken by it: the
half-close is issued and the message written afterwards. When none is on its way,
all accepted messages have been taken by the kernel and nothing follows.
-/
namespace Muduo.Guarantees
open Muduo.Support Muduo.Source Muduo.Source.World

variable {σ : Type} {settings : Settings} {impl : Polling σ} {w w' : World σ} {c : ConnId}
  {old new : Option Carried} {events : List Event}

/-- The event takes bytes of a message to `::write` or to `output_buffer_`. -/
def sendsBytes (c : ConnId) : Event → Bool
  | .write c' _ requested _ => c' == c && requested != []
  | .append c' _ data => c' == c && data != []
  | _ => false

/-- Nothing is sent after a half-close, and before one, unless the connection went down,
every accepted message was handed over, all of it to the kernel. -/
def NotCutOff (trace : List Event) : Prop :=
  ∀ c before after, trace = before ++ .shutdownWrite c :: after →
    (∀ e ∈ after, sendsBytes c e = false) ∧
      (.down c ∉ before → Support.Carries (pieces before c) (acceptedBytes before c) ∧
        ∀ id message, .accepted c id message ∈ before →
          handedOver before (c, id) = message.bytes)

/-- Nothing that was accepted on the connection is on its way, but for empty messages. -/
def Settled (w : World σ) (c : ConnId) : Prop :=
  ∀ p ∈ w.carried, p.conn = c → p.message.bytes = []

instance (w : World σ) (c : ConnId) : Decidable (Settled w c) := by
  unfold Settled; infer_instance

/-- The step issues no half-close in front of a message on its way, and no late store
revives a connection with such a message after its half-close. -/
def InOrder {answer : Type} (w : World σ) (action : Action answer) : Prop :=
  match w.running action with
  | some (.shutdownInLoop c) =>
    (w.heap c).isWriting = true ∨ w.state c = .kDisconnected ∨ Settled w c
  | some (.forceCloseStore c) =>
    w.state c ≠ .kDisconnected ∨ .shutdownWrite c ∉ w.trace ∨ Settled w c
  | _ => True

instance {answer : Type} (w : World σ) (action : Action answer) :
    Decidable (InOrder w action) := by
  delta InOrder
  rcases w.running action with _ | frame
  · infer_instance
  · induction frame using Frame.casesOn <;> infer_instance

theorem notCutOff_append {trace : List Event} (few : events.length ≤ 1)
    (before : NotCutOff trace)
    (silent : ∀ c, .shutdownWrite c ∈ trace → ∀ e ∈ events, sendsBytes c e = false)
    (whole : ∀ c, .shutdownWrite c ∈ events → .down c ∉ trace →
      Support.Carries (pieces trace c) (acceptedBytes trace c) ∧
        ∀ id message, .accepted c id message ∈ trace → handedOver trace (c, id) = message.bytes) :
    NotCutOff (trace ++ events) := by
  match events, few with
  | [], _ => rwa [List.append_nil]
  | [event], _ =>
    intro c first last split
    rcases List.eq_nil_or_concat last with rfl | ⟨last, e, rfl⟩
    · obtain ⟨rfl, same⟩ := List.append_inj' split rfl
      refine ⟨by simp, whole c ?_⟩
      simpa using (List.cons.inj same).1.symm
    · have split : trace ++ [event] = (first ++ .shutdownWrite c :: last) ++ [e] := by
        simpa using split
      obtain ⟨rfl, same⟩ := List.append_inj' split rfl
      obtain ⟨later, full⟩ := before c first last rfl
      refine ⟨fun e' member => ?_, full⟩
      rw [List.concat_eq_append, List.mem_append] at member
      rcases member with old | new
      · exact later e' old
      · exact silent c (by simp) e' (same ▸ new)

/-- `send` accepts nothing any more. -/
def Leaving (w : World σ) (c : ConnId) : Prop :=
  w.state c = .kDisconnecting ∨ w.state c = .kDisconnected

theorem Leaving.step (orderly : w.Orderly) {action : Action impl.Answer} (leaving : Leaving w c)
    (step : Step settings impl w action w') : Leaving w' c := by
  rcases step.state with ⟨same, _⟩ | ⟨frame, c', s, runs, stores, changed⟩
  · rwa [Leaving, same]
  · rw [Leaving, changed]
    split
    · next own =>
      subst own
      cases stores with
      | shutdown | forceClose => exact Or.inl rfl
      | handleClose | connectDestroyed => exact Or.inr rfl
      | connectEstablished =>
        have known : w.state c = .kConnecting := orderly.running_knows runs
        rcases leaving with state | state <;> cases known.symm.trans state
    · exact leaving

/-- Frames that run `shutdownInLoop`, or are about to queue it. -/
def halfCloses : Frame → Option ConnId
  | .shutdownInLoop c => some c
  | .post (.shutdownInLoop c) => some c
  | _ => none

theorem halfCloses_of_enters {frame : Frame} (enters : frame.enters = true) :
    halfCloses frame = none := by
  cases frame with
  | post task => cases task <;> first | rfl | cases enters
  | _ => first | rfl | cases enters

theorem follows_halfCloses {onLoop : Bool} {frame : Frame} {frames : List Frame}
    (follows : Follows onLoop frame frames) : ∀ other ∈ frames, halfCloses other = some c →
      frame = .shutdown c ∨ frame = .handleWriteState c := by
  intro other member halves
  cases follows.leads member with
  | call enters => cases (halfCloses_of_enters enters).symm.trans halves
  | shutdownNow | shutdownLater => exact Or.inl (congrArg Frame.shutdown (Option.some.inj halves))
  | shutdownDrained => exact Or.inr (congrArg Frame.handleWriteState (Option.some.inj halves))
  | _ => cases halves

/-- A half-close is begun in `kDisconnecting`. -/
theorem advance_halfCloses {onLoop : Bool} {frame : Frame} {input : Input} {frames : List Frame}
    (advance : Advance settings impl onLoop w frame input w' frames) {other : Frame}
    (member : other ∈ frames) (begins : halfCloses other = some c) :
    w'.state c = .kDisconnecting := by
  rcases follows_halfCloses advance.follows other member begins with rfl | rfl
  · cases advance with
    | yes tested | no tested => cases tested
    | shutdown => rw [state_setState, if_pos rfl]
    | shutdownLate => cases member
  · cases advance with
    | yes tested same =>
      cases tested
      exact same
    | no tested _ none =>
      cases tested
      cases none
      cases member

/-- The half-closes to come; one that a callback makes is made in `kDisconnecting`. -/
structure HalfClosing (w : World σ) : Prop where
  frames : ∀ frame c, frame ∈ w.stack ∨ frame ∈ w.others → halfCloses frame = some c → Leaving w c
  tasks : ∀ c, .shutdownInLoop c ∈ w.tasks → Leaving w c
  nested : ∀ c rest, w.stack = .shutdownInLoop c :: rest → rest = [] ∨ w.state c ≠ .kDisconnected

theorem start_halfClosing (settings : Settings) (poller : σ) :
    HalfClosing (start settings poller) where
  frames := by simp [start]
  tasks := by simp [start, World.tasks]
  nested := by simp [start]

/-- The loop thread stays where it is, and no connection is closed. -/
theorem nested_kept (halfClosing : HalfClosing w) (stack : w'.stack = w.stack)
    (unclosed : w'.state c = .kDisconnected → w.state c = .kDisconnected) {rest : List Frame}
    (top : w'.stack = .shutdownInLoop c :: rest) : rest = [] ∨ w'.state c ≠ .kDisconnected :=
  (halfClosing.nested c rest (stack ▸ top)).imp_right fun open_ closed => open_ (unclosed closed)

theorem HalfClosing.step (halfClosing : HalfClosing w) (orderly : w.Orderly)
    {action : Action impl.Answer} (step : Step settings impl w action w') : HalfClosing w' where
  frames frame c member begins := by
    rcases member with member | member
    · cases step.origin frame member with
      | kept old => exact (halfClosing.frames frame c (Or.inl old) begins).step orderly step
      | advanced _ advance _ conns new =>
        have state := advance_halfCloses advance new begins
        exact Or.inl (by rwa [World.state, conns] at state)
      | @started task listed =>
        cases task <;> cases begins
        exact (halfClosing.tasks c listed).step orderly step
      | dispatched | resumed | destroyed => cases begins
    · rcases step.others_origin member with old | enters | ⟨_, v, _, _, advance, conns, new⟩
      · exact (halfClosing.frames frame c (Or.inr old) begins).step orderly step
      · cases (halfCloses_of_enters enters).symm.trans begins
      · have state := advance_halfCloses advance new begins
        exact Or.inl (by rwa [World.state, conns] at state)
  tasks c member := by
    rcases step.tasks_origin _ member with old | posted | ⟨_, _, same⟩ | ⟨_, same⟩ | ⟨_, _, same⟩
    · exact (halfClosing.tasks c old).step orderly step
    · exact (halfClosing.frames _ c (running_mem posted) rfl).step orderly step
    · cases same
    · cases same
    · cases same
  nested c rest top := by
    cases step with
    | @loop frame below frames input v stack advance =>
      cases frames with
      | nil =>
        -- a frame that waits has come to the top
        have waits := orderly.waiting (.shutdownInLoop c) (by simp_all)
        cases waits
      | cons first frames =>
        obtain ⟨rfl, _⟩ := List.cons.inj top
        have state : v.state c = .kDisconnecting :=
          advance_halfCloses advance List.mem_cons_self rfl
        refine Or.inr fun closed => ?_
        cases state.symm.trans closed
    | @other frame before after frames v others advance =>
      have running := show frame ∈ w.others by simp [others]
      refine nested_kept halfClosing advance.control.stack (fun closed => ?_) top
      rcases advance.foreign_state (orderly.calling frame running) (orderly.heard frame running) c
        with same | ⟨_, leaving⟩
      · exact same.symm.trans closed
      · cases leaving.symm.trans closed
    | dispatch => cases (List.cons.inj top).1
    | start => exact Or.inl (List.cons.inj top).2.symm
    | destroy => cases (List.cons.inj top).1
    | swap | again | poll | call | connectElsewhere | removeElsewhere | destroyElsewhere
    | destruct => exact nested_kept halfClosing rfl id top

/-- After a half-close: nothing of the connection waits to be written, or will be. -/
structure HalfClosed (w : World σ) (c : ConnId) : Prop where
  leaving : Leaving w c
  idle : (w.heap c).isWriting = false
  settled : Settled w c ∨
    w.state c = .kDisconnected ∧ ∀ id rest, .sendInLoopRest c id rest ∉ w.stack

theorem carried_of_running {answer : Type} {action : Action answer} {frame : Frame}
    (runs : w.running action = some frame) {p : Carried} (carries : frame.carries = some p) :
    p ∈ w.carried := by
  simp only [carried, List.mem_append, List.mem_filterMap]
  rcases running_mem runs with member | member
  · exact Or.inl (Or.inr ⟨frame, member, carries⟩)
  · exact Or.inr ⟨frame, member, carries⟩

/-- No remainder is appended after a half-close. -/
theorem HalfClosed.no_rest (halfClosed : HalfClosed w c) (orderly : w.Orderly)
    (remains : w.Remains) {action : Action impl.Answer} {id : SendId} {rest : Message} :
    w.running action ≠ some (.sendInLoopRest c id rest) := by
  intro runs
  have present := List.mem_of_mem_head? (orderly.running_head runs rfl)
  rcases halfClosed.settled with settled | ⟨_, none⟩
  · exact remains c id rest present (settled _ (carried_of_running runs rfl) rfl)
  · exact none id rest present

theorem HalfClosed.silent (halfClosed : HalfClosed w c) (orderly : w.Orderly)
    (remains : w.Remains) {action : Action impl.Answer}
    (outflow : Outflow w w' c (w.running action) events) :
    ∀ e ∈ events, sendsBytes c e = false := by
  cases outflow with
  | same _ _ apart =>
    intro e member
    have quiet := apart e member
    cases e <;> simp_all [sendsBytes, Event.streams]
  | down _ noted => simp [noted, sendsBytes]
  | @direct id message _ runs _ _ _ noted =>
    have unclosed : w.state c ≠ .kDisconnected := orderly.running_knows runs
    have settled := halfClosed.settled.resolve_right fun closed => unclosed closed.1
    have empty : message.bytes = [] := settled _ (carried_of_running runs rfl) rfl
    simp [noted, sendsBytes, empty]
  | append runs => exact absurd runs (halfClosed.no_rest orderly remains)
  | drain busy => cases halfClosed.idle.symm.trans busy

theorem settled_step {answer : Type} {action : Action answer} (settled : Settled w c)
    (leaving : Leaving w c) (sends : Sends w action w' old new events) : Settled w' c := by
  intro p member own
  rcases sends.carried_origin member with before | moved
  · exact settled p before own
  · rcases sends.handles.origin moved with ⟨q, before, conn, _, part, parts⟩ | accepted
    · have empty := settled q (sends.old_mem before) (conn.trans own)
      rw [empty] at parts
      exact (List.append_eq_nil_iff.mp parts).2
    · have open_ := (sends.handles.accepted accepted).1
      rw [own] at open_
      rcases leaving with state | state <;> cases open_.symm.trans state

/-- A half-close stays the end of the stream, along steps in order. -/
theorem HalfClosed.step (halfClosed : HalfClosed w c) (orderly : w.Orderly) (remains : w.Remains)
    {action : Action impl.Answer} (inOrder : InOrder w action)
    (shut : w.running action = some (.forceCloseStore c) → .shutdownWrite c ∈ w.trace)
    (step : Step settings impl w action w') (sends : Sends w action w' old new events)
    (outflow : Outflow w w' c (w.running action) events) : HalfClosed w' c where
  leaving := halfClosed.leaving.step orderly step
  idle := by
    cases outflow with
    | same _ writing => exact writing.trans halfClosed.idle
    | down idle => exact idle
    | direct _ _ _ writing => exact writing.trans halfClosed.idle
    | append runs => exact absurd runs (halfClosed.no_rest orderly remains)
    | drain busy => cases halfClosed.idle.symm.trans busy
  settled := by
    rcases halfClosed.settled with settled | ⟨closed, none⟩
    · exact Or.inl (settled_step settled halfClosed.leaving sends)
    · by_cases stays : w'.state c = .kDisconnected
      · refine Or.inr ⟨stays, fun id rest member => ?_⟩
        rcases step.remains_origin member with before | ⟨_, message, head⟩
        · exact none id rest before
        · exact orderly.knows _ (List.mem_of_mem_head? head) closed
      · refine Or.inl (settled_step ?_ halfClosed.leaving sends)
        -- only the late store of a `forceClose` revives the connection
        rcases step.state with ⟨same, _⟩ | ⟨frame, c', s, runs, stores, changed⟩
        · exact absurd (same ▸ closed) stays
        · rw [changed] at stays
          split at stays
          · next own =>
            subst own
            have known := orderly.running_knows runs
            cases stores with
            | shutdown open_ => cases closed.symm.trans open_
            | forceClose =>
              simp only [InOrder, runs] at inOrder
              exact (inOrder.resolve_left (fun open_ => open_ closed)).resolve_left
                fun absent => absent (shut runs)
            | connectEstablished => cases closed.symm.trans known
            | handleClose | connectDestroyed => exact absurd rfl stays
          · exact absurd closed stays

/-- What runs in order keep. -/
structure Ordered (w : World σ) : Prop where
  delivering : w.Delivering
  halfClosing : HalfClosing w
  closed : ∀ c, .shutdownWrite c ∈ w.trace → HalfClosed w c
  notCutOff : NotCutOff w.trace

theorem start_ordered (settings : Settings) (poller : σ) : Ordered (start settings poller) where
  delivering := start_delivering settings poller
  halfClosing := start_halfClosing settings poller
  closed := by simp [start]
  notCutOff := by simp [start, NotCutOff]

/-- At a half-close in order the stream ends. -/
theorem Ordered.closing (ordered : Ordered w) {action : Action impl.Answer}
    (inOrder : InOrder w action) (runs : w.running action = some (.shutdownInLoop c))
    (idle : (w.heap c).isWriting = false) : HalfClosed w c := by
  have head := ordered.delivering.orderly.running_head runs rfl
  have present := List.mem_of_mem_head? head
  refine ⟨ordered.halfClosing.frames _ c (Or.inl present) rfl, idle, ?_⟩
  simp only [InOrder, runs] at inOrder
  rcases inOrder with busy | closed | settled
  · cases idle.symm.trans busy
  · obtain ⟨rest, stack⟩ := List.head?_eq_some_iff.mp head
    rcases ordered.halfClosing.nested c rest stack with rfl | unclosed
    · exact Or.inr ⟨closed, by simp [stack]⟩
    · exact absurd closed unclosed
  · exact Or.inl settled

/-- Then every accepted message has been taken by the kernel. -/
theorem Ordered.whole (ordered : Ordered w) (halfClosed : HalfClosed w c)
    (up : .down c ∉ w.trace) :
    Support.Carries (pieces w.trace c) (acceptedBytes w.trace c) ∧
      ∀ id message, .accepted c id message ∈ w.trace →
        handedOver w.trace (c, id) = message.bytes := by
  obtain ⟨outgoing, carries⟩ := ordered.delivering.streaming c up
  have unclosed : w.state c ≠ .kDisconnected := fun closed =>
    up (ordered.delivering.downed.trace closed)
  have settled := halfClosed.settled.resolve_right fun closed => unclosed closed.1
  have empty : (w.conns c).outputBuffer.value = [] := by
    by_contra waiting
    cases halfClosed.idle.symm.trans (outgoing.interest.mpr waiting)
  refine ⟨by rwa [empty, List.append_nil] at carries, fun id message accepted => ?_⟩
  have ledger : Balanced .. := ordered.delivering.ledger
  have due : w.Due (c, id) message.bytes := ⟨message, accepted, rfl⟩
  by_cases waits : (c, id) ∈ (w.carried.map fun p => ((p.conn, p.id), p.message.bytes)).map Prod.fst
  · obtain ⟨⟨key, rest⟩, listed, rfl⟩ := List.mem_map.mp waits
    obtain ⟨p, member, same⟩ := List.mem_map.mp listed
    obtain ⟨key, rfl⟩ := Prod.mk.inj same
    have owed := ledger.owed _ _ listed _ due
    rwa [settled p member (congrArg Prod.fst key), List.append_nil] at owed
  · exact (ledger.settled _ _ due waits).resolve_right up

theorem Ordered.step (ordered : Ordered w) {mentions : σ → ChannelId → Prop}
    (lawful : impl.Lawful mentions) {action : Action impl.Answer} (inOrder : InOrder w action)
    (step : Step settings impl w action w') : Ordered w' := by
  have orderly := ordered.delivering.orderly
  have remains := ordered.delivering.remains
  obtain ⟨old, new, events, sends⟩ := step.sending
  have outflow := step.outflow lawful orderly remains sends.trace
  refine ⟨ordered.delivering.step lawful step, ordered.halfClosing.step orderly step,
    fun c member => ?_, ?_⟩
  · rw [sends.trace, List.mem_append] at member
    have before : HalfClosed w c ∧
        (w.running action = some (.forceCloseStore c) → .shutdownWrite c ∈ w.trace) := by
      rcases member with before | now
      · exact ⟨ordered.closed c before, fun _ => before⟩
      · obtain ⟨runs, idle⟩ := sends.shut c now
        refine ⟨ordered.closing inOrder runs idle, fun other => ?_⟩
        cases runs.symm.trans other
    exact before.1.step orderly remains inOrder before.2 step sends (outflow c)
  · rw [sends.trace]
    refine notCutOff_append sends.few ordered.notCutOff
      (fun c before => (ordered.closed c before).silent orderly remains (outflow c))
      fun c now => ?_
    obtain ⟨runs, idle⟩ := sends.shut c now
    exact ordered.whole (ordered.closing inOrder runs idle)

theorem ordered_of_run {mentions : σ → ChannelId → Prop} (lawful : impl.Lawful mentions) {poller : σ}
    {actions : List (Action impl.Answer)}
    (run : Run (Guarded InOrder (Graph (step settings impl))) (start settings poller) actions w) :
    Ordered w :=
  run.invariant (start_ordered settings poller) fun _ _ _ ordered taken =>
    ordered.step lawful taken.1 (step_ok taken.2)

/-- A half-close out of order is issued before a message that is still to be sent. -/
theorem cutOff_of_overtaken (delivering : w.Delivering) {action : Action impl.Answer}
    (ran : w.step settings impl action = .ok w')
    (runs : w.running action = some (.shutdownInLoop c)) (overtakes : ¬ InOrder w action)
    (up : .down c ∉ w.trace) : ¬ NotCutOff w'.trace := by
  intro notCutOff
  simp only [InOrder, runs, not_or] at overtakes
  obtain ⟨idle, _, unsettled⟩ := overtakes
  have trace : w'.trace = w.trace ++ [.shutdownWrite c] := by
    obtain ⟨_, _, _, _, stack, advance, rfl⟩ := (step_ok ran).on_loop delivering.orderly runs rfl
    cases advance with
    | yes tested | no tested => cases tested
    | shutdownDeferred busy => exact absurd busy idle
    | shutdownWrite => rfl
  obtain ⟨p, member, own, nonempty⟩ : ∃ p ∈ w.carried, p.conn = c ∧ p.message.bytes ≠ [] := by
    simpa [Settled] using unsettled
  obtain ⟨message, accepted⟩ := delivering.numbered.carried p member
  have ledger : Balanced .. := delivering.ledger
  have owed := ledger.owed _ _ (List.mem_map.mpr ⟨p, member, rfl⟩) _ ⟨message, accepted, rfl⟩
  have whole := ((notCutOff c w.trace [] trace).2 up).2 p.id message (own ▸ accepted)
  rw [own, whole] at owed
  exact nonempty (List.append_right_eq_self.mp owed)

/-- For any connections, threads, calls and answers: along steps in order no message is
cut off. A half-close that is not in order, on a connection that is not down, cuts one
off at once. -/
theorem half_close_exact (kind : PollerKind) (settings : Settings)
    (actions : List (Action kind.polling.Answer)) (w : World kind.State)
    (run : Run (Guarded InOrder (Graph (step settings kind.polling))) (start settings kind.new)
      actions w) :
    NotCutOff w.trace ∧
      ∀ action c w', w.step settings kind.polling action = .ok w' →
        w.running action = some (.shutdownInLoop c) → ¬ InOrder w action → .down c ∉ w.trace →
        ¬ NotCutOff w'.trace := by
  have ordered := ordered_of_run kind.lawful run
  exact ⟨ordered.notCutOff, fun action c w' ran runs overtakes up =>
    cutOff_of_overtaken ordered.delivering ran runs overtakes up⟩

/-- The loop thread sends a byte, which the kernel takes, and shuts down. -/
def sentThenShut : List (Action KqueueSystem.polling.Answer) :=
  PollerKind.opening none 5 ++
    [.loop (.call (.send 5 ⟨[97], Message.byte_le⟩)), .loop .none, .loop .none,
      .loop (.write (.accepted 1)), .loop (.call (.shutdown 5)), .loop .none, .loop .none]

theorem half_close_exact_sent_then_shut :
    ∃ w, Run (Guarded InOrder (Graph (step PollerKind.exampleSettings KqueueSystem.polling)))
        (start PollerKind.exampleSettings .new) sentThenShut w ∧
      .shutdownWrite 5 ∈ w.trace ∧ NotCutOff w.trace := by
  have ends : endsIn InOrder (step PollerKind.exampleSettings KqueueSystem.polling)
      Fault.notEnabled (start PollerKind.exampleSettings .new) sentThenShut
      (fun w => decide (.shutdownWrite 5 ∈ w.trace)) = true := by
    decide +kernel
  obtain ⟨w, run, shut⟩ := run_of_endsIn _ _ ends
  exact ⟨w, run, of_decide_eq_true shut, (half_close_exact .kqueue _ _ w run).1⟩

/-- Another thread's `send` has returned, its functor is queued; then the loop thread
shuts down inside a callback. -/
def queuedThenShut : List (Action KqueueSystem.polling.Answer) :=
  PollerKind.opening none 5 ++
    [.call (.send 5 ⟨[97], Message.byte_le⟩), .other 0, .other 0,
      .loop (.call (.shutdown 5)), .loop .none, .loop .none,
      .loop .return, .loop .return, .loop .none, .poll none, .loop .none, .loop .none,
      .loop .none, .loop (.write .failed)]

/-- `::write` is called for the byte after the half-close, and the kernel refuses it. -/
theorem queued_send_cut_off :
    ∃ w, Run (Graph (step PollerKind.exampleSettings KqueueSystem.polling))
        (start PollerKind.exampleSettings .new) queuedThenShut w ∧
      ¬ NotCutOff w.trace := by
  have ends : endsIn (fun _ _ => True) (step PollerKind.exampleSettings KqueueSystem.polling)
      Fault.notEnabled (start PollerKind.exampleSettings .new) queuedThenShut
      (fun w => decide (w.trace = [.up 5, .accepted 5 0 ⟨[97], Message.byte_le⟩] ++
        .shutdownWrite 5 :: [.write 5 (some 0) [97] []])) = true := by
    decide +kernel
  obtain ⟨w, run, ended⟩ := run_of_endsIn _ _ ends
  refine ⟨w, run.unguarded, fun notCutOff => ?_⟩
  have later := (notCutOff _ _ _ (of_decide_eq_true ended)).1 _ (List.mem_singleton.mpr rfl)
  cases later

end Muduo.Guarantees
