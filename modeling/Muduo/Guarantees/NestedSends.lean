import Muduo.Source.NestedSending
import Muduo.Guarantees.OutgoingStream

/-!
# The order of nested sends

The high-water callback runs between the `::write` of a `sendInLoop` and the append
of its remainder. A message sent in between goes in front of that remainder, to the
kernel or to the buffer, and so into the middle of the outer message. Sends are in
order exactly when no callback sends bytes and no append compacts.
-/
namespace Muduo.Guarantees
open Muduo.Support Muduo.Source Muduo.Source.Buffer

/-- The stream consists of the pieces handed over, these are in the order of the calls, and
together they are the messages. -/
structure InSendOrder (r : NestedSender) : Prop where
  handed : handed r.sender = (r.pieces.map Prod.snd).flatten
  order : r.pieces.Pairwise fun p q => p.1 ≤ q.1
  stream : Guarantees.handed r.sender = r.messages.flatten

/-- All messages are empty, so that none calls back in turn. -/
def AllEmpty : Sends → Prop
  | .done => True
  | .send message _ _ rest => message.bytes = [] ∧ AllEmpty rest

instance : (sends : Sends) → Decidable (AllEmpty sends)
  | .done => instDecidableTrue
  | .send message _ _ rest =>
    have : Decidable (AllEmpty rest) := instDecidableAllEmpty rest
    inferInstanceAs (Decidable (message.bytes = [] ∧ AllEmpty rest))

/-- The start of `sendInLoop` in a state. -/
def startOf (r : NestedSender) (message : Message) (answer : WriteAnswer) :
    TcpConnection.SendStart :=
  r.sender.conn.sendInLoopStart r.sender.channel message.bytes answer

/-- The append does not compact, and a callback that runs has no bytes accepted. -/
def InTurn (r : NestedSender) : NestedAction → Prop
  | .sendInLoop message answer nested =>
    NoCompaction r.sender (.sendInLoop message answer) ∧
      ((startOf r message answer).highWater.isSome = true →
        r.sender.conn.state = .kConnected → AllEmpty nested)
  | _ => True

/-- A step adds the messages `ms` and hands over the pieces `ps`. -/
structure Adds (r r' : NestedSender) (ms : List Bytes) (ps : List (Nat × Bytes)) : Prop where
  sending : Sending r'.sender
  messages : r'.messages = r.messages ++ ms
  pieces : r'.pieces = r.pieces ++ ps
  numbers : ∀ p ∈ ps, r.messages.length ≤ p.1 ∧ p.1 < r'.messages.length
  whole : (ps.map Prod.snd).flatten.length = ms.flatten.length
  grows : (handed r.sender).length + ms.flatten.length ≤ (handed r'.sender).length

/-- Sends leave `state_` as it is. -/
structure SentOn (r r' : NestedSender) (ms : List Bytes) (ps : List (Nat × Bytes)) : Prop
    extends Adds r r' ms ps where
  state : r'.sender.conn.state = r.sender.conn.state

variable {r r' r'' : NestedSender}

theorem SentOn.refl (sending : Sending r.sender) : SentOn r r [] [] :=
  ⟨⟨sending, by simp, by simp, by simp, rfl, by simp⟩, rfl⟩

theorem SentOn.trans {ms ms' : List Bytes} {ps ps' : List (Nat × Bytes)}
    (first : SentOn r r' ms ps) (second : SentOn r' r'' ms' ps') :
    SentOn r r'' (ms ++ ms') (ps ++ ps') := by
  have longer : r'.messages.length = r.messages.length + ms.length := by
    rw [first.messages, List.length_append]
  have longest : r''.messages.length = r'.messages.length + ms'.length := by
    rw [second.messages, List.length_append]
  refine ⟨⟨second.sending, ?_, ?_, fun p member => ?_, ?_, ?_⟩, second.state.trans first.state⟩
  · rw [second.messages, first.messages, List.append_assoc]
  · rw [second.pieces, first.pieces, List.append_assoc]
  · rcases List.mem_append.mp member with member | member
    · have bounds := first.numbers p member
      omega
    · have bounds := second.numbers p member
      omega
  · have firstWhole := first.whole
    have secondWhole := second.whole
    simp only [List.map_append, List.flatten_append, List.length_append]
    omega
  · have firstGrows := first.grows
    have secondGrows := second.grows
    simp only [List.flatten_append, List.length_append]
    omega

theorem flatten_piece (number : Nat) (bytes : Bytes) :
    ((NestedSender.piece number bytes).map Prod.snd).flatten = bytes := by
  unfold NestedSender.piece
  split
  · next empty => exact empty.symm
  · simp

theorem number_of_piece {number : Nat} {bytes : Bytes} {p : Nat × Bytes}
    (member : p ∈ NestedSender.piece number bytes) : p.1 = number := by
  unfold NestedSender.piece at member
  split at member
  · cases member
  · rw [List.mem_singleton.mp member]

/-- A remainder that is stored goes to the end of the stream, behind stale bytes if the
append compacts. -/
theorem sendRest_of_ok {s s' : Sender} (inv : Sending s) {message : Message} {rest : Bytes}
    (short : rest.length ≤ message.bytes.length) (nonempty : rest ≠ [])
    (ran : s.sendRest rest = .ok s') :
    Sending s' ∧ handed s' = handed s ++ s.conn.outputBuffer.spill rest.length ++ rest ∧
      s'.conn.state = s.conn.state := by
  have same : s.sendStart ⟨[], rest, false, none⟩ = s := by
    cases s
    simp [Sender.sendStart]
  have fit : s.conn.outputBuffer.Fits rest.length := by
    by_contra excess
    have bound := message.fits_sum inv.output.wf
    have failed := TcpConnection.sendInLoopRest_error inv.output.wf excess (by omega)
    rw [Sender.sendRest, failed] at ran
    cases ran
  have stored : (s.sendStart ⟨[], rest, false, none⟩).sendRest rest =
      .ok (buffered s ⟨[], rest, false, none⟩) := sendRest_ok inv fit
  rw [same] at stored
  cases Except.ok.inj (ran.symm.trans stored)
  refine ⟨inv.buffered fit nonempty, ?_, rfl⟩
  rw [handed_buffered inv fit]
  simp [handed]

/-- The outcomes of a `sendInLoop` of a connection that still sends. -/
inductive SendOutcome (callback : NestedSender → Except Fault NestedSender) (r : NestedSender)
    (message : Message) (answer : WriteAnswer) : NestedSender → Prop
  | whole : (startOf r message answer).rest = [] →
      SendOutcome callback r message answer (r.sendStart message (startOf r message answer))
  | quiet {r' : NestedSender} : (startOf r message answer).rest ≠ [] →
      (startOf r message answer).highWater.isSome = false →
      (r.sendStart message (startOf r message answer)).sendRest r.messages.length
        (startOf r message answer).rest = .ok r' →
      SendOutcome callback r message answer r'
  | called {r₁ r' : NestedSender} : (startOf r message answer).rest ≠ [] →
      (startOf r message answer).highWater.isSome = true →
      callback (r.sendStart message (startOf r message answer)) = .ok r₁ →
      r₁.sendRest r.messages.length (startOf r message answer).rest = .ok r' →
      SendOutcome callback r message answer r'

theorem sendOutcome_of_ok {callback : NestedSender → Except Fault NestedSender} {message : Message}
    {answer : WriteAnswer} (inv : Sending r.sender)
    (ran : r.sendInLoop callback message answer = .ok r') :
    answer.Valid message.bytes ∧ SendOutcome callback r message answer r' := by
  unfold NestedSender.sendInLoop at ran
  split at ran
  · cases ran
  · next valid =>
    refine ⟨not_not.mp valid, ?_⟩
    simp only [if_neg inv.live] at ran
    split at ran
    · next whole =>
      cases ran
      exact .whole whole
    · next short =>
      split at ran
      · next calls =>
        split at ran
        · next returned => exact .called short calls returned ran
        · cases ran
      · next quiet => exact .quiet short (Bool.eq_false_iff.mpr quiet) ran

theorem nestedRest_of_ok {number : Nat} {rest : Bytes} (ran : r.sendRest number rest = .ok r') :
    ∃ sender, r.sender.sendRest rest = .ok sender ∧
      r' = { r with sender := sender, pieces := r.pieces ++ NestedSender.piece number rest } := by
  unfold NestedSender.sendRest at ran
  split at ran
  · next sender stored =>
    cases ran
    exact ⟨sender, stored, rfl⟩
  · cases ran

theorem startOf_parts (r : NestedSender) (message : Message) (answer : WriteAnswer) :
    (startOf r message answer).written ++ (startOf r message answer).rest = message.bytes :=
  List.take_append_drop _ _

theorem Sending.sendStart (inv : Sending r.sender) (message : Message)
    (start : TcpConnection.SendStart) : Sending (r.sendStart message start).sender :=
  ⟨inv.output, inv.live⟩

/-- The pieces of a message stand around those of the sends in between. -/
theorem sentOn_of_rest {message : Message} {answer : WriteAnswer} {r₁ : NestedSender}
    {ms : List Bytes} {ps : List (Nat × Bytes)}
    (between : SentOn (r.sendStart message (startOf r message answer)) r₁ ms ps)
    (nonempty : (startOf r message answer).rest ≠ [])
    (ran : r₁.sendRest r.messages.length (startOf r message answer).rest = .ok r') :
    SentOn r r' (message.bytes :: ms)
      (NestedSender.piece r.messages.length (startOf r message answer).written ++ ps ++
        NestedSender.piece r.messages.length (startOf r message answer).rest) := by
  have parts := startOf_parts r message answer
  have total := congrArg List.length parts
  rw [List.length_append] at total
  obtain ⟨sender, stored, rfl⟩ := nestedRest_of_ok ran
  have short : (startOf r message answer).rest.length ≤ message.bytes.length := by omega
  obtain ⟨sending, value, state⟩ := sendRest_of_ok between.sending short nonempty stored
  have longer : r₁.messages.length = r.messages.length + 1 + ms.length := by
    simp [between.messages, NestedSender.sendStart]
    omega
  have started : (handed (r.sendStart message (startOf r message answer)).sender).length =
      (handed r.sender).length + (startOf r message answer).written.length := by
    simp [handed, NestedSender.sendStart, Sender.sendStart, Sender.readable]
    omega
  refine ⟨⟨sending, ?_, ?_, fun p member => ?_, ?_, ?_⟩, state.trans between.state⟩
  · simp [between.messages, NestedSender.sendStart]
  · simp [between.pieces, NestedSender.sendStart]
  · simp only [List.mem_append] at member
    rcases member with (member | member) | member
    · have own := number_of_piece member
      dsimp only
      omega
    · have bounds := between.numbers p member
      simp only [NestedSender.sendStart, List.length_append, List.length_singleton] at bounds
      dsimp only
      omega
    · have own := number_of_piece member
      dsimp only
      omega
  · have inner := between.whole
    simp only [List.map_append, List.flatten_append, flatten_piece, List.length_append,
      List.flatten_cons]
    omega
  · have inner := between.grows
    simp only [value, List.length_append, List.flatten_cons]
    omega

theorem sendInLoop_sent {callback : NestedSender → Except Fault NestedSender} {message : Message}
    {answer : WriteAnswer} (inv : Sending r.sender)
    (sends : ∀ r r', Sending r.sender → callback r = .ok r' → ∃ ms ps, SentOn r r' ms ps)
    (ran : r.sendInLoop callback message answer = .ok r') :
    ∃ ms ps, SentOn r r' (message.bytes :: ms) ps := by
  have started := inv.sendStart message (startOf r message answer)
  cases (sendOutcome_of_ok inv ran).2 with
  | whole whole =>
    have parts := startOf_parts r message answer
    rw [whole, List.append_nil] at parts
    refine ⟨[], NestedSender.piece r.messages.length message.bytes,
      ⟨started, rfl, ?_, ?_, ?_, ?_⟩, rfl⟩
    · simp [NestedSender.sendStart, parts]
    · intro p member
      have own := number_of_piece member
      simp [NestedSender.sendStart, own]
    · simp [flatten_piece]
    · simp [handed, NestedSender.sendStart, Sender.sendStart, Sender.readable, parts]
      omega
  | quiet short _ stored => exact ⟨[], _, sentOn_of_rest (.refl started) short stored⟩
  | called short _ returned stored =>
    obtain ⟨ms, ps, between⟩ := sends _ _ started returned
    exact ⟨ms, _, sentOn_of_rest between short stored⟩

/-- The sends of a callback; on an open connection they add bytes unless all are empty. -/
theorem sendAll_sent (sends : Sends) {r r' : NestedSender} (inv : Sending r.sender)
    (ran : NestedSender.sendAll sends r = .ok r') :
    ∃ ms ps, SentOn r r' ms ps ∧
      (r.sender.conn.state = .kConnected → ms.flatten = [] → AllEmpty sends) := by
  induction sends generalizing r r' with
  | done =>
    cases ran
    exact ⟨[], [], .refl inv, fun _ _ => trivial⟩
  | send message answer nested rest ihNested ihRest =>
    simp only [NestedSender.sendAll] at ran
    split at ran
    · next open_ =>
      split at ran
      · next r₁ sent =>
        obtain ⟨ms, ps, first⟩ := sendInLoop_sent inv
          (fun r r' inv ran => (ihNested inv ran).imp fun ms => Exists.imp fun ps => And.left) sent
        obtain ⟨ms', ps', second, empty⟩ := ihRest first.sending ran
        refine ⟨_, _, first.trans second, fun _ none => ?_⟩
        simp only [List.cons_append, List.flatten_cons, List.append_eq_nil_iff,
          List.flatten_append] at none
        exact ⟨none.1, empty (first.state.trans open_) none.2.2⟩
      · cases ran
    · next closed =>
      obtain ⟨ms, ps, sent, _⟩ := ihRest inv ran
      exact ⟨ms, ps, sent, fun open_ => absurd open_ closed⟩

theorem sendRest_log {s s' : Sender} {rest : Bytes} (log : List SendEvent)
    (ran : Sender.sendRest { s with log := log } rest = .ok s') :
    ∃ own, s.sendRest rest = .ok own ∧ s' = { own with log := log } := by
  unfold Sender.sendRest at ran ⊢
  dsimp only at ran
  split at ran
  · next conn stored =>
    cases ran
    exact ⟨_, rfl, rfl⟩
  · cases ran

/-- Empty messages, and sends on a closing connection, leave nothing but log entries. -/
theorem sendAll_quiet (sends : Sends) {r r' : NestedSender} (inv : Sending r.sender)
    (quiet : r.sender.conn.state = .kConnected → AllEmpty sends)
    (ran : NestedSender.sendAll sends r = .ok r') :
    (∃ log, r'.sender = { r.sender with log := log }) ∧ r'.pieces = r.pieces ∧
      ∃ n, r'.messages = r.messages ++ List.replicate n [] := by
  induction sends generalizing r r' with
  | done =>
    cases ran
    exact ⟨⟨_, rfl⟩, rfl, 0, by simp⟩
  | send message answer nested rest _ ihRest =>
    simp only [NestedSender.sendAll] at ran
    split at ran
    · next open_ =>
      obtain ⟨empty, others⟩ := quiet open_
      split at ran
      · next r₁ sent =>
        have nothing : (startOf r message answer).rest = [] := by
          simp [startOf, TcpConnection.sendInLoopStart, empty]
        have unwritten : (startOf r message answer).written = [] := by
          simp [startOf, TcpConnection.sendInLoopStart, empty]
        cases (sendOutcome_of_ok inv sent).2 with
        | whole =>
          obtain ⟨⟨log, sender⟩, pieces, n, messages⟩ :=
            ihRest (inv.sendStart message _) (fun _ => others) ran
          refine ⟨⟨log, ?_⟩, ?_, n + 1, ?_⟩
          · simp [sender, NestedSender.sendStart, Sender.sendStart, unwritten]
          · simp [pieces, NestedSender.sendStart, NestedSender.piece, unwritten]
          · simp [messages, NestedSender.sendStart, empty, List.replicate_succ]
        | quiet short => exact absurd nothing short
        | called short => exact absurd nothing short
      · cases ran
    · next closed => exact ihRest inv (fun open_ => absurd open_ closed) ran

/-- A `sendInLoop` whose callback sends no bytes: the stream grows by the message, behind
stale bytes if the append compacts. -/
theorem sendInLoop_quiet {message : Message} {answer : WriteAnswer} {nested : Sends}
    (inv : Sending r.sender)
    (quiet : (startOf r message answer).highWater.isSome = true →
      r.sender.conn.state = .kConnected → AllEmpty nested)
    (ran : r.sendInLoop (NestedSender.sendAll nested) message answer = .ok r') :
    handed r'.sender = handed r.sender ++ staleIn r.sender (.sendInLoop message answer) ++
        message.bytes ∧
      r'.pieces = r.pieces ++
        (NestedSender.piece r.messages.length (startOf r message answer).written ++
          NestedSender.piece r.messages.length (startOf r message answer).rest) ∧
      ∃ n, r'.messages = r.messages ++ message.bytes :: List.replicate n [] := by
  obtain ⟨valid, outcome⟩ := sendOutcome_of_ok inv ran
  -- the sender is as after a `sendInLoop` without a callback, but for the log
  have alone (s' : Sender) {sender : Sender} {log : List SendEvent}
      (sent : r.sender.sendInLoop message.bytes answer = .ok s')
      (same : sender = { s' with log := log }) :
      handed sender = handed r.sender ++ staleIn r.sender (.sendInLoop message answer) ++
        message.bytes := by
    have stepped : r.sender.step (.sendInLoop message answer) = .ok s' := by
      rw [Sender.step, if_pos (show r.sender.Answered (.sendInLoop message answer) from valid)]
      exact sent
    subst same
    exact (step_of_ok inv stepped).2
  have rested {r₁ : NestedSender} {log : List SendEvent}
      (short : (startOf r message answer).rest ≠ [])
      (between : r₁.sender =
        { (r.sendStart message (startOf r message answer)).sender with log := log })
      (stored : r₁.sendRest r.messages.length (startOf r message answer).rest = .ok r') :
      handed r'.sender = handed r.sender ++ staleIn r.sender (.sendInLoop message answer) ++
          message.bytes ∧
        r'.pieces = r₁.pieces ++
          NestedSender.piece r.messages.length (startOf r message answer).rest ∧
        r'.messages = r₁.messages := by
    obtain ⟨sender, last, rfl⟩ := nestedRest_of_ok stored
    rw [between] at last
    obtain ⟨own, sent, same⟩ := sendRest_log log last
    refine ⟨alone own ?_ same, rfl, rfl⟩
    rw [Sender.sendInLoop, if_neg inv.live]
    exact (if_neg short).trans sent
  cases outcome with
  | whole whole =>
    refine ⟨alone (r.sender.sendStart (startOf r message answer)) ?_ rfl, ?_, 0, ?_⟩
    · rw [Sender.sendInLoop, if_neg inv.live]
      exact if_pos whole
    · simp [NestedSender.sendStart, NestedSender.piece, whole]
    · simp [NestedSender.sendStart]
  | quiet short _ stored =>
    obtain ⟨value, pieces, messages⟩ := rested short rfl stored
    refine ⟨value, ?_, 0, ?_⟩
    · simp [pieces, NestedSender.sendStart]
    · simp [messages, NestedSender.sendStart]
  | called short calls returned stored =>
    have started := inv.sendStart message (startOf r message answer)
    obtain ⟨⟨log, between⟩, kept, n, more⟩ := sendAll_quiet nested started (quiet calls) returned
    obtain ⟨value, pieces, messages⟩ := rested short between stored
    refine ⟨value, ?_, n, ?_⟩
    · simp [pieces, kept, NestedSender.sendStart]
    · simp [messages, more, NestedSender.sendStart]

/-- What holds in every state: the connection sends, and pieces have numbers of messages. -/
structure Numbered (r : NestedSender) : Prop where
  sending : Sending r.sender
  numbers : ∀ p ∈ r.pieces, p.1 < r.messages.length

/-- Once more bytes than the messages' are in the stream, or a piece is out of order, no
later step mends it. -/
def Spoiled (r : NestedSender) : Prop :=
  r.messages.flatten.length < (handed r.sender).length ∨
    ¬ r.pieces.Pairwise fun p q => p.1 ≤ q.1

theorem not_inSendOrder_of_spoiled (spoiled : Spoiled r) : ¬ InSendOrder r := by
  intro ordered
  rcases spoiled with longer | unordered
  · rw [ordered.stream] at longer
    exact Nat.lt_irrefl _ longer
  · exact unordered ordered.order

/-- A step that sends nothing. -/
theorem other_of_ok {action : SendAction} (inv : Sending r.sender) (ran : r.other action = .ok r')
    (sends : staleIn r.sender action ++ messageOf action = []) :
    Sending r'.sender ∧ handed r'.sender = handed r.sender ∧ r'.messages = r.messages ∧
      r'.pieces = r.pieces := by
  unfold NestedSender.other at ran
  split at ran
  · next sender stepped =>
    cases ran
    obtain ⟨sending, value⟩ := step_of_ok inv stepped
    rw [List.append_assoc, sends, List.append_nil] at value
    exact ⟨sending, value, rfl, rfl⟩
  · cases ran

theorem step_adds {action : NestedAction} (inv : Sending r.sender) (ran : r.step action = .ok r') :
    ∃ ms ps, Adds r r' ms ps := by
  have none (other : SendAction) (ran : r.other other = .ok r')
      (sends : staleIn r.sender other ++ messageOf other = []) : ∃ ms ps, Adds r r' ms ps := by
    obtain ⟨sending, value, messages, pieces⟩ := other_of_ok inv ran sends
    exact ⟨[], [], sending, by simp [messages], by simp [pieces], by simp, rfl, by simp [value]⟩
  cases action with
  | sendInLoop message answer nested =>
    obtain ⟨ms, ps, sent⟩ := sendInLoop_sent inv
      (fun r r' inv ran => (sendAll_sent nested inv ran).imp fun ms => Exists.imp fun ps => And.left)
      ran
    exact ⟨_, ps, sent.toAdds⟩
  | handleWrite answer => exact none (.handleWrite answer) ran rfl
  | setDisconnecting => exact none .setDisconnecting ran rfl
  | shutdownInLoop => exact none .shutdownInLoop ran rfl

theorem Numbered.step {action : NestedAction} (inv : Numbered r) (ran : r.step action = .ok r') :
    Numbered r' := by
  obtain ⟨ms, ps, sent⟩ := step_adds inv.sending ran
  refine ⟨sent.sending, fun p member => ?_⟩
  rw [sent.pieces] at member
  rcases List.mem_append.mp member with old | new
  · have before := inv.numbers p old
    rw [sent.messages, List.length_append]
    omega
  · exact (sent.numbers p new).2

theorem Spoiled.step {action : NestedAction} (inv : Numbered r) (spoiled : Spoiled r)
    (ran : r.step action = .ok r') : Spoiled r' := by
  obtain ⟨ms, ps, sent⟩ := step_adds inv.sending ran
  rcases spoiled with longer | unordered
  · have grows := sent.grows
    refine Or.inl ?_
    rw [sent.messages, List.flatten_append, List.length_append]
    omega
  · refine Or.inr fun ordered => unordered ?_
    rw [sent.pieces] at ordered
    exact (List.pairwise_append.mp ordered).1

/-- A step in turn keeps the order. -/
theorem InSendOrder.step {action : NestedAction} (inv : Numbered r) (ordered : InSendOrder r)
    (inTurn : InTurn r action) (ran : r.step action = .ok r') : InSendOrder r' := by
  have none (other : SendAction) (ran : r.other other = .ok r')
      (sends : staleIn r.sender other ++ messageOf other = []) : InSendOrder r' := by
    obtain ⟨_, value, messages, pieces⟩ := other_of_ok inv.sending ran sends
    refine ⟨?_, ?_, ?_⟩
    · rw [value, pieces, ordered.handed]
    · rw [pieces]
      exact ordered.order
    · rw [value, messages, ordered.stream]
  cases action with
  | sendInLoop message answer nested =>
    obtain ⟨value, pieces, n, messages⟩ := sendInLoop_quiet inv.sending inTurn.2 ran
    rw [(noCompaction_iff inv.sending _).mp inTurn.1, List.append_nil] at value
    refine ⟨?_, ?_, ?_⟩
    · rw [value, pieces, List.map_append, List.flatten_append, List.map_append,
        List.flatten_append, flatten_piece, flatten_piece, startOf_parts, ordered.handed]
    · rw [pieces]
      have own : ∀ p ∈ NestedSender.piece r.messages.length (startOf r message answer).written ++
          NestedSender.piece r.messages.length (startOf r message answer).rest,
          p.1 = r.messages.length := by
        intro p member
        rcases List.mem_append.mp member with member | member <;> exact number_of_piece member
      refine List.pairwise_append.mpr ⟨ordered.order, ?_, fun p old q new => ?_⟩
      · refine List.pairwise_of_forall_mem_list fun p first q second => ?_
        rw [own p first, own q second]
      · rw [own q new]
        exact Nat.le_of_lt (inv.numbers p old)
    · rw [value, messages, ordered.stream]
      simp
  | handleWrite answer => exact none (.handleWrite answer) ran rfl
  | setDisconnecting => exact none .setDisconnecting ran rfl
  | shutdownInLoop => exact none .shutdownInLoop ran rfl

theorem rest_of_highWater {message : Message} {answer : WriteAnswer}
    (calls : (startOf r message answer).highWater.isSome = true) :
    (startOf r message answer).rest ≠ [] := by
  simp only [startOf, TcpConnection.sendInLoopStart] at calls ⊢
  split at calls
  · next crosses =>
    rw [ne_eq, List.drop_eq_nil_iff, not_le]
    exact crosses.1
  · cases calls

/-- A callback that sends bytes puts them in front of the remainder. -/
theorem unordered_of_called {message : Message} {answer : WriteAnswer} {nested : Sends}
    (inv : Sending r.sender) (calls : (startOf r message answer).highWater.isSome = true)
    (open_ : r.sender.conn.state = .kConnected) (bytes : ¬ AllEmpty nested)
    (ran : r.sendInLoop (NestedSender.sendAll nested) message answer = .ok r') :
    ¬ r'.pieces.Pairwise fun p q => p.1 ≤ q.1 := by
  cases (sendOutcome_of_ok inv ran).2 with
  | whole whole => exact absurd whole (rest_of_highWater calls)
  | quiet _ silent => cases calls.symm.trans silent
  | called short _ returned stored =>
    have started := inv.sendStart message (startOf r message answer)
    obtain ⟨ms, ps, between, empty⟩ := sendAll_sent nested started returned
    obtain ⟨sender, _, rfl⟩ := nestedRest_of_ok stored
    have more : ps ≠ [] := by
      rintro rfl
      exact bytes (empty open_ (List.length_eq_zero_iff.mp between.whole.symm))
    obtain ⟨p, ps, rfl⟩ := List.exists_cons_of_ne_nil more
    have later := (between.numbers p List.mem_cons_self).1
    simp only [NestedSender.sendStart, List.length_append, List.length_singleton] at later
    intro ordered
    have last := (List.pairwise_append.mp ordered).2.2 p (by simp [between.pieces])
      (r.messages.length, (startOf r message answer).rest) (by simp [NestedSender.piece, short])
    dsimp only at last
    omega

theorem spoiled_of_not_inTurn {action : NestedAction} (inv : Numbered r) (ordered : InSendOrder r)
    (outOfTurn : ¬ InTurn r action) (ran : r.step action = .ok r') : Spoiled r' := by
  cases action with
  | sendInLoop message answer nested =>
    by_cases quiet : (startOf r message answer).highWater.isSome = true →
        r.sender.conn.state = .kConnected → AllEmpty nested
    · obtain ⟨value, _, n, messages⟩ := sendInLoop_quiet inv.sending quiet ran
      have stale : staleIn r.sender (.sendInLoop message answer) ≠ [] := fun none =>
        outOfTurn ⟨(noCompaction_iff inv.sending _).mpr none, quiet⟩
      have more := List.length_pos_iff.mpr stale
      refine Or.inl ?_
      rw [value, messages, ordered.stream]
      simp
      omega
    · rw [Classical.not_imp, Classical.not_imp] at quiet
      obtain ⟨calls, open_, bytes⟩ := quiet
      exact Or.inr (unordered_of_called inv.sending calls open_ bytes ran)
  | handleWrite | setDisconnecting | shutdownInLoop => exact absurd trivial outOfTurn

theorem spoiled_run {actions : List NestedAction} (inv : Numbered r) (spoiled : Spoiled r)
    (run : Run (Graph NestedSender.step) r actions r') : Spoiled r' := by
  induction run with
  | nil => exact spoiled
  | cons ran _ ih => exact ih (inv.step ran) (spoiled.step inv ran)

theorem inSendOrder_run_iff {actions : List NestedAction} (inv : Numbered r)
    (ordered : InSendOrder r) (run : Run (Graph NestedSender.step) r actions r') :
    InSendOrder r' ↔ Run (Guarded InTurn (Graph NestedSender.step)) r actions r' := by
  induction run with
  | nil r => exact iff_of_true ordered (.nil r)
  | @cons r r₁ r' action rest ran run ih =>
    have inv₁ := inv.step ran
    by_cases inTurn : InTurn r action
    · have next := ih inv₁ (ordered.step inv inTurn ran)
      constructor
      · exact fun kept => .cons ⟨inTurn, ran⟩ (next.mp kept)
      · rintro (_ | ⟨⟨_, again⟩, guarded⟩)
        cases Except.ok.inj (again.symm.trans ran)
        exact next.mpr guarded
    · have spoiled := spoiled_run inv₁ (spoiled_of_not_inTurn inv ordered inTurn ran) run
      refine iff_of_false (not_inSendOrder_of_spoiled spoiled) ?_
      rintro (_ | ⟨⟨guard, _⟩, _⟩)
      exact inTurn guard

/-- For every high water mark, every answer of `::write` and every sends that callbacks make
on the way, to any depth: all messages are in order exactly when no `append` of the run
compacts and no callback of an open connection sends bytes. -/
theorem nested_sends_exact (fd : Int) (highWaterMark : Nat) (highWater writeComplete : Bool)
    (actions : List NestedAction) (r : NestedSender)
    (run : Run (Graph NestedSender.step) (.opened fd highWaterMark highWater writeComplete)
      actions r) :
    InSendOrder r ↔ Run (Guarded InTurn (Graph NestedSender.step))
      (.opened fd highWaterMark highWater writeComplete) actions r := by
  have start := opened_sending fd highWaterMark highWater writeComplete
  exact inSendOrder_run_iff ⟨start, by simp [NestedSender.opened]⟩ ⟨rfl, .nil, rfl⟩ run

/-- The kernel takes the first of two bytes; the callback sends an empty message. -/
def emptyNested : List NestedAction :=
  [.sendInLoop ⟨[97, 98], by decide⟩ (.accepted 1)
    (.send ⟨[], by decide⟩ (.accepted 0) .done .done)]

theorem nested_sends_exact_empty_nested :
    ∃ r, Run (Graph NestedSender.step) (.opened 3 1 true false) emptyNested r ∧
      r.messages = [[97, 98], []] ∧
      (InSendOrder r ↔ Run (Guarded InTurn (Graph NestedSender.step)) (.opened 3 1 true false)
        emptyNested r) := by
  have ends : endsIn (fun _ _ => True) NestedSender.step Fault.notEnabled
      (.opened 3 1 true false) emptyNested
      (fun r => decide (r.messages = [[97, 98], []])) = true := by
    decide +kernel
  obtain ⟨r, run, messages⟩ := run_of_endsIn _ _ ends
  exact ⟨r, run.unguarded, of_decide_eq_true messages,
    nested_sends_exact 3 1 true false emptyNested r run.unguarded⟩

/-- The kernel takes nothing at first; the callback sends another byte, which it takes. -/
def overtaken : List NestedAction :=
  [.sendInLoop ⟨[97], Message.byte_le⟩ .wouldBlock (.send ⟨[98], Message.byte_le⟩ (.accepted 1) .done .done)]

/-- The second message is in the stream before the first one. -/
theorem nested_send_overtakes :
    ∃ r, Run (Graph NestedSender.step) (.opened 3 1 true false) overtaken r ∧
      (r.sender.socket.sent = [98] ∧ r.sender.readable = [97] ∧ r.messages = [[97], [98]]) ∧
      ¬ InSendOrder r := by
  have ends : endsIn (fun _ _ => True) NestedSender.step Fault.notEnabled
      (.opened 3 1 true false) overtaken (fun r => decide (r.sender.socket.sent = [98] ∧
        r.sender.readable = [97] ∧ r.messages = [[97], [98]])) = true := by
    decide +kernel
  obtain ⟨r, run, ended⟩ := run_of_endsIn _ _ ends
  have ended := of_decide_eq_true ended
  refine ⟨r, run.unguarded, ended, fun ordered => ?_⟩
  have stream := ordered.stream
  rw [handed, ended.1, ended.2.1, ended.2.2] at stream
  exact absurd stream (by decide)

end Muduo.Guarantees
