import Muduo.Source.ReactorTeardown

/-!
# Messages and the down callback

`handleRead` does not look at `state_`, and the batch of active channels is not
looked through again when a connection closes. So a connection that was closed
earlier in the batch, by another one's callback or by its own dispatch, is still
read, and if there is input its message callback runs after its down callback.
-/
namespace Muduo.Guarantees
open Muduo.Support Muduo.Source Muduo.Source.World

variable {σ : Type} {settings : Settings} {impl : Polling σ} {w w' : World σ} {c : ConnId}

/-- No message callback follows a connection's down callback in the history. -/
def NoMessageAfterDown (trace : List Event) : Prop :=
  ∀ c before after, trace = before ++ .down c :: after → .messageCallback c ∉ after

/-- The step does not hand an input event to a connection that has gone down. -/
def ReadsOpen (settings : Settings) {answer : Type} (w : World σ) (action : Action answer) : Prop :=
  match w.running action with
  | some (.handleEvent c (.read :: _)) => c ∈ settings.aux ∨ .down c ∉ w.trace
  | _ => True

instance {answer : Type} (w : World σ) (action : Action answer) :
    Decidable (ReadsOpen settings w action) := by
  delta ReadsOpen
  rcases w.running action with _ | frame
  · infer_instance
  · induction frame using Frame.casesOn with
    | handleEvent c callbacks =>
      rcases callbacks with _ | ⟨callback, rest⟩
      · infer_instance
      · induction callback using EventCallback.casesOn <;> infer_instance
    | _ => infer_instance

/-- A frame adds to the history, and a message callback only as `handleRead`. -/
theorem advance_messages {onLoop : Bool} {frame : Frame} {input : Input} {frames : List Frame}
    (advance : Advance settings impl onLoop w frame input w' frames) :
    ∃ events, w'.trace = w.trace ++ events ∧
      ∀ c, .messageCallback c ∈ events → frame = .handleRead c := by
  have unnoted : w'.trace = w.trace → ∃ events, w'.trace = w.trace ++ events ∧
      ∀ c, .messageCallback c ∈ events → frame = .handleRead c :=
    fun same => ⟨[], by rw [same, List.append_nil], by simp⟩
  cases advance with
  | watch _ ran | connectDestroyedRest ran => exact unnoted (operate_trace ran)
  | @handleCloseStore c _ ran | @connectDestroyedStore c _ ran =>
    exact ⟨[.down c], operate_trace ran, by simp⟩
  | @connectEstablishedStore c _ ran => exact ⟨[.up c], operate_trace ran, by simp⟩
  | @closeHere c _ _ removed =>
    obtain ⟨_, rfl⟩ := removeConnectionInLoop_ok.mp removed
    exact ⟨[.closeCallback c], rfl, by simp⟩
  | @closeElsewhere c => exact ⟨[.closeCallback c], rfl, by simp⟩
  | sendInLoopStart sent =>
    obtain ⟨answer, _, ran⟩ := sent
    cases ran
    exact ⟨_, rfl, fun c member => by split at member <;> simp at member⟩
  | @sendInLoopRest c id rest _ ran =>
    obtain ⟨conn, _, ⟨_, rfl⟩ | ⟨_, operated⟩⟩ := sendInLoopRest_ok ran
    · exact ⟨[.append c id rest.bytes], rfl, by simp⟩
    · exact ⟨[.append c id rest.bytes], operate_trace operated, by simp⟩
  | @handleWrite c _ _ _ _ _ ran =>
    obtain ⟨start, _, ⟨_, rfl, _⟩ | ⟨_, _, w₁, operated, rfl⟩⟩ := handleWrite_ok ran
    · exact ⟨[.write c none _ _], rfl, by simp⟩
    · exact ⟨[.write c none _ _], operate_trace operated, by simp⟩
  | @handleRead c _ _ _ ran =>
    obtain ⟨n, conn, _, ⟨_, rfl, _⟩ | ⟨_, rfl, _⟩ | ⟨_, rfl, _⟩⟩ := handleRead_ok ran
    · exact ⟨[.messageCallback c], rfl, fun c' member => by simp_all⟩
    · exact unnoted rfl
    · exact unnoted rfl
  | @accept c message => exact ⟨[.accepted c w.nextSend message], rfl, by simp⟩
  | @shutdownWrite c => exact ⟨[.shutdownWrite c], rfl, by simp⟩
  | _ => exact unnoted rfl

theorem step_messages {action : Action impl.Answer} (step : Step settings impl w action w') :
    ∃ events, w'.trace = w.trace ++ events ∧
      ∀ c, .messageCallback c ∈ events → w.running action = some (.handleRead c) := by
  cases step with
  | loop stack advance =>
    obtain ⟨events, trace, origin⟩ := advance_messages advance
    exact ⟨events, trace, fun c member => by simp [running, stack, origin c member]⟩
  | other others advance =>
    obtain ⟨events, trace, origin⟩ := advance_messages advance
    exact ⟨events, trace, fun c member => by simp [running, others, origin c member]⟩
  | _ => exact ⟨[], (List.append_nil _).symm, by simp⟩

/-- A read is begun by the dispatch of an input event. -/
theorem follows_handleRead {onLoop : Bool} {frame : Frame} {frames : List Frame}
    (follows : Follows onLoop frame frames) (member : .handleRead c ∈ frames) :
    ∃ callbacks, frame = .handleEvent c (.read :: callbacks) := by
  cases follows.leads member with
  | call enters => cases enters
  | input => exact ⟨_, rfl⟩

/-- The down callback is in the history once a frame has called it. -/
theorem step_down {action : Action impl.Answer} (step : Step settings impl w action w') :
    .down c ∈ w'.trace ↔ .down c ∈ w.trace ∨ .down c ∈ w.newCallbacks action := by
  have noted (v : World σ) : .down c ∈ v.trace ↔ .down c ∈ v.callbacks := by
    simp [World.callbacks, List.mem_filter, Event.lifecycle]
  rw [noted, noted, step.callbacks, List.mem_append]

theorem noMessageAfterDown_append {trace events : List Event} (before : NoMessageAfterDown trace)
    (up : ∀ c, .messageCallback c ∈ events → .down c ∉ trace ++ events) :
    NoMessageAfterDown (trace ++ events) := by
  intro c first last split message
  have down : .down c ∈ trace ++ events := by simp [split]
  rcases List.append_eq_append_iff.mp split with ⟨inside, rfl, new⟩ | ⟨inside, rfl, new⟩
  · exact up c (by simp [new, message]) down
  · cases inside with
    | nil => exact up c (by rw [List.nil_append] at new; simp [← new, message]) down
    | cons e inside =>
      obtain ⟨rfl, rfl⟩ := List.cons.inj new
      rcases List.mem_append.mp message with old | now
      · exact before c first inside rfl old
      · exact up c now down

/-- The connections being read have not gone down. -/
structure ReadingOpen (w : World σ) : Prop where
  orderly : w.Orderly
  reading : ∀ c, .handleRead c ∈ w.stack → .down c ∉ w.trace
  noMessage : NoMessageAfterDown w.trace

theorem start_readingOpen (settings : Settings) (poller : σ) :
    ReadingOpen (start settings poller) where
  orderly := start_orderly settings poller
  reading := by simp [start]
  noMessage := by simp [start, NoMessageAfterDown]

/-- A read that waits for no callback stays innermost, and the other threads take no
connection down. -/
theorem ReadingOpen.still_open (readingOpen : ReadingOpen w) {action : Action impl.Answer}
    (reads : ReadsOpen settings w action) (step : Step settings impl w action w')
    (member : .handleRead c ∈ w'.stack) : .down c ∉ w'.trace := by
  have kept : .handleRead c ∈ w.stack → (∀ frame, w.running action = some frame →
      frame.foreign = true) → .down c ∉ w'.trace := by
    intro old foreign
    rw [step_down step]
    rintro (before | now)
    · exact readingOpen.reading c old before
    · unfold newCallbacks at now
      cases runs : w.running action with
      | none => simp [runs] at now
      | some frame => simp [runs, foreign_callbacks (foreign frame runs)] at now
  cases step with
  | @loop frame rest frames input v stack advance =>
    rcases List.mem_append.mp member with new | old
    · obtain ⟨callbacks, rfl⟩ := follows_handleRead advance.follows new
      simp only [ReadsOpen, running, stack, List.head?_cons] at reads
      cases advance with
      | yes tested | no tested => cases tested
      | dispatchAux => simp at new
      | dispatch own => exact reads.resolve_left own
    · have waits := readingOpen.orderly.waiting (.handleRead c) (by simp [stack, old])
      cases waits
  | @other frame before after frames v others advance =>
    refine kept (advance.control.stack ▸ member) fun other runs => ?_
    exact readingOpen.orderly.calling other (List.mem_of_getElem? runs)
  | dispatch => simp at member
  | @start task => cases task <;> simp [Task.frame] at member
  | destroy => simp at member
  | swap empty | again empty => simp [empty] at member
  | poll | call | connectElsewhere | removeElsewhere | destroyElsewhere | destruct =>
    exact kept member fun frame runs => by cases runs

theorem ReadingOpen.step (readingOpen : ReadingOpen w) {action : Action impl.Answer}
    (reads : ReadsOpen settings w action) (step : Step settings impl w action w') :
    ReadingOpen w' := by
  refine ⟨step.orderly readingOpen.orderly, fun c => readingOpen.still_open reads step, ?_⟩
  obtain ⟨events, trace, origin⟩ := step_messages step
  rw [trace]
  refine noMessageAfterDown_append readingOpen.noMessage fun c message => ?_
  have runs := origin c message
  rw [← trace, step_down step]
  rintro (before | now)
  · have present := List.mem_of_mem_head? (readingOpen.orderly.running_head runs rfl)
    exact readingOpen.reading c present before
  · simp [newCallbacks, runs, Frame.callbacks] at now

/-- The dispatch of an input event to a connection that has gone down runs its message
callback if there is input. -/
theorem message_of_late_read {callbacks : List EventCallback} {data : Bytes}
    (head : w.stack.head? = some (.handleEvent c (.read :: callbacks))) (own : c ∉ settings.aux)
    (down : .down c ∈ w.trace) (dispatched : w.step settings impl (.loop .none) = .ok w')
    {w'' : World σ} (read : w'.step settings impl (.loop (.readv (.bytes data))) = .ok w'')
    (input : data ≠ []) : ¬ NoMessageAfterDown w''.trace := by
  obtain ⟨rest, stack⟩ := List.head?_eq_some_iff.mp head
  have next : { w with stack := .handleRead c :: .handleEvent c callbacks :: rest } = w' := by
    simpa [World.step, stack, advance, Frame.test, own, callback] using dispatched
  subst next
  cases step_ok read with
  | loop stack advance =>
    cases stack
    cases advance with
    | handleRead ran =>
      obtain ⟨n, conn, counted, outcome⟩ := handleRead_ok ran
      have count : n = (data.length : Int) := TcpConnection.handleRead_count counted
      have positive : 0 < n := by
        have := List.length_pos_iff.mpr input
        omega
      rcases outcome with ⟨_, rfl, _⟩ | ⟨zero, _⟩ | ⟨negative, _⟩
      · intro noMessage
        obtain ⟨before, after, trace⟩ := List.append_of_mem down
        refine noMessage c before (after ++ [.messageCallback c]) ?_ (by simp)
        simp [note, setConn, trace]
      · omega
      · omega

/-- The channel is to be dispatched, or is being dispatched. -/
def Collected (w : World σ) (c : ConnId) : Prop :=
  c ∈ w.active ∨ ∃ callbacks, .handleEvent c callbacks ∈ w.stack

/-- A dispatch goes on, or takes a channel of the batch. -/
theorem dispatch_step {action : Action impl.Answer} (step : Step settings impl w action w')
    {callbacks : List EventCallback} (member : .handleEvent c callbacks ∈ w'.stack) :
    Collected w c := by
  generalize shape : Frame.handleEvent c callbacks = frame at member
  cases step with
  | @loop _ rest frames _ _ stack advance =>
    subst shape
    rcases List.mem_append.mp member with new | old
    · cases advance.follows.leads new with
      | call enters => cases enters
      | next => exact Or.inr ⟨_, stack ▸ List.mem_cons_self⟩
    · exact Or.inr ⟨callbacks, by simp [stack, old]⟩
  | other _ advance => exact Or.inr ⟨callbacks, shape ▸ advance.control.stack ▸ member⟩
  | dispatch _ phase =>
    cases shape.trans (List.mem_singleton.mp member)
    exact Or.inl (by simp [World.active, phase])
  | @start task => cases task <;> cases shape.trans (List.mem_singleton.mp member)
  | destroy =>
    simp only [List.mem_cons, List.not_mem_nil, or_false, ← shape] at member
    rcases member with same | same <;> cases same
  | _ => exact Or.inr ⟨callbacks, shape ▸ member⟩

/-- A channel gets into the batch by a poll. -/
theorem collected_step {action : Action impl.Answer} (step : Step settings impl w action w')
    (collected : Collected w' c) : Collected w c ∧ (∀ reported, action ≠ .poll reported) ∨
      (∃ reported, action = .poll reported) ∧ c ∈ w'.active := by
  rcases collected with active | ⟨callbacks, member⟩
  · cases step with
    | poll => exact Or.inr ⟨⟨_, rfl⟩, active⟩
    | loop _ advance | other _ advance =>
      exact Or.inl ⟨Or.inl (by simpa [World.active, advance.control.phase] using active), by simp⟩
    | dispatch _ phase | swap _ phase | start _ phase | again _ phase =>
      exact Or.inl ⟨Or.inl (by simp_all [World.active]), by simp⟩
    | _ => exact Or.inl ⟨Or.inl active, by simp⟩
  · have before := dispatch_step step member
    refine Or.inl ⟨before, ?_⟩
    rintro reported rfl
    cases step with
    | poll empty => simp [empty] at member

/-- The latest poll of a run collected the channel. -/
def CollectedBy (settings : Settings) (impl : Polling σ) (start : World σ)
    (actions : List (Action impl.Answer)) (w : World σ) (c : ConnId) : Prop :=
  ∃ earlier reported later w₁, actions = earlier ++ .poll reported :: later ∧
    Run (Graph (step settings impl)) start (earlier ++ [.poll reported]) w₁ ∧ c ∈ w₁.active ∧
    Run (Graph (step settings impl)) w₁ later w ∧ ∀ again, .poll again ∉ later

theorem collected_run {start : World σ} {actions : List (Action impl.Answer)}
    (run : Run (Graph (step settings impl)) start actions w) (collected : Collected w c) :
    Collected start c ∧ (∀ again, .poll again ∉ actions) ∨
      CollectedBy settings impl start actions w c := by
  induction run with
  | nil => exact Or.inl ⟨collected, by simp⟩
  | @cons s s₁ _ action rest taken run ih =>
    rcases ih collected with ⟨before, unpolled⟩ | ⟨earlier, reported, later, w₁, rfl, first, rest⟩
    · rcases collected_step (step_ok taken) before with ⟨earlier, other⟩ | ⟨⟨reported, rfl⟩, active⟩
      · refine Or.inl ⟨earlier, fun again member => ?_⟩
        rcases List.mem_cons.mp member with same | member
        · exact other again same.symm
        · exact unpolled again member
      · exact Or.inr ⟨[], reported, rest, s₁, rfl, .cons taken (.nil _), active, run, unpolled⟩
    · exact Or.inr ⟨action :: earlier, reported, later, w₁, rfl, .cons taken first, rest⟩

/-- A dispatch belongs to the batch that the latest poll collected. So a connection that is
down by then went down since that poll, or the poll still reported it. -/
theorem dispatch_collected (kind : PollerKind) (settings : Settings)
    {actions : List (Action kind.polling.Answer)} {w : World kind.State}
    (run : Run (Graph (step settings kind.polling)) (start settings kind.new) actions w)
    {callbacks : List EventCallback} (head : w.stack.head? = some (.handleEvent c callbacks)) :
    CollectedBy settings kind.polling (start settings kind.new) actions w c := by
  have collected : Collected w c := Or.inr ⟨callbacks, List.mem_of_mem_head? head⟩
  refine (collected_run run collected).resolve_left ?_
  rintro ⟨active | ⟨_, member⟩, _⟩
  · simp [World.start, World.active] at active
  · simp [World.start] at member

/-- Over either poller, for any connections, threads, batches, answers and callbacks: while
no input event is handed to a connection that has gone down, no message follows the
down callback. An input event handed to such a connection ends in a message callback, if
there is input. -/
theorem no_message_after_down_exact (kind : PollerKind) (settings : Settings)
    (actions : List (Action kind.polling.Answer)) (w : World kind.State)
    (run : Run (Guarded (ReadsOpen settings) (Graph (step settings kind.polling)))
      (start settings kind.new) actions w) :
    NoMessageAfterDown w.trace ∧
      ∀ c callbacks data w' w'', w.stack.head? = some (.handleEvent c (.read :: callbacks)) →
        c ∉ settings.aux → .down c ∈ w.trace → data ≠ [] →
        w.step settings kind.polling (.loop .none) = .ok w' →
        w'.step settings kind.polling (.loop (.readv (.bytes data))) = .ok w'' →
        ¬ NoMessageAfterDown w''.trace := by
  have readingOpen := run.invariant (start_readingOpen settings kind.new)
    fun _ _ _ readingOpen taken => readingOpen.step taken.1 (step_ok taken.2)
  exact ⟨readingOpen.noMessage, fun c callbacks data w' w'' head own down input dispatched read =>
    message_of_late_read head own down dispatched read input⟩

/-- Two connections are readable in one batch; the message callback of the first one has
been entered. -/
def twoReadable : List (Action KqueueSystem.polling.Answer) :=
  PollerKind.opening none 5 ++
    [.loop .return, .loop (.loopCall (.newConnection 6)), .loop .none, .loop .none,
      .loop .return, .loop .return, .loop .none, .poll (some [(5, .read), (6, .read)]),
      .loop .none, .loop .none, .loop (.readv (.bytes [97]))]

/-- The callback closes its own connection; then the other one is read. -/
def closesItself : List (Action KqueueSystem.polling.Answer) :=
  twoReadable ++
    [.loop (.call (.forceClose 5)), .loop .none, .loop .none, .loop .none, .loop .none,
      .loop .none, .loop .none, .loop .none, .loop .return, .loop .none, .loop .return,
      .loop .none, .loop .none, .loop .none, .loop (.readv (.bytes [98]))]

theorem no_message_after_down_exact_closes_itself :
    ∃ w, Run (Guarded (ReadsOpen PollerKind.exampleSettings)
        (Graph (step PollerKind.exampleSettings KqueueSystem.polling)))
        (start PollerKind.exampleSettings .new) closesItself w ∧
      (.down 5 ∈ w.trace ∧ .messageCallback 6 ∈ w.trace) ∧ NoMessageAfterDown w.trace := by
  have ends : endsIn (ReadsOpen PollerKind.exampleSettings)
      (step PollerKind.exampleSettings KqueueSystem.polling) Fault.notEnabled
      (start PollerKind.exampleSettings .new) closesItself
      (fun w => decide (.down 5 ∈ w.trace ∧ .messageCallback 6 ∈ w.trace)) = true := by
    decide +kernel
  obtain ⟨w, run, noted⟩ := run_of_endsIn _ _ ends
  exact ⟨w, run, of_decide_eq_true noted, (no_message_after_down_exact .kqueue _ _ w run).1⟩

/-- The callback closes the other connection; then that one is read. -/
def closesNeighbour : List (Action KqueueSystem.polling.Answer) :=
  twoReadable ++
    [.loop (.call (.forceClose 6)), .loop .none, .loop .none, .loop .none, .loop .none,
      .loop .none, .loop .none, .loop .none, .loop .return, .loop .none, .loop .return,
      .loop .none, .loop .none, .loop .none, .loop (.readv (.bytes [98]))]

theorem closed_by_neighbour_gets_message :
    ∃ w, Run (Graph (step PollerKind.exampleSettings KqueueSystem.polling))
        (start PollerKind.exampleSettings .new) closesNeighbour w ∧
      ¬ NoMessageAfterDown w.trace := by
  have ends : endsIn (fun _ _ => True) (step PollerKind.exampleSettings KqueueSystem.polling)
      Fault.notEnabled (start PollerKind.exampleSettings .new) closesNeighbour
      (fun w => decide (w.trace = [.up 5, .up 6, .messageCallback 5] ++
        .down 6 :: [.closeCallback 6, .messageCallback 6])) = true := by
    decide +kernel
  obtain ⟨w, run, ended⟩ := run_of_endsIn _ _ ends
  refine ⟨w, run.unguarded, fun noMessage => ?_⟩
  exact noMessage _ _ _ (of_decide_eq_true ended) (by simp)

end Muduo.Guarantees
