import Muduo.Source.ReactorClosing
import Muduo.Source.ReactorTeardown

/-!
# Which function an event comes from

A step notes one event at most, and the frame that takes the step says which. Before
`connectEstablished` has run, no function of the connection is there to note anything.
-/
namespace Muduo.Source
open Muduo.Support

/-- The connection that an event is about. -/
def Event.conn : Event → ConnId
  | .up c | .down c | .closeCallback c | .messageCallback c | .accepted c _ _ | .write c _ _ _
  | .append c _ _ | .shutdownWrite c => c

/-- Frames that only a connection past `kConnecting` gets to. -/
def Frame.later : Frame → Option ConnId
  | .handleCloseRest c | .shutdownInLoop c | .post (.shutdownInLoop c) => some c
  | _ => none

namespace World

variable {σ : Type} {settings : Settings} {impl : Polling σ} {w w' : World σ} {c : ConnId}

/-- A frame's events. -/
inductive Notes (w : World σ) : Frame → Event → Prop
  | up {c : ConnId} : Notes w (.connectEstablishedStore c) (.up c)
  | down {c : ConnId} : Notes w (.handleCloseStore c) (.down c)
  | destroyed {c : ConnId} : Notes w (.connectDestroyedStore c) (.down c)
  | close {c : ConnId} : Notes w (.handleCloseRest c) (.closeCallback c)
  | message {c : ConnId} : Notes w (.handleRead c) (.messageCallback c)
  | accepted {c : ConnId} {message : Message} : w.state c = .kConnected →
      Notes w (.send c message) (.accepted c w.nextSend message)
  | direct {c : ConnId} {id : SendId} {message : Message} {taken : Bytes} :
      Notes w (.sendInLoopStart c id message) (.write c (some id) message.bytes taken)
  | append {c : ConnId} {id : SendId} {rest : Message} :
      Notes w (.sendInLoopRest c id rest) (.append c id rest.bytes)
  | drain {c : ConnId} {requested taken : Bytes} :
      Notes w (.handleWrite c) (.write c none requested taken)
  | shut {c : ConnId} : Notes w (.shutdownInLoop c) (.shutdownWrite c)

theorem Advance.notes {onLoop : Bool} {frame : Frame} {input : Input} {frames : List Frame}
    (advance : Advance settings impl onLoop w frame input w' frames) :
    w'.trace = w.trace ∨ ∃ e, w.Notes frame e ∧ w'.trace = w.trace ++ [e] := by
  cases advance with
  | accept open_ => exact Or.inr ⟨_, .accepted open_, rfl⟩
  | shutdownWrite => exact Or.inr ⟨_, .shut, rfl⟩
  | handleCloseStore down => exact Or.inr ⟨_, .down, operate_trace down⟩
  | connectDestroyedStore down => exact Or.inr ⟨_, .destroyed, operate_trace down⟩
  | connectEstablishedStore ran => exact Or.inr ⟨_, .up, operate_trace ran⟩
  | watch _ ran | connectDestroyedRest ran => exact Or.inl (operate_trace ran)
  | closeHere _ removed =>
    obtain ⟨_, rfl⟩ := removeConnectionInLoop_ok.mp removed
    exact Or.inr ⟨_, .close, rfl⟩
  | closeElsewhere => exact Or.inr ⟨_, .close, rfl⟩
  | sendInLoopStart sent =>
    obtain ⟨answer, _, ran⟩ := sent
    obtain ⟨rfl, _⟩ := Prod.mk.inj ran
    simp only
    split
    · exact Or.inr ⟨_, .direct, rfl⟩
    · exact Or.inl (List.append_nil _)
  | sendInLoopRest ran =>
    obtain ⟨conn, _, ⟨_, rfl⟩ | ⟨_, operated⟩⟩ := sendInLoopRest_ok ran
    · exact Or.inr ⟨_, .append, rfl⟩
    · exact Or.inr ⟨_, .append, operate_trace operated⟩
  | handleRead ran =>
    obtain ⟨n, conn, _, ⟨_, rfl, _⟩ | ⟨_, rfl, _⟩ | ⟨_, rfl, _⟩⟩ := handleRead_ok ran
    · exact Or.inr ⟨_, .message, rfl⟩
    · exact Or.inl rfl
    · exact Or.inl rfl
  | handleWrite _ _ ran =>
    obtain ⟨start, _, ⟨_, rfl, _⟩ | ⟨_, _, w₁, operated, rfl⟩⟩ := handleWrite_ok ran
    · exact Or.inr ⟨_, .drain, rfl⟩
    · exact Or.inr ⟨_, .drain, operate_trace operated⟩
  | _ => exact Or.inl rfl

theorem Step.notes {action : Action impl.Answer} (step : Step settings impl w action w') :
    w'.trace = w.trace ∨
      ∃ frame e, w.running action = some frame ∧ w.Notes frame e ∧ w'.trace = w.trace ++ [e] := by
  cases step with
  | @loop frame _ _ _ _ stack advance =>
    refine advance.notes.imp_right fun ⟨e, notes, noted⟩ => ⟨frame, e, ?_, notes, noted⟩
    simp [running, stack]
  | @other frame _ _ _ _ others advance =>
    refine advance.notes.imp_right fun ⟨e, notes, noted⟩ => ⟨frame, e, ?_, notes, noted⟩
    simp [running, others]
  | _ => exact Or.inl rfl

theorem later_of_enters {frame : Frame} (enters : frame.enters = true) : frame.later = none := by
  cases frame with
  | post task => cases task <;> first | rfl | cases enters
  | _ => first | rfl | cases enters

/-- Such a frame comes from a test or a store of `state_`. -/
theorem Advance.later {onLoop : Bool} {frame other : Frame} {input : Input} {frames : List Frame}
    (advance : Advance settings impl onLoop w frame input w' frames) (member : other ∈ frames)
    (later : other.later = some c) : w'.state c ≠ .kConnecting := by
  cases advance.follows.leads member with
  | call enters => cases later.symm.trans (later_of_enters enters)
  | shutdownNow | shutdownLater =>
    cases later
    cases advance with
    | yes tested | no tested => cases tested
    | shutdownLate => cases member
    | shutdown => simp [state_setState]
  | shutdownDrained =>
    cases later
    cases advance with
    | yes tested same =>
      cases tested
      simp [show w.state _ = .kDisconnecting from same]
    | no tested _ none =>
      cases tested
      cases none
      cases member
  | closeRest =>
    cases later
    cases advance with
    | yes tested | no tested => cases tested
    | handleCloseStore down => simp [goDown_state down]
  | _ => cases later

/-- Such frames run, or are queued, past `kConnecting` only. -/
structure Underway (w : World σ) : Prop where
  stack : ∀ frame ∈ w.stack, ∀ c, frame.later = some c → w.state c ≠ .kConnecting
  others : ∀ frame ∈ w.others, ∀ c, frame.later = some c → w.state c ≠ .kConnecting
  tasks : ∀ c, .shutdownInLoop c ∈ w.tasks → w.state c ≠ .kConnecting

theorem Underway.step (underway : w.Underway) {action : Action impl.Answer}
    (step : Step settings impl w action w') : w'.Underway := by
  refine ⟨fun frame member c later => ?_, fun frame member c later => ?_, fun c member => ?_⟩
  · cases step.origin frame member with
    | kept old => exact step.state_ne (underway.stack frame old c later)
    | advanced _ advance _ conns new =>
      have past := advance.later new later
      rwa [World.state, conns] at past
    | @started task listed =>
      cases task <;> cases later
      exact step.state_ne (underway.tasks c listed)
    | dispatched | resumed | destroyed => cases later
  · rcases step.others_origin member with old | enters | ⟨_, _, _, _, advance, conns, new⟩
    · exact step.state_ne (underway.others frame old c later)
    · cases later.symm.trans (later_of_enters enters)
    · have past := advance.later new later
      rwa [World.state, conns] at past
  · rcases step.tasks_origin _ member with old | posted | ⟨_, _, same⟩ | ⟨_, same⟩ | ⟨_, _, same⟩
    · exact step.state_ne (underway.tasks c old)
    · refine step.state_ne ?_
      rcases running_mem posted with on | off
      · exact underway.stack _ on c rfl
      · exact underway.others _ off c rfl
    · cases same
    · cases same
    · cases same

theorem Notes.conn {frame : Frame} {e : Event} (notes : w.Notes frame e) :
    frame = .connectEstablishedStore e.conn ∧ e = .up e.conn ∨
      (∀ c, e ≠ .up c) ∧ ∀ c, frame ≠ .connectEstablishedStore c := by
  cases notes with
  | up => exact Or.inl ⟨rfl, rfl⟩
  | _ => exact Or.inr ⟨nofun, nofun⟩

/-- Every other event is about an established connection. -/
theorem Notes.past {frame : Frame} {e : Event} (notes : w.Notes frame e)
    (known : w.Knows false frame) (begun : w.FrameBegun settings frame)
    (later : ∀ c, frame.later = some c → w.state c ≠ .kConnecting) (other : ∀ c, e ≠ .up c) :
    w.state e.conn ≠ .kConnecting := by
  cases notes with
  | up => exact absurd rfl (other _)
  | down | destroyed => rcases known with open_ | open_ <;> simp [Event.conn, open_]
  | close | shut => exact later _ rfl
  | accepted open_ => simp [Event.conn, open_]
  | message | direct | append | drain => exact begun

/-- A connection leaves `kConnecting` by the store of `connectEstablished` only. -/
theorem Step.leaves {action : Action impl.Answer} (step : Step settings impl w action w')
    (orderly : w.Orderly) (connecting : w.state c = .kConnecting) :
    w'.state c ≠ .kConnecting ↔ w.running action = some (.connectEstablishedStore c) := by
  rcases step.state with ⟨same, silent⟩ | ⟨frame, c', s, runs, stores, changed⟩
  · refine ⟨fun moved => absurd connecting (same ▸ moved), fun runs => ?_⟩
    exact absurd .connectEstablished (silent _ runs _ _)
  · have known := orderly.running_knows runs
    rw [changed, runs, Option.some.injEq]
    by_cases own : c = c'
    · subst own
      rw [if_pos rfl]
      cases stores with
      | connectEstablished => simp
      | shutdown open_ => cases connecting.symm.trans open_
      | forceClose => exact absurd connecting known
      | handleClose | connectDestroyed =>
        rcases known with open_ | open_ <;> cases connecting.symm.trans open_
    · rw [if_neg own]
      refine ⟨absurd connecting, fun same => ?_⟩
      subst same
      cases stores
      exact absurd rfl own

/-- The events of one connection, in order. -/
def story (w : World σ) (c : ConnId) : List Event := w.trace.filter fun e => e.conn = c

/-- A connection's story begins when it leaves `kConnecting`, with its up event, which does
not come again. -/
structure Announced (settings : Settings) (mentions : σ → ChannelId → Prop) (w : World σ) :
    Prop where
  orderly : w.Orderly
  established : w.Established settings mentions
  underway : w.Underway
  untold : ∀ c, w.state c = .kConnecting → w.story c = []
  told : ∀ c, w.state c ≠ .kConnecting → ∃ rest, w.story c = .up c :: rest ∧ .up c ∉ rest

variable {mentions : σ → ChannelId → Prop}

theorem start_announced (settings : Settings) {poller : σ}
    (empty : ∀ id, ¬ mentions poller id) : (start settings poller).Announced settings mentions where
  orderly := start_orderly settings poller
  established := start_established settings empty
  underway := ⟨by simp [start], by simp [start], by simp [start, World.tasks]⟩
  untold _ _ := rfl
  told c begun := absurd rfl begun

theorem Announced.notes (announced : w.Announced settings mentions)
    {action : Action impl.Answer} {frame : Frame} {e : Event}
    (runs : w.running action = some frame) (notes : w.Notes frame e) (other : ∀ c, e ≠ .up c) :
    w.state e.conn ≠ .kConnecting := by
  have known := announced.orderly.running_knows runs
  rcases running_mem runs with on | off
  · exact notes.past known (announced.established.stack frame on)
      (announced.underway.stack frame on) other
  · exact notes.past known (announced.established.others frame off)
      (announced.underway.others frame off) other

theorem story_append {events : List Event} (noted : w'.trace = w.trace ++ events) :
    w'.story c = w.story c ++ events.filter fun e => e.conn = c := by
  rw [story, noted, List.filter_append]
  rfl

/-- The store of `connectEstablished` comes with the up event. -/
theorem Step.establishes {action : Action impl.Answer} (step : Step settings impl w action w')
    (runs : w.running action = some (.connectEstablishedStore c)) :
    w'.story c = w.story c ++ [.up c] := by
  have called := step.callbacks
  rw [newCallbacks, runs] at called
  rcases step.notes with same | ⟨frame, e, runs', notes, noted⟩
  · rw [World.callbacks, same] at called
    exact absurd called (by simp [World.callbacks, Frame.callbacks])
  · rw [runs, Option.some.injEq] at runs'
    subst runs'
    cases notes
    rw [story_append noted]
    simp [Event.conn]

theorem Announced.step (announced : w.Announced settings mentions)
    (lawful : impl.Lawful mentions) {action : Action impl.Answer}
    (step : Step settings impl w action w') : w'.Announced settings mentions := by
  have back (c : ConnId) (connecting : w'.state c = .kConnecting) : w.state c = .kConnecting := by
    by_contra begun
    exact step.state_ne begun connecting
  refine ⟨step.orderly announced.orderly,
    announced.established.step lawful announced.orderly step, announced.underway.step step,
    fun c connecting => ?_, fun c begun => ?_⟩
  · have before := back c connecting
    have stays := (not_congr (step.leaves announced.orderly before)).mp (by simpa using connecting)
    rcases step.notes with same | ⟨frame, e, runs, notes, noted⟩
    · rw [story, same]
      exact announced.untold c before
    · rw [story_append noted, announced.untold c before, List.nil_append]
      refine List.filter_eq_nil_iff.mpr fun e' member own => ?_
      cases List.mem_singleton.mp member
      have own : e.conn = c := of_decide_eq_true own
      rcases notes.conn with ⟨rfl, _⟩ | ⟨other, _⟩
      · exact stays (own ▸ runs)
      · exact announced.notes runs notes other (own ▸ before)
  · by_cases before : w.state c = .kConnecting
    · have runs := (step.leaves announced.orderly before).mp begun
      refine ⟨[], ?_, List.not_mem_nil⟩
      rw [step.establishes runs, announced.untold c before]
      rfl
    · obtain ⟨rest, told, once⟩ := announced.told c before
      rcases step.notes with same | ⟨frame, e, runs, notes, noted⟩
      · exact ⟨rest, by rw [story, same]; exact told, once⟩
      · refine ⟨rest ++ [e].filter fun e => e.conn = c, by rw [story_append noted, told]; rfl, ?_⟩
        simp only [List.mem_append, List.mem_filter, List.mem_singleton, not_or]
        refine ⟨once, ?_⟩
        rintro ⟨rfl, _⟩
        cases notes
        exact before (announced.orderly.running_knows runs)

end World

end Muduo.Source
