import Muduo.Support.Mask

/-!
# Channel (muduo/net/channel.h, muduo/net/channel.cc)

`events_` and `revents_` are `int` bit masks of `poll(2)` bits. The five
operations change `events_` and then hand an option code to the poller through
`EventLoop::updateChannel`; the poller's part is modelled with the pollers.
`handleEvent` is the list of callbacks it makes, in order: no callback writes
`revents_`, which only a poller sets between two dispatches.
-/
namespace Muduo.Source
open Muduo.Support

abbrev EventMask := BitVec 32

def pollIn : EventMask := 0x1
def pollPri : EventMask := 0x2
def pollOut : EventMask := 0x4
def pollErr : EventMask := 0x8
def pollHup : EventMask := 0x10
def pollNval : EventMask := 0x20

def kNoneEvent : EventMask := 0
def kReadEvent : EventMask := pollIn ||| pollPri
def kWriteEvent : EventMask := pollOut

/-- The option codes `kEnReadOpt .. kDisAllOpt`. -/
inductive Opt where
  | enRead | disRead | enWrite | disWrite | disAll
  deriving DecidableEq, Repr

/-- A direction of readiness. -/
inductive Direction where
  | read | write
  deriving DecidableEq, Repr

/-- What an operation says about a direction: on, off, or nothing. -/
def Opt.effect : Opt → Direction → Option Bool
  | .enRead, .read | .enWrite, .write => some true
  | .disRead, .read | .disWrite, .write | .disAll, _ => some false
  | .enRead, .write | .disRead, .write | .enWrite, .read | .disWrite, .read => none

/-- A channel is identified by its address. -/
abbrev ChannelId := Nat

structure Channel where
  fd : Int
  events : EventMask
  revents : EventMask
  index : Int
  addedToLoop : Bool
  deriving DecidableEq, Repr

inductive EventCallback where
  | close | error | read | write
  deriving DecidableEq, Repr

namespace Channel

def new (fd : Int) : Channel := ⟨fd, 0, 0, -1, false⟩

def isNoneEvent (ch : Channel) : Bool := ch.events == kNoneEvent
def isWriting (ch : Channel) : Bool := ch.events &&& kWriteEvent != 0
def isReading (ch : Channel) : Bool := ch.events &&& kReadEvent != 0

/-- The new `events_` of each operation. -/
def newEvents (events : EventMask) : Opt → EventMask
  | .enRead => events ||| kReadEvent
  | .disRead => events &&& ~~~kReadEvent
  | .enWrite => events ||| kWriteEvent
  | .disWrite => events &&& ~~~kWriteEvent
  | .disAll => kNoneEvent

/-- The operation's own part: `events_`, and the flag set by `update`. -/
def change (opt : Opt) (ch : Channel) : Channel :=
  { ch with events := newEvents ch.events opt, addedToLoop := true }

def enableReading (ch : Channel) : Channel := ch.change .enRead
def disableReading (ch : Channel) : Channel := ch.change .disRead
def enableWriting (ch : Channel) : Channel := ch.change .enWrite
def disableWriting (ch : Channel) : Channel := ch.change .disWrite
def disableAll (ch : Channel) : Channel := ch.change .disAll

/-- Callbacks made by `handleEvent` for a given `revents_`. -/
def callbacks (revents : EventMask) : List EventCallback :=
  (if revents &&& pollHup ≠ 0 ∧ revents &&& pollIn = 0 then [.close] else []) ++
  (if revents &&& (pollErr ||| pollNval) ≠ 0 then [.error] else []) ++
  (if revents &&& (pollIn ||| pollPri) ≠ 0 then [.read] else []) ++
  (if revents &&& pollOut ≠ 0 then [.write] else [])

def handleEvent (ch : Channel) : List EventCallback := callbacks ch.revents

theorem read_disjoint_write : kReadEvent &&& kWriteEvent = 0 := by decide
theorem write_disjoint_read : kWriteEvent &&& kReadEvent = 0 := by decide

/-- The writing bit of a mask after each operation. -/
theorem newEvents_and_write (events : EventMask) (opt : Opt) :
    newEvents events opt &&& kWriteEvent =
      match opt with
      | .enRead | .disRead => events &&& kWriteEvent
      | .enWrite => kWriteEvent
      | .disWrite | .disAll => 0 := by
  cases opt with
  | enRead => exact or_and_disjoint events read_disjoint_write
  | disRead => exact and_not_and_disjoint events read_disjoint_write
  | enWrite => exact or_and_self events kWriteEvent
  | disWrite => exact and_not_and_self events kWriteEvent
  | disAll => exact (by decide : kNoneEvent &&& kWriteEvent = 0)

/-- The reading bits of a mask after each operation. -/
theorem newEvents_and_read (events : EventMask) (opt : Opt) :
    newEvents events opt &&& kReadEvent =
      match opt with
      | .enWrite | .disWrite => events &&& kReadEvent
      | .enRead => kReadEvent
      | .disRead | .disAll => 0 := by
  cases opt with
  | enRead => exact or_and_self events kReadEvent
  | disRead => exact and_not_and_self events kReadEvent
  | enWrite => exact or_and_disjoint events write_disjoint_read
  | disWrite => exact and_not_and_disjoint events write_disjoint_read
  | disAll => exact (by decide : kNoneEvent &&& kReadEvent = 0)

/-- The mask asks for events of a direction. -/
def Wants (events : EventMask) : Direction → Prop
  | .read => events &&& kReadEvent ≠ 0
  | .write => events &&& kWriteEvent ≠ 0

instance (events : EventMask) (d : Direction) : Decidable (Wants events d) := by
  cases d <;> unfold Wants <;> infer_instance

theorem wants_newEvents (events : EventMask) (opt : Opt) (d : Direction) :
    Wants (newEvents events opt) d ↔
      match opt.effect d with
      | some on => on = true
      | none => Wants events d := by
  cases d with
  | read =>
    simp only [Wants, newEvents_and_read]
    cases opt with
    | enRead => exact iff_of_true (by decide : kReadEvent ≠ 0) rfl
    | disRead | disAll => exact iff_of_false (fun nonzero => nonzero rfl) Bool.false_ne_true
    | enWrite | disWrite => exact Iff.rfl
  | write =>
    simp only [Wants, newEvents_and_write]
    cases opt with
    | enWrite => exact iff_of_true (by decide : kWriteEvent ≠ 0) rfl
    | disWrite | disAll => exact iff_of_false (fun nonzero => nonzero rfl) Bool.false_ne_true
    | enRead | disRead => exact Iff.rfl

theorem not_wants_none (d : Direction) : ¬ Wants kNoneEvent d := by
  cases d <;> decide

@[simp] theorem isWriting_enableWriting (ch : Channel) : ch.enableWriting.isWriting = true := by
  simp only [isWriting, enableWriting, change, newEvents_and_write]
  rfl

@[simp] theorem isWriting_disableWriting (ch : Channel) : ch.disableWriting.isWriting = false := by
  simp only [isWriting, disableWriting, change, newEvents_and_write]
  rfl

end Channel

end Muduo.Source
