import Muduo.Source.Poller

/-!
# KqueuePoller (muduo/net/poller/kqueue_poller.cc)

The kernel side keeps a knote per (descriptor, filter): attached or not, and if
attached enabled or disabled with a `udata`. A `kevent` call applies its changes
in order and answers -1 at the first that fails; `update` then leaves the process
through `err`, `update_one` only logs.
-/
namespace Muduo.Source

/-- `EVFILT_READ`, `EVFILT_WRITE`. -/
abbrev Filter := Direction

/-- `EV_ADD | EV_ENABLE`, `EV_DISABLE`, `EV_DELETE`. -/
inductive KeventFlags where
  | addEnable | disable | delete
  deriving DecidableEq, Repr

structure Knote where
  enabled : Bool
  udata : ChannelId
  deriving DecidableEq, Repr

structure Kqueue where
  knotes : Int × Filter → Option Knote
  /-- calls that answered -1 -/
  failures : Nat

structure KeventChange where
  ident : Int
  filter : Filter
  flags : KeventFlags
  udata : ChannelId
  deriving DecidableEq, Repr

namespace Kqueue

def empty : Kqueue := ⟨fun _ => none, 0⟩

def setKnote (k : Kqueue) (ident : Int) (filter : Filter) (knote : Option Knote) : Kqueue :=
  { k with knotes := Function.update k.knotes (ident, filter) knote }

/-- Apply one change; `none` is `ENOENT`. -/
def register (k : Kqueue) (c : KeventChange) : Option Kqueue :=
  match c.flags, k.knotes (c.ident, c.filter) with
  | .addEnable, _ => some (k.setKnote c.ident c.filter (some ⟨true, c.udata⟩))
  | .disable, some knote => some (k.setKnote c.ident c.filter (some { knote with enabled := false }))
  | .delete, some _ => some (k.setKnote c.ident c.filter none)
  | .disable, none | .delete, none => none

/-- A `kevent` call with a change list and no event list. -/
def kevent (k : Kqueue) : List KeventChange → Bool × Kqueue
  | [] => (true, k)
  | c :: rest =>
    match k.register c with
    | some k' => kevent k' rest
    | none => (false, { k with failures := k.failures + 1 })

end Kqueue

structure KqueuePoller where
  channels : FdMap ChannelId
  kqEvents : FdMap EventMask
  /-- `events_.size()` -/
  eventsSize : Nat

/-- A poller with the kernel queue behind its descriptor. -/
structure KqueueSystem where
  poller : KqueuePoller
  kernel : Kqueue

namespace KqueuePoller

def kNew : Int := -1
def kAdded : Int := 1

def new : KqueuePoller := ⟨∅, ∅, 16⟩

end KqueuePoller

namespace KqueueSystem
open KqueuePoller

def new : KqueueSystem := ⟨.new, .empty⟩

def setKqEvents (sys : KqueueSystem) (fd : Int) (events : EventMask) : KqueueSystem :=
  { sys with poller.kqEvents := sys.poller.kqEvents.insert fd events }

/-- `update_one`: a failing call is logged and forgotten. -/
def updateOne (sys : KqueueSystem) (heap : ChannelHeap) (id : ChannelId) (filter : Filter)
    (flags : KeventFlags) : KqueueSystem :=
  { sys with kernel := (sys.kernel.kevent [⟨(heap id).fd, filter, flags, id⟩]).2 }

/-- The directions in a record, in the order `update` lists them. -/
def recordedFilters (reg : EventMask) : List Filter :=
  (if reg &&& kReadEvent ≠ 0 then [.read] else []) ++
  (if reg &&& kWriteEvent ≠ 0 then [.write] else [])

/-- The change list of `update`. -/
def recordedChanges (reg : EventMask) (fd : Int) (flags : KeventFlags) (id : ChannelId) :
    List KeventChange :=
  (recordedFilters reg).map fun filter => ⟨fd, filter, flags, id⟩

/-- `update`: a failing call ends the process. -/
def update (sys : KqueueSystem) (heap : ChannelHeap) (id : ChannelId) (flags : KeventFlags) :
    Except Fault KqueueSystem :=
  match sys.poller.kqEvents.find (heap id).fd with
  | none => .error (.assertFailed .updateRecord)
  | some reg =>
    match sys.kernel.kevent (recordedChanges reg (heap id).fd flags id) with
    | (true, kernel) => .ok { sys with kernel := kernel }
    | (false, _) => .error .exitFailure

/-- `updateChannel` on a channel that the poller does not know yet. -/
def updateNewChannel (sys : KqueueSystem) (heap : ChannelHeap) (id : ChannelId) (opt : Opt) :
    Except Fault (ChannelHeap × KqueueSystem) :=
  let fd := (heap id).fd
  if sys.poller.channels.find fd ≠ none then .error (.assertFailed .updateChannelAbsent)
  else if opt ≠ .enWrite ∧ opt ≠ .enRead then .error (.assertFailed .updateChannelFirstEnable)
  else
    let sys := { sys with poller.channels := sys.poller.channels.insert fd id }.setKqEvents fd 0
    let heap := heap.setIndex id kAdded
    if opt = .enRead then
      .ok (heap, (sys.updateOne heap id .read .addEnable).setKqEvents fd (0 ||| kReadEvent))
    else
      -- the record of an added write filter says read
      .ok (heap, (sys.updateOne heap id .write .addEnable).setKqEvents fd (0 ||| kReadEvent))

/-- `updateChannel` on a channel that it knows; `reg` is the record for its descriptor. -/
def updateKnownChannel (sys : KqueueSystem) (heap : ChannelHeap) (id : ChannelId) (opt : Opt)
    (reg : EventMask) : Except Fault KqueueSystem :=
  let fd := (heap id).fd
  match opt with
  | .disAll =>
    match sys.update heap id .disable with
    | .ok sys => .ok (sys.setKqEvents fd 0)
    | .error e => .error e
  | .enRead =>
    .ok ((sys.updateOne heap id .read .addEnable).setKqEvents fd (reg ||| kReadEvent))
  | .disRead =>
    .ok ((sys.updateOne heap id .read .disable).setKqEvents fd (reg &&& ~~~kReadEvent))
  | .enWrite =>
    .ok ((sys.updateOne heap id .write .addEnable).setKqEvents fd (reg ||| kWriteEvent))
  | .disWrite =>
    .ok ((sys.updateOne heap id .write .disable).setKqEvents fd (reg &&& ~~~kWriteEvent))

def updateChannel (heap : ChannelHeap) (sys : KqueueSystem) (id : ChannelId) (opt : Opt) :
    Except Fault (ChannelHeap × KqueueSystem) :=
  let fd := (heap id).fd
  if (heap id).index = kNew then sys.updateNewChannel heap id opt
  else if sys.poller.channels.find fd = none then .error (.assertFailed .updateChannelPresent)
  else if sys.poller.channels.find fd ≠ some id then .error (.assertFailed .updateChannelSame)
  else if (heap id).index ≠ kAdded then .error (.assertFailed .updateChannelIndex)
  else
    match sys.poller.kqEvents.find fd with
    | none => .error (.assertFailed .updateChannelRecord)
    | some reg =>
      match sys.updateKnownChannel heap id opt reg with
      | .ok sys => .ok (heap, sys)
      | .error e => .error e

/-- `removeChannel`; `update` looks the record up before it is erased. -/
def removeChannel (heap : ChannelHeap) (sys : KqueueSystem) (id : ChannelId) :
    Except Fault (ChannelHeap × KqueueSystem) :=
  let fd := (heap id).fd
  if sys.poller.channels.find fd = none then .error (.assertFailed .removeChannelPresent)
  else if sys.poller.channels.find fd ≠ some id then .error (.assertFailed .removeChannelSame)
  else if ¬ (heap id).isNoneEvent then .error (.assertFailed .removeChannelNoneEvent)
  else if (heap id).index ≠ kAdded then .error (.assertFailed .removeChannelIndex)
  else
    let sys := { sys with poller.channels := sys.poller.channels.erase fd }
    match sys.update heap id .delete with
    | .error e => .error e
    | .ok sys =>
      let heap := heap.setIndex id kNew
      if sys.poller.kqEvents.find fd = none then .error (.assertFailed .removeChannelRecord)
      else .ok (heap, { sys with poller.kqEvents := sys.poller.kqEvents.erase fd })

/-- `KqueuePoller` as a `Poller`. -/
def impl : PollerImpl KqueueSystem := ⟨updateChannel, removeChannel⟩

/-- A `struct kevent` that the kernel reports. -/
structure Record where
  filter : Filter
  udata : ChannelId
  deriving DecidableEq, Repr

/-- `revents` computed for one record. -/
def Record.revents (record : Record) : EventMask :=
  match record.filter with
  | .read => 0 ||| kReadEvent
  | .write => 0 ||| kWriteEvent

/-- The loop of `fillActiveChannels`: each record overwrites its channel's
`revents_` and appends the channel. -/
def fill (heap : ChannelHeap) : List Record → ChannelHeap × List ChannelId
  | [] => (heap, [])
  | record :: rest =>
    let (heap, active) := fill (heap.setRevents record.udata record.revents) rest
    (heap, record.udata :: active)

/-- What the blocking `kevent` answers: records, or an error. -/
abbrev PollAnswer := Option (List Record)

/-- `poll`, given the kernel's answer, which fills at most `events_`. -/
def poll (heap : ChannelHeap) (sys : KqueueSystem) (answer : PollAnswer) :
    Except Fault (ChannelHeap × KqueueSystem × List ChannelId) :=
  match answer with
  | none | some [] => .ok (heap, sys, [])
  | some records =>
    if sys.poller.eventsSize < records.length then .error (.assertFailed .fillActiveChannels)
    else
      let (heap, active) := fill heap records
      let eventsSize :=
        if records.length = sys.poller.eventsSize then sys.poller.eventsSize * 2
        else sys.poller.eventsSize
      .ok (heap, { sys with poller.eventsSize := eventsSize }, active)

end KqueueSystem

end Muduo.Source
