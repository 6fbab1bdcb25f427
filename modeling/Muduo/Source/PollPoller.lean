import Muduo.Source.Poller

/-!
# PollPoller (muduo/net/poller/poll_poller.cc)

`poll_fds_` is a list of `struct pollfd`; a channel's `index_` is its slot. An
entry whose channel has no interest carries `-fd - 1`, which `::poll` ignores.
Removal moves the last entry into the freed slot.
-/
namespace Muduo.Source

structure Pollfd where
  fd : Int
  events : BitVec 16
  revents : BitVec 16
  deriving DecidableEq, Repr

structure PollPoller where
  channels : FdMap ChannelId
  pollFds : List Pollfd

namespace PollPoller

def new : PollPoller := ⟨∅, []⟩

/-- `-fd - 1`: the ignored form of a descriptor. -/
def ignored (fd : Int) : Int := -fd - 1

/-- `updateChannel` on a channel with a negative index: a new entry at the end. -/
def appendChannel (heap : ChannelHeap) (sys : PollPoller) (id : ChannelId) :
    Except Fault (ChannelHeap × PollPoller) :=
  let ch := heap id
  if sys.channels.find ch.fd ≠ none then .error (.assertFailed .updateChannelAbsent)
  else
    let pollFds := sys.pollFds ++ [⟨ch.fd, ch.events.setWidth 16, 0⟩]
    .ok (heap.setIndex id ((pollFds.length : Int) - 1),
      ⟨sys.channels.insert ch.fd id, pollFds⟩)

/-- `updateChannel` on a channel with an index: its entry is rewritten. -/
def rewriteChannel (heap : ChannelHeap) (sys : PollPoller) (id : ChannelId) :
    Except Fault (ChannelHeap × PollPoller) :=
  let ch := heap id
  if sys.channels.find ch.fd = none then .error (.assertFailed .updateChannelPresent)
  else if sys.channels.find ch.fd ≠ some id then .error (.assertFailed .updateChannelSame)
  else if ch.index < 0 then .error (.assertFailed .updateChannelIndex)
  else
    match sys.pollFds[ch.index.toNat]? with
    | none => .error (.assertFailed .updateChannelIndex)
    | some pfd =>
      if pfd.fd ≠ ch.fd ∧ pfd.fd ≠ ignored ch.fd then .error (.assertFailed .updateChannelEntry)
      else
        let fd := if ch.isNoneEvent then ignored ch.fd else ch.fd
        .ok (heap, { sys with
          pollFds := sys.pollFds.set ch.index.toNat ⟨fd, ch.events.setWidth 16, 0⟩ })

/-- `updateChannel` reads the interest from the channel, not from `opt`. -/
def updateChannel (heap : ChannelHeap) (sys : PollPoller) (id : ChannelId) (_opt : Opt) :
    Except Fault (ChannelHeap × PollPoller) :=
  if (heap id).index < 0 then appendChannel heap sys id else rewriteChannel heap sys id

/-- The entry swap of `removeChannel`; the moved channel is found by its decoded
descriptor and gets the freed slot as index. -/
def swapOut (heap : ChannelHeap) (sys : PollPoller) (slot : Nat) :
    Except Fault (ChannelHeap × PollPoller) :=
  if slot + 1 = sys.pollFds.length then
    .ok (heap, { sys with pollFds := sys.pollFds.dropLast })
  else
    match sys.pollFds.getLast? with
    | none => .error .outOfRange
    | some last =>
      let channelAtEnd := if last.fd < 0 then ignored last.fd else last.fd
      match sys.channels.find channelAtEnd with
      | none => .error .outOfRange
      | some moved =>
        .ok (heap.setIndex moved slot,
          { sys with pollFds := (sys.pollFds.set slot last).dropLast })

/-- `removeChannel`; the index of the removed channel stays as it is. -/
def removeChannel (heap : ChannelHeap) (sys : PollPoller) (id : ChannelId) :
    Except Fault (ChannelHeap × PollPoller) :=
  let ch := heap id
  if sys.channels.find ch.fd = none then .error (.assertFailed .removeChannelPresent)
  else if sys.channels.find ch.fd ≠ some id then .error (.assertFailed .removeChannelSame)
  else if ¬ ch.isNoneEvent then .error (.assertFailed .removeChannelNoneEvent)
  else if ch.index < 0 then .error (.assertFailed .removeChannelIndex)
  else
    match sys.pollFds[ch.index.toNat]? with
    | none => .error (.assertFailed .removeChannelIndex)
    | some pfd =>
      if pfd.fd ≠ ignored ch.fd ∨ pfd.events.signExtend 32 ≠ ch.events then
        .error (.assertFailed .removeChannelEntry)
      else swapOut heap { sys with channels := sys.channels.erase ch.fd } ch.index.toNat

/-- `PollPoller` as a `Poller`. -/
def impl : PollerImpl PollPoller := ⟨updateChannel, removeChannel⟩

/-- The loop of `fillActiveChannels`, which ends after `numEvents` reported entries. -/
def fill (channels : FdMap ChannelId) (heap : ChannelHeap) :
    List Pollfd → Nat → Except Fault (ChannelHeap × List ChannelId)
  | [], _ | _ :: _, 0 => .ok (heap, [])
  | pfd :: rest, numEvents + 1 =>
    if pfd.revents.toInt ≤ 0 then fill channels heap rest (numEvents + 1)
    else
      match channels.find pfd.fd with
      | none => .error (.assertFailed .fillActiveChannelsPresent)
      | some id =>
        if (heap id).fd ≠ pfd.fd then .error (.assertFailed .fillActiveChannelsFd)
        else
          match fill channels (heap.setRevents id (pfd.revents.signExtend 32)) rest numEvents with
          | .ok (heap, active) => .ok (heap, id :: active)
          | .error e => .error e

/-- What `::poll` answers: an error, or how many entries it reports and the
`revents` it stored in each. -/
inductive PollAnswer where
  | error
  | events (numEvents : Nat) (revents : Nat → BitVec 16)

/-- The entries after `::poll` has stored `revents`. -/
def stored (pollFds : List Pollfd) (revents : Nat → BitVec 16) : List Pollfd :=
  pollFds.mapIdx fun slot pfd => { pfd with revents := revents slot }

def poll (heap : ChannelHeap) (sys : PollPoller) (answer : PollAnswer) :
    Except Fault (ChannelHeap × PollPoller × List ChannelId) :=
  match answer with
  | .error => .ok (heap, sys, [])
  | .events numEvents revents =>
    let sys := { sys with pollFds := stored sys.pollFds revents }
    match fill sys.channels heap sys.pollFds numEvents with
    | .ok (heap, active) => .ok (heap, sys, active)
    | .error e => .error e

end PollPoller

end Muduo.Source
