import Muduo.Support.Transition
import Muduo.Source.Poller

/-!
# Runs of channel operations over one poller

Any number of channels, each with its own descriptor, are operated on in any
order. `usage` follows what a caller has done: nothing since construction or
removal, or the directions enabled since then.
-/
namespace Muduo.Source
open Muduo.Support

/-- `none` for a channel that is new or removed, else the directions enabled since. -/
abbrev Usage := Option (Finset Direction)

def Usage.next (usage : Usage) : ChannelOp → Usage
  | .update .enRead => some (insert .read (usage.getD ∅))
  | .update .enWrite => some (insert .write (usage.getD ∅))
  | .update _ => usage
  | .remove => none

structure Session (σ : Type) where
  heap : ChannelHeap
  poller : σ
  usage : ChannelId → Usage

namespace Session

variable {σ : Type}

/-- All channels are new, on the given descriptors. -/
def start (empty : σ) (fdOf : ChannelId → Int) : Session σ :=
  ⟨fun id => .new (fdOf id), empty, fun _ => none⟩

def step (impl : PollerImpl σ) (s : Session σ) (action : ChannelId × ChannelOp) :
    Except Fault (Session σ) :=
  match impl.operate s.heap s.poller action.1 action.2 with
  | .ok (heap, poller) =>
    .ok ⟨heap, poller, Function.update s.usage action.1 ((s.usage action.1).next action.2)⟩
  | .error e => .error e

/-- How callers use channels: an enable first, a disable only after the enable of
its direction, a removal only without interest. -/
def Permitted (s : Session σ) (action : ChannelId × ChannelOp) : Prop :=
  match action.2, s.usage action.1 with
  | .update .enRead, _ | .update .enWrite, _ => True
  | .update .disRead, some seen => .read ∈ seen
  | .update .disWrite, some seen => .write ∈ seen
  | .update .disAll, some _ => True
  | .remove, some _ => (s.heap action.1).isNoneEvent = true
  | _, none => False

/-- The operation does not register a channel by `enableWriting`. -/
def ReadsFirst (s : Session σ) (action : ChannelId × ChannelOp) : Prop :=
  s.usage action.1 = none → action.2 ≠ .update .enWrite

end Session

/-- The life of channel objects: those enabled so far and not removed, and the removed ones. -/
structure Lives (σ : Type) where
  heap : ChannelHeap
  poller : σ
  live : List ChannelId
  removed : List ChannelId

namespace Lives

variable {σ : Type}

/-- All channels are new, on the given descriptors. -/
def start (empty : σ) (fdOf : ChannelId → Int) : Lives σ := ⟨fun id => .new (fdOf id), empty, [], []⟩

def step (impl : PollerImpl σ) (s : Lives σ) (action : ChannelId × ChannelOp) :
    Except Fault (Lives σ) :=
  match impl.operate s.heap s.poller action.1 action.2 with
  | .ok (heap, poller) =>
    match action.2 with
    | .update _ =>
      .ok ⟨heap, poller, if action.1 ∈ s.live then s.live else s.live ++ [action.1], s.removed⟩
    | .remove => .ok ⟨heap, poller, s.live.erase action.1, s.removed ++ [action.1]⟩
  | .error e => .error e

/-- Each object is enabled first, on a descriptor that no live channel has, and removed once,
without interest. -/
def Permitted (s : Lives σ) (action : ChannelId × ChannelOp) : Prop :=
  if action.1 ∈ s.live then action.2 = .remove → (s.heap action.1).isNoneEvent = true
  else
    action.1 ∉ s.removed ∧ (action.2 = .update .enRead ∨ action.2 = .update .enWrite) ∧
      0 ≤ (s.heap action.1).fd ∧ ∀ other ∈ s.live, (s.heap other).fd ≠ (s.heap action.1).fd

instance (s : Lives σ) (action : ChannelId × ChannelOp) : Decidable (s.Permitted action) := by
  unfold Permitted; infer_instance

end Lives

end Muduo.Source
