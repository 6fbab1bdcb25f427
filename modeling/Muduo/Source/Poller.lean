import Mathlib.Data.Finmap
import Muduo.Source.Channel
import Muduo.Source.Fault

/-!
# Poller (muduo/net/poller.h)

What the two pollers share: the map `channels_` from descriptors to channels,
and the channel objects themselves, which a poller changes only through
`set_index` and `set_revents`. `operate` is an operation of `Channel` together
with the poller's part of it, reached through the owning loop.
-/
namespace Muduo.Source

/-- `std::unordered_map<int, T>`. -/
abbrev FdMap (α : Type) := Finmap fun _ : Int => α

namespace FdMap

variable {α : Type} (m : FdMap α) {fd other : Int} (x : α)

/-- `find`, with `none` for `end()`. -/
def find (m : FdMap α) (fd : Int) : Option α := m.lookup fd

@[simp] theorem find_empty (fd : Int) : FdMap.find (∅ : FdMap α) fd = none :=
  Finmap.lookup_empty fd

@[simp] theorem find_insert : FdMap.find (m.insert fd x) fd = some x := Finmap.lookup_insert m

theorem find_insert_of_ne (different : other ≠ fd) :
    FdMap.find (m.insert fd x) other = FdMap.find m other :=
  Finmap.lookup_insert_of_ne m different

@[simp] theorem find_erase : FdMap.find (m.erase fd) fd = none := Finmap.lookup_erase fd m

theorem find_erase_of_ne (different : other ≠ fd) :
    FdMap.find (m.erase fd) other = FdMap.find m other :=
  Finmap.lookup_erase_ne different

end FdMap

/-- The channel objects, by address. -/
abbrev ChannelHeap := ChannelId → Channel

namespace ChannelHeap

def set (heap : ChannelHeap) (id : ChannelId) (ch : Channel) : ChannelHeap :=
  Function.update heap id ch

def setIndex (heap : ChannelHeap) (id : ChannelId) (index : Int) : ChannelHeap :=
  heap.set id { heap id with index := index }

def setRevents (heap : ChannelHeap) (id : ChannelId) (revents : EventMask) : ChannelHeap :=
  heap.set id { heap id with revents := revents }

variable (heap : ChannelHeap) (id other : ChannelId) (ch : Channel)

@[simp] theorem set_same : heap.set id ch id = ch := Function.update_self ..

theorem set_other (different : other ≠ id) : heap.set id ch other = heap other :=
  Function.update_of_ne different ..

theorem set_apply : heap.set id ch other = if other = id then ch else heap other :=
  Function.update_apply ..

@[simp] theorem fd_setIndex (index : Int) : (heap.setIndex id index other).fd = (heap other).fd := by
  rw [setIndex, set_apply]
  split <;> simp_all

@[simp] theorem events_setIndex (index : Int) :
    (heap.setIndex id index other).events = (heap other).events := by
  rw [setIndex, set_apply]
  split <;> simp_all

@[simp] theorem index_setIndex_same (index : Int) : (heap.setIndex id index id).index = index := by
  rw [setIndex, set_same]

theorem setIndex_other (different : other ≠ id) (index : Int) :
    heap.setIndex id index other = heap other :=
  set_other _ _ _ _ different

@[simp] theorem fd_setRevents (revents : EventMask) :
    (heap.setRevents id revents other).fd = (heap other).fd := by
  rw [setRevents, set_apply]
  split <;> simp_all

@[simp] theorem events_setRevents (revents : EventMask) :
    (heap.setRevents id revents other).events = (heap other).events := by
  rw [setRevents, set_apply]
  split <;> simp_all

@[simp] theorem revents_setRevents_same (revents : EventMask) :
    (heap.setRevents id revents id).revents = revents := by
  rw [setRevents, set_same]

theorem setRevents_other (different : other ≠ id) (revents : EventMask) :
    heap.setRevents id revents other = heap other :=
  set_other _ _ _ _ different

/-- One of the five operations on a channel, as far as the channel is concerned. -/
def change (heap : ChannelHeap) (id : ChannelId) (opt : Opt) : ChannelHeap :=
  heap.set id ((heap id).change opt)

@[simp] theorem fd_change (opt : Opt) : (heap.change id opt other).fd = (heap other).fd := by
  rw [change, set_apply]
  split <;> simp_all [Channel.change]

@[simp] theorem index_change (opt : Opt) : (heap.change id opt other).index = (heap other).index := by
  rw [change, set_apply]
  split <;> simp_all [Channel.change]

@[simp] theorem events_change_same (opt : Opt) :
    (heap.change id opt id).events = Channel.newEvents (heap id).events opt := by
  rw [change, set_same]
  rfl

theorem change_other (different : other ≠ id) (opt : Opt) :
    heap.change id opt other = heap other :=
  set_other _ _ _ _ different

/-- The channel's part of `Channel::remove`. -/
def leave (heap : ChannelHeap) (id : ChannelId) : ChannelHeap :=
  heap.set id { heap id with addedToLoop := false }

@[simp] theorem fd_leave : (heap.leave id other).fd = (heap other).fd := by
  rw [leave, set_apply]
  split <;> simp_all

@[simp] theorem events_leave : (heap.leave id other).events = (heap other).events := by
  rw [leave, set_apply]
  split <;> simp_all

@[simp] theorem index_leave : (heap.leave id other).index = (heap other).index := by
  rw [leave, set_apply]
  split <;> simp_all

theorem leave_other (different : other ≠ id) : heap.leave id other = heap other :=
  set_other _ _ _ _ different

end ChannelHeap

/-- The virtual functions of `Poller`, on a state `σ` of an implementation. -/
structure PollerImpl (σ : Type) where
  updateChannel : ChannelHeap → σ → ChannelId → Opt → Except Fault (ChannelHeap × σ)
  removeChannel : ChannelHeap → σ → ChannelId → Except Fault (ChannelHeap × σ)

/-- `enableReading .. disableAll`, and `remove`. -/
inductive ChannelOp where
  | update (opt : Opt)
  | remove
  deriving DecidableEq, Repr

/-- The channel's own part of an operation. -/
def ChannelOp.apply (op : ChannelOp) (heap : ChannelHeap) (id : ChannelId) : ChannelHeap :=
  match op with
  | .update opt => heap.change id opt
  | .remove => heap.leave id

def PollerImpl.operate {σ : Type} (impl : PollerImpl σ) (heap : ChannelHeap) (s : σ)
    (id : ChannelId) : ChannelOp → Except Fault (ChannelHeap × σ)
  | .update opt => impl.updateChannel (heap.change id opt) s id opt
  | .remove =>
    if (heap id).isNoneEvent then impl.removeChannel (heap.leave id) s id
    else .error (.assertFailed .channelRemove)

/-- What `EventLoop::loop` does with a batch, while no callback changes it: the
callbacks made, each with its channel. -/
def dispatch (heap : ChannelHeap) (active : List ChannelId) : List (ChannelId × EventCallback) :=
  active.flatMap fun id => (heap id).handleEvent.map (Prod.mk id)

theorem count_dispatch (heap : ChannelHeap) (active : List ChannelId) (id : ChannelId)
    (callback : EventCallback) :
    (dispatch heap active).count (id, callback) =
      active.count id * (heap id).handleEvent.count callback := by
  induction active with
  | nil => simp [dispatch]
  | cons head rest ih =>
    have own : (((heap head).handleEvent.map (Prod.mk head)).count (id, callback)) =
        if head = id then (heap id).handleEvent.count callback else 0 := by
      split
      · next same =>
        subst same
        exact List.count_map_of_injective _ _ (fun _ _ same => (Prod.mk.inj same).2) _
      · next different =>
        rw [List.count_eq_zero]
        intro member
        obtain ⟨_, _, same⟩ := List.mem_map.mp member
        exact different (Prod.mk.inj same).1
    have unfolded : dispatch heap (head :: rest) =
        (heap head).handleEvent.map (Prod.mk head) ++ dispatch heap rest := rfl
    rw [unfolded, List.count_append, own, ih, List.count_cons]
    by_cases same : head = id
    · simp [same, Nat.add_mul, Nat.add_comm]
    · simp [same]

end Muduo.Source
