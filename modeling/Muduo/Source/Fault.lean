import Mathlib.Init

/-!
# Ways in which an operation does not return

`assert` is compiled in (the build sets no `NDEBUG`), so a failed assertion ends
the process; it is named after the function it stands in. `lengthError` is the
exception of `std::vector::resize`. `outOfRange` marks an access outside its
object, which C++ leaves undefined. `notEnabled` is no behaviour of the code: it
marks an action that the environment cannot take in the given state.
-/
namespace Muduo.Source

/-- The assertions of `muduo/net`, by function and tested fact. -/
inductive Assertion where
  | ensureWritableBytes | retrieve | retrieveAsString | prepend
  | channelRemove
  | fillActiveChannels | fillActiveChannelsPresent | fillActiveChannelsFd
  | updateChannelAbsent | updateChannelFirstEnable
  | updateChannelPresent | updateChannelSame | updateChannelIndex | updateChannelRecord
  | updateChannelEntry
  | updateRecord
  | removeChannelPresent | removeChannelSame | removeChannelNoneEvent | removeChannelIndex
  | removeChannelEntry | removeChannelRecord
  | connectEstablished | handleClose | tcpConnectionDtor
  | removeConnection
  deriving DecidableEq, Repr

inductive Fault where
  | assertFailed (assertion : Assertion)
  | lengthError
  | outOfRange
  | exitFailure
  | notEnabled
  deriving DecidableEq, Repr

/-- Passing a check that ends in a fault. -/
theorem check_ok {α : Type} {failing : Prop} [Decidable failing] {fault : Fault}
    {rest : Except Fault α} {result : α} :
    (if failing then .error fault else rest) = .ok result ↔ ¬ failing ∧ rest = .ok result := by
  by_cases h : failing <;> simp [h]

end Muduo.Source
