import Muduo.Support.Memory
import Muduo.Support.SizeT
import Muduo.Source.Fault

/-!
# Buffer (muduo/net/buffer.h, muduo/net/buffer.cc)

`buffer_`, `read_idx_` and `write_idx_` become a list of bytes and two `size_t`
indices. Every operation is a state transformer that may end in a fault; the
state at the fault is kept, since an exception leaves the object behind.
`std::copy`, the string constructor and the two iovecs check their ranges and
fault with `outOfRange` where C++ would touch memory outside the storage.
-/
namespace Muduo.Source
open Muduo.Support

abbrev Byte := UInt8
abbrev Bytes := List Byte

/-- `std::vector<char>::max_size()`. -/
def kMaxSize : Nat := 2 ^ 63 - 1

def kCheapPrepend : Nat := 8
def kInitialSize : Nat := 1024

/-- `sizeof extrabuf` in `readFd`. -/
def kExtraBuf : Nat := 65536

structure Buffer where
  buffer : Bytes
  readIdx : Nat
  writeIdx : Nat
  deriving DecidableEq, Repr

/-- What `::readv` answers: the bytes it stored, or `-1` with an `errno`. -/
inductive ReadvAnswer where
  | bytes (data : Bytes)
  | error (errno : Nat)
  deriving DecidableEq, Repr

namespace Buffer

abbrev BufferM := EStateM Fault Buffer

/-- The constructor; the vector throws above its `max_size()`. -/
def new (initialSize : Nat) : Except Fault Buffer :=
  if sizeAdd kCheapPrepend initialSize ≤ kMaxSize then
    .ok ⟨List.replicate (sizeAdd kCheapPrepend initialSize) 0, kCheapPrepend, kCheapPrepend⟩
  else .error .lengthError

def size (b : Buffer) : Nat := b.buffer.length
def readableBytes (b : Buffer) : Nat := sizeSub b.writeIdx b.readIdx
def writableBytes (b : Buffer) : Nat := sizeSub b.size b.writeIdx
def prependableBytes (b : Buffer) : Nat := b.readIdx

/-- The value of a buffer: `buffer_[read_idx_, write_idx_)`. -/
def value (b : Buffer) : Bytes := b.buffer.extract b.readIdx b.writeIdx

def require (fact : Prop) [Decidable fact] (assertion : Assertion) : BufferM Unit :=
  if fact then pure () else throw (.assertFailed assertion)

/-- Read the storage range `[first, last)`. -/
def readRange (first last : Nat) : BufferM Bytes := do
  let b ← get
  if first ≤ last ∧ last ≤ b.size then return b.buffer.extract first last
  else throw .outOfRange

/-- Store `data` at `pos`. -/
def writeRange (pos : Nat) (data : Bytes) : BufferM Unit := do
  let b ← get
  if pos + data.length ≤ b.size then set { b with buffer := overwrite b.buffer pos data }
  else throw .outOfRange

/-- `buffer_.resize(n)`, which throws above `max_size()` and changes nothing then. -/
def resizeStorage (n : Nat) : BufferM Unit := do
  let b ← get
  if n ≤ kMaxSize then set { b with buffer := resize b.buffer n 0 }
  else throw .lengthError

/-- The compaction branch of `makeSpace`. -/
def moveReadable : BufferM Unit := do
  let b ← get
  let readable ← readRange b.readIdx b.writeIdx
  writeRange kCheapPrepend readable
  modify fun b => { b with readIdx := kCheapPrepend }
  -- readableBytes() is evaluated after read_idx_ has moved
  modify fun b => { b with writeIdx := sizeAdd b.readIdx b.readableBytes }

def makeSpace (len : Nat) : BufferM Unit := do
  let b ← get
  if kCheapPrepend < b.readIdx then moveReadable
  let b ← get
  if b.writableBytes < len then resizeStorage (sizeAdd b.writeIdx len)

def ensureWritableBytes (len : Nat) : BufferM Unit := do
  let b ← get
  if b.writableBytes < len then makeSpace len
  let b ← get
  require (len ≤ b.writableBytes) .ensureWritableBytes

/-- `append` after its reservation. -/
def appendRest (data : Bytes) : BufferM Unit := do
  let b ← get
  writeRange b.writeIdx data
  modify fun b => { b with writeIdx := sizeAdd b.writeIdx data.length }

def append (data : Bytes) : BufferM Unit := do
  ensureWritableBytes data.length
  appendRest data

def retrieveAll : BufferM Unit :=
  modify fun b => { b with readIdx := kCheapPrepend, writeIdx := kCheapPrepend }

def retrieve (len : Nat) : BufferM Unit := do
  let b ← get
  require (len ≤ b.readableBytes) .retrieve
  if len < b.readableBytes then modify fun b => { b with readIdx := sizeAdd b.readIdx len }
  else retrieveAll

def retrieveAsString (len : Nat) : BufferM Bytes := do
  let b ← get
  require (len ≤ b.readableBytes) .retrieveAsString
  let tmp ← readRange b.readIdx (sizeAdd b.readIdx len)
  retrieve len
  return tmp

def retrieveAllAsString : BufferM Bytes := do
  let b ← get
  retrieveAsString b.readableBytes

def prepend (data : Bytes) : BufferM Unit := do
  let b ← get
  require (data.length ≤ b.prependableBytes) .prepend
  modify fun b => { b with readIdx := sizeSub b.readIdx data.length }
  let b ← get
  writeRange b.readIdx data

/-- `swap`: the other buffer is returned. -/
def swap (rhs : Buffer) : BufferM Buffer := do
  let b ← get
  set rhs
  return b

/-- Run an operation on the local `other`; the state of `*this` is untouched. -/
def onLocal (other : Buffer) (op : BufferM Unit) : BufferM Buffer := fun b =>
  match op other with
  | .ok _ other' => .ok other' b
  | .error e _ => .error e b

def shrink (reserve : Nat) : BufferM Unit := do
  let b ← get
  match new kInitialSize with
  | .error e => throw e
  | .ok other =>
    let other ← onLocal other (ensureWritableBytes (sizeAdd b.readableBytes reserve))
    -- `append` reads its range after the reservation
    let other ← onLocal other (ensureWritableBytes b.readableBytes)
    let readable ← readRange b.readIdx (sizeAdd b.readIdx b.readableBytes)
    let other ← onLocal other (appendRest readable)
    let _ ← swap other

/-- `readFd`: `readv` fills the writable part first and `extrabuf` with the rest. -/
def readFd (answer : ReadvAnswer) : BufferM Int := do
  match answer with
  | .error _ => return -1
  | .bytes data =>
    let b ← get
    let writable := b.writableBytes
    writeRange b.writeIdx (data.take writable)
    if kExtraBuf < (data.drop writable).length then throw .outOfRange
    if data.length ≤ writable then
      modify fun b => { b with writeIdx := sizeAdd b.writeIdx data.length }
    else
      modify fun b => { b with writeIdx := b.size }
      append (data.drop writable)
    return data.length

end Buffer

end Muduo.Source
