import NetworkSystem.Error
import Mathlib.Algebra.Group.Nat.Defs

/-!
# Messages and their wire format

`src/core/message.rs`. A message is its payload; on the wire it is a 4-byte big-endian length, then the
payload. A `usize` is 64 bits wide and every length that is added up here is at most
`HEADER_SIZE + MAX_MESSAGE_SIZE`, so lengths are natural numbers.
-/

namespace NetworkSystem

abbrev Bytes := List UInt8

def maxMessageSize : Nat := 16 * 1024 * 1024

def headerSize : Nat := 4

structure Message where
  data : Bytes
  deriving Repr, DecidableEq

/-- The number that the bytes spell, the most significant byte first. -/
def beValue (bs : Bytes) : Nat := bs.foldl (fun acc b => acc * 256 + b.toNat) 0

def u32FromBeBytes (bs : Bytes) : UInt32 := UInt32.ofNat (beValue bs)

/-- `BufMut::put_u32` puts these bytes at the end of the buffer. -/
def u32ToBeBytes (n : UInt32) : Bytes :=
  [UInt8.ofNat (n.toNat / 256 ^ 3), UInt8.ofNat (n.toNat / 256 ^ 2), UInt8.ofNat (n.toNat / 256),
    UInt8.ofNat n.toNat]

namespace Message

def size (m : Message) : Nat := m.data.length

def isEmpty (m : Message) : Bool := m.data.isEmpty

/-- The buffer that `encode` fills: `put_u32(len as u32)`, then `put_slice(&self.data)`. -/
def frame (m : Message) : Bytes := u32ToBeBytes (UInt32.ofNat m.data.length) ++ m.data

def encode (m : Message) : Except NetworkError Bytes :=
  let len := m.data.length
  if len > maxMessageSize then .error (.messageTooLarge len maxMessageSize)
  else .ok m.frame

/-- `decode(buf: &mut BytesMut)`: the result, and the buffer after the call. -/
def decode (buf : Bytes) : Except NetworkError (Option Message) × Bytes :=
  if buf.length < headerSize then (.ok none, buf)
  else
    let lengthBytes := buf.take headerSize
    let len := (u32FromBeBytes lengthBytes).toNat
    if len > maxMessageSize then (.error (.messageTooLarge len maxMessageSize), buf)
    else if buf.length < headerSize + len then (.ok none, buf)
    else
      -- `buf.advance(HEADER_SIZE)`, then `buf.split_to(len)`
      let buf := buf.drop headerSize
      (.ok (some ⟨buf.take len⟩), buf.drop len)

end Message

/-! ## What the format means -/

/-- A stream is read as frames: a 4-byte big-endian length of at most `MAX_MESSAGE_SIZE`, then that many
bytes. This takes the first frame off a stream. -/
def splitFrame (s : Bytes) : Option (Message × Bytes) :=
  let len := beValue (s.take 4)
  if 4 ≤ s.length ∧ len ≤ maxMessageSize ∧ 4 + len ≤ s.length then
    some (⟨(s.drop 4).take len⟩, s.drop (4 + len))
  else none

/-- The stream begins with a whole header that announces more than `MAX_MESSAGE_SIZE` bytes. -/
def Oversized (s : Bytes) : Prop := 4 ≤ s.length ∧ maxMessageSize < beValue (s.take 4)

instance (s : Bytes) : Decidable (Oversized s) := inferInstanceAs (Decidable (_ ∧ _))

end NetworkSystem
