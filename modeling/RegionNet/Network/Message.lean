import RegionNet.Name
import RegionNet.SortedMap

/-!
The message that a node sends to its neighbors, and its bytes.

Words are eight bytes, the lowest first. A string is the word of its length in bytes and its UTF-8
bytes; the values are the word of their count and then each key with its value. A value is carried
as its 64-bit pattern. What follows a message in a datagram is ignored.
-/

namespace RegionNet

/-- The values that `sender` shares in a round. -/
structure Message (α : Type) where
  sender : NodeName
  round : UInt64
  values : SortedMap String α
deriving DecidableEq

namespace Message

def mapValues {α β : Type} (m : Message α) (f : α → β) : Message β :=
  { m with values := m.values.mapValues fun _ v => f v }

/-- Why bytes are no message. -/
inductive DecodeError
  | unexpectedEnd
  | invalidUtf8
deriving DecidableEq, Repr

/-- The lowest `n` bytes of a number, the lowest first. -/
def littleEndian : Nat → Nat → List UInt8
  | 0, _ => []
  | n + 1, w => UInt8.ofNat w :: littleEndian n (w / 256)

def ofLittleEndian : List UInt8 → Nat
  | [] => 0
  | b :: bs => b.toNat + 256 * ofLittleEndian bs

def encodeWord (w : UInt64) : List UInt8 :=
  littleEndian 8 w.toNat

def stringBytes (s : String) : List UInt8 :=
  s.toUTF8.data.toList

def encodeString (s : String) : List UInt8 :=
  encodeWord (UInt64.ofNat (stringBytes s).length) ++ stringBytes s

def encodeEntry (e : String × UInt64) : List UInt8 :=
  encodeString e.1 ++ encodeWord e.2

def encode (m : Message UInt64) : List UInt8 :=
  encodeString m.sender ++ encodeWord m.round ++ encodeWord (UInt64.ofNat m.values.size) ++
    m.values.entries.flatMap encodeEntry

/-- The first `n` bytes and the rest. -/
def takeBytes (n : Nat) (bs : List UInt8) : Except DecodeError (List UInt8 × List UInt8) :=
  if n ≤ bs.length then .ok (bs.take n, bs.drop n) else .error .unexpectedEnd

def decodeWord (bs : List UInt8) : Except DecodeError (UInt64 × List UInt8) := do
  let (word, rest) ← takeBytes 8 bs
  return (UInt64.ofNat (ofLittleEndian word), rest)

def decodeString (bs : List UInt8) : Except DecodeError (String × List UInt8) := do
  let (length, rest) ← decodeWord bs
  let (text, rest) ← takeBytes length.toNat rest
  match String.fromUTF8? ⟨text.toArray⟩ with
  | some s => return (s, rest)
  | none => throw .invalidUtf8

/-- Reads so many keys with their values. -/
def decodeEntries : Nat → List UInt8 → Except DecodeError (List (String × UInt64) × List UInt8)
  | 0, bs => .ok ([], bs)
  | n + 1, bs => do
    let (key, rest) ← decodeString bs
    let (value, rest) ← decodeWord rest
    let (entries, rest) ← decodeEntries n rest
    return ((key, value) :: entries, rest)

/-- Of two values for one key the later stays. -/
def decode (bs : List UInt8) : Except DecodeError (Message UInt64) := do
  let (sender, rest) ← decodeString bs
  let (round, rest) ← decodeWord rest
  let (count, rest) ← decodeWord rest
  let (entries, _) ← decodeEntries count.toNat rest
  return ⟨sender, round, SortedMap.ofList entries⟩

/-- The bytes of a message whose values are doubles. -/
def toBytes (m : Message Float) : List UInt8 :=
  (m.mapValues Float.toBits).encode

def ofBytes (bs : List UInt8) : Except DecodeError (Message Float) := do
  return (← decode bs).mapValues Float.ofBits

end Message

/-- What a node knows of a neighbor in one cycle. -/
inductive NeighborState
  | unknown
  | known (round : UInt64) (values : SortedMap String Float)
deriving DecidableEq

namespace NeighborState

def isKnown : NeighborState → Bool
  | unknown => false
  | known _ _ => true

def value? : NeighborState → String → Option Float
  | unknown, _ => none
  | known _ values, key => values.get? key

end NeighborState

end RegionNet
