import ClassThaw.FormatError

/-! Every reader is built from `take`, the only one that looks at bytes, so a read either uses a
front part of the bytes or reports where they end too early. -/

namespace ClassThaw

/-- A place in a byte string: how many bytes lie before it, and the bytes after it. -/
structure Cursor where
  offset : Nat
  rest : Bytes
  deriving DecidableEq, Repr

def Cursor.start (bytes : Bytes) : Cursor := ⟨0, bytes⟩

/-- Takes a value off the front of what is left. -/
abbrev Reader := StateT Cursor (Except FormatError)

namespace Reader

variable {α : Type}

/-- The next `count` bytes. -/
def take (count : Nat) : Reader Bytes := fun cursor =>
  let (front, rest) := cursor.rest.splitAt count
  if front.length < count then
    .error (.unexpectedEnd cursor.offset (count - front.length))
  else
    .ok (front, ⟨cursor.offset + count, rest⟩)

/-- A big-endian number of `width` bytes. -/
def number (width : Nat) : Reader Nat := BigEndian.decode <$> take width

def word8 : Reader UInt8 := UInt8.ofNat <$> number 1

def word16 : Reader UInt16 := UInt16.ofNat <$> number 2

def word32 : Reader UInt32 := UInt32.ofNat <$> number 4

def word64 : Reader UInt64 := UInt64.ofNat <$> number 8

/-- Reads `count` items after those in `read`, which has the last one first. -/
def manyAfter (item : Reader α) : (count : Nat) → (read : List α) → Reader (List α)
  | 0, read => return read.reverse
  | count + 1, read => do
    let next ← item
    manyAfter item count (next :: read)

def many (item : Reader α) (count : Nat) : Reader (List α) := manyAfter item count []

/-- A table: a two-byte count and as many items. -/
def table (item : Reader α) : Reader (List α) := do
  let count ← word16
  many item count.toNat

/-- A two-byte number that passes a check. -/
def checked (check : UInt16 → Except FormatError Unit) : Reader UInt16 := do
  let index ← word16
  check index
  return index

/-- What a reader makes of a byte string, which it has to use up. -/
def readAll (reader : Reader α) (leftover : Cursor → FormatError) (bytes : Bytes) :
    Except FormatError α := do
  let (value, cursor) ← reader (Cursor.start bytes)
  if cursor.rest.isEmpty then return value else throw (leftover cursor)

end Reader

end ClassThaw
