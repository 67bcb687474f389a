import ClassThaw.FormatError

namespace ClassThaw

/-- Appends to the bytes written so far. -/
abbrev Writer := StateT (Array UInt8) (Except FormatError)

namespace Writer

def bytes (content : Bytes) : Writer Unit := modify fun written : Array UInt8 => written ++ content

def word8 (value : UInt8) : Writer Unit := modify fun written : Array UInt8 => written.push value

def word16 (value : UInt16) : Writer Unit := bytes (BigEndian.word16 value)

def word32 (value : UInt32) : Writer Unit := bytes (BigEndian.word32 value)

/-- Appends a count of two bytes. -/
def count16 (what : Quantity) (count : Nat) : Writer Unit :=
  if count < 0x10000 then word16 (UInt16.ofNat count) else throw (.limitExceeded what count)

def count32 (what : Quantity) (count : Nat) : Writer Unit :=
  if count < 0x100000000 then word32 (UInt32.ofNat count) else throw (.limitExceeded what count)

/-- Appends a byte string after its length in four bytes. -/
def block (what : Quantity) (content : Bytes) : Writer Unit := do
  count32 what content.length
  bytes content

/-- Appends a table: a two-byte count and the items. -/
def table {α : Type} (what : Quantity) (item : α → Writer Unit) (items : List α) :
    Writer Unit := do
  count16 what items.length
  items.forM item

/-- What a writer writes. -/
def written (writer : Writer Unit) : Except FormatError Bytes := do
  let ((), bytes) ← writer #[]
  return bytes.toList

end Writer

end ClassThaw
