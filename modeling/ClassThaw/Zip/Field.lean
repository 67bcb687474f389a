namespace ClassThaw.Zip

/-- The number of `width` bytes at a place, if the data goes on for so long. -/
def number? (data : ByteArray) (place width : Nat) : Option Nat :=
  if place + width ≤ data.size then
    some ((data.extract place (place + width)).data.foldr
      (fun byte value => value * 256 + byte.toNat) 0)
  else
    none

def slice? (data : ByteArray) (place length : Nat) : Option ByteArray :=
  if place + length ≤ data.size then some (data.extract place (place + length)) else none

/-- The bytes at a place, at most `length` of them. -/
def slice (data : ByteArray) (place length : Nat) : ByteArray :=
  data.extract place (min data.size (place + length))

/-- The low-order bytes of numbers that are given with their widths. -/
def fields (values : List (Nat × Nat)) : ByteArray :=
  ⟨(values.flatMap fun (width, value) =>
    (List.range width).map fun index => UInt8.ofNat (value >>> (8 * index))).toArray⟩

/-- What stands in a field of 4 bytes that has no room for its number. -/
def narrowLimit : Nat := 0xFFFFFFFF

/-- The numbers that the parts of an archive start with. -/
inductive Signature where
  -- Of the data of a member.
  | data
  -- Of an entry of the directory.
  | record
  -- Of an end record.
  | endRecord
  -- Of an end record with wide fields.
  | wideEndRecord
  -- Of the record that says where the end record with wide fields is.
  | locator
  deriving DecidableEq, Repr

def Signature.value : Signature → Nat
  | .data => 0x04034B50
  | .record => 0x02014B50
  | .endRecord => 0x06054B50
  | .wideEndRecord => 0x06064B50
  | .locator => 0x07064B50

def Signature.standsAt (signature : Signature) (data : ByteArray) (place : Nat) : Bool :=
  number? data place 4 == some signature.value

/-- The first of `count` places from a place on at which a part of an archive starts. -/
def Signature.first? (signature : Signature) (data : ByteArray) :
    (count : Nat) → (place : Nat) → Option Nat
  | 0, _ => none
  | count + 1, place =>
    if signature.standsAt data place then some place
    else signature.first? data count (place + 1)

end ClassThaw.Zip
