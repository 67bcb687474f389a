import ClassThaw.ConstantPool.Basic

/-! A pool only ever grows, so an index keeps its meaning. An addition that needs several constants
and fails on the way leaves those it has added in place. -/

namespace ClassThaw

/-- A change of a constant pool, which stays in effect up to the point of a failure. -/
abbrev PoolChange := ExceptT FormatError (StateM ConstantPool)

namespace ConstantPool

/-- The most slots a pool may have, and the most bytes in a `Utf8` entry. -/
def maxCount : Nat := 65535

/-- Appends a constant, if the pool has room for it. -/
def append (constant : Constant) : PoolChange UInt16 := do
  let pool ← get
  let size := pool.size + constant.width
  if maxCount < size then
    throw (.limitExceeded .constantPool size)
  let slots := pool.slots.push constant
  set (ConstantPool.mk (if constant.isWide then slots.push .unusable else slots))
  return UInt16.ofNat pool.size

/-- The index of a constant, which is appended if the pool does not hold it. -/
def intern (constant : Constant) : PoolChange UInt16 := do
  let pool ← get
  match pool.slots.findIdx? (· == constant) with
  | some index => return UInt16.ofNat index
  | none => append constant

def internText (text : String) : PoolChange UInt16 := do
  let bytes := ModifiedUtf8.encode text
  if maxCount < bytes.length then
    throw (.limitExceeded .utf8Length bytes.length)
  intern (.utf8 bytes)

def internClass (name : String) : PoolChange UInt16 := do
  let name ← internText name
  intern (.class name)

def internString (text : String) : PoolChange UInt16 := do
  let text ← internText text
  intern (.string text)

def internInteger (value : Int32) : PoolChange UInt16 :=
  intern (.integer value)

def internNameAndType (name descriptor : String) : PoolChange UInt16 := do
  let name ← internText name
  let descriptor ← internText descriptor
  intern (.nameAndType name descriptor)

def internFieldRef (owner name descriptor : String) : PoolChange UInt16 := do
  let owner ← internClass owner
  let member ← internNameAndType name descriptor
  intern (.fieldRef owner member)

def internMethodRef (owner name descriptor : String) : PoolChange UInt16 := do
  let owner ← internClass owner
  let member ← internNameAndType name descriptor
  intern (.methodRef owner member)

end ConstantPool

end ClassThaw
