import ClassThaw.ClassFile
import ClassThaw.Proofs.Bytecode.Operation
import ClassThaw.Proofs.Check
import ClassThaw.Proofs.ConstantPool.Stored

/-! A machine that runs straight-line method bodies, and faults where the Java virtual machine or
its verifier would. Classes and members are told apart by the bytes of their names. -/

namespace ClassThaw

/-- What a reference leads to. Objects of a class are told apart by numbers. -/
inductive Reference where
  | null
  | object (className : Bytes) (identity : Nat)
  | array (place : Nat)
  deriving DecidableEq, Repr

/-- The value of a stack entry, a local variable or a field. -/
inductive Slot where
  | int (value : Int32)
  | reference (target : Reference)
  deriving DecidableEq, Repr

structure ArrayObject where
  elementType : Bytes
  elements : List Reference
  deriving DecidableEq, Repr

/-- The type of the arrays whose elements are of a class. -/
def arrayTypeOf (className : Bytes) : Bytes := [0x5B, 0x4C] ++ className ++ [0x3B]

/-- The class of an array is named by its descriptor. -/
def ArrayObject.className (array : ArrayObject) : Bytes :=
  match array.elementType with
  | 0x5B :: rest => 0x5B :: 0x5B :: rest
  | className => arrayTypeOf className

/-- The arrays and the static fields of a running program. -/
structure World where
  arrays : List ArrayObject
  statics : StoredMember → Option Slot

/-- A method that is being run. The stack starts with its top, and a local variable is empty before
it is set. -/
structure Activation where
  world : World
  stack : List Slot
  locals : List (Option Slot)

inductive Fault where
  | undecodable
  | stackUnderflow
  | stackOverflow
  | noSuchLocal (place : Nat)
  -- A slot does not hold what the operation takes.
  | confusedSlot
  | nullPointer
  | indexOutOfBounds
  | negativeArraySize
  | arrayStore
  | classCast
  | unresolved (index : UInt16)
  -- There is no operation left, and the method has not been left.
  | endOfCode
  deriving DecidableEq, Repr

/-- Which classes are subtypes of which, and the elements of a copy with a given length. -/
structure Platform where
  isSubtype : Bytes → Bytes → Bool
  copyOf : List Reference → Nat → List Reference

namespace Platform

/-- A copy has the length that is asked for, and the same elements as far as there are any. -/
def CopiesArrays (platform : Platform) : Prop :=
  ∀ elements length, (platform.copyOf elements length).length = length ∧
    ∀ place < length, place < elements.length →
      (platform.copyOf elements length)[place]? = elements[place]?

/-- The reference is null or leads to something of the type. -/
def isInstance (platform : Platform) (arrays : List ArrayObject) (type : Bytes) :
    Reference → Bool
  | .null => true
  | .object className _ => platform.isSubtype className type
  | .array place => arrays[place]?.any fun array => platform.isSubtype array.className type

variable {platform : Platform}

/-- A copy that is one longer, with a value in its last place. -/
theorem CopiesArrays.set_length (h : platform.CopiesArrays) (elements : List Reference)
    (value : Reference) :
    (platform.copyOf elements (elements.length + 1)).set elements.length value =
      elements ++ [value] := by
  obtain ⟨hlength, hsame⟩ := h elements (elements.length + 1)
  apply List.ext_getElem?
  intro place
  rcases Nat.lt_trichotomy place elements.length with hlt | rfl | hgt
  · rw [List.getElem?_set_ne (Nat.ne_of_gt hlt), List.getElem?_append_left hlt]
    exact hsame place (Nat.lt_succ_of_lt hlt) hlt
  · rw [List.getElem?_set_self (by omega), List.getElem?_concat_length]
  · rw [List.getElem?_eq_none, List.getElem?_eq_none]
    · rw [List.length_append, List.length_singleton]
      omega
    · rw [List.length_set, hlength]
      omega

/-- What a reference leads to stays the same when there are more arrays. -/
theorem isInstance_mono {arrays arrays' : List ArrayObject} {type : Bytes} {target : Reference}
    (hgrows : arrays <+: arrays') (h : platform.isInstance arrays type target = true) :
    platform.isInstance arrays' type target = true := by
  cases target with
  | null | object => exact h
  | array place =>
    obtain ⟨array, harray, hsubtype⟩ := (Option.any_eq_true _ _).mp h
    obtain ⟨hplace, rfl⟩ := List.getElem?_eq_some_iff.mp harray
    rw [isInstance, List.prefix_iff_getElem?.mp hgrows place hplace]
    exact hsubtype

end Platform

/-- The class that a descriptor stands for, unless it is that of a primitive type. -/
def referenceType? (descriptor : Bytes) : Option Bytes :=
  match descriptor with
  | 0x4C :: name => some name.dropLast
  | 0x5B :: _ => some descriptor
  | _ => none

/-- A field with the descriptor can hold the value. -/
def Platform.fits (platform : Platform) (arrays : List ArrayObject) (descriptor : Bytes) :
    Slot → Bool
  -- The integers of all widths, characters and truth values: B, C, I, S and Z.
  | .int _ => [[0x42], [0x43], [0x49], [0x53], [0x5A]].contains descriptor
  | .reference target => (referenceType? descriptor).any (platform.isInstance arrays · target)

/-- An integer as an index or a length. -/
def indexOf? (value : Int32) : Option Nat :=
  if 0 ≤ value.toInt then some value.toInt.toNat else none

theorem indexOf?_ofNat {number : Nat} (h : number < 2 ^ 31) :
    indexOf? (Int32.ofNat number) = some number := by
  rw [indexOf?, Int32.toInt_ofNat_of_lt h, if_pos (Int.natCast_nonneg number), Int.toNat_natCast]

/-- The member that an index leads to, if it is one of the kind. -/
def ConstantPool.resolve (pool : ConstantPool) (kind : ConstantKind) (index : UInt16) :
    Except Fault StoredMember :=
  if (pool.get? index).bind Constant.kind? = some kind then
    (pool.storedMember index).mapError fun _ => .unresolved index
  else .error (.unresolved index)

theorem ConstantPool.NamesField.resolve_eq {pool : ConstantPool} {index : UInt16}
    {owner name descriptor : Bytes} (h : pool.NamesField index owner name descriptor) :
    pool.resolve .fieldRef index = .ok ⟨owner, name, descriptor⟩ := by
  obtain ⟨⟨first, second, hget⟩, hstored⟩ := namesField_iff.mp h
  rw [resolve, hget, hstored]
  rfl

def arraysCopyOf : StoredMember :=
  MemberReference.encoded
    ⟨"java/util/Arrays", "copyOf", "([Ljava/lang/Object;I)[Ljava/lang/Object;"⟩

namespace Activation

def pop (activation : Activation) : Except Fault (Slot × Activation) :=
  match activation.stack with
  | [] => .error .stackUnderflow
  | value :: stack => .ok (value, { activation with stack })

def popInt (activation : Activation) : Except Fault (Int32 × Activation) := do
  match ← activation.pop with
  | (.int value, rest) => return (value, rest)
  | (.reference _, _) => throw .confusedSlot

def popReference (activation : Activation) : Except Fault (Reference × Activation) := do
  match ← activation.pop with
  | (.reference target, rest) => return (target, rest)
  | (.int _, _) => throw .confusedSlot

/-- Takes a reference to an array, and returns the array with its place. -/
def popArray (activation : Activation) : Except Fault ((Nat × ArrayObject) × Activation) := do
  match ← activation.popReference with
  | (.null, _) => throw .nullPointer
  | (.object _ _, _) => throw .confusedSlot
  | (.array place, rest) =>
    match rest.world.arrays[place]? with
    | some array => return ((place, array), rest)
    | none => throw .confusedSlot

end Activation

/-- A method body with the constant pool of its class, on a platform. -/
structure Machine where
  platform : Platform
  pool : ConstantPool
  body : MethodBody

namespace Machine

def push (machine : Machine) (value : Slot) (activation : Activation) :
    Except Fault Activation :=
  if activation.stack.length < machine.body.maxStack.toNat then
    .ok { activation with stack := value :: activation.stack }
  else .error .stackOverflow

/-- Calls a static method. The copying of arrays is the only one that is known. -/
def invoke (machine : Machine) (method : StoredMember) (index : UInt16)
    (activation : Activation) : Except Fault Activation := do
  if method ≠ arraysCopyOf then
    throw (.unresolved index)
  let (length, activation) ← activation.popInt
  let ((_, array), activation) ← activation.popArray
  match indexOf? length with
  | none => throw .negativeArraySize
  | some length =>
    let copy := { array with elements := machine.platform.copyOf array.elements length }
    let arrays := activation.world.arrays
    machine.push (.reference (.array arrays.length))
      { activation with world := { activation.world with arrays := arrays ++ [copy] } }

def execute (machine : Machine) (activation : Activation) :
    Operation → Except Fault Activation
  | .iconst value => machine.push (.int value) activation
  | .aload place =>
    match activation.locals[place]? with
    | none => .error (.noSuchLocal place)
    | some (some (.reference target)) => machine.push (.reference target) activation
    | some _ => .error .confusedSlot
  | .astore place => do
    let (target, activation) ← activation.popReference
    if place < activation.locals.length then
      return { activation with locals := activation.locals.set place (some (.reference target)) }
    else throw (.noSuchLocal place)
  | .aastore => do
    let (value, activation) ← activation.popReference
    let (index, activation) ← activation.popInt
    let ((place, array), activation) ← activation.popArray
    let arrays := activation.world.arrays
    match indexOf? index with
    | none => throw .indexOutOfBounds
    | some index =>
      if array.elements.length ≤ index then
        throw .indexOutOfBounds
      if !machine.platform.isInstance arrays array.elementType value then
        throw .arrayStore
      let array := { array with elements := array.elements.set index value }
      return { activation with
        world := { activation.world with arrays := arrays.set place array } }
  | .iadd => do
    let (second, activation) ← activation.popInt
    let (first, activation) ← activation.popInt
    machine.push (.int (first + second)) activation
  | .arraylength => do
    let ((_, array), activation) ← activation.popArray
    machine.push (.int (Int32.ofNat array.elements.length)) activation
  | .getstatic index => do
    let field ← machine.pool.resolve .fieldRef index
    match activation.world.statics field with
    | none => throw (.unresolved index)
    | some value => machine.push value activation
  | .putstatic index => do
    let field ← machine.pool.resolve .fieldRef index
    let (value, activation) ← activation.pop
    let world := activation.world
    if (world.statics field).isNone then
      throw (.unresolved index)
    if !machine.platform.fits world.arrays field.descriptor value then
      throw .confusedSlot
    let statics := Function.update world.statics field (some value)
    return { activation with world := { world with statics } }
  | .invokestatic index => do
    machine.invoke (← machine.pool.resolve .methodRef index) index activation
  | .checkcast index => do
    let type ← (machine.pool.storedClass index).mapError fun _ => .unresolved index
    let (target, activation) ← activation.popReference
    if machine.platform.isInstance activation.world.arrays type target then
      machine.push (.reference target) activation
    else throw .classCast
  | .leave => .ok activation

/-- Runs the operations in turn until the method is left. -/
def run (machine : Machine) : List Operation → Activation → Except Fault Activation
  | [], _ => .error .endOfCode
  | operation :: rest, activation =>
    if operation = .leave then .ok activation
    else machine.execute activation operation >>= machine.run rest

/-- A static method at its first operation, with the arguments in its first local variables. -/
def start (machine : Machine) (arguments : List Slot) (world : World) : Activation where
  world
  stack := []
  locals := arguments.map some ++
    List.replicate (machine.body.maxLocals.toNat - arguments.length) none

/-- Runs the body of a static method. -/
def call (machine : Machine) (arguments : List Slot) (world : World) :
    Except Fault Activation :=
  let count := machine.body.maxLocals.toNat
  match Operation.decode machine.body.code with
  | none => .error .undecodable
  | some operations =>
    if count < arguments.length then .error (.noSuchLocal count)
    else machine.run operations (machine.start arguments world)

variable {machine : Machine} {operation : Operation} {operations operations' : List Operation}
  {before middle after : Activation}

/-- Some of the operations have been executed, and the rest is still to be. -/
inductive Reaches (machine : Machine) (operations : List Operation) (before : Activation) :
    List Operation → Activation → Prop
  | refl : Reaches machine operations before operations before
  | step {operation : Operation} {rest : List Operation} {middle after : Activation} :
      Reaches machine operations before (operation :: rest) middle → operation ≠ .leave →
      machine.execute middle operation = .ok after → Reaches machine operations before rest after

theorem Reaches.trans {rest rest' : List Operation}
    (h : machine.Reaches operations before rest middle)
    (h' : machine.Reaches rest middle rest' after) :
    machine.Reaches operations before rest' after := by
  induction h' with
  | refl => exact h
  | step _ hstays hexecute ih => exact ih.step hstays hexecute

theorem Reaches.run_eq {rest : List Operation}
    (h : machine.Reaches operations before rest after) :
    machine.run operations before = machine.run rest after := by
  induction h with
  | refl => rfl
  | step _ hstays hexecute ih =>
    rw [ih, run, if_neg hstays, hexecute]
    rfl

/-- A run succeeds exactly if it reaches the operation that leaves the method. -/
theorem run_eq_ok_iff : machine.run operations before = .ok after ↔
    ∃ rest, machine.Reaches operations before (.leave :: rest) after := by
  constructor
  · intro h
    induction operations generalizing before with
    | nil => cases h
    | cons operation rest ih =>
      rw [run] at h
      split at h
      case isTrue hleaves =>
        obtain rfl := Except.ok.inj h
        exact ⟨rest, hleaves ▸ .refl⟩
      case isFalse hstays =>
        obtain ⟨middle, hexecute, hrun⟩ := bind_eq_ok_iff.mp h
        obtain ⟨last, hreaches⟩ := ih hrun
        exact ⟨last, (Reaches.refl.step hstays hexecute).trans hreaches⟩
  · rintro ⟨rest, h⟩
    rw [h.run_eq, run, if_pos rfl]

/-- In front of any others, the operations lead from one activation to another. -/
def Executes (machine : Machine) (operations : List Operation) (before after : Activation) :
    Prop :=
  ∀ rest, machine.Reaches (operations ++ rest) before rest after

theorem executes_of_execute (hstays : operation ≠ .leave)
    (h : machine.execute before operation = .ok after) :
    machine.Executes [operation] before after :=
  fun _ => Reaches.refl.step hstays h

theorem Executes.append (h : machine.Executes operations before middle)
    (h' : machine.Executes operations' middle after) :
    machine.Executes (operations ++ operations') before after := by
  intro rest
  rw [List.append_assoc]
  exact (h (operations' ++ rest)).trans (h' rest)

theorem Executes.cons (h : machine.Executes [operation] before middle)
    (h' : machine.Executes operations middle after) :
    machine.Executes (operation :: operations) before after :=
  h.append h'

theorem Executes.run_leave (h : machine.Executes operations before after) :
    machine.run (operations ++ [.leave]) before = .ok after :=
  run_eq_ok_iff.mpr ⟨[], h [.leave]⟩

section limits

variable {value : Slot} {rest : Activation}

/-- The stack and the local variables keep to the limits of the body. -/
structure Keeps (machine : Machine) (activation : Activation) : Prop where
  stack : activation.stack.length ≤ machine.body.maxStack.toNat
  locals : activation.locals.length = machine.body.maxLocals.toNat

theorem Keeps.push (h : machine.Keeps before) (hpush : machine.push value before = .ok after) :
    machine.Keeps after := by
  unfold Machine.push at hpush
  split at hpush
  case isTrue hroom =>
    obtain rfl := Except.ok.inj hpush
    exact ⟨hroom, h.locals⟩
  case isFalse => cases hpush

theorem Keeps.pop (h : machine.Keeps before) (hpop : before.pop = .ok (value, rest)) :
    machine.Keeps rest := by
  unfold Activation.pop at hpop
  split at hpop
  case h_1 => cases hpop
  case h_2 stack hstack =>
    obtain ⟨-, rfl⟩ := Prod.mk.inj (Except.ok.inj hpop)
    have hlength := h.stack
    rw [hstack, List.length_cons] at hlength
    exact ⟨Nat.le_of_succ_le hlength, h.locals⟩

theorem Keeps.popInt {number : Int32} (h : machine.Keeps before)
    (hpop : before.popInt = .ok (number, rest)) : machine.Keeps rest := by
  obtain ⟨⟨value, middle⟩, hfirst, hvalue⟩ := bind_eq_ok_iff.mp hpop
  cases value with
  | int =>
    obtain ⟨-, rfl⟩ := Prod.mk.inj (Except.ok.inj hvalue)
    exact h.pop hfirst
  | reference => cases hvalue

theorem Keeps.popReference {target : Reference} (h : machine.Keeps before)
    (hpop : before.popReference = .ok (target, rest)) : machine.Keeps rest := by
  obtain ⟨⟨value, middle⟩, hfirst, hvalue⟩ := bind_eq_ok_iff.mp hpop
  cases value with
  | int => cases hvalue
  | reference =>
    obtain ⟨-, rfl⟩ := Prod.mk.inj (Except.ok.inj hvalue)
    exact h.pop hfirst

theorem Keeps.popArray {found : Nat × ArrayObject} (h : machine.Keeps before)
    (hpop : before.popArray = .ok (found, rest)) : machine.Keeps rest := by
  obtain ⟨⟨target, middle⟩, hfirst, hvalue⟩ := bind_eq_ok_iff.mp hpop
  cases target with
  | null | object => cases hvalue
  | array place =>
    simp only at hvalue
    split at hvalue
    case h_1 =>
      obtain ⟨-, rfl⟩ := Prod.mk.inj (Except.ok.inj hvalue)
      exact h.popReference hfirst
    case h_2 => cases hvalue

/-- Nothing but the world has changed. -/
theorem Keeps.of_world (h : machine.Keeps before) (world : World) :
    machine.Keeps { before with world } :=
  ⟨h.stack, h.locals⟩

theorem Keeps.invoke {method : StoredMember} {index : UInt16} (h : machine.Keeps before)
    (hinvoke : machine.invoke method index before = .ok after) : machine.Keeps after := by
  rw [Machine.invoke] at hinvoke
  split at hinvoke
  case isTrue => cases hinvoke
  case isFalse =>
    obtain ⟨⟨number, _⟩, hnumber, hinvoke⟩ := bind_eq_ok_iff.mp hinvoke
    obtain ⟨⟨⟨place, array⟩, middle⟩, harray, hinvoke⟩ := bind_eq_ok_iff.mp hinvoke
    simp only at hinvoke
    split at hinvoke
    case h_1 => cases hinvoke
    case h_2 => exact (((h.popInt hnumber).popArray harray).of_world _).push hinvoke

/-- What an operation does keeps to the limits of the body. -/
theorem Keeps.execute (h : machine.Keeps before)
    (hexecute : machine.execute before operation = .ok after) : machine.Keeps after := by
  cases operation with
  | iconst => exact h.push hexecute
  | aload place =>
    rw [Machine.execute] at hexecute
    split at hexecute
    case h_2 => exact h.push hexecute
    all_goals cases hexecute
  | astore place =>
    obtain ⟨⟨target, middle⟩, hpop, hset⟩ := bind_eq_ok_iff.mp hexecute
    have hmiddle := h.popReference hpop
    simp only at hset
    split at hset
    case isTrue =>
      obtain rfl := Except.ok.inj hset
      exact ⟨hmiddle.stack, (List.length_set ..).trans hmiddle.locals⟩
    case isFalse => cases hset
  | aastore =>
    obtain ⟨⟨value, _⟩, hvalue, hexecute⟩ := bind_eq_ok_iff.mp hexecute
    obtain ⟨⟨number, _⟩, hnumber, hexecute⟩ := bind_eq_ok_iff.mp hexecute
    obtain ⟨⟨⟨place, array⟩, middle⟩, harray, hexecute⟩ := bind_eq_ok_iff.mp hexecute
    have hmiddle := ((h.popReference hvalue).popInt hnumber).popArray harray
    simp only at hexecute
    split at hexecute
    case h_1 => cases hexecute
    case h_2 =>
      split at hexecute
      case isTrue => cases hexecute
      case isFalse =>
        split at hexecute
        case isTrue => cases hexecute
        case isFalse =>
          obtain rfl := Except.ok.inj hexecute
          exact hmiddle.of_world _
  | iadd =>
    obtain ⟨⟨second, middle⟩, hsecond, hexecute⟩ := bind_eq_ok_iff.mp hexecute
    obtain ⟨⟨first, last⟩, hfirst, hexecute⟩ := bind_eq_ok_iff.mp hexecute
    exact ((h.popInt hsecond).popInt hfirst).push hexecute
  | arraylength =>
    obtain ⟨⟨found, middle⟩, hpop, hexecute⟩ := bind_eq_ok_iff.mp hexecute
    exact (h.popArray hpop).push hexecute
  | getstatic =>
    obtain ⟨field, -, hexecute⟩ := bind_eq_ok_iff.mp hexecute
    split at hexecute
    case h_1 => cases hexecute
    case h_2 => exact h.push hexecute
  | putstatic =>
    obtain ⟨field, -, hexecute⟩ := bind_eq_ok_iff.mp hexecute
    obtain ⟨⟨value, middle⟩, hpop, hexecute⟩ := bind_eq_ok_iff.mp hexecute
    simp only at hexecute
    split at hexecute
    case isTrue => cases hexecute
    case isFalse =>
      split at hexecute
      case isTrue => cases hexecute
      case isFalse =>
        obtain rfl := Except.ok.inj hexecute
        exact (h.pop hpop).of_world _
  | invokestatic =>
    obtain ⟨method, -, hexecute⟩ := bind_eq_ok_iff.mp hexecute
    exact h.invoke hexecute
  | checkcast =>
    obtain ⟨type, -, hexecute⟩ := bind_eq_ok_iff.mp hexecute
    obtain ⟨⟨target, middle⟩, hpop, hexecute⟩ := bind_eq_ok_iff.mp hexecute
    simp only at hexecute
    split at hexecute
    case isTrue => exact (h.popReference hpop).push hexecute
    case isFalse => cases hexecute
  | leave =>
    obtain rfl := Except.ok.inj hexecute
    exact h

/-- At every operation, a method keeps to the limits of its body. -/
theorem Reaches.keeps {arguments : List Slot} {world : World} {rest : List Operation}
    (hfits : arguments.length ≤ machine.body.maxLocals.toNat)
    (h : machine.Reaches operations (machine.start arguments world) rest after) :
    machine.Keeps after := by
  induction h with
  | refl =>
    refine ⟨Nat.zero_le _, ?_⟩
    rw [start, List.length_append, List.length_map, List.length_replicate]
    omega
  | step _ _ hexecute ih => exact ih.execute hexecute

end limits

section steps

variable {world : World} {stack : List Slot} {locals : List (Option Slot)} {index : UInt16}
  {target : Reference} {place : Nat} {array : ArrayObject}

theorem push_eq (hroom : stack.length < machine.body.maxStack.toNat) (value : Slot) :
    machine.push value ⟨world, stack, locals⟩ = .ok ⟨world, value :: stack, locals⟩ :=
  if_pos hroom

theorem executes_iconst (hroom : stack.length < machine.body.maxStack.toNat) (value : Int32) :
    machine.Executes [.iconst value] ⟨world, stack, locals⟩
      ⟨world, .int value :: stack, locals⟩ :=
  executes_of_execute (by intro h; cases h) (push_eq hroom _)

theorem executes_aload (hlocal : locals[place]? = some (some (.reference target)))
    (hroom : stack.length < machine.body.maxStack.toNat) :
    machine.Executes [.aload place] ⟨world, stack, locals⟩
      ⟨world, .reference target :: stack, locals⟩ := by
  apply executes_of_execute (by intro h; cases h)
  rw [execute]
  simp only [hlocal]
  exact push_eq hroom _

theorem executes_astore (hplace : place < locals.length) :
    machine.Executes [.astore place] ⟨world, .reference target :: stack, locals⟩
      ⟨world, stack, locals.set place (some (.reference target))⟩ :=
  executes_of_execute (by intro h; cases h) (if_pos hplace)

theorem executes_iadd (hroom : stack.length < machine.body.maxStack.toNat)
    (first second : Int32) :
    machine.Executes [.iadd] ⟨world, .int second :: .int first :: stack, locals⟩
      ⟨world, .int (first + second) :: stack, locals⟩ :=
  executes_of_execute (by intro h; cases h) (push_eq hroom _)

theorem popArray_eq (harray : world.arrays[place]? = some array) :
    Activation.popArray ⟨world, .reference (.array place) :: stack, locals⟩ =
      .ok ((place, array), ⟨world, stack, locals⟩) := by
  have hpop : Activation.popReference ⟨world, .reference (.array place) :: stack, locals⟩ =
      .ok (.array place, ⟨world, stack, locals⟩) := rfl
  rw [Activation.popArray, hpop]
  simp only [ok_bind, harray]
  rfl

theorem executes_arraylength (harray : world.arrays[place]? = some array)
    (hroom : stack.length < machine.body.maxStack.toNat) :
    machine.Executes [.arraylength] ⟨world, .reference (.array place) :: stack, locals⟩
      ⟨world, .int (Int32.ofNat array.elements.length) :: stack, locals⟩ := by
  apply executes_of_execute (by intro h; cases h)
  rw [execute, popArray_eq harray]
  exact push_eq hroom _

theorem executes_getstatic {field : StoredMember} {value : Slot}
    (hfield : machine.pool.resolve .fieldRef index = .ok field)
    (hvalue : world.statics field = some value)
    (hroom : stack.length < machine.body.maxStack.toNat) :
    machine.Executes [.getstatic index] ⟨world, stack, locals⟩ ⟨world, value :: stack, locals⟩ := by
  apply executes_of_execute (by intro h; cases h)
  rw [execute, hfield]
  simp only [ok_bind, hvalue]
  exact push_eq hroom _

theorem executes_putstatic {field : StoredMember} {value old : Slot}
    (hfield : machine.pool.resolve .fieldRef index = .ok field)
    (hold : world.statics field = some old)
    (hfits : machine.platform.fits world.arrays field.descriptor value = true) :
    machine.Executes [.putstatic index] ⟨world, value :: stack, locals⟩
      ⟨{ world with statics := Function.update world.statics field (some value) }, stack,
        locals⟩ := by
  apply executes_of_execute (by intro h; cases h)
  have hpop : Activation.pop ⟨world, value :: stack, locals⟩ =
      .ok (value, ⟨world, stack, locals⟩) := rfl
  rw [execute, hfield]
  simp only [ok_bind, hpop, hold, hfits]
  rfl

theorem executes_checkcast {type : Bytes} (htype : machine.pool.storedClass index = .ok type)
    (hinstance : machine.platform.isInstance world.arrays type target = true)
    (hroom : stack.length < machine.body.maxStack.toNat) :
    machine.Executes [.checkcast index] ⟨world, .reference target :: stack, locals⟩
      ⟨world, .reference target :: stack, locals⟩ := by
  apply executes_of_execute (by intro h; cases h)
  have hpop : Activation.popReference ⟨world, .reference target :: stack, locals⟩ =
      .ok (target, ⟨world, stack, locals⟩) := rfl
  rw [execute, htype]
  simp only [Except.mapError, ok_bind, hpop, hinstance, if_true]
  exact push_eq hroom _

theorem executes_aastore {value : Int32} {position : Nat}
    (hposition : indexOf? value = some position) (harray : world.arrays[place]? = some array)
    (hlt : position < array.elements.length)
    (hinstance : machine.platform.isInstance world.arrays array.elementType target = true) :
    machine.Executes [.aastore]
      ⟨world, .reference target :: .int value :: .reference (.array place) :: stack, locals⟩
      ⟨{ world with
          arrays := world.arrays.set place
            { array with elements := array.elements.set position target } }, stack, locals⟩ := by
  apply executes_of_execute (by intro h; cases h)
  have hpop : Activation.popReference
      ⟨world, .reference target :: .int value :: .reference (.array place) :: stack, locals⟩ =
        .ok (target, ⟨world, .int value :: .reference (.array place) :: stack, locals⟩) := rfl
  have hpop' : Activation.popInt
      ⟨world, .int value :: .reference (.array place) :: stack, locals⟩ =
        .ok (value, ⟨world, .reference (.array place) :: stack, locals⟩) := rfl
  rw [execute]
  simp only [hpop, hpop', popArray_eq harray, ok_bind, hposition, if_neg (Nat.not_le.mpr hlt),
    hinstance]
  rfl

/-- The copy comes behind the arrays that there are. -/
theorem executes_copyOf {value : Int32} {length : Nat}
    (hmethod : machine.pool.resolve .methodRef index = .ok arraysCopyOf)
    (hlength : indexOf? value = some length) (harray : world.arrays[place]? = some array)
    (hroom : stack.length < machine.body.maxStack.toNat) :
    machine.Executes [.invokestatic index]
      ⟨world, .int value :: .reference (.array place) :: stack, locals⟩
      ⟨{ world with
          arrays := world.arrays ++
            [{ array with elements := machine.platform.copyOf array.elements length }] },
        .reference (.array world.arrays.length) :: stack, locals⟩ := by
  apply executes_of_execute (by intro h; cases h)
  have hpop : Activation.popInt
      ⟨world, .int value :: .reference (.array place) :: stack, locals⟩ =
        .ok (value, ⟨world, .reference (.array place) :: stack, locals⟩) := rfl
  rw [execute, hmethod]
  simp only [invoke, hpop, popArray_eq harray, ok_bind, hlength, ne_eq, not_true_eq_false,
    if_false]
  exact push_eq hroom _

end steps

end Machine

end ClassThaw
