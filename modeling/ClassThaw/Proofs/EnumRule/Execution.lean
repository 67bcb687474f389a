import ClassThaw.Proofs.Bytecode.Machine
import ClassThaw.Proofs.EnumRule.Effect
import ClassThaw.Proofs.EnumRule.Target
import ClassThaw.Proofs.Text.WellFormed

namespace ClassThaw

open ModifiedUtf8 (restored_eq_self_iff)

/-- The operations that copy the array in a field. Local variable 1 is the array, 2 the copy. -/
def copyOperations (valuesField copyOf arrayClass : UInt16) : List Operation :=
  [.getstatic valuesField, .astore 1, .aload 1, .aload 1, .arraylength, .iconst 1, .iadd,
    .invokestatic copyOf, .checkcast arrayClass, .astore 2]

/-- The operations that put the argument, local variable 0, behind the elements of the array. -/
def storeOperations : List Operation := [.aload 2, .aload 1, .arraylength, .aload 0, .aastore]

def publishOperations (valuesField : UInt16) : List Operation :=
  [.aload 2, .putstatic valuesField]

def appendOperations (valuesField copyOf arrayClass : UInt16) : List Operation :=
  copyOperations valuesField copyOf arrayClass ++ storeOperations ++
    publishOperations valuesField ++ [.leave]

theorem decode_appendInstructions (valuesField copyOf arrayClass : UInt16) :
    Operation.decode (Instruction.assemble (appendInstructions valuesField copyOf arrayClass)) =
      some (appendOperations valuesField copyOf arrayClass) :=
  Operation.decode_assemble rfl

def ArrayObject.concat (array : ArrayObject) (values : List Reference) : ArrayObject :=
  { array with elements := array.elements ++ values }

theorem ArrayObject.concat_nil (array : ArrayObject) : array.concat [] = array := by
  rw [concat, List.append_nil]

theorem ArrayObject.concat_concat (array : ArrayObject) (values values' : List Reference) :
    (array.concat values).concat values' = array.concat (values ++ values') :=
  congrArg (mk array.elementType) (List.append_assoc _ _ _)

/-- A copy of an array that is one longer. -/
def Platform.longer (platform : Platform) (array : ArrayObject) : ArrayObject :=
  { array with elements := platform.copyOf array.elements (array.elements.length + 1) }

namespace World

variable {before middle after : World} {field : StoredMember} {array array' : ArrayObject}

/-- The field refers to the array. -/
def HoldsArray (world : World) (field : StoredMember) (array : ArrayObject) : Prop :=
  ∃ place, world.statics field = some (.reference (.array place)) ∧
    world.arrays[place]? = some array

/-- The field refers to the array, all other fields are as before, and so are the arrays that there
were. -/
structure Assigns (before : World) (field : StoredMember) (array : ArrayObject)
    (after : World) : Prop where
  holdsArray : after.HoldsArray field array
  arrays : before.arrays <+: after.arrays
  statics : ∀ other, other ≠ field → after.statics other = before.statics other

theorem Assigns.refl (h : before.HoldsArray field array) : before.Assigns field array before :=
  ⟨h, List.prefix_rfl, fun _ _ => rfl⟩

theorem Assigns.trans (h : before.Assigns field array middle)
    (h' : middle.Assigns field array' after) : before.Assigns field array' after := by
  refine ⟨h'.holdsArray, h.arrays.trans h'.arrays, ?_⟩
  intro other hother
  rw [h'.statics other hother, h.statics other hother]

def allocate (world : World) (array : ArrayObject) : World :=
  { world with arrays := world.arrays ++ [array] }

/-- The field refers to a new array. -/
def publish (world : World) (field : StoredMember) (array : ArrayObject) : World where
  arrays := world.arrays ++ [array]
  statics := Function.update world.statics field (some (.reference (.array world.arrays.length)))

/-- An array in the last place is replaced by another. -/
theorem set_allocate (world : World) (array array' : ArrayObject) :
    { world.allocate array with
      arrays := (world.allocate array).arrays.set world.arrays.length array' } =
        world.allocate array' := by
  rw [allocate, allocate, List.set_append_right _ _ le_rfl, Nat.sub_self]
  rfl

theorem assigns_publish (world : World) (field : StoredMember) (array : ArrayObject) :
    world.Assigns field array (world.publish field array) where
  holdsArray := ⟨world.arrays.length, Function.update_self .., List.getElem?_concat_length⟩
  arrays := List.prefix_append _ _
  statics _ hother := Function.update_of_ne hother _ _

end World

namespace MethodBody

/-- The body is that of the method in a class with the pool, made with these indices. -/
structure IsAppendBody (body : MethodBody) (pool : ConstantPool)
    (valuesField copyOf arrayClass : UInt16) : Prop where
  maxStack : body.maxStack = 3
  maxLocals : body.maxLocals = 3
  handlers : body.handlers = []
  code : body.code = Instruction.assemble (appendInstructions valuesField copyOf arrayClass)
  copyOf : pool.resolve .methodRef copyOf = .ok arraysCopyOf

/-- The indices lead to the array of values and to its class. -/
structure IsAppend (body : MethodBody) (pool : ConstantPool) (values : StoredMember)
    (valuesField copyOf arrayClass : UInt16) : Prop
    extends body.IsAppendBody pool valuesField copyOf arrayClass where
  valuesField : pool.NamesField valuesField values.owner values.name values.descriptor
  arrayClass : pool.NamesClass arrayClass values.descriptor

end MethodBody

namespace Machine

/-- Calls a static method with the arguments in turn. -/
def callEach (machine : Machine) (arguments : List Reference) (world : World) :
    Except Fault World :=
  arguments.foldlM (fun world argument =>
    (machine.call [.reference argument] world).map Activation.world) world

/-- All the time, a call has no more than three slots on the stack and three local variables. -/
def StaysWithinThree (machine : Machine) : Prop :=
  ∀ world argument operations rest activation,
    Operation.decode machine.body.code = some operations →
    machine.Reaches operations (machine.start [.reference argument] world) rest activation →
    activation.stack.length ≤ 3 ∧ activation.locals.length = 3

/-- The method appends what it is called with to the array in the field, one call after another, as
long as the array does not become too long. An argument has to be one that the array can hold. -/
structure Appends (machine : Machine) (values : StoredMember) : Prop where
  call : ∀ world array argument, world.HoldsArray values array →
    machine.platform.isSubtype array.className values.descriptor = true →
    array.elements.length < 2 ^ 31 - 1 →
    machine.platform.isInstance world.arrays array.elementType argument = true →
    ∃ returned, machine.call [.reference argument] world = .ok returned ∧ returned.stack = [] ∧
      world.Assigns values (array.concat [argument]) returned.world
  callEach : ∀ world array arguments, world.HoldsArray values array →
    machine.platform.isSubtype array.className values.descriptor = true →
    array.elements.length + arguments.length < 2 ^ 31 →
    (∀ argument ∈ arguments,
      machine.platform.isInstance world.arrays array.elementType argument = true) →
    ∃ world', machine.callEach arguments world = .ok world' ∧
      world.Assigns values (array.concat arguments) world'

end Machine

namespace MethodBody

open Machine

variable {machine : Machine} {values : StoredMember} {valuesField copyOf arrayClass : UInt16}
  {world : World} {place place' : Nat} {array copy : ArrayObject} {argument : Reference}

namespace IsAppendBody

theorem decode_code {body : MethodBody} {pool : ConstantPool}
    (h : body.IsAppendBody pool valuesField copyOf arrayClass) :
    Operation.decode body.code = some (appendOperations valuesField copyOf arrayClass) := by
  rw [h.code]
  exact decode_appendInstructions valuesField copyOf arrayClass

variable (h : machine.body.IsAppendBody machine.pool valuesField copyOf arrayClass)

include h

theorem room {stack : List Slot} (hstack : stack.length < 3) :
    stack.length < machine.body.maxStack.toNat := by
  rw [h.maxStack]
  exact hstack

theorem start_eq (argument : Reference) (world : World) :
    machine.start [.reference argument] world =
      ⟨world, [], [some (.reference argument), none, none]⟩ := by
  rw [start, h.maxLocals]
  rfl

theorem length_le_maxLocals (argument : Reference) :
    [Slot.reference argument].length ≤ machine.body.maxLocals.toNat := by
  rw [h.maxLocals]
  exact Nat.le_add_left 1 2

theorem staysWithinThree : machine.StaysWithinThree := by
  intro _ argument _ _ _ _ hreaches
  have hkeeps := hreaches.keeps (h.length_le_maxLocals argument)
  have hstack := hkeeps.stack
  have hlocals := hkeeps.locals
  rw [h.maxStack] at hstack
  rw [h.maxLocals] at hlocals
  exact ⟨hstack, hlocals⟩

end IsAppendBody

namespace IsAppend

variable (h : machine.body.IsAppend machine.pool values valuesField copyOf arrayClass)

include h

/-- The copy is behind the arrays that there were. -/
theorem executes_copyOperations (argument : Reference)
    (hvalues : world.statics values = some (.reference (.array place)))
    (harray : world.arrays[place]? = some array)
    (hlength : array.elements.length < 2 ^ 31 - 1)
    (hsubtype : machine.platform.isSubtype array.className values.descriptor = true) :
    machine.Executes (copyOperations valuesField copyOf arrayClass)
      ⟨world, [], [some (.reference argument), none, none]⟩
      ⟨world.allocate (machine.platform.longer array), [], [some (.reference argument),
        some (.reference (.array place)), some (.reference (.array world.arrays.length))]⟩ := by
  -- The length of the copy is small enough not to turn negative.
  have hcount : indexOf? (Int32.ofNat array.elements.length + 1) =
      some (array.elements.length + 1) := by
    have hsum : Int32.ofNat (array.elements.length + 1) = Int32.ofNat array.elements.length + 1 :=
      Int32.ofNat_add array.elements.length 1
    rw [← hsum]
    exact indexOf?_ofNat (by omega)
  -- The copy is of the class of the array.
  have hinstance : machine.platform.isInstance
      (world.allocate (machine.platform.longer array)).arrays values.descriptor
        (.array world.arrays.length) = true := by
    rw [Platform.isInstance, World.allocate, List.getElem?_concat_length]
    exact hsubtype
  apply (executes_getstatic h.valuesField.resolve_eq hvalues (h.room (by simp))).cons
  apply (executes_astore (by simp)).cons
  apply (executes_aload rfl (h.room (by simp))).cons
  apply (executes_aload rfl (h.room (by simp))).cons
  apply (executes_arraylength harray (h.room (by simp))).cons
  apply (executes_iconst (h.room (by simp)) 1).cons
  apply (executes_iadd (h.room (by simp)) _ 1).cons
  apply (executes_copyOf h.copyOf hcount harray (h.room (by simp))).cons
  have hclass := ConstantPool.storedClass_eq_ok_iff.mpr h.arrayClass
  apply (executes_checkcast hclass hinstance (h.room (by simp))).cons
  exact executes_astore (by simp)

/-- The argument becomes the last element of the copy. -/
theorem executes_storeOperations (harray : world.arrays[place]? = some array)
    (hcopy : world.arrays[place']? = some copy)
    (hlength : array.elements.length < 2 ^ 31 - 1)
    (hroom : array.elements.length < copy.elements.length)
    (hargument : machine.platform.isInstance world.arrays copy.elementType argument = true) :
    machine.Executes storeOperations
      ⟨world, [], [some (.reference argument), some (.reference (.array place)),
        some (.reference (.array place'))]⟩
      ⟨{ world with
          arrays := world.arrays.set place'
            { copy with elements := copy.elements.set array.elements.length argument } },
        [], [some (.reference argument), some (.reference (.array place)),
          some (.reference (.array place'))]⟩ := by
  have hlast : indexOf? (Int32.ofNat array.elements.length) = some array.elements.length :=
    indexOf?_ofNat (by omega)
  apply (executes_aload rfl (h.room (by simp))).cons
  apply (executes_aload rfl (h.room (by simp))).cons
  apply (executes_arraylength harray (h.room (by simp))).cons
  apply (executes_aload rfl (h.room (by simp))).cons
  exact executes_aastore hlast hcopy hroom hargument

theorem executes_publishOperations {locals : List (Option Slot)} {old : Slot}
    (hlocal : locals[2]? = some (some (.reference (.array place))))
    (hvalues : world.statics values = some old)
    (hfits : machine.platform.fits world.arrays values.descriptor (.reference (.array place)) =
      true) :
    machine.Executes (publishOperations valuesField) ⟨world, [], locals⟩
      ⟨{ world with
          statics := Function.update world.statics values (some (.reference (.array place))) },
        [], locals⟩ := by
  apply (executes_aload hlocal (h.room (by simp))).cons
  exact executes_putstatic h.valuesField.resolve_eq hvalues hfits

/-- One call makes an array with one more element the value of the field, and leaves nothing on the
stack. -/
theorem call_eq (hcopies : machine.platform.CopiesArrays)
    (htype : referenceType? values.descriptor = some values.descriptor)
    (hvalues : world.statics values = some (.reference (.array place)))
    (harray : world.arrays[place]? = some array)
    (hlength : array.elements.length < 2 ^ 31 - 1)
    (hsubtype : machine.platform.isSubtype array.className values.descriptor = true)
    (hargument : machine.platform.isInstance world.arrays array.elementType argument = true) :
    ∃ locals, machine.call [.reference argument] world =
      .ok ⟨world.publish values (array.concat [argument]), [], locals⟩ := by
  have hplace : place < world.arrays.length := (List.getElem?_eq_some_iff.mp harray).1
  have hroom : array.elements.length < (machine.platform.longer array).elements.length := by
    rw [Platform.longer, (hcopies _ _).1]
    exact Nat.lt_succ_self _
  have harray' : (world.allocate (machine.platform.longer array)).arrays[place]? = some array :=
    (List.getElem?_append_left hplace).trans harray
  have hconcat : { machine.platform.longer array with
      elements := (machine.platform.longer array).elements.set array.elements.length argument } =
        array.concat [argument] :=
    congrArg (ArrayObject.mk array.elementType) (hcopies.set_length array.elements argument)
  have hfits : machine.platform.fits (world.allocate (array.concat [argument])).arrays
      values.descriptor (.reference (.array world.arrays.length)) = true := by
    rw [Platform.fits, htype, Option.any_some, Platform.isInstance, World.allocate,
      List.getElem?_concat_length]
    exact hsubtype
  -- The three parts of the body, one after the other.
  have hcopied := h.executes_copyOperations argument hvalues harray hlength hsubtype
  have hstored := h.executes_storeOperations harray' List.getElem?_concat_length hlength hroom
    (Platform.isInstance_mono (List.prefix_append _ _) hargument)
  rw [hconcat, World.set_allocate] at hstored
  have hvalues' : (world.allocate (array.concat [argument])).statics values =
      some (.reference (.array place)) := hvalues
  have hpublished := (hcopied.append hstored).append
    (h.executes_publishOperations rfl hvalues' hfits)
  have hcall : machine.call [.reference argument] world =
      machine.run (appendOperations valuesField copyOf arrayClass)
        ⟨world, [], [some (.reference argument), none, none]⟩ := by
    rw [call, h.decode_code, h.start_eq]
    exact if_neg (Nat.not_lt.mpr (h.length_le_maxLocals argument))
  exact ⟨_, hcall.trans hpublished.run_leave⟩

variable (hcopies : machine.platform.CopiesArrays)
  (htype : referenceType? values.descriptor = some values.descriptor)

include hcopies htype

theorem exists_call (hholds : world.HoldsArray values array)
    (hsubtype : machine.platform.isSubtype array.className values.descriptor = true)
    (hlength : array.elements.length < 2 ^ 31 - 1)
    (hargument : machine.platform.isInstance world.arrays array.elementType argument = true) :
    ∃ returned, machine.call [.reference argument] world = .ok returned ∧ returned.stack = [] ∧
      world.Assigns values (array.concat [argument]) returned.world := by
  obtain ⟨place, hvalues, harray⟩ := hholds
  obtain ⟨locals, hcall⟩ := h.call_eq hcopies htype hvalues harray hlength hsubtype hargument
  exact ⟨_, hcall, rfl, world.assigns_publish values _⟩

/-- The array that a call leaves in the field is the one that the next call finds there. -/
theorem exists_callEach {arguments : List Reference} (hholds : world.HoldsArray values array)
    (hsubtype : machine.platform.isSubtype array.className values.descriptor = true)
    (hlength : array.elements.length + arguments.length < 2 ^ 31)
    (harguments : ∀ argument ∈ arguments,
      machine.platform.isInstance world.arrays array.elementType argument = true) :
    ∃ world', machine.callEach arguments world = .ok world' ∧
      world.Assigns values (array.concat arguments) world' := by
  -- On the arguments, for any world and any array.
  induction arguments generalizing world array with
  | nil =>
    rw [array.concat_nil]
    exact ⟨world, rfl, .refl hholds⟩
  | cons argument arguments ih =>
    rw [List.length_cons] at hlength
    obtain ⟨hargument, hrest⟩ := List.forall_mem_cons.mp harguments
    obtain ⟨returned, hreturned, -, hassigns⟩ :=
      h.exists_call hcopies htype hholds hsubtype (by omega) hargument
    have hlength' : (array.concat [argument]).elements.length + arguments.length < 2 ^ 31 := by
      rw [ArrayObject.concat, List.length_append, List.length_singleton]
      omega
    -- What the other arguments lead to has not been touched by the call.
    obtain ⟨world', hworld', hassigns'⟩ := ih hassigns.holdsArray hsubtype hlength'
      fun other hother => Platform.isInstance_mono hassigns.arrays (hrest other hother)
    rw [array.concat_concat] at hassigns'
    refine ⟨world', ?_, hassigns.trans hassigns'⟩
    rw [Machine.callEach, List.foldlM_cons, hreturned]
    exact hworld'

theorem appends : machine.Appends values where
  call _ _ _ := h.exists_call hcopies htype
  callEach _ _ _ := h.exists_callEach hcopies htype

end IsAppend

end MethodBody

section opened

variable {pool : ConstantPool} {index : UInt16} {owner name descriptor : String}

theorem ConstantPool.IsReference.resolve_methodRef
    (h : pool.IsReference .methodRef owner name descriptor index) :
    pool.resolve .methodRef index = .ok (MemberReference.encoded ⟨owner, name, descriptor⟩) := by
  have hstored := h.storedMember_eq fun _ _ hget => .inr (.inl hget)
  obtain ⟨first, second, hget, -⟩ := h
  rw [resolve, hget, hstored]
  rfl

/-- The body of the method that has been added is one that appends. -/
theorem Member.IsAppendMethod.exists_body {method : Method}
    (h : method.IsAppendMethod owner name descriptor pool) :
    ∃ code body valuesField copyOf arrayClass, method.attributes = [.code code body []] ∧
      body.IsAppend pool (MemberReference.encoded ⟨owner, name, descriptor⟩) valuesField copyOf
        arrayClass := by
  obtain ⟨code, valuesField, copyOf, arrayClass, -, hvaluesField, hcopyOf, harrayClass,
    hattributes⟩ := h.body
  refine ⟨code, _, valuesField, copyOf, arrayClass, hattributes, ?_⟩
  exact {
    maxStack := rfl
    maxLocals := rfl
    handlers := rfl
    code := rfl
    copyOf := hcopyOf.resolve_methodRef
    valuesField := hvaluesField.namesField
    arrayClass := harrayClass.namesClass }

/-- Such a method refers to the field that the body appends to. -/
theorem MethodBody.IsAppend.appendsTo {method : Method} {code : UInt16} {body : MethodBody}
    {values : StoredMember} {valuesField copyOf arrayClass : UInt16}
    (h : body.IsAppend pool values valuesField copyOf arrayClass)
    (hattributes : method.attributes = [.code code body []]) :
    method.AppendsTo pool values.owner values.name values.descriptor := by
  refine ⟨code, valuesField, copyOf, arrayClass, ?_, h.valuesField, h.arrayClass⟩
  obtain ⟨maxStack, maxLocals, bytes, handlers⟩ := body
  obtain rfl : maxStack = 3 := h.maxStack
  obtain rfl : maxLocals = 3 := h.maxLocals
  obtain rfl : handlers = [] := h.handlers
  obtain rfl : bytes = _ := h.code
  exact hattributes

/-- The field is the static one with these bytes for its name and its type, and it can be assigned
to. -/
structure Member.IsValuesField (pool : ConstantPool) (values : StoredMember) (field : Field) :
    Prop where
  name : pool.utf8Bytes field.name = .ok values.name
  descriptor : pool.utf8Bytes field.descriptor = .ok values.descriptor
  static : field.access.has .static = true
  assignable : field.access.has .final = false

theorem encode_arrayDescriptor (className : String) :
    ModifiedUtf8.encode (arrayDescriptor className) =
      arrayTypeOf (ModifiedUtf8.encode className) := by
  have hopening : ModifiedUtf8.encode "[L" = [0x5B, 0x4C] := by decide +kernel
  have hclosing : ModifiedUtf8.encode ";" = [0x3B] := by decide +kernel
  rw [arrayDescriptor, ModifiedUtf8.encode_append, ModifiedUtf8.encode_append, hopening, hclosing,
    arrayTypeOf]

theorem referenceType?_encode_arrayDescriptor (className : String) :
    referenceType? (ModifiedUtf8.encode (arrayDescriptor className)) =
      some (ModifiedUtf8.encode (arrayDescriptor className)) := by
  rw [encode_arrayDescriptor]
  rfl

end opened

/-- The method that the rule adds consists of operations in a row, and no call has more than three
slots on the stack or touches a fourth local variable. Classes and fields are told apart by the
bytes of their names. If those of the class, of the array of values and of its type are the stored
form of some texts, the indices lead to the array of values, to the copying of arrays and to the
class of the array, every call appends its argument to the array and leaves nothing on the stack,
and calls in turn append their arguments in order. An argument is null or of the type of the
elements of the array. The machine would fault at a slot that holds something else than an operation
takes. -/
theorem appends_of_openEnum {debug : Bool} {file : ClassFile} {log : Array Event}
    {patch : EnumPatch} {after : Workpiece} {platform : Platform} (hreachable : file.pool.Reachable)
    (hgives : Gives (openEnum debug) ⟨file, log⟩ patch after) (hadded : patch.appendAdded = true)
    (hcopies : platform.CopiesArrays) :
    ∃ (className : String) (values : StoredMember) (position : Nat) (constructors : List Nat)
      (field : Field) (method : Method) (code : UInt16) (body : MethodBody)
      (valuesField copyOf arrayClass : UInt16),
      file.name = .ok className ∧ file.pool.NamesClass file.thisClass values.owner ∧
      file.enumShape = .ok (.extensible position constructors) ∧
      after.file.fields[position]? = some field ∧ field.IsValuesField after.file.pool values ∧
      after.file.methods.getLast? = some method ∧ method.IsAppender after.file.pool className ∧
      method.attributes = [.code code body []] ∧
      body.IsAppendBody after.file.pool valuesField copyOf arrayClass ∧
      Operation.decode body.code = some (appendOperations valuesField copyOf arrayClass) ∧
      Machine.StaysWithinThree ⟨platform, after.file.pool, body⟩ ∧
      ((∃ reference : MemberReference, reference.encoded = values) →
        values.descriptor = arrayTypeOf values.owner ∧
        method.AppendsTo after.file.pool values.owner values.name values.descriptor ∧
        body.IsAppend after.file.pool values valuesField copyOf arrayClass ∧
        Machine.Appends ⟨platform, after.file.pool, body⟩ values) := by
  obtain ⟨after, reported⟩ := after
  have houtcome := enumOutcome_of_gives hgives
  cases houtcome with
  | notEnum | leftAlone => cases hadded
  | @opened position constructors _ _ hshape hopens =>
    obtain ⟨className, before, nameText, descriptorText, method, hname, hbefore, hnameText,
      hdescriptorText, hgrows, hfields, hmethods, hmethod⟩ :=
        hopens.exists_isAppendMethod hreachable.sound hadded
    obtain ⟨code, body, valuesField, copyOf, arrayClass, hattributes, hbody⟩ := hmethod.exists_body
    -- The field is one of the candidates, with one flag less.
    obtain ⟨-, -, ⟨_, candidates, hname', hcandidates, hchoose⟩, -⟩ :=
      ClassFile.enumShape_eq_extensible_iff.mp hshape
    obtain rfl := Except.ok.inj (hname.symm.trans hname')
    obtain ⟨candidate, hmem, rfl⟩ := ValuesCandidate.mem_of_choose? hchoose
    obtain ⟨found, hfound, hstatic, htype⟩ := ClassFile.of_mem_valuesCandidates hcandidates hmem
    obtain rfl := Option.some.inj (hbefore.symm.trans hfound)
    obtain rfl := Except.ok.inj (hdescriptorText.symm.trans htype)
    have hfield : after.fields[candidate.position]? = some before.thawed := by
      rw [hfields, ClassFile.withOpenMembers, List.getElem?_modify_eq, hbefore]
      rfl
    -- The bytes behind the texts that the method has been made for.
    obtain ⟨owner, howner, hrestored⟩ := ConstantPool.exists_namesClass hname
    obtain ⟨name, hnameBytes, hrestored'⟩ := ConstantPool.exists_utf8Bytes hnameText
    obtain ⟨descriptor, hdescriptorBytes, hrestored''⟩ :=
      ConstantPool.exists_utf8Bytes hdescriptorText
    have hvalues : before.thawed.IsValuesField after.pool ⟨owner, name, descriptor⟩ := {
      name := hgrows.utf8Bytes hnameBytes
      descriptor := hgrows.utf8Bytes hdescriptorBytes
      static := (Access.has_clear_of_apart _ _ rfl).trans hstatic
      assignable := Access.has_clear _ _ (by decide) }
    have hlast : after.methods.getLast? = some method := by
      rw [hmethods, List.getLast?_concat]
    have hwithin := @MethodBody.IsAppendBody.staysWithinThree ⟨platform, after.pool, body⟩ _ _ _
      hbody.toIsAppendBody
    refine ⟨className, ⟨owner, name, descriptor⟩, _, constructors, _, method, code, body,
      valuesField, copyOf, arrayClass, hname, howner, hshape, hfield, hvalues, hlast,
      Member.isNamed_iff.mp hmethod.isNamed, hattributes, hbody.toIsAppendBody,
      hbody.toIsAppendBody.decode_code, hwithin, ?_⟩
    rintro ⟨reference, hreference⟩
    -- Names that are the stored form of texts have not been changed on the way.
    obtain ⟨howner', hname', hdescriptor'⟩ := StoredMember.mk.inj hreference
    obtain rfl := hrestored.trans (restored_eq_self_iff.mpr ⟨_, howner'⟩)
    obtain rfl := hrestored'.trans (restored_eq_self_iff.mpr ⟨_, hname'⟩)
    obtain rfl := hrestored''.trans (restored_eq_self_iff.mpr ⟨_, hdescriptor'⟩)
    have happends := @MethodBody.IsAppend.appends ⟨platform, after.pool, body⟩ _ _ _ _ hbody
      hcopies (referenceType?_encode_arrayDescriptor className)
    exact ⟨encode_arrayDescriptor className, hbody.appendsTo hattributes, hbody, happends⟩

/-- A platform on which a class is a subtype of itself only. Copies are filled up with null. -/
def plainPlatform : Platform where
  isSubtype className type := className == type
  copyOf elements length :=
    elements.take length ++ List.replicate (length - elements.length) .null

theorem copiesArrays_plainPlatform : plainPlatform.CopiesArrays := by
  intro elements length
  constructor
  · rw [plainPlatform, List.length_append, List.length_take, List.length_replicate]
    omega
  · intro place hlength helements
    have hplace : place < (elements.take length).length := by
      rw [List.length_take]
      omega
    rw [plainPlatform, List.getElem?_append_left hplace, List.getElem?_take_of_lt hlength]

/-- The array of values of the sample, as it is told apart from other fields. -/
def sampleValues : StoredMember := MemberReference.encoded ⟨"E", "$VALUES", "[LE;"⟩

/-- A running program in which a field refers to an array. -/
def worldOf (field : StoredMember) (array : ArrayObject) : World where
  arrays := [array]
  statics other := if other = field then some (.reference (.array 0)) else none

theorem holdsArray_worldOf (field : StoredMember) (array : ArrayObject) :
    (worldOf field array).HoldsArray field array :=
  ⟨0, if_pos rfl, rfl⟩

theorem appends_of_openEnum_enumSample :
    enumSample.pool.Reachable ∧ plainPlatform.CopiesArrays ∧
    ∃ (after : Workpiece) (body : MethodBody) (world : World),
      Gives (openEnum true) ⟨enumSample, #[]⟩
        { valuesOpened := true, constructorsOpened := 1, appendAdded := true } after ∧
      Machine.Appends ⟨plainPlatform, after.file.pool, body⟩ sampleValues ∧
      Machine.callEach ⟨plainPlatform, after.file.pool, body⟩ [.object [0x45] 1, .null]
        (worldOf sampleValues ⟨[0x45], [.object [0x45] 0]⟩) = .ok world ∧
      world.HoldsArray sampleValues
        ⟨[0x45], [.object [0x45] 0, .object [0x45] 1, .null]⟩ := by
  have hparse : ClassFile.parse enumSampleBytes = .ok enumSample := by decide +kernel
  have hreachable : enumSample.pool.Reachable := .parsed hparse
  obtain ⟨className, values, position, _, field, _, _, body, _, _, _, hname, howner, hshape, hfield,
    hvalues, -, -, -, -, -, -, happends⟩ := appends_of_openEnum hreachable
      ClassFile.gives_openEnum_enumSample rfl copiesArrays_plainPlatform
  have hfirst : enumSample.enumShape = .ok (.extensible 0 [0]) := by decide +kernel
  obtain ⟨rfl, -⟩ := EnumShape.extensible.inj (Except.ok.inj (hshape.symm.trans hfirst))
  -- The field that the method uses is the one of the sample.
  have hthis : enumSample.pool.NamesClass enumSample.thisClass sampleValues.owner :=
    ⟨1, by decide +kernel, by decide +kernel⟩
  have hnames : (((openEnum true).run ⟨enumSample, #[]⟩).2.file.fields[0]?.map fun field =>
      (((openEnum true).run ⟨enumSample, #[]⟩).2.file.pool.utf8Bytes field.name,
        ((openEnum true).run ⟨enumSample, #[]⟩).2.file.pool.utf8Bytes field.descriptor)) =
          some (.ok sampleValues.name, .ok sampleValues.descriptor) := by
    decide +kernel
  rw [hfield, Option.map_some, hvalues.name, hvalues.descriptor] at hnames
  obtain ⟨hsame, hsame'⟩ := Prod.mk.inj (Option.some.inj hnames)
  obtain rfl : values = sampleValues := by
    rw [StoredMember.mk.injEq]
    exact ⟨hthis.unique howner, Except.ok.inj hsame, Except.ok.inj hsame'⟩
  obtain ⟨-, -, -, happends⟩ := happends ⟨_, rfl⟩
  have hholds := holdsArray_worldOf sampleValues ⟨[0x45], [.object [0x45] 0]⟩
  have hsubtype : plainPlatform.isSubtype (ArrayObject.className ⟨[0x45], [.object [0x45] 0]⟩)
      sampleValues.descriptor = true := by decide +kernel
  have harguments : ∀ argument ∈ [.object [0x45] 1, .null], plainPlatform.isInstance
      (worldOf sampleValues ⟨[0x45], [.object [0x45] 0]⟩).arrays [0x45] argument = true := by
    decide +kernel
  obtain ⟨world, hworld, hassigns⟩ := happends.callEach _ _ [.object [0x45] 1, .null] hholds
    hsubtype (by decide) harguments
  exact ⟨hreachable, copiesArrays_plainPlatform, _, body, world,
    ClassFile.gives_openEnum_enumSample, happends, hworld, hassigns.holdsArray⟩

/-- The array of values of an enum whose name no text is stored as. -/
def surrogateValues : StoredMember where
  owner := [0xED, 0xA0, 0x80]
  name := ModifiedUtf8.encode "$VALUES"
  descriptor := arrayTypeOf [0xED, 0xA0, 0x80]

/-- A platform with a class F below the class E. -/
def narrowPlatform : Platform where
  isSubtype className type :=
    className == type || (className, type) ∈
      [([0x46], [0x45]), (arrayTypeOf [0x46], arrayTypeOf [0x45])]
  copyOf := plainPlatform.copyOf

/-- A call is a fault if the names are not stored as texts are, and if the array of values is one of
a narrower type that the argument does not have. -/
theorem not_appends_of_openEnum_samples :
    (surrogateSample.pool.Reachable ∧ plainPlatform.CopiesArrays ∧
      surrogateSample.pool.NamesClass surrogateSample.thisClass surrogateValues.owner ∧
      ∃ (after : Workpiece) (field : Field) (code : UInt16) (body : MethodBody) (world : World),
        Gives (openEnum true) ⟨surrogateSample, #[]⟩
          { valuesOpened := true, constructorsOpened := 1, appendAdded := true } after ∧
        after.file.fields[0]? = some field ∧
        field.IsValuesField after.file.pool surrogateValues ∧
        after.file.methods.getLast?.map Member.attributes = some [.code code body []] ∧
        world.HoldsArray surrogateValues ⟨surrogateValues.owner, []⟩ ∧
        (Machine.call ⟨plainPlatform, after.file.pool, body⟩ [.reference .null] world).map
          Activation.stack = .error (.unresolved 13)) ∧
    (enumSample.pool.Reachable ∧ narrowPlatform.CopiesArrays ∧
      ∃ (after : Workpiece) (field : Field) (code : UInt16) (body : MethodBody) (world : World),
        Gives (openEnum true) ⟨enumSample, #[]⟩
          { valuesOpened := true, constructorsOpened := 1, appendAdded := true } after ∧
        after.file.fields[0]? = some field ∧
        field.IsValuesField after.file.pool sampleValues ∧
        after.file.methods.getLast?.map Member.attributes = some [.code code body []] ∧
        world.HoldsArray sampleValues ⟨[0x46], []⟩ ∧
        narrowPlatform.isSubtype (ArrayObject.className ⟨[0x46], []⟩) sampleValues.descriptor ∧
        narrowPlatform.isInstance world.arrays [0x45] (.object [0x45] 0) ∧
        (Machine.call ⟨narrowPlatform, after.file.pool, body⟩ [.reference (.object [0x45] 0)]
          world).map Activation.stack = .error .arrayStore) := by
  have hparse : ClassFile.parse surrogateSampleBytes = .ok surrogateSample := by decide +kernel
  have hparse' : ClassFile.parse enumSampleBytes = .ok enumSample := by decide +kernel
  have hgives : Gives (openEnum true) ⟨surrogateSample, #[]⟩
      { valuesOpened := true, constructorsOpened := 1, appendAdded := true }
      ((openEnum true).run ⟨surrogateSample, #[]⟩).2 :=
    gives_iff.mpr ⟨by decide +kernel, rfl⟩
  constructor
  · refine ⟨.parsed hparse, copiesArrays_plainPlatform, ⟨1, by decide +kernel, by decide +kernel⟩,
      _, ⟨⟨0x100A⟩, 5, 6, []⟩, 21, ⟨3, 3, Instruction.assemble (appendInstructions 13 19 20), []⟩,
      _, hgives, by decide +kernel, ?_, by decide +kernel, holdsArray_worldOf _ _, ?_⟩
    · exact ⟨by decide +kernel, by decide +kernel, by decide +kernel, by decide +kernel⟩
    · decide +kernel
  · refine ⟨.parsed hparse', copiesArrays_plainPlatform, _, ⟨⟨0x100A⟩, 3, 4, []⟩, 18,
      ⟨3, 3, Instruction.assemble (appendInstructions 10 16 17), []⟩, _,
      ClassFile.gives_openEnum_enumSample, by decide +kernel, ?_, by decide +kernel,
      holdsArray_worldOf _ _, by decide +kernel, by decide +kernel, ?_⟩
    · exact ⟨by decide +kernel, by decide +kernel, by decide +kernel, by decide +kernel⟩
    · decide +kernel

end ClassThaw
