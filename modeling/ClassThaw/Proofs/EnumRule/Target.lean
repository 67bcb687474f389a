import ClassThaw.Proofs.ConstantPool.Stored
import ClassThaw.Proofs.EnumRule.Open

/-! The method that is added is made for the texts that names are read as. Reading is not faithful
for all bytes, while classes and fields are told apart by their bytes. -/

namespace ClassThaw

open ModifiedUtf8 (restored)

/-- The two instructions are the same but for the index. -/
inductive Instruction.Like : Instruction → Instruction → Prop
  | plain {opcode : UInt8} : Like (.plain opcode) (.plain opcode)
  | indexed {opcode : UInt8} {index index' : UInt16} :
      Like (.indexed opcode index) (.indexed opcode index')

/-- Instructions of one form are told apart by the bytes that they are assembled to. -/
theorem Instruction.assemble_inj {code code' : List Instruction} (h : List.Forall₂ Like code code')
    (hbytes : assemble code = assemble code') : code = code' := by
  induction h with
  | nil => rfl
  | @cons first first' rest rest' hfirst _ ih =>
    rw [assemble, assemble, List.flatMap_cons, List.flatMap_cons] at hbytes
    cases hfirst with
    | plain => rw [ih (List.append_cancel_left hbytes)]
    | indexed =>
      obtain ⟨hindex, hrest⟩ := List.append_inj hbytes rfl
      rw [BigEndian.word16_inj.mp (List.cons.inj hindex).2, ih hrest]

/-- The code of the method tells the indices that it has been assembled with. -/
theorem appendInstructions_inj
    {valuesField copyOf arrayClass valuesField' copyOf' arrayClass' : UInt16}
    (h : Instruction.assemble (appendInstructions valuesField copyOf arrayClass) =
      Instruction.assemble (appendInstructions valuesField' copyOf' arrayClass')) :
    valuesField = valuesField' ∧ copyOf = copyOf' ∧ arrayClass = arrayClass' := by
  have hlike : List.Forall₂ Instruction.Like (appendInstructions valuesField copyOf arrayClass)
      (appendInstructions valuesField' copyOf' arrayClass') := by
    repeat constructor
  have hsame := Instruction.assemble_inj hlike h
  simp only [appendInstructions, List.cons.injEq, Instruction.indexed.injEq, true_and, and_true]
    at hsame
  exact ⟨hsame.1, hsame.2.1, hsame.2.2.1⟩

/-- The method appends to the array in the field whose owner, name and type have these bytes: it
reads and writes that field, and casts the copy to the type of the field. -/
def Member.AppendsTo (method : Method) (pool : ConstantPool) (owner name descriptor : Bytes) :
    Prop :=
  ∃ code valuesField copyOf arrayClass,
    method.attributes = [.code code
      { maxStack := 3
        maxLocals := 3
        code := Instruction.assemble (appendInstructions valuesField copyOf arrayClass)
        handlers := [] } []] ∧
    pool.NamesField valuesField owner name descriptor ∧ pool.NamesClass arrayClass descriptor

namespace Member

variable {method : Method} {pool : ConstantPool}

theorem AppendsTo.unique {owner name descriptor owner' name' descriptor' : Bytes}
    (h : method.AppendsTo pool owner name descriptor)
    (h' : method.AppendsTo pool owner' name' descriptor') :
    owner' = owner ∧ name' = name ∧ descriptor' = descriptor := by
  obtain ⟨_, valuesField, copyOf, arrayClass, hattributes, hfield, -⟩ := h
  obtain ⟨_, valuesField', copyOf', arrayClass', hattributes', hfield', -⟩ := h'
  have hcode : Instruction.assemble (appendInstructions valuesField copyOf arrayClass) =
      Instruction.assemble (appendInstructions valuesField' copyOf' arrayClass') := by
    have hsame := hattributes.symm.trans hattributes'
    simp only [List.cons.injEq, Attribute.code.injEq, MethodBody.mk.injEq] at hsame
    exact hsame.1.2.1.2.2.1
  obtain ⟨rfl, -, -⟩ := appendInstructions_inj hcode
  exact hfield.unique hfield'

theorem IsAppendMethod.appendsTo {className valuesName valuesDescriptor : String}
    (h : method.IsAppendMethod className valuesName valuesDescriptor pool) :
    method.AppendsTo pool (ModifiedUtf8.encode className) (ModifiedUtf8.encode valuesName)
      (ModifiedUtf8.encode valuesDescriptor) := by
  obtain ⟨code, valuesField, copyOf, arrayClass, -, hfield, -, hclass, hattributes⟩ := h.body
  exact ⟨code, valuesField, copyOf, arrayClass, hattributes, hfield.namesField, hclass.namesClass⟩

end Member

namespace ClassFile

variable {before after : ClassFile} {position : Nat} {patch : EnumPatch}

/-- Where the method is added to a class, it is made for the texts that the names of the class and
of the array of values are read as. -/
theorem Opens.exists_isAppendMethod (hsound : before.pool.Sound)
    (h : before.Opens position patch after) (hadded : patch.appendAdded = true) :
    ∃ className field nameText descriptorText method, before.name = .ok className ∧
      before.fields[position]? = some field ∧ field.nameText before.pool = .ok nameText ∧
      field.descriptorText before.pool = .ok descriptorText ∧ before.pool.Grows after.pool ∧
      after.fields = (before.withOpenMembers position).fields ∧
      after.methods = (before.withOpenMembers position).methods ++ [method] ∧
      method.IsAppendMethod className nameText descriptorText after.pool := by
  cases h with
  | astray => cases hadded
  | @opened className thawed _ hname hfield happend _ =>
    have hlacks : (before.withOpenMembers position).lacksAppend className = true := hadded
    have hpool : (before.withOpenMembers position).pool.Sound := hsound
    rw [HasAppend, if_pos hlacks] at happend
    obtain ⟨nameText, descriptorText, method, pool, hnameText, hdescriptorText, hgrows, -, hmethod,
      rfl⟩ := happend.exists_method hpool
    -- Thawing the field has not touched its name or its type.
    rw [withOpenMembers, List.getElem?_modify_eq] at hfield
    obtain ⟨field, hfield', rfl⟩ := Option.map_eq_some_iff.mp hfield
    exact ⟨className, field, nameText, descriptorText, method, hname, hfield', hnameText,
      hdescriptorText, hgrows, rfl, rfl, hmethod⟩

/-- Where the method is added to a class, it appends to the array of values as far as the names are
stored in the form of the texts that they are read as. -/
theorem Opens.appendsTo (hsound : before.pool.Sound) (h : before.Opens position patch after)
    (hadded : patch.appendAdded = true) :
    ∃ field owner name descriptor method, before.fields[position]? = some field ∧
      before.pool.NamesClass before.thisClass owner ∧
      before.pool.utf8Bytes field.name = .ok name ∧
      before.pool.utf8Bytes field.descriptor = .ok descriptor ∧
      after.methods = (before.withOpenMembers position).methods ++ [method] ∧
      method.AppendsTo after.pool (restored owner) (restored name) (restored descriptor) := by
  obtain ⟨className, field, nameText, descriptorText, method, hname, hfield, hnameText,
    hdescriptorText, -, -, hmethods, hmethod⟩ := h.exists_isAppendMethod hsound hadded
  obtain ⟨owner, howner, howner'⟩ := ConstantPool.exists_namesClass hname
  obtain ⟨name, hname', hrestored⟩ := ConstantPool.exists_utf8Bytes hnameText
  obtain ⟨descriptor, hdescriptor', hrestored'⟩ := ConstantPool.exists_utf8Bytes hdescriptorText
  have htarget := hmethod.appendsTo
  rw [howner', hrestored, hrestored'] at htarget
  exact ⟨field, owner, name, descriptor, method, hfield, howner, hname', hdescriptor', hmethods,
    htarget⟩

end ClassFile

/-- An enum whose name is half of a surrogate pair, which no text is stored as. -/
def surrogateSample : ClassFile where
  minor := 0
  major := 52
  pool := ⟨#[.unusable, .utf8 [0xED, 0xA0, 0x80], .class 1,
    .utf8 (ModifiedUtf8.encode "java/lang/Enum"), .class 3, .utf8 (ModifiedUtf8.encode "$VALUES"),
    .utf8 [0x5B, 0x4C, 0xED, 0xA0, 0x80, 0x3B], .utf8 (ModifiedUtf8.encode "<init>"),
    .utf8 (ModifiedUtf8.encode "()V")]⟩
  access := ⟨0x4031⟩
  thisClass := 2
  superClass := 4
  interfaces := []
  fields := [⟨⟨0x101A⟩, 5, 6, []⟩]
  methods := [⟨⟨0x0002⟩, 7, 8, []⟩]
  attributes := []

def surrogateSampleBytes : Bytes :=
  [202, 254, 186, 190, 0, 0, 0, 52, 0, 9, 1, 0, 3, 237, 160, 128, 7, 0, 1, 1, 0, 14, 106, 97, 118,
    97, 47, 108, 97, 110, 103, 47, 69, 110, 117, 109, 7, 0, 3, 1, 0, 7, 36, 86, 65, 76, 85, 69, 83,
    1, 0, 6, 91, 76, 237, 160, 128, 59, 1, 0, 6, 60, 105, 110, 105, 116, 62, 1, 0, 3, 40, 41, 86,
    64, 49, 0, 2, 0, 4, 0, 0, 0, 1, 16, 26, 0, 5, 0, 6, 0, 0, 0, 1, 0, 2, 0, 7, 0, 8, 0, 0, 0, 0]

end ClassThaw
