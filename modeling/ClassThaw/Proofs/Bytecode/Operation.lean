import ClassThaw.Bytecode
import ClassThaw.Proofs.BigEndian

namespace ClassThaw

/-- An operation, with its local variable or its index into the constant pool. -/
inductive Operation where
  | iconst (value : Int32)
  | aload (place : Nat)
  | astore (place : Nat)
  | aastore
  | iadd
  | arraylength
  | getstatic (field : UInt16)
  | putstatic (field : UInt16)
  | invokestatic (method : UInt16)
  | checkcast (type : UInt16)
  -- Leaves the method.
  | leave
  deriving DecidableEq, Repr

namespace Operation

/-- The operation of an opcode without operands. -/
def plain? (opcode : UInt8) : Option Operation :=
  if 0x02 ≤ opcode ∧ opcode ≤ 0x08 then
    some (.iconst (Int32.ofInt (opcode.toNat - 3)))
  else if 0x2A ≤ opcode ∧ opcode ≤ 0x2D then
    some (.aload (opcode.toNat - 0x2A))
  else if 0x4B ≤ opcode ∧ opcode ≤ 0x4E then
    some (.astore (opcode.toNat - 0x4B))
  else
    match opcode with
    | 0x53 => some .aastore
    | 0x60 => some .iadd
    | 0xB1 => some .leave
    | 0xBE => some .arraylength
    | _ => none

/-- The operation of an opcode that two bytes follow, which are an index into the constant pool. -/
def indexed? (opcode : UInt8) : Option (UInt16 → Operation) :=
  match opcode with
  | 0xB2 => some .getstatic
  | 0xB3 => some .putstatic
  | 0xB8 => some .invokestatic
  | 0xC0 => some .checkcast
  | _ => none

/-- The operations that the bytes spell from the first byte to the last. -/
def decode : Bytes → Option (List Operation)
  | [] => some []
  | opcode :: rest =>
    match plain? opcode with
    | some operation => (decode rest).map (operation :: ·)
    | none =>
      match indexed? opcode, rest with
      | some make, high :: low :: rest =>
        (decode rest).map (make (UInt16.ofNat (BigEndian.decode [high, low])) :: ·)
      | _, _ => none

end Operation

/-- The operation that an instruction is read back as. -/
def Instruction.operation? : Instruction → Option Operation
  | .plain opcode => Operation.plain? opcode
  | .indexed opcode index =>
    if (Operation.plain? opcode).isSome then none
    else (Operation.indexed? opcode).map (· index)

namespace Operation

/-- The two bytes of an index are read back as the index. -/
theorem exists_word16_eq (index : UInt16) : ∃ high low, BigEndian.word16 index = [high, low] ∧
    UInt16.ofNat (BigEndian.decode [high, low]) = index := by
  have hdecode : BigEndian.decode (BigEndian.word16 index) = index.toNat := by
    rw [BigEndian.word16, BigEndian.decode_encode]
    exact Nat.mod_eq_of_lt index.toNat_lt
  refine ⟨_, _, rfl, ?_⟩
  exact (congrArg UInt16.ofNat hdecode).trans UInt16.ofNat_toNat

theorem decode_encode_append {instruction : Instruction} {operation : Operation} {bytes : Bytes}
    (h : instruction.operation? = some operation) :
    decode (instruction.encode ++ bytes) = (decode bytes).map (operation :: ·) := by
  cases instruction with
  | plain opcode =>
    have hplain : plain? opcode = some operation := h
    rw [Instruction.encode, List.singleton_append, decode.eq_def]
    simp only [hplain]
  | indexed opcode index =>
    rw [Instruction.operation?] at h
    split at h
    case isTrue => cases h
    case isFalse hnone =>
      obtain ⟨make, hmake, rfl⟩ := Option.map_eq_some_iff.mp h
      obtain ⟨high, low, hword, hindex⟩ := exists_word16_eq index
      have hplain : plain? opcode = none := Option.not_isSome_iff_eq_none.mp hnone
      rw [Instruction.encode, hword, decode.eq_def]
      simp only [List.cons_append, List.nil_append, hplain, hmake, hindex]

/-- What has been assembled is decoded as the same operations in the same order. -/
theorem decode_assemble {instructions : List Instruction} {operations : List Operation}
    (h : instructions.mapM Instruction.operation? = some operations) :
    decode (Instruction.assemble instructions) = some operations := by
  induction instructions generalizing operations with
  | nil =>
    obtain rfl := Option.some.inj h
    rfl
  | cons instruction instructions ih =>
    rw [List.mapM_cons] at h
    obtain ⟨operation, hfirst, h⟩ := Option.bind_eq_some_iff.mp h
    obtain ⟨rest, hrest, h⟩ := Option.bind_eq_some_iff.mp h
    obtain rfl := Option.some.inj h
    rw [Instruction.assemble, List.flatMap_cons, decode_encode_append hfirst]
    exact congrArg (Option.map _) (ih hrest)

end Operation

end ClassThaw
