import ClassThaw.Proofs.ClassFile.RoundTrip
import ClassThaw.Proofs.Reader.Streaming

namespace ClassThaw

open Reader

namespace ConstantPool

instance (kind : ConstantKind) : Streams (readContent kind) := by
  cases kind <;> (rw [readContent]; infer_instance)

instance (index : UInt16) : Streams (readConstant index) := by
  unfold readConstant
  refine @Streams.bind _ _ _ _ _ ?_
  intro tag
  split <;> infer_instance

instance (count : Nat) (slots : Array Constant) : Streams (readSlots count slots) := by
  -- A wide constant takes two slots at once, which is why the induction is strong.
  induction count using Nat.strongRecOn generalizing slots with
  | ind count ih =>
    cases count with
    | zero =>
      rw [readSlots]
      infer_instance
    | succ count =>
      have hnext (constant : Constant) : Streams (readSlots count (slots.push constant)) :=
        ih count (Nat.lt_succ_self count) _
      rw [readSlots]
      refine @Streams.bind _ _ _ _ _ ?_
      intro constant
      cases count with
      | zero => infer_instance
      | succ count =>
        have hwide : Streams (readSlots count ((slots.push constant).push .unusable)) :=
          ih count (by omega) _
        infer_instance

instance : Streams ConstantPool.read := by
  unfold ConstantPool.read
  infer_instance

end ConstantPool

namespace Attribute

variable (pool : ConstantPool)

/-- The content is taken as a whole before it is looked into, so that what goes wrong inside it has
nothing to do with where the file ends. -/
instance (nested : Reader (List Attribute)) : Streams (readWith pool nested) := by
  unfold readWith
  infer_instance

instance : Streams (readTable pool) :=
  inferInstanceAs (Streams (table (readWith pool (readNested pool 0xFFFFFFFF))))

end Attribute

instance (F : Type) (pool : ConstantPool) : Streams (Member.read F pool) := by
  unfold Member.read
  infer_instance

namespace ClassFile

instance : Streams readVersion := by
  unfold readVersion
  infer_instance

instance (minor major : UInt16) (pool : ConstantPool) :
    Streams (readAfterPool minor major pool) := by
  unfold readAfterPool
  infer_instance

instance : Streams ClassFile.read := by
  unfold ClassFile.read
  infer_instance

theorem parse_take_of_parse {bytes : Bytes} {file : ClassFile} (h : parse bytes = .ok file)
    {kept : Nat} (hkept : kept < bytes.length) : ∃ start needed,
      parse (bytes.take kept) = .error (.unexpectedEnd start needed) ∧
        start ≤ kept ∧ 1 ≤ needed ∧ kept + needed ≤ bytes.length :=
  (uses_of_readAll h).readAll_take hkept

theorem parse_append_of_parse {bytes : Bytes} {file : ClassFile} (h : parse bytes = .ok file)
    {padding : Bytes} (hpadding : padding ≠ []) :
    parse (bytes ++ padding) = .error (.trailingBytes padding.length) :=
  (uses_of_readAll h).readAll_append hpadding

/-- A class file that has been cut anywhere is found to end too early, inside the item that the cut
goes through and with no more bytes missing than have been cut off; one that has been padded is
found to have all the bytes of the padding left over. No class file is the beginning of another
one. -/
theorem parse_of_cut_or_padded {bytes : Bytes} {file : ClassFile} (h : parse bytes = .ok file) :
    (∀ kept < bytes.length, ∃ start needed,
      parse (bytes.take kept) = .error (.unexpectedEnd start needed) ∧
        start ≤ kept ∧ 1 ≤ needed ∧ kept + needed ≤ bytes.length) ∧
    (∀ padding ≠ [], parse (bytes ++ padding) = .error (.trailingBytes padding.length)) ∧
    ∀ other found, parse other = .ok found → other <+: bytes → other = bytes := by
  refine ⟨fun kept => parse_take_of_parse h, fun padding => parse_append_of_parse h, ?_⟩
  intro other found hother hbefore
  obtain ⟨padding, hbytes⟩ := hbefore
  by_cases hpadding : padding = []
  · rw [← hbytes, hpadding, List.append_nil]
  -- The longer file would be the shorter one with a padding, which is refused.
  · have hrefused := parse_append_of_parse hother hpadding
    rw [hbytes, h] at hrefused
    cases hrefused

theorem parse_of_cut_or_padded_enumSample : parse enumSampleBytes = .ok enumSample ∧
    (∃ start needed, parse (enumSampleBytes.take 60) = .error (.unexpectedEnd start needed)) ∧
      parse (enumSampleBytes ++ [0]) = .error (.trailingBytes 1) := by
  have hparse : parse enumSampleBytes = .ok enumSample := by decide +kernel
  obtain ⟨hcut, hpadded, -⟩ := parse_of_cut_or_padded hparse
  obtain ⟨start, needed, hrun, -⟩ := hcut 60 (by decide)
  exact ⟨hparse, ⟨start, needed, hrun⟩, hpadded [0] (List.cons_ne_nil _ _)⟩

end ClassFile

end ClassThaw
