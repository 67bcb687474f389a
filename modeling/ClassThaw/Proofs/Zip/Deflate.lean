import ClassThaw.Proofs.Check
import ClassThaw.Zip.Deflate
import ClassThaw.Zip.Inflate
import Mathlib.Algebra.Ring.Nat

namespace ClassThaw

namespace Inflate

variable {α β : Type} {source middle after : Source} {data : ByteArray}

theorem bind_of_eq_ok {change : Bits α} {next : α → Bits β} {value : α}
    (h : change source = .ok (value, middle)) : (change >>= next) source = next value middle := by
  change (change source >>= fun result => next result.1 result.2) = _
  rw [h]
  rfl

theorem bit_eq {place offset : Nat} (hplace : place < data.size) (hoffset : offset < 8) :
    bit ⟨data, 8 * place + offset⟩ =
      .ok ((data[place].toNat >>> offset) % 2 == 1, ⟨data, 8 * place + (offset + 1)⟩) := by
  have hdiv : (8 * place + offset) / 8 = place := by omega
  have hmod : (8 * place + offset) % 8 = offset := by omega
  have hlt : (8 * place + offset) / 8 < data.size := by rwa [hdiv]
  rw [bit, dif_pos hlt]
  simp only [hdiv, hmod]
  rfl

/-- The number in the bits of one byte from an offset on. -/
theorem number_eq {place offset count : Nat} (hplace : place < data.size)
    (hcount : offset + count ≤ 8) :
    number count ⟨data, 8 * place + offset⟩ =
      .ok ((data[place].toNat >>> offset) % 2 ^ count, ⟨data, 8 * place + (offset + count)⟩) := by
  induction count generalizing offset with
  | zero =>
    rw [Nat.pow_zero, Nat.mod_one]
    rfl
  | succ count ih =>
    -- The bits behind the first make a number that starts one place later.
    have hrest := @ih (offset + 1) (by omega)
    rw [number, bind_of_eq_ok (bit_eq hplace (by omega)), bind_of_eq_ok hrest]
    have hsum : ((data[place].toNat >>> offset) % 2 == 1).toNat +
        2 * ((data[place].toNat >>> (offset + 1)) % 2 ^ count) =
          (data[place].toNat >>> offset) % 2 ^ (count + 1) := by
      rw [Nat.shiftRight_succ, Nat.pow_succ, Nat.mul_comm (2 ^ count) 2, Nat.mod_mul]
      rcases Nat.mod_two_eq_zero_or_one (data[place].toNat >>> offset) with h | h <;> rw [h] <;> rfl
    rw [hsum, Nat.add_right_comm offset 1 count, Nat.add_assoc offset]
    rfl

/-- A number is made of the numbers of its bits one after the other. -/
theorem number_add {low high count count' : Nat} (h : number count source = .ok (low, middle))
    (h' : number count' middle = .ok (high, after)) :
    number (count + count') source = .ok (low + 2 ^ count * high, after) := by
  induction count generalizing source low with
  | zero =>
    obtain ⟨rfl, rfl⟩ := Prod.mk.inj (Except.ok.inj h)
    rw [Nat.zero_add, h', Nat.pow_zero, Nat.one_mul, Nat.zero_add]
  | succ count ih =>
    obtain ⟨⟨first, source'⟩, hfirst, h⟩ := bind_eq_ok_iff.mp h
    obtain ⟨⟨rest, _⟩, hrest, h⟩ := bind_eq_ok_iff.mp h
    obtain ⟨rfl, rfl⟩ := Prod.mk.inj (Except.ok.inj h)
    rw [Nat.add_right_comm, number, bind_of_eq_ok hfirst, bind_of_eq_ok (ih hrest)]
    have hsum : first.toNat + 2 * (rest + 2 ^ count * high) =
        first.toNat + 2 * rest + 2 ^ (count + 1) * high := by
      rw [Nat.pow_succ, Nat.mul_comm (2 ^ count) 2, Nat.mul_assoc, Nat.mul_add, Nat.add_assoc]
    exact congrArg (fun value => Except.ok (value, after)) hsum

/-- A number in two bytes, the low-order one first. -/
theorem number_sixteen_eq {place value : Nat} (hvalue : value < 2 ^ 16)
    (hlow : ∃ hlt : place < data.size, data[place] = UInt8.ofNat value)
    (hhigh : ∃ hlt : place + 1 < data.size, data[place + 1] = UInt8.ofNat (value >>> 8)) :
    number 16 ⟨data, 8 * place⟩ = .ok (value, ⟨data, 8 * (place + 2)⟩) := by
  obtain ⟨hplace, hlow⟩ := hlow
  obtain ⟨hplace', hhigh⟩ := hhigh
  have hfirst := @number_eq data place 0 8 hplace (Nat.le_refl _)
  have hsecond := @number_eq data (place + 1) 0 8 hplace' (Nat.le_refl _)
  rw [hlow, Nat.shiftRight_zero, Nat.mod_eq_of_lt (UInt8.toNat_lt _)] at hfirst
  rw [hhigh, Nat.shiftRight_zero, Nat.mod_eq_of_lt (UInt8.toNat_lt _)] at hsecond
  have hsum : (UInt8.ofNat value).toNat + 2 ^ 8 * (UInt8.ofNat (value >>> 8)).toNat = value := by
    rw [UInt8.toNat_ofNat', UInt8.toNat_ofNat', Nat.shiftRight_eq_div_pow]
    omega
  have hboth := number_add hfirst hsecond
  rwa [hsum] at hboth

theorem stored_eq {output : ByteArray} {position place length inverted : Nat}
    (hposition : (position + 7) / 8 = place)
    (hlength : number 16 ⟨data, 8 * place⟩ = .ok (length, ⟨data, 8 * (place + 2)⟩))
    (hinverted : number 16 ⟨data, 8 * (place + 2)⟩ = .ok (inverted, ⟨data, 8 * (place + 4)⟩))
    (hsum : length + inverted = 0xFFFF) (hroom : place + 4 + length ≤ data.size) :
    stored output ⟨data, position⟩ =
      .ok (output ++ data.extract (place + 4) (place + 4 + length),
        ⟨data, 8 * (place + 4 + length)⟩) := by
  -- What is left of the byte before is skipped.
  have haligned : (modify fun source : Source =>
      { source with position := (source.position + 7) / 8 * 8 } : Bits PUnit) ⟨data, position⟩ =
        .ok ((), ⟨data, 8 * place⟩) := by
    rw [← hposition, Nat.mul_comm]
    rfl
  have hstart : 8 * (place + 4) / 8 = place + 4 := Nat.mul_div_cancel_left _ (by decide)
  rw [stored, bind_of_eq_ok haligned, bind_of_eq_ok hlength, bind_of_eq_ok hinverted]
  have hget : (get : Bits Source) ⟨data, 8 * (place + 4)⟩ =
      .ok (⟨data, 8 * (place + 4)⟩, ⟨data, 8 * (place + 4)⟩) := rfl
  rw [bind_of_eq_ok hget]
  simp only [hstart, hsum, ne_eq, not_true_eq_false, if_false, Nat.not_lt.mpr hroom]
  rfl

end Inflate

namespace Deflate

open Inflate Zip

variable {before block tail output : ByteArray} {isLast : Bool}

theorem fields_eq (isLast : Bool) (length : Nat) :
    fields [(1, isLast.toNat), (2, length), (2, longestBlock - length)] =
      [UInt8.ofNat isLast.toNat, UInt8.ofNat length, UInt8.ofNat (length >>> 8),
        UInt8.ofNat (longestBlock - length),
        UInt8.ofNat ((longestBlock - length) >>> 8)].toByteArray := by
  rfl

theorem size_framed (isLast : Bool) (block : ByteArray) :
    (framed isLast block).size = 5 + block.size := by
  rw [framed, ByteArray.size_append, fields_eq, List.size_toByteArray]
  rfl

section holds

variable {data : ByteArray} {place : Nat}

/-- At the place, the data has the block behind its header. -/
def Holds (data : ByteArray) (place : Nat) (isLast : Bool) (block : ByteArray) : Prop :=
  data.extract place (place + (5 + block.size)) = framed isLast block

theorem holds_framed (before : ByteArray) (isLast : Bool) (block tail : ByteArray) :
    Holds (before ++ (framed isLast block ++ tail)) before.size isLast block := by
  have hbehind := @ByteArray.extract_append_size_add before (framed isLast block ++ tail) 0
    (5 + block.size)
  rw [Nat.add_zero] at hbehind
  rw [Holds, hbehind, ← size_framed isLast block, ByteArray.extract_append_size_left,
    ByteArray.extract_zero_size]

theorem Holds.size_le (h : Holds data place isLast block) :
    place + (5 + block.size) ≤ data.size := by
  have hsize := congrArg ByteArray.size h
  rw [ByteArray.size_extract, size_framed] at hsize
  omega

/-- The bytes of the header, one by one. -/
theorem Holds.getElem_eq (h : Holds data place isLast block) {index : Nat} (hindex : index < 5) :
    ∃ hlt : place + index < data.size, data[place + index] =
      [UInt8.ofNat isLast.toNat, UInt8.ofNat block.size, UInt8.ofNat (block.size >>> 8),
        UInt8.ofNat (longestBlock - block.size),
        UInt8.ofNat ((longestBlock - block.size) >>> 8)][index] := by
  have hlt : index < (data.extract place (place + (5 + block.size))).size := by
    rw [h, size_framed]
    omega
  refine ⟨by have hsize := h.size_le; omega, ?_⟩
  rw [← ByteArray.getElem_extract hlt]
  -- The bound is about the block of the data, so it has to follow when that is rewritten.
  revert hlt
  rw [h, framed, fields_eq]
  intro hlt
  rw [ByteArray.getElem_append_left (by rwa [List.size_toByteArray]), List.getElem_toByteArray]

theorem Holds.extract_eq (h : Holds data place isLast block) :
    data.extract (place + 5) (place + 5 + block.size) = block := by
  have hblock : (framed isLast block).extract 5 (5 + block.size) = block := by
    rw [framed, fields_eq]
    exact ByteArray.extract_append_eq_right rfl rfl
  rwa [← h, ByteArray.extract_extract, Nat.min_self, ← Nat.add_assoc] at hblock

/-- The block that the data has is read, and reading goes on behind it unless it is the last. -/
theorem Holds.blocks_eq (h : Holds data place isLast block) (hblock : block.size ≤ longestBlock)
    (size fuel : Nat) (output : ByteArray) :
    blocks size (fuel + 1) output ⟨data, 8 * place⟩ =
      if isLast then .ok (output ++ block, ⟨data, 8 * (place + (5 + block.size))⟩)
      else blocks size fuel (output ++ block) ⟨data, 8 * (place + (5 + block.size))⟩ := by
  obtain ⟨hplace, hfirst⟩ : ∃ hlt : place < data.size, data[place] = UInt8.ofNat isLast.toNat :=
    h.getElem_eq (by decide : 0 < 5)
  -- The first byte is zero but for its lowest bit.
  have hbit : bit ⟨data, 8 * place⟩ = .ok (isLast, ⟨data, 8 * place + 1⟩) := by
    refine (@bit_eq data place 0 hplace (by decide)).trans ?_
    rw [hfirst]
    cases isLast <;> rfl
  have hkind : number 2 ⟨data, 8 * place + 1⟩ = .ok (0, ⟨data, 8 * place + 3⟩) := by
    refine (@number_eq data place 1 2 hplace (by decide)).trans ?_
    rw [hfirst]
    cases isLast <;> rfl
  have hlength : number 16 ⟨data, 8 * (place + 1)⟩ =
      .ok (block.size, ⟨data, 8 * (place + 1 + 2)⟩) :=
    number_sixteen_eq (Nat.lt_succ_of_le hblock) (h.getElem_eq (by decide : 1 < 5))
      (h.getElem_eq (by decide : 2 < 5))
  have hinverted : number 16 ⟨data, 8 * (place + 1 + 2)⟩ =
      .ok (longestBlock - block.size, ⟨data, 8 * (place + 1 + 4)⟩) :=
    number_sixteen_eq (Nat.lt_succ_of_le (Nat.sub_le _ _)) (h.getElem_eq (by decide : 3 < 5))
      (h.getElem_eq (by decide : 4 < 5))
  have hstored := @stored_eq data output (8 * place + 3) (place + 1) _ _ (by omega) hlength
    hinverted (Nat.add_sub_cancel' hblock) (by have hsize := h.size_le; omega)
  have hnext : place + 1 + 4 + block.size = place + (5 + block.size) := by omega
  rw [h.extract_eq, hnext] at hstored
  rw [blocks, bind_of_eq_ok hbit, bind_of_eq_ok hkind]
  simp only [bind_of_eq_ok hstored]
  cases isLast with
  | true => rfl
  | false => rfl

end holds

section packing

variable {content : ByteArray} {index count : Nat}

/-- The block of a content with an index, behind its header. -/
def frame (content : ByteArray) (index : Nat) : ByteArray :=
  framed (index = content.size / longestBlock) (slice content (longestBlock * index) longestBlock)

/-- The blocks with the indices, one behind the other. -/
def frames (content : ByteArray) (indices : List Nat) (before : ByteArray) : ByteArray :=
  indices.foldl (fun packed index => packed ++ frame content index) before

theorem exists_frames_eq (content : ByteArray) (indices : List Nat) (before : ByteArray) :
    ∃ tail, frames content indices before = before ++ tail ∧ indices.length ≤ tail.size := by
  induction indices generalizing before with
  | nil => exact ⟨ByteArray.empty, ByteArray.append_empty.symm, Nat.zero_le _⟩
  | cons index indices ih =>
    obtain ⟨tail, htail, hlength⟩ := ih (before ++ frame content index)
    refine ⟨frame content index ++ tail, ?_, ?_⟩
    · rw [← ByteArray.append_assoc]
      exact htail
    · rw [ByteArray.size_append, frame, size_framed, List.length_cons]
      omega

theorem holds_frames (content : ByteArray) (index : Nat) (indices : List Nat)
    (before : ByteArray) :
    Holds (frames content (index :: indices) before) before.size
      (index = content.size / longestBlock)
      (slice content (longestBlock * index) longestBlock) := by
  obtain ⟨tail, htail, -⟩ := exists_frames_eq content indices (before ++ frame content index)
  have hdata : frames content (index :: indices) before =
      before ++ (frame content index ++ tail) := by
    rw [← ByteArray.append_assoc]
    exact htail
  rw [hdata]
  exact holds_framed before _ _ tail

theorem size_slice_le (content : ByteArray) (place length : Nat) :
    (slice content place length).size ≤ length := by
  rw [slice, ByteArray.size_extract]
  omega

/-- A block continues the content before it. -/
theorem extract_append_slice {place : Nat} (hplace : place ≤ content.size) (length : Nat) :
    content.extract 0 place ++ slice content place length =
      content.extract 0 (min content.size (place + length)) := by
  rw [slice, ByteArray.extract_append_extract, Nat.zero_min, Nat.max_eq_right (by omega)]

/-- One block adds its part of the content to what has been read before. -/
theorem blocks_frames (size fuel : Nat) (indices : List Nat) (before : ByteArray)
    (hindex : longestBlock * index ≤ content.size) :
    blocks size (fuel + 1) (content.extract 0 (longestBlock * index))
      ⟨frames content (index :: indices) before, 8 * before.size⟩ =
        if index = content.size / longestBlock then
          .ok (content.extract 0 (min content.size (longestBlock * (index + 1))),
            ⟨frames content (index :: indices) before,
              8 * (before ++ frame content index).size⟩)
        else
          blocks size fuel (content.extract 0 (min content.size (longestBlock * (index + 1))))
            ⟨frames content indices (before ++ frame content index),
              8 * (before ++ frame content index).size⟩ := by
  have hread := (holds_frames content index indices before).blocks_eq (size_slice_le _ _ _) size
    fuel (content.extract 0 (longestBlock * index))
  rw [extract_append_slice hindex, ← Nat.mul_succ,
    ← size_framed (index = content.size / longestBlock), ← ByteArray.size_append] at hread
  simp only [decide_eq_true_eq] at hread
  exact hread

/-- Reading starts at a block and ends with the whole content, if what is before the block has been
read. -/
theorem exists_blocks_frames (size : Nat) {fuel : Nat} (before : ByteArray)
    (hlast : index + count = content.size / longestBlock) (hfuel : count < fuel) :
    ∃ source, blocks size fuel (content.extract 0 (longestBlock * index))
      ⟨frames content (List.range' index (count + 1)) before, 8 * before.size⟩ =
        .ok (content, source) := by
  -- On the number of blocks behind this one. All of the content before it has been read.
  induction count generalizing index fuel before with
  | zero =>
    obtain ⟨fuel, rfl⟩ := Nat.exists_eq_succ_of_ne_zero (Nat.ne_zero_of_lt hfuel)
    have hindex : index = content.size / longestBlock := hlast
    have hplace : longestBlock * index ≤ content.size := by
      rw [hindex]
      exact Nat.mul_div_le _ _
    -- The last block ends with the content.
    have hend : content.size ≤ longestBlock * (index + 1) := by
      rw [hindex]
      exact Nat.le_of_lt (Nat.lt_mul_div_succ _ (by decide))
    have hread := blocks_frames size fuel [] before hplace
    rw [if_pos hindex, Nat.min_eq_left hend, ByteArray.extract_zero_size] at hread
    exact ⟨_, hread⟩
  | succ count ih =>
    obtain ⟨fuel, rfl⟩ := Nat.exists_eq_succ_of_ne_zero (Nat.ne_zero_of_lt hfuel)
    have hlast' : index + 1 + count = content.size / longestBlock := by omega
    have hother : index ≠ content.size / longestBlock := by omega
    have hend : longestBlock * (index + 1) ≤ content.size := by
      refine Nat.le_trans (Nat.mul_le_mul_left _ ?_) (Nat.mul_div_le content.size longestBlock)
      omega
    have hplace : longestBlock * index ≤ content.size :=
      Nat.le_trans (Nat.mul_le_mul_left _ (Nat.le_succ _)) hend
    obtain ⟨source, hrest⟩ := ih (before ++ frame content index) hlast'
      (Nat.lt_of_succ_lt_succ hfuel)
    have hread := blocks_frames size fuel (List.range' (index + 1) (count + 1)) before hplace
    rw [if_neg hother, Nat.min_eq_right hend] at hread
    exact ⟨source, hread.trans hrest⟩

/-- What has been packed is unpacked to the content. -/
theorem unpack_pack (content : ByteArray) : unpack (pack content) = .ok content := by
  have hpack : pack content =
      frames content (List.range' 0 (content.size / longestBlock + 1)) ByteArray.empty := by
    rw [← List.range_eq_range']
    rfl
  obtain ⟨tail, htail, hlength⟩ := exists_frames_eq content
    (List.range' 0 (content.size / longestBlock + 1)) ByteArray.empty
  -- No block is empty with its header, so the fuel, one for each bit, is enough.
  have hfuel : content.size / longestBlock < 8 * (pack content).size + 1 := by
    rw [hpack, htail, ByteArray.size_append]
    rw [List.length_range'] at hlength
    omega
  obtain ⟨source, hblocks⟩ := exists_blocks_frames (8 * (pack content).size + 1) ByteArray.empty
    (Nat.zero_add (content.size / longestBlock)) hfuel
  rw [← hpack] at hblocks
  have hstart : content.extract 0 (longestBlock * 0) = ByteArray.empty := ByteArray.extract_same
  rw [hstart] at hblocks
  rw [unpack]
  exact congrArg (fun result => result.map Prod.fst) hblocks

end packing

end Deflate

end ClassThaw
