import ClassThaw.CommandLine.Tool
import ClassThaw.Proofs.Archive.Accounting
import ClassThaw.Proofs.Zip.Deflate

namespace ClassThaw

namespace Zip

theorem Header.mode?_eq {header : Header} (hattributes : header.attributes ≠ 0)
    (hmadeBy : header.madeBy = Member.madeByVersion) :
    header.mode? = some (header.attributes >>> 16) := by
  rw [mode?, hmadeBy]
  cases hvalue : header.attributes with
  | zero => exact absurd hvalue hattributes
  | succ => rfl

namespace Member

/-- The attributes of a file are not those of a link. -/
theorem isLink_fileAttributes {header : Header} {permissions : Nat}
    (hpermissions : permissions < 0o1000) (hmadeBy : header.madeBy = madeByVersion)
    (hattributes : header.attributes = fileAttributes permissions) : header.isLink = false := by
  have hmode : fileAttributes permissions >>> 16 = 0o100000 + permissions := by
    rw [fileAttributes, Nat.shiftLeft_shiftRight]
  have hnonzero : header.attributes ≠ 0 := by
    intro hzero
    rw [← hattributes, hzero] at hmode
    omega
  rw [Header.isLink, Header.mode?_eq hnonzero hmadeBy, hattributes, hmode, Option.any_some,
    decide_eq_false_iff_not]
  -- Of the two bits that make a link, a file lacks the lower one.
  intro hlink
  have hbit : (0o100000 + permissions).testBit 13 = true := by
    have hset : Nat.testBit 0o120000 13 = true := by decide
    have hboth := congrArg (Nat.testBit · 13) hlink
    rwa [Nat.testBit_and, hset, Bool.and_true] at hboth
  rw [Nat.testBit_eq_decide_div_mod_eq, decide_eq_true_eq] at hbit
  omega

theorem content_copied (member : Member) : member.copied.content = member.content := rfl

/-- A copy in another archive holds the same under the same name, and is a file. -/
theorem toEntry_copied (member : Member) : member.copied.toEntry = member.toEntry.copied := by
  have hlink : member.copied.header.isLink = false :=
    isLink_fileAttributes (Nat.lt_succ_of_le Nat.and_le_right) rfl rfl
  rw [toEntry, hlink, content_copied]
  rfl

/-- The content of a file is unpacked as it has been packed. -/
theorem toEntry_packedFile (name : String) (content : ByteArray) :
    (packedFile name content).toEntry = .file name content := by
  have hlink : (packedFile name content).header.isLink = false :=
    isLink_fileAttributes (by decide) rfl rfl
  have hunpack : Inflate.unpack (packedFile name content).packed = .ok content :=
    Deflate.unpack_pack content
  have hcontent : (packedFile name content).content = .ok content := by
    change (Inflate.unpack (packedFile name content).packed >>= fun content' => _) = _
    -- The checksum is that of the content, and so it is found to be right.
    rw [hunpack]
    exact if_neg (not_not.mpr rfl)
  rw [toEntry, hlink, hcontent]
  rfl

end Member

end Zip

/-- Only the entry itself is copied for an entry. -/
theorem Settings.eq_of_written_eq_copied {settings : Settings} {entry copied : Entry}
    (h : settings.written entry = .copied copied) : copied = entry := by
  unfold written at h
  split at h
  case h_1 => cases h
  case h_2 | h_3 | h_4 =>
    injection h with h
    exact h.symm

namespace Tool

open Zip

variable {data : ByteArray} {record : Record}

/-- The member that stands for what a pass has written can be read as that. -/
theorem exists_newMember? (settings : Settings) (hopen : ¬ (record.toEntry data).IsClosed) :
    ∃ member, newMember? data record (settings.written (record.toEntry data)) = some member ∧
      member.toEntry = settings.successor (record.toEntry data) := by
  -- A record that can be opened leads to a member, whether its content can be unpacked or not.
  obtain ⟨member, hmember⟩ : ∃ member, record.fetch data = .ok member := by
    cases hfetch : record.fetch data with
    | ok member => exact ⟨member, rfl⟩
    | error fault =>
      have hclosed : (record.toEntry data).IsClosed := ⟨fault, by rw [Record.toEntry, hfetch]⟩
      exact absurd hclosed hopen
  have hentry : record.toEntry data = member.toEntry := by rw [Record.toEntry, hmember]
  rw [Settings.successor]
  cases hwritten : settings.written (record.toEntry data) with
  | copied entry =>
    obtain rfl := Settings.eq_of_written_eq_copied hwritten
    refine ⟨member.copied, ?_, ?_⟩
    · rw [newMember?, hmember]
      rfl
    · rw [Member.toEntry_copied, hentry]
      rfl
  | packed name content => exact ⟨_, rfl, Member.toEntry_packedFile name content⟩

/-- The members of the new archive are read as the entries that the pass has made. -/
theorem toEntry_newMembers {settings : Settings} {records : List Record} {pass : ArchivePass}
    (h : ArchivePass.run settings (records.map (·.toEntry data)) = (pass, none)) :
    (newMembers data records pass.output.toList).map Member.toEntry =
      pass.output.toList.map Written.entry := by
  have hopen : ∀ record ∈ records, ¬ (record.toEntry data).IsClosed := by
    intro record hrecord hclosed
    exact ArchivePass.readable_of_run h (List.mem_map_of_mem hrecord) (.inl hclosed)
  rw [ArchivePass.output_of_run h, newMembers, List.map_map, List.map_map,
    ← List.map_prod_left_eq_zip, List.map_filterMap, List.filterMap_map,
    List.filterMap_eq_map_iff_forall_eq_some]
  intro record hrecord
  obtain ⟨member, hmember, hentry⟩ := exists_newMember? settings (hopen record hrecord)
  simp only [Function.comp_apply, hmember, Option.map_some, hentry]
  rfl

end Tool

end ClassThaw
