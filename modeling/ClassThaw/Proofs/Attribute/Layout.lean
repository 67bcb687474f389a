import ClassThaw.Proofs.Annotation.Layout
import ClassThaw.Proofs.Attribute.Nesting

namespace ClassThaw

open Writer

instance (handler : ExceptionHandler) : Appends handler.write := by
  unfold ExceptionHandler.write
  infer_instance

instance (body : MethodBody) : Appends body.write := by
  unfold MethodBody.write
  infer_instance

instance (infos : List AnnotationInfo) : Appends (AnnotationInfo.writeTable infos) := by
  unfold AnnotationInfo.writeTable
  infer_instance

namespace Attribute

/-- Appends the content of an attribute, without its name and its length. -/
def writeContent : Attribute → Writer Unit
  | .constantValue _ value => word16 value
  | .code _ body attributes => do
    body.write
    writeTable attributes
  | .visibleAnnotations _ annotations | .invisibleAnnotations _ annotations =>
    AnnotationInfo.writeTable annotations
  | .raw _ bytes => Writer.bytes bytes

theorem writeAll_eq_forM (attributes : List Attribute) :
    writeAll attributes = attributes.forM write := by
  induction attributes with
  | nil => rfl
  | cons first rest ih => rw [writeAll, ih]; rfl

theorem writeTable_eq (attributes : List Attribute) :
    writeTable attributes = table .attribute write attributes := by
  rw [writeTable, table, writeAll_eq_forM]

instance (item : Attribute) : Appends item.write := by
  induction item using induct with
  | constantValue name value =>
    rw [write]
    infer_instance
  | code name body attributes ih =>
    have : Appends (attributes.forM write) := appends_forM ih
    rw [write, writeAll_eq_forM]
    infer_instance
  | visibleAnnotations name annotations =>
    rw [write]
    infer_instance
  | invisibleAnnotations name annotations =>
    rw [write]
    infer_instance
  | raw name bytes =>
    rw [write]
    infer_instance

instance (attributes : List Attribute) : Appends (writeTable attributes) := by
  rw [writeTable_eq]
  infer_instance

theorem writes_named_block {name : UInt16} {content bytes : Bytes} :
    (word16 name >>= fun _ => block .attributeLength content).Writes bytes ↔
      content.length < 0x100000000 ∧ BigEndian.word16 name ++
        (BigEndian.word32 (UInt32.ofNat content.length) ++ content) = bytes := by
  simp [writes_bind, writes_word16, writes_block, and_assoc]

theorem writes_named_apart {name : UInt16} {content : Writer Unit} [Appends content]
    {bytes : Bytes} :
    (word16 name >>= fun _ => liftM content.written >>= block .attributeLength).Writes bytes ↔
      ∃ inner, content.Writes inner ∧ inner.length < 0x100000000 ∧ BigEndian.word16 name ++
        (BigEndian.word32 (UInt32.ofNat inner.length) ++ inner) = bytes := by
  rw [writes_bind]
  simp only [writes_word16, writes_apart, writes_block]
  constructor
  · rintro ⟨_, _, rfl, ⟨inner, hinner, hlength, rfl⟩, rfl⟩
    exact ⟨inner, hinner, hlength, rfl⟩
  · rintro ⟨inner, hinner, hlength, rfl⟩
    exact ⟨_, _, rfl, ⟨inner, hinner, hlength, rfl⟩, rfl⟩

/-- An attribute is its name, the length of its content, and the content. -/
theorem writes_write_iff {item : Attribute} {bytes : Bytes} :
    item.write.Writes bytes ↔ ∃ content, item.writeContent.Writes content ∧
      content.length < 0x100000000 ∧ BigEndian.word16 item.name ++
        (BigEndian.word32 (UInt32.ofNat content.length) ++ content) = bytes := by
  cases item with
  | constantValue name value =>
    rw [write, writes_named_block]
    simp only [writeContent, writes_word16, exists_eq_left, Attribute.name]
  | code name body attributes =>
    change (word16 name >>= fun _ =>
      liftM (body.write >>= fun _ => writeTable attributes).written >>=
        block .attributeLength).Writes bytes ↔ _
    exact writes_named_apart
  | visibleAnnotations name annotations => exact writes_named_apart
  | invisibleAnnotations name annotations => exact writes_named_apart
  | raw name content =>
    rw [write, writes_named_block]
    simp only [writeContent, writes_bytes, exists_eq_left, Attribute.name]

open Reader

variable {bound : Nat} {pool : ConstantPool}

theorem reads_readHandler : Reads bound (readHandler pool) fun handler bytes =>
    pool.checkOptionalClass handler.catchType = .ok () ∧ handler.write.Writes bytes := by
  apply (reads_word16.bind fun start => reads_word16.bind fun stop => reads_word16.bind
    fun handler => (reads_checked pool.checkOptionalClass).bind_pure
      (ExceptionHandler.mk start stop handler)).congr
  intro handler bytes _
  unfold ExceptionHandler.write
  simp only [writes_bind, writes_word16]
  constructor
  · rintro ⟨start, _, _, rfl, ⟨stop, _, _, rfl, ⟨place, _, _, rfl, ⟨catchType, ⟨hcheck, rfl⟩, rfl⟩,
      rfl⟩, rfl⟩, rfl⟩
    exact ⟨hcheck, _, _, rfl, ⟨_, _, rfl, ⟨_, _, rfl, rfl, rfl⟩, rfl⟩, rfl⟩
  · rintro ⟨hcheck, _, _, rfl, ⟨_, _, rfl, ⟨_, _, rfl, rfl, rfl⟩, rfl⟩, rfl⟩
    exact ⟨_, _, _, rfl, ⟨_, _, _, rfl, ⟨_, _, _, rfl, ⟨_, ⟨hcheck, rfl⟩, rfl⟩, rfl⟩, rfl⟩, rfl⟩

theorem reads_readBody : Reads bound (readBody pool) fun body bytes =>
    (∀ handler ∈ body.handlers, pool.checkOptionalClass handler.catchType = .ok ()) ∧
      body.write.Writes bytes := by
  apply (reads_word16.bind fun maxStack => reads_word16.bind fun maxLocals => reads_word32.bind
    fun length => (reads_take length.toNat).bind fun code =>
      (reads_table reads_readHandler).bind_pure (MethodBody.mk maxStack maxLocals code)).congr
  intro body bytes _
  unfold MethodBody.write
  simp only [writes_bind, writes_word16, writes_block, writes_table, Form.joined_and]
  constructor
  · rintro ⟨maxStack, _, _, rfl, ⟨maxLocals, _, _, rfl, ⟨length, _, _, rfl, ⟨code, _, _,
      ⟨rfl, hlength⟩, ⟨handlers, ⟨hcount, rest, ⟨hall, hrest⟩, rfl⟩, rfl⟩, rfl⟩, rfl⟩, rfl⟩, rfl⟩
    -- The length in front of the code is redundant with the code itself.
    obtain rfl : length = UInt32.ofNat code.length := by rw [hlength, UInt32.ofNat_toNat]
    have hlimit : code.length < 0x100000000 := hlength ▸ UInt32.toNat_lt _
    exact ⟨hall, _, _, rfl, ⟨_, _, rfl, ⟨_, _, ⟨hlimit, rfl⟩, ⟨hcount, rest, hrest, rfl⟩,
      List.append_assoc _ _ _⟩, rfl⟩, rfl⟩
  · rintro ⟨hall, _, _, rfl, ⟨_, _, rfl, ⟨_, _, ⟨hlimit, rfl⟩, ⟨hcount, rest, hrest, rfl⟩, rfl⟩,
      rfl⟩, rfl⟩
    exact ⟨body.maxStack, _, _, rfl, ⟨body.maxLocals, _, _, rfl, ⟨_, _, _, rfl, ⟨body.code, _, _,
      ⟨rfl, (UInt32.toNat_ofNat_of_lt hlimit).symm⟩,
      ⟨body.handlers, ⟨hcount, rest, ⟨hall, hrest⟩, rfl⟩, rfl⟩, rfl⟩,
      (List.append_assoc _ _ _).symm⟩, rfl⟩, rfl⟩

/-- The tables of attributes that are read, and their bytes. -/
def tableForm (pool : ConstantPool) : Form (List Attribute) := fun attributes bytes =>
  ((∀ item ∈ withinAll attributes, item.IsReadable pool) ∧ checkAll pool attributes = .ok ()) ∧
    (writeTable attributes).Writes bytes

/-- What is asked of an attribute's content when it is read. -/
def AcceptsContent (pool : ConstantPool) : Attribute → Prop
  | .constantValue _ value => pool.checkConstantValue value = .ok ()
  | .code _ body attributes =>
    (∀ handler ∈ body.handlers, pool.checkOptionalClass handler.catchType = .ok ()) ∧
      (∀ item ∈ withinAll attributes, item.IsReadable pool) ∧ checkAll pool attributes = .ok ()
  | .visibleAnnotations _ annotations | .invisibleAnnotations _ annotations =>
    ∀ info ∈ annotations, info.depth ≤ maxAnnotationDepth ∧ info.check pool = .ok ()
  | .raw _ _ => True

theorem make_content_eq_ok_iff {α : Type} {reader : Reader α} {form : Form α} {bytes : Bytes}
    (h : Reads bytes.length reader form) {kind : AttributeKind} {make : α → Attribute}
    {item : Attribute} :
    (content kind reader bytes >>= fun value => pure (make value)) = .ok item ↔
      ∃ value, form value bytes ∧ make value = item := by
  rw [bind_eq_ok_iff]
  apply exists_congr
  intro value
  rw [content, readAll_eq_ok_iff h _ (Nat.le_refl _)]
  exact and_congr_right fun _ => ⟨fun h => Except.ok.inj h, fun h => congrArg Except.ok h⟩

/-- A content is read as an attribute of its kind exactly in the form that it is written in. -/
theorem ofContent_eq_ok_iff {nested : Reader (List Attribute)} {name : UInt16}
    {kind? : Option AttributeKind} {bytes : Bytes} {item : Attribute}
    (hnested : Reads bytes.length nested (tableForm pool)) :
    ofContent pool nested name kind? bytes = .ok item ↔ item.name = name ∧ item.kind? = kind? ∧
      AcceptsContent pool item ∧ item.writeContent.Writes bytes := by
  cases kind? with
  | none =>
    rw [ofContent]
    constructor
    · rintro ⟨⟩
      exact ⟨rfl, rfl, trivial, writes_bytes.mpr rfl⟩
    · rintro ⟨hname, hkind, -, hcontent⟩
      cases item with
      | raw name' content =>
        obtain rfl := writes_bytes.mp hcontent
        obtain rfl := hname
        rfl
      | _ => cases hkind
  | some kind =>
    cases kind with
    | constantValue =>
      rw [ofContent, make_content_eq_ok_iff (reads_checked pool.checkConstantValue)]
      constructor
      · rintro ⟨value, ⟨hcheck, hbytes⟩, rfl⟩
        exact ⟨rfl, rfl, hcheck, writes_word16.mpr hbytes⟩
      · rintro ⟨hname, hkind, hcheck, hcontent⟩
        cases item with
        | constantValue name' value =>
          obtain rfl := hname
          exact ⟨value, ⟨hcheck, writes_word16.mp hcontent⟩, rfl⟩
        | _ => cases hkind
    | code =>
      change (content .code _ bytes >>= fun read : MethodBody × List Attribute =>
        pure (Attribute.code name read.1 read.2)) = .ok item ↔ _
      rw [make_content_eq_ok_iff (reads_readBody.pair hnested)]
      constructor
      · rintro ⟨⟨body, attributes⟩, ⟨front, rest, ⟨hhandlers, hfront⟩, ⟨⟨hall, hcheck⟩, hrest⟩,
          hbytes⟩, rfl⟩
        exact ⟨rfl, rfl, ⟨hhandlers, hall, hcheck⟩,
          writes_bind.mpr ⟨front, rest, hfront, hrest, hbytes⟩⟩
      · rintro ⟨hname, hkind, haccepts, hcontent⟩
        cases item with
        | code name' body attributes =>
          obtain rfl := hname
          obtain ⟨hhandlers, hall, hcheck⟩ := haccepts
          obtain ⟨front, rest, hfront, hrest, hbytes⟩ := writes_bind.mp hcontent
          exact ⟨(body, attributes), ⟨front, rest, ⟨hhandlers, hfront⟩, ⟨⟨hall, hcheck⟩, hrest⟩,
            hbytes⟩, rfl⟩
        | _ => cases hkind
    | visibleAnnotations =>
      rw [ofContent, make_content_eq_ok_iff ElementValue.reads_readTable]
      constructor
      · rintro ⟨infos, ⟨hall, hbytes⟩, rfl⟩
        exact ⟨rfl, rfl, hall, hbytes⟩
      · rintro ⟨hname, hkind, hall, hcontent⟩
        cases item with
        | visibleAnnotations name' infos =>
          obtain rfl := hname
          exact ⟨infos, ⟨hall, hcontent⟩, rfl⟩
        | _ => cases hkind
    | invisibleAnnotations =>
      rw [ofContent, make_content_eq_ok_iff ElementValue.reads_readTable]
      constructor
      · rintro ⟨infos, ⟨hall, hbytes⟩, rfl⟩
        exact ⟨rfl, rfl, hall, hbytes⟩
      · rintro ⟨hname, hkind, hall, hcontent⟩
        cases item with
        | invisibleAnnotations name' infos =>
          obtain rfl := hname
          exact ⟨infos, ⟨hall, hcontent⟩, rfl⟩
        | _ => cases hkind

theorem named_iff {name : UInt16} {kind : AttributeKind} :
    (∃ text, pool.text name = .ok text ∧ some kind = AttributeKind.ofName? text) ↔
      checkName pool name (some kind) = .ok () := by
  rw [checkName, bind_eq_ok_iff]
  apply exists_congr
  intro text
  rw [@eq_comm _ (some kind), AttributeKind.ofName?_eq_some_iff]
  by_cases htext : text = kind.name
  · simp [htext, pure, Except.pure]
  · simp [htext, throw, throwThe, MonadExceptOf.throw]

theorem unnamed_iff {name : UInt16} {bytes : Bytes} :
    (∃ text, pool.text name = .ok text ∧ none = AttributeKind.ofName? text) ↔
      checkName pool name none = .ok () ∧ ¬ (Attribute.raw name bytes).IsDisguised pool := by
  rw [checkName, bind_eq_ok_iff]
  constructor
  · rintro ⟨text, htext, hnone⟩
    refine ⟨⟨text, htext, rfl⟩, ?_⟩
    rintro ⟨kind, hkind⟩
    rw [htext] at hkind
    exact AttributeKind.ofName?_eq_none_iff.mp hnone.symm kind (Except.ok.inj hkind)
  · rintro ⟨⟨text, htext, -⟩, hplain⟩
    refine ⟨text, htext, (AttributeKind.ofName?_eq_none_iff.mpr ?_).symm⟩
    rintro kind rfl
    exact hplain ⟨kind, htext⟩

/-- An attribute that is understood and holds no others is readable if its annotations are not too
deep. -/
theorem within_iff_of_annotations {item : Attribute} (hwithin : item.within = [item])
    (hplain : ¬ item.IsDisguised pool) :
    (∀ inner ∈ item.within, inner.IsReadable pool) ↔
      ∀ info ∈ item.annotations, info.depth ≤ maxAnnotationDepth := by
  rw [hwithin, List.forall_mem_singleton]
  exact ⟨fun h => h.shallow, fun h => ⟨hplain, h⟩⟩

theorem named_annotations_iff {name : UInt16} {kind : AttributeKind} {infos : List AnnotationInfo} :
    checkName pool name (some kind) = .ok () ∧
        (∀ info ∈ infos, info.depth ≤ maxAnnotationDepth ∧ info.check pool = .ok ()) ↔
      (∀ info ∈ infos, info.depth ≤ maxAnnotationDepth) ∧
        (do checkName pool name (some kind); infos.forM (·.check pool)) = .ok () := by
  rw [check_bind_eq_ok_iff, check_forM_eq_ok_iff]
  constructor
  · rintro ⟨hname, hall⟩
    exact ⟨fun info h => (hall info h).1, hname, fun info h => (hall info h).2⟩
  · rintro ⟨hdepth, hname, hcheck⟩
    exact ⟨hname, fun info h => ⟨hdepth info h, hcheck info h⟩⟩

/-- The name tells the kind of an attribute, and its content is accepted, exactly if the attribute
passes its check and can be read back together with those inside it. -/
theorem accepts_iff {item : Attribute} :
    (∃ text, pool.text item.name = .ok text ∧ item.kind? = AttributeKind.ofName? text) ∧
        AcceptsContent pool item ↔
      (∀ inner ∈ item.within, inner.IsReadable pool) ∧ item.check pool = .ok () := by
  cases item with
  | constantValue name value =>
    rw [within_iff_of_annotations rfl id, check, check_bind_eq_ok_iff]
    simp only [Attribute.name, Attribute.kind?, named_iff, AcceptsContent, annotations,
      List.not_mem_nil, false_imp_iff, implies_true, true_and]
  | code name body attributes =>
    have hwithin : (∀ inner ∈ (Attribute.code name body attributes).within,
        inner.IsReadable pool) ↔ ∀ inner ∈ withinAll attributes, inner.IsReadable pool := by
      rw [within, List.forall_mem_cons]
      exact and_iff_right ⟨id, List.forall_mem_nil _⟩
    rw [hwithin, check, check_bind_eq_ok_iff, check_bind_eq_ok_iff, check_forM_eq_ok_iff]
    simp only [Attribute.name, Attribute.kind?, named_iff, AcceptsContent]
    tauto
  | visibleAnnotations name infos =>
    rw [within_iff_of_annotations rfl id]
    simp only [Attribute.name, Attribute.kind?, named_iff, AcceptsContent, annotations]
    exact named_annotations_iff
  | invisibleAnnotations name infos =>
    rw [within_iff_of_annotations rfl id]
    simp only [Attribute.name, Attribute.kind?, named_iff, AcceptsContent, annotations]
    exact named_annotations_iff
  | raw name bytes =>
    have hwithin : (Attribute.raw name bytes).within = [.raw name bytes] := rfl
    rw [hwithin, List.forall_mem_singleton, check]
    constructor
    · rintro ⟨hname, -⟩
      obtain ⟨hcheck, hplain⟩ := unnamed_iff.mp hname
      exact ⟨⟨hplain, List.forall_mem_nil _⟩, hcheck⟩
    · rintro ⟨hreadable, hcheck⟩
      exact ⟨unnamed_iff.mpr ⟨hcheck, hreadable.plain⟩, trivial⟩

def form (pool : ConstantPool) : Form Attribute := fun item bytes =>
  ((∀ inner ∈ item.within, inner.IsReadable pool) ∧ item.check pool = .ok ()) ∧
    item.write.Writes bytes

/-- An attribute's content is shorter than the attribute, and its length takes four bytes. -/
theorem reads_readWith {nested : Reader (List Attribute)}
    (hnested : ∀ length < 0x100000000, length < bound → Reads length nested (tableForm pool)) :
    Reads bound (readWith pool nested) (form pool) := by
  apply (reads_word16.bind fun name => (reads_lift (pool.text name)).bind fun text =>
    reads_word32.bind fun length => (reads_take length.toNat).bind fun bytes =>
      reads_lift (ofContent pool nested name (AttributeKind.ofName? text) bytes)).congr
  intro item bytes hbound
  -- The reader goes from the name to the kind; the check goes from the kind to the name.
  rw [form, ← accepts_iff, writes_write_iff]
  constructor
  · rintro ⟨name, _, _, rfl, ⟨text, _, _, ⟨htext, rfl⟩, ⟨length, _, _, rfl, ⟨content, _, _,
      ⟨rfl, hlength⟩, ⟨hitem, rfl⟩, rfl⟩, rfl⟩, rfl⟩, rfl⟩
    -- The name and the length lie in front of the content, so that it is shorter than the
    -- attribute.
    have hshort : content.length < bound := by
      simp only [List.length_append, BigEndian.word16, BigEndian.length_encode] at hbound
      omega
    have hlimit : content.length < 0x100000000 := hlength ▸ length.toNat_lt
    obtain ⟨rfl, hkind, haccepts, hcontent⟩ :=
      (ofContent_eq_ok_iff (hnested _ hlimit hshort)).mp hitem
    refine ⟨⟨⟨text, htext, hkind⟩, haccepts⟩, content, hcontent, hlimit, ?_⟩
    rw [hlength, UInt32.ofNat_toNat, List.append_nil, List.nil_append]
  · rintro ⟨⟨⟨text, htext, hkind⟩, haccepts⟩, content, hcontent, hlimit, rfl⟩
    have hshort : content.length < bound := by
      simp only [List.length_append, BigEndian.word16, BigEndian.length_encode] at hbound
      omega
    have hitem := (ofContent_eq_ok_iff (hnested _ hlimit hshort)).mpr
      ⟨rfl, hkind, haccepts, hcontent⟩
    exact ⟨item.name, _, _, rfl, ⟨text, [], _, ⟨htext, rfl⟩, ⟨_, _, _, rfl, ⟨content, _, [],
      ⟨rfl, (UInt32.toNat_ofNat_of_lt hlimit).symm⟩, ⟨hitem, rfl⟩, List.append_nil _⟩, rfl⟩,
      rfl⟩, rfl⟩

theorem two_le_of_tableForm {attributes : List Attribute} {bytes : Bytes}
    (h : tableForm pool attributes bytes) : 2 ≤ bytes.length := by
  obtain ⟨-, hbytes⟩ := h
  rw [writeTable_eq, writes_table] at hbytes
  obtain ⟨-, rest, -, rfl⟩ := hbytes
  simp [BigEndian.word16, BigEndian.length_encode]

theorem reads_table_of_item {item : Reader Attribute} (h : Reads bound item (form pool)) :
    Reads bound (Reader.table item) (tableForm pool) := by
  apply (reads_table h).congr
  intro attributes bytes _
  have hjoined (rest : Bytes) : (form pool).Joined attributes rest ↔
      (∀ item ∈ attributes, (∀ inner ∈ item.within, inner.IsReadable pool) ∧
        item.check pool = .ok ()) ∧ Form.Joined (fun item => item.write.Writes) attributes rest :=
    Form.joined_and
  rw [tableForm, writeTable_eq, writes_table, checkAll_eq_ok_iff, withinAll_eq_flatMap,
    List.forall_mem_flatMap]
  simp only [hjoined]
  constructor
  · rintro ⟨hlength, rest, ⟨hall, hrest⟩, hbytes⟩
    exact ⟨⟨fun item h => (hall item h).1, fun item h => (hall item h).2⟩,
      hlength, rest, hrest, hbytes⟩
  · rintro ⟨⟨hreadable, hcheck⟩, hlength, rest, hrest, hbytes⟩
    exact ⟨hlength, rest, ⟨fun item h => ⟨hreadable item h, hcheck item h⟩, hrest⟩, hbytes⟩

/-- Method bodies at most `depth` deep are enough for as many bytes. -/
theorem reads_readNested (depth : Nat) : Reads depth (readNested pool depth) (tableForm pool) := by
  induction depth with
  | zero =>
    rw [readNested]
    apply (reads_word16.bind_pure fun _ => []).congr
    -- Without a byte there is not even the count of a table.
    intro attributes bytes hbound
    constructor
    · rintro ⟨value, rfl, -⟩
      simp [BigEndian.word16, BigEndian.length_encode] at hbound
    · intro h
      have := two_le_of_tableForm h
      omega
  | succ depth ih =>
    rw [readNested]
    exact reads_table_of_item (reads_readWith fun length _ hlt => ih.mono (Nat.lt_succ_iff.mp hlt))

/-- No class file holds method bodies so deep that reading stops at them. -/
theorem reads_readTable : Reads bound (readTable pool) (tableForm pool) := by
  have hdepth : readTable pool = Reader.table (readWith pool (readNested pool 0xFFFFFFFF)) := rfl
  rw [hdepth]
  exact reads_table_of_item (reads_readWith fun length hlt _ =>
    (reads_readNested 0xFFFFFFFF).mono (Nat.le_of_lt_succ hlt))

end Attribute

end ClassThaw
