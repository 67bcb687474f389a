import ClassThaw.Proofs.ClassFile.Layout
import ClassThaw.Proofs.Draft.Calls

namespace ClassThaw

open List (Forall₂)

/-- An attribute in texts. -/
inductive AttributePlan where
  -- The value of a field of type `int`.
  | integer (value : Int32)
  -- A method body without handlers.
  | body (maxStack maxLocals : UInt16) (code : Bytes)
  -- The types of visible annotations without elements.
  | annotations (descriptors : List String)
  | raw (name : String) (bytes : Bytes)

/-- A field or a method in texts. -/
structure MemberPlan (F : Type) where
  access : Access F
  name : String
  descriptor : String
  attributes : List AttributePlan

/-- A class in texts. -/
structure ClassPlan where
  name : String
  major : UInt16
  minor : UInt16
  access : Access ClassFlag
  superName : String
  interfaces : List String
  fields : List (MemberPlan FieldFlag)
  methods : List (MemberPlan MethodFlag)
  attributes : List AttributePlan

namespace AttributePlan

/-- One attribute has all annotations, and there is none without annotations. -/
def annotated (descriptors : List String) : List AttributePlan :=
  if descriptors.isEmpty then [] else [.annotations descriptors]

def ofBody : Option Draft.Body → List AttributePlan
  | none => []
  | some given => [.body given.maxStack given.maxLocals given.code]

end AttributePlan

namespace ClassPlan

def start (name : String) : ClassPlan where
  name
  major := 52
  minor := 0
  access := .ofFlags [.public, .super]
  superName := "java/lang/Object"
  interfaces := []
  fields := []
  methods := []
  attributes := []

/-- What has been asked for once is replaced; what there can be several of is put behind what there
is. -/
def add (plan : ClassPlan) : Draft.Step → ClassPlan
  | .version major minor => { plan with major, minor }
  | .access access => { plan with access }
  | .superClass superName => { plan with superName }
  | .interface name => { plan with interfaces := plan.interfaces ++ [name] }
  | .annotated descriptor =>
    { plan with attributes := plan.attributes ++ [.annotations [descriptor]] }
  | .field access name descriptor descriptors =>
    let field := { access, name, descriptor, attributes := AttributePlan.annotated descriptors }
    { plan with fields := plan.fields ++ [field] }
  | .constantField access name value descriptors =>
    let attributes := .integer value :: AttributePlan.annotated descriptors
    { plan with fields := plan.fields ++ [{ access, name, descriptor := "I", attributes }] }
  | .method access name descriptor body =>
    let method := { access, name, descriptor, attributes := AttributePlan.ofBody body }
    { plan with methods := plan.methods ++ [method] }
  | .raw name bytes => { plan with attributes := plan.attributes ++ [.raw name bytes] }

def ofSteps (name : String) (steps : List Draft.Step) : ClassPlan := steps.foldl add (start name)

end ClassPlan

variable {before after pool : ConstantPool}

/-- Seen through the pool, the attribute is as planned. -/
inductive Attribute.Meets (pool : ConstantPool) : AttributePlan → Attribute → Prop
  | integer {value : Int32} {name index : UInt16} :
    pool.text name = .ok AttributeKind.constantValue.name →
    pool.get? index = some (.integer value) →
    Attribute.Meets pool (.integer value) (.constantValue name index)
  | body {maxStack maxLocals : UInt16} {code : Bytes} {name : UInt16} :
    pool.text name = .ok AttributeKind.code.name →
    Attribute.Meets pool (.body maxStack maxLocals code)
      (.code name { maxStack, maxLocals, code, handlers := [] } [])
  | annotations {descriptors : List String} {name : UInt16} {infos : List AnnotationInfo} :
    pool.text name = .ok AttributeKind.visibleAnnotations.name →
    infos.mapM (·.descriptor pool) = .ok descriptors →
    (∀ info ∈ infos, info.elements = []) →
    Attribute.Meets pool (.annotations descriptors) (.visibleAnnotations name infos)
  | raw {name : String} {bytes : Bytes} {index : UInt16} :
    pool.text index = .ok name →
    Attribute.Meets pool (.raw name bytes) (.raw index bytes)

/-- Seen through the pool, the member is as planned. -/
structure Member.Meets {F : Type} (pool : ConstantPool) (plan : MemberPlan F)
    (member : Member F) : Prop where
  access : member.access = plan.access
  nameText : member.nameText pool = .ok plan.name
  descriptorText : member.descriptorText pool = .ok plan.descriptor
  attributes : Forall₂ (Attribute.Meets pool) plan.attributes member.attributes

/-- Seen through its pool, the class is as planned. -/
structure ClassFile.Meets (plan : ClassPlan) (file : ClassFile) : Prop where
  name : file.name = .ok plan.name
  major : file.major = plan.major
  minor : file.minor = plan.minor
  access : file.access = plan.access
  superName : file.superName = .ok (some plan.superName)
  interfaceNames : file.interfaceNames = .ok plan.interfaces
  fields : Forall₂ (Member.Meets file.pool) plan.fields file.fields
  methods : Forall₂ (Member.Meets file.pool) plan.methods file.methods
  attributes : Forall₂ (Attribute.Meets file.pool) plan.attributes file.attributes

theorem ClassFile.superName_eq_ok_some_iff {file : ClassFile} {name : String} :
    file.superName = .ok (some name) ↔
      file.superClass ≠ 0 ∧ file.pool.className file.superClass = .ok name := by
  unfold superName
  split
  case isTrue hzero => simp [hzero]
  case isFalse hnonzero =>
    cases file.pool.className file.superClass <;> simp [Except.map, hnonzero]

section growth

theorem Attribute.Meets.grow {plan : AttributePlan} {item : Attribute}
    (hgrows : before.Grows after) (h : Attribute.Meets before plan item) :
    Attribute.Meets after plan item := by
  cases h with
  | integer hname hvalue => exact .integer (hgrows.text hname) (hgrows.get? hvalue)
  | body hname => exact .body (hgrows.text hname)
  | annotations hname htypes hplain =>
    refine .annotations (hgrows.text hname) ?_ hplain
    rw [mapM_eq_ok_iff] at htypes ⊢
    exact htypes.imp fun _ _ htype => hgrows.text htype
  | raw hname => exact .raw (hgrows.text hname)

theorem forall₂_meets_grow {plans : List AttributePlan} {items : List Attribute}
    (hgrows : before.Grows after) (h : Forall₂ (Attribute.Meets before) plans items) :
    Forall₂ (Attribute.Meets after) plans items :=
  h.imp fun _ _ hitem => hitem.grow hgrows

theorem Member.Meets.grow {F : Type} {plan : MemberPlan F} {member : Member F}
    (hgrows : before.Grows after) (h : Member.Meets before plan member) :
    Member.Meets after plan member where
  access := h.access
  nameText := hgrows.text h.nameText
  descriptorText := hgrows.text h.descriptorText
  attributes := forall₂_meets_grow hgrows h.attributes

theorem ClassFile.Meets.grow {plan : ClassPlan} {file : ClassFile}
    (hgrows : file.pool.Grows after) (h : file.Meets plan) :
    { file with pool := after }.Meets plan where
  name := hgrows.className h.name
  major := h.major
  minor := h.minor
  access := h.access
  superName := by
    have hsuper := superName_eq_ok_some_iff.mp h.superName
    exact superName_eq_ok_some_iff.mpr ⟨hsuper.1, hgrows.className hsuper.2⟩
  interfaceNames := by
    have hnames := h.interfaceNames
    rw [ClassFile.interfaceNames, mapM_eq_ok_iff] at hnames ⊢
    exact hnames.imp fun _ _ hname => hgrows.className hname
  fields := h.fields.imp fun _ _ hfield => hfield.grow hgrows
  methods := h.methods.imp fun _ _ hmethod => hmethod.grow hgrows
  attributes := forall₂_meets_grow hgrows h.attributes

end growth

section checks

theorem Attribute.checkName_of_text {index : UInt16} {kind : AttributeKind}
    (h : pool.text index = .ok kind.name) : checkName pool index (some kind) = .ok () := by
  refine bind_eq_ok_iff.mpr ⟨kind.name, h, ?_⟩
  exact if_pos rfl

theorem Attribute.Meets.check {plan : AttributePlan} {item : Attribute}
    (h : Attribute.Meets pool plan item) : item.check pool = .ok () := by
  cases h with
  | integer hname hvalue =>
    refine check_bind_eq_ok_iff.mpr ⟨checkName_of_text hname, ?_⟩
    rw [ConstantPool.checkConstantValue, hvalue]
  | body hname => exact check_bind_eq_ok_iff.mpr ⟨checkName_of_text hname, rfl⟩
  | annotations hname htypes hplain =>
    refine check_bind_eq_ok_iff.mpr ⟨checkName_of_text hname, check_forM_eq_ok_iff.mpr ?_⟩
    intro info hinfo
    obtain ⟨descriptor, htype⟩ := exists_of_mapM_eq_ok htypes hinfo
    refine AnnotationInfo.check_eq_ok_iff.mpr ⟨ConstantPool.checkUtf8_of_text htype, ?_⟩
    rw [hplain info hinfo]
    rfl
  | raw hname => exact bind_eq_ok_iff.mpr ⟨_, hname, rfl⟩

theorem checkAll_of_meets {plans : List AttributePlan} {items : List Attribute}
    (h : Forall₂ (Attribute.Meets pool) plans items) : Attribute.checkAll pool items = .ok () := by
  refine Attribute.checkAll_eq_ok_iff.mpr ?_
  intro item hitem
  obtain ⟨plan, -, hmeets⟩ := exists_mem_of_forall₂ h hitem
  exact hmeets.check

theorem Member.Meets.check {F : Type} {plan : MemberPlan F} {member : Member F}
    (h : Member.Meets pool plan member) : member.check pool = .ok () :=
  Member.check_eq_ok_iff.mpr ⟨ConstantPool.checkUtf8_of_text h.nameText,
    ConstantPool.checkUtf8_of_text h.descriptorText, checkAll_of_meets h.attributes⟩

/-- What is as planned leads to texts, so that no check has anything to object to. -/
theorem ClassFile.Meets.check {plan : ClassPlan} {file : ClassFile} (h : file.Meets plan)
    (hpool : file.pool.check = .ok ()) : file.check = .ok () := by
  refine check_eq_ok_iff.mpr ⟨hpool, ?_⟩
  constructor
  case thisClass => exact ConstantPool.checkClass_of_className h.name
  case superClass =>
    obtain ⟨hnonzero, hname⟩ := superName_eq_ok_some_iff.mp h.superName
    exact (if_neg hnonzero).trans (ConstantPool.checkClass_of_className hname)
  case interfaces =>
    intro index hindex
    obtain ⟨name, hname⟩ := exists_of_mapM_eq_ok h.interfaceNames hindex
    exact ConstantPool.checkClass_of_className hname
  case fields =>
    intro field hfield
    obtain ⟨plan, -, hmeets⟩ := exists_mem_of_forall₂ h.fields hfield
    exact hmeets.check
  case methods =>
    intro method hmethod
    obtain ⟨plan, -, hmeets⟩ := exists_mem_of_forall₂ h.methods hmethod
    exact hmeets.check
  case attributes => exact checkAll_of_meets h.attributes

end checks

end ClassThaw
