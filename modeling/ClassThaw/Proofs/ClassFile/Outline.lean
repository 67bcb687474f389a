import ClassThaw.Proofs.EnumRule.Shape
import ClassThaw.Proofs.HolderRule

/-! The outline of a class has all its indices, flags and names, but nothing that no rule looks
into. So whatever a rule does to the class it can do to the outline. -/

namespace ClassThaw

namespace Attribute

mutual

/-- The attribute without content that is only carried along: the bytes of one that is not
understood, a method body apart from its attributes, and annotations that are invisible. -/
def outline : Attribute → Attribute
  | .constantValue name value => .constantValue name value
  | .code name _ attributes =>
    .code name { maxStack := 0, maxLocals := 0, code := [], handlers := [] }
      (outlineAll attributes)
  | .visibleAnnotations name annotations => .visibleAnnotations name annotations
  | .invisibleAnnotations name _ => .invisibleAnnotations name []
  | .raw name _ => .raw name []

def outlineAll : List Attribute → List Attribute
  | [] => []
  | first :: rest => first.outline :: outlineAll rest

end

theorem visibleIn_outlineAll (attributes : List Attribute) :
    visibleIn (outlineAll attributes) = visibleIn attributes := by
  induction attributes with
  | nil => rfl
  | cons first rest ih =>
    have hcons (item : Attribute) (items : List Attribute) :
        visibleIn (item :: items) = visibleIn [item] ++ visibleIn items := by
      rw [visibleIn, List.flatMap_cons, visibleIn, List.flatMap_singleton]
      rfl
    -- What is erased was not visible: instructions, invisible annotations and unknown content.
    have hfirst : visibleIn [first.outline] = visibleIn [first] := by
      cases first <;> rw [outline] <;> rfl
    rw [outlineAll, hcons, hfirst, ih, ← hcons]

end Attribute

namespace Member

variable {F : Type} {pool : ConstantPool}

def outline (member : Member F) : Member F :=
  { member with attributes := Attribute.outlineAll member.attributes }

theorem annotationDescriptors_outline (member : Member F) :
    member.outline.annotationDescriptors pool = member.annotationDescriptors pool := by
  rw [annotationDescriptors, annotationDescriptors, outline, Attribute.visibleIn_outlineAll]

end Member

namespace ClassFile

/-- The class without content that is only carried along. -/
def outline (file : ClassFile) : ClassFile :=
  { file with
    fields := file.fields.map Member.outline
    methods := file.methods.map Member.outline
    attributes := Attribute.outlineAll file.attributes }

variable (file : ClassFile)

theorem annotationDescriptors_outline :
    file.outline.annotationDescriptors = file.annotationDescriptors := by
  rw [annotationDescriptors, annotationDescriptors, outline, Attribute.visibleIn_outlineAll]

theorem enumShape_outline : file.outline.enumShape = file.enumShape := by
  have haccess : file.outline.access = file.access := rfl
  have hsuper : file.outline.superName = file.superName := rfl
  have hname : file.outline.name = file.name := rfl
  apply enumShape_congr haccess hsuper hname
  · intro className
    exact filterMapM_zipIdx_map (f := Member.outline) (fun _ _ => rfl) 0
  · exact filterMapM_zipIdx_map (f := Member.outline) (fun _ _ => rfl) 0

theorem lacksAppend_outline (className : String) :
    file.outline.lacksAppend className = file.lacksAppend className := by
  rw [lacksAppend, lacksAppend, findMethod?, findMethod?, outline, List.findIdx?_map]
  rfl

theorem openPatch_outline (position : Nat) (appendAdded : Bool) :
    file.outline.openPatch position appendAdded = file.openPatch position appendAdded := by
  have hvalues : (file.fields.map Member.outline)[position]?.any (·.access.has .final) =
      file.fields[position]?.any (·.access.has .final) := by
    rw [List.getElem?_map, Option.any_map]
    rfl
  have hconstructors :
      (file.methods.map Member.outline).countP (·.isClosedConstructor file.pool) =
        file.methods.countP (·.isClosedConstructor file.pool) := by
    rw [List.countP_map]
    rfl
  rw [openPatch, openPatch, ← hvalues, ← hconstructors]
  rfl

theorem withOpenMembers_outline (position : Nat) :
    file.outline.withOpenMembers position = (file.withOpenMembers position).outline := by
  have hfields : (file.outline.withOpenMembers position).fields =
      (file.withOpenMembers position).outline.fields := by
    have hthawed (field : Field) : field.outline.thawed = field.thawed.outline := rfl
    exact modify_map hthawed file.fields position
  have hmethods : (file.outline.withOpenMembers position).methods =
      (file.withOpenMembers position).outline.methods := by
    have hmethod (method : Method) :
        (if method.outline.isClosedConstructor file.pool then method.outline.opened
          else method.outline) =
        (if method.isClosedConstructor file.pool then method.opened else method).outline := by
      -- A constructor is known by its name, and closed by its flags.
      have hclosed : method.outline.isClosedConstructor file.pool =
          method.isClosedConstructor file.pool := rfl
      rw [hclosed]
      split <;> rfl
    simp only [withOpenMembers, outline, List.map_map, Function.comp_def]
    exact List.map_congr_left fun method _ => hmethod method
  exact congrArg₂ (fun fields methods => { file.outline with fields, methods }) hfields hmethods

/-- A method and the constants that it needs come behind the others in the outline as well. -/
theorem outline_append (method : Method) (pool : ConstantPool) :
    { file with pool, methods := file.methods ++ [method] }.outline =
      { file.outline with pool, methods := file.outline.methods ++ [method.outline] } := by
  simp only [outline, List.map_append, List.map_cons, List.map_nil]

end ClassFile

namespace HolderRules

variable (rules : HolderRules) (className : String) (file : ClassFile)

theorem carries_outline (marker : Marker) (pool : ConstantPool) (field : Field) :
    rules.carries marker pool field.outline = rules.carries marker pool field := by
  rw [carries, carries, Member.annotationDescriptors_outline]

theorem covers_outline : rules.covers className file.outline = rules.covers className file := by
  have hfields : file.outline.fields.any (rules.carries .itemStackHolder file.pool) =
      file.fields.any (rules.carries .itemStackHolder file.pool) := by
    rw [ClassFile.outline, List.any_map]
    simp only [Function.comp_def, carries_outline]
  rw [covers, covers, ClassFile.annotationDescriptors_outline, ← hfields]
  rfl

/-- Visible annotations are all that tells which fields are holders. -/
theorem selects_outline (field : Field) :
    rules.selects className file.outline field.outline = rules.selects className file field := by
  rw [selects, selects, thaws, thaws, covers_outline, carries_outline]
  rfl

theorem countP_selects_outline :
    file.outline.fields.countP (rules.selects className file.outline) =
      file.fields.countP (rules.selects className file) := by
  have hfields : file.outline.fields = file.fields.map Member.outline := rfl
  rw [hfields, List.countP_map]
  simp only [Function.comp_def, selects_outline]

theorem thaw_outline :
    rules.thaw className file.outline = (rules.thaw className file).outline := by
  have hfields : (rules.thaw className file.outline).fields =
      (rules.thaw className file).outline.fields := by
    have hfield (field : Field) :
        (if rules.selects className file.outline field.outline then field.outline.thawed
          else field.outline) =
        (if rules.selects className file field then field.thawed else field).outline := by
      rw [selects_outline]
      split <;> rfl
    simp only [thaw, ClassFile.thawWhere, ClassFile.outline, List.map_map, Function.comp_def]
    exact List.map_congr_left fun field _ => hfield field
  exact congrArg (fun fields => { file.outline with fields }) hfields

end HolderRules

end ClassThaw
