import ClassThaw.Attribute
import ClassThaw.Proofs.Annotation.Depth

namespace ClassThaw.Attribute

/-- What holds of an attribute as soon as it holds of those inside it holds of all of them. -/
@[elab_as_elim]
theorem induct {motive : Attribute → Prop}
    (constantValue : ∀ name value, motive (.constantValue name value))
    (code : ∀ name body attributes, (∀ item ∈ attributes, motive item) →
      motive (.code name body attributes))
    (visibleAnnotations : ∀ name annotations, motive (.visibleAnnotations name annotations))
    (invisibleAnnotations : ∀ name annotations, motive (.invisibleAnnotations name annotations))
    (raw : ∀ name bytes, motive (.raw name bytes)) (item : Attribute) : motive item :=
  @Attribute.rec motive (fun attributes => ∀ item ∈ attributes, motive item)
    constantValue code visibleAnnotations invisibleAnnotations raw
    (List.forall_mem_nil _) (fun _ _ hfirst hrest => List.forall_mem_cons.mpr ⟨hfirst, hrest⟩) item

mutual

/-- An attribute and all those inside it. -/
def within : Attribute → List Attribute
  | .code name body attributes => .code name body attributes :: withinAll attributes
  | item => [item]

def withinAll : List Attribute → List Attribute
  | [] => []
  | first :: rest => first.within ++ withinAll rest

end

theorem withinAll_eq_flatMap (attributes : List Attribute) :
    withinAll attributes = attributes.flatMap within := by
  induction attributes with
  | nil => rfl
  | cons first rest ih => rw [withinAll, ih, List.flatMap_cons]

theorem mem_within (item : Attribute) : item ∈ item.within := by
  cases item <;> simp [within]

theorem checkAll_eq_ok_iff {pool : ConstantPool} {attributes : List Attribute} :
    checkAll pool attributes = .ok () ↔ ∀ item ∈ attributes, item.check pool = .ok () := by
  induction attributes with
  | nil => exact iff_of_true rfl (List.forall_mem_nil _)
  | cons first rest ih => rw [checkAll, check_bind_eq_ok_iff, ih, List.forall_mem_cons]

def annotations : Attribute → List AnnotationInfo
  | .visibleAnnotations _ annotations | .invisibleAnnotations _ annotations => annotations
  | .constantValue _ _ | .code _ _ _ | .raw _ _ => []

/-- The attribute keeps its bytes, although its name is that of a kind which is understood. -/
def IsDisguised (pool : ConstantPool) : Attribute → Prop
  | .raw name _ => ∃ kind : AttributeKind, pool.text name = .ok kind.name
  | _ => False

/-- Apart from the attributes inside it, the attribute can be read back from its bytes. -/
structure IsReadable (pool : ConstantPool) (item : Attribute) : Prop where
  plain : ¬ item.IsDisguised pool
  shallow : ∀ info ∈ item.annotations, info.depth ≤ maxAnnotationDepth

end ClassThaw.Attribute

namespace ClassThaw.AttributeKind

theorem ofName?_eq_some_iff {text : String} {kind : AttributeKind} :
    ofName? text = some kind ↔ text = kind.name := by
  constructor
  · intro h
    have := List.find?_some h
    exact (beq_iff_eq.mp this).symm
  · rintro rfl
    cases kind <;> rfl

theorem ofName?_eq_none_iff {text : String} :
    ofName? text = none ↔ ∀ kind : AttributeKind, text ≠ kind.name := by
  rw [Option.eq_none_iff_forall_ne_some]
  exact forall_congr' fun kind => not_congr ofName?_eq_some_iff

end ClassThaw.AttributeKind
