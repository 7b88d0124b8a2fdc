import PortableTypes.Projection.Shape

/-!
# What a shape says of its type

The shape of a type comes from one of the rules, so what a rule has found in the program can be read
off the shape.
-/
namespace PortableTypes

/-- What a shape says of the type that has it. -/
def Shape.Fits (p : Program) (type : TypeId) : Shape → Prop
  | .enum members => p.exportsOfType type = members
  | .union first second rest => p.constituents? type = some (first :: second :: rest)
  | .constituent member => p.constituents? type = some [member]
  | .tuple elements => ∃ node, p.tupleElements? node = some elements
  | .literal value => p.literalValue? type = some value
  | .callable signature => (p.callSignatures type).head? = some signature
  | .object => p.properties type ≠ []
  | _ => True

namespace Program

theorem fits_of_mem_shapeRules (p : Program) (type : TypeId) (anchor : Option NodeId) :
    ∀ rule ∈ p.shapeRules type anchor, ∀ shape ∈ rule, shape.Fits p type := by
  simp only [shapeRules, List.forall_mem_cons]
  refine ⟨?_, ?_, ?_, ?_, ?_, ?_, ?_, ?_, ?_, ?_, List.forall_mem_nil _⟩ <;> intro shape h
  · unfold unionShape? at h
    split at h <;> cases h <;> assumption
  · unfold typeParameterShape? at h
    split at h <;> cases h
    trivial
  · obtain ⟨elements, helements, rfl⟩ := Option.map_eq_some_iff.mp h
    obtain ⟨node, -, hnode⟩ := List.exists_of_findSome?_eq_some helements
    exact ⟨node, hnode⟩
  · obtain ⟨value, hvalue, rfl⟩ := Option.map_eq_some_iff.mp h
    exact hvalue
  · obtain ⟨kind, -, rfl⟩ := Option.map_eq_some_iff.mp h
    trivial
  · obtain ⟨kind, -, rfl⟩ := Option.map_eq_some_iff.mp h
    trivial
  · unfold arrayShape? at h
    split at h <;> cases h
    trivial
  · obtain ⟨signature, hsignature, rfl⟩ := Option.map_eq_some_iff.mp h
    exact hsignature
  · unfold promiseShape? at h
    split at h <;> cases h <;> trivial
  · unfold objectShape? at h
    split at h <;> cases h
    rename_i hproperties
    simpa [Shape.Fits] using hproperties

/-- The shape of a type fits the type. -/
theorem fits_shape (p : Program) (type : TypeId) (anchor : Option NodeId) :
    (p.shape type anchor).Fits p type := by
  unfold shape
  cases hrule : (p.shapeRules type anchor).findSome? id with
  | none => trivial
  | some shape =>
    obtain ⟨rule, hmem, hsome⟩ := List.exists_of_findSome?_eq_some hrule
    exact p.fits_of_mem_shapeRules type anchor rule hmem shape hsome

end Program
end PortableTypes
