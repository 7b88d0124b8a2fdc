import PortableTypes.Proofs.Program.Steps
import PortableTypes.Proofs.Projection.Outline

/-!
# The rules of classification

Twelve rules are tried in order on a type, and the first one that applies decides what the type is
classified as. A union of one member that exports nothing is not decided on: it stands for that
member, and one level of room is spent on the way to it.
-/
namespace PortableTypes

/-- The rules of classification. -/
inductive Rule
  | enum
  | union
  | typeParameter
  | tuple
  | literal
  | primitive
  | special
  | array
  | callable
  | promise
  | object
  | unsupported
  deriving DecidableEq, Repr

namespace Rule

/-- The rules between those about unions and the last one. -/
def ordinary : List Rule :=
  [.typeParameter, .tuple, .literal, .primitive, .special, .array, .callable, .promise, .object]

/-- The rules in the order in which they are tried. -/
def all : List Rule := .enum :: .union :: (ordinary ++ [.unsupported])

/-- When a rule applies to a type that was read off the anchor, and the shape that it gives the
type. -/
inductive Finds (p : Program) (type : TypeId) (anchor : Option NodeId) : Rule → Shape → Prop
  | enum {first : TypeId} {others : List TypeId} {member : SymbolId} {members : List SymbolId}
      (hunion : p.constituents? type = some (first :: others))
      (hexports : p.exportsOfType type = member :: members) :
      Finds p type anchor .enum (.enum (member :: members))
  | union {first second : TypeId} {rest : List TypeId}
      (hunion : p.constituents? type = some (first :: second :: rest)) :
      Finds p type anchor .union (.union first second rest)
  | typeParameter (h : p.isTypeParameter type = true) :
      Finds p type anchor .typeParameter .typeParameter
  | tuple {elements : List NodeId} (h : p.tupleSource? type anchor = some elements) :
      Finds p type anchor .tuple (.tuple elements)
  | literal {value : Literal} (h : p.literalValue? type = some value) :
      Finds p type anchor .literal (.literal value)
  | primitive {kind : Primitive} (h : p.displayText type = kind.wire) :
      Finds p type anchor .primitive (.primitive kind)
  | special {kind : Special}
      (h : p.displayText type = kind.wire ∨ p.displayText type = "symbol" ∧ kind = .symbol) :
      Finds p type anchor .special (.special kind)
  | array (h : "[]".toList <:+ (p.displayText type).toList ∨
        p.typeSymbolName? type = some "Array") :
      Finds p type anchor .array .array
  | callable {signature : SignatureId} {others : List SignatureId}
      (h : p.callSignatures type = signature :: others) :
      Finds p type anchor .callable (.callable signature)
  | promise (h : p.typeSymbolName? type = some "Promise") :
      Finds p type anchor .promise .promise
  | promiseLike (h : p.typeSymbolName? type = some "PromiseLike") :
      Finds p type anchor .promise .promiseLike
  | object (h : p.properties type ≠ []) : Finds p type anchor .object .object
  | unsupported : Finds p type anchor .unsupported .unknown

/-- A rule is the first one that applies to a type, and gives it the shape. -/
structure Decides (p : Program) (type : TypeId) (anchor : Option NodeId) (rule : Rule)
    (shape : Shape) : Prop where
  finds : rule.Finds p type anchor shape
  first : ∃ before after, all = before ++ rule :: after ∧
    ∀ earlier ∈ before, ∀ other, ¬ earlier.Finds p type anchor other

/-- The shape that a rule gives a type, if it applies. -/
def shape? (p : Program) (type : TypeId) (anchor : Option NodeId) : Rule → Option Shape
  | .enum =>
    match p.constituents? type, p.exportsOfType type with
    | some (_ :: _), member :: members => some (.enum (member :: members))
    | _, _ => none
  | .union =>
    match p.constituents? type with
    | some (first :: second :: rest) => some (.union first second rest)
    | _ => none
  | .typeParameter => p.typeParameterShape? type
  | .tuple => p.tupleShape? type anchor
  | .literal => p.literalShape? type
  | .primitive => p.primitiveShape? type
  | .special => p.specialShape? type
  | .array => p.arrayShape? type
  | .callable => p.callableShape? type
  | .promise => p.promiseShape? type
  | .object => p.objectShape? type
  | .unsupported => some .unknown

end Rule

theorem Primitive.ofText?_eq_some_iff {text : String} {kind : Primitive} :
    ofText? text = some kind ↔ text = kind.wire := by
  constructor
  · intro h
    have hwire := List.find?_some h
    exact (beq_iff_eq.mp hwire).symm
  · rintro rfl
    cases kind <;> rfl

theorem Special.ofText?_eq_some_iff {text : String} {kind : Special} :
    ofText? text = some kind ↔ text = kind.wire ∨ text = "symbol" ∧ kind = .symbol := by
  unfold ofText?
  split
  · rename_i htext
    subst htext
    constructor
    · rintro ⟨⟩
      exact .inr ⟨rfl, rfl⟩
    · rintro (hwire | ⟨-, rfl⟩)
      · revert hwire
        cases kind <;> decide
      · rfl
  · rename_i htext
    constructor
    · intro h
      have hwire := List.find?_some h
      exact .inl (beq_iff_eq.mp hwire).symm
    · rintro (rfl | ⟨rfl, -⟩)
      · cases kind <;> rfl
      · exact absurd rfl htext

namespace Rule

variable {p : Program} {type : TypeId} {anchor : Option NodeId}

theorem finds_of_shape?_eq_some {rule : Rule} {shape : Shape}
    (h : rule.shape? p type anchor = some shape) : rule.Finds p type anchor shape := by
  cases rule with
  | enum =>
    simp only [shape?] at h
    split at h <;> cases h
    exact .enum ‹_› ‹_›
  | union =>
    simp only [shape?] at h
    split at h <;> cases h
    exact .union ‹_›
  | typeParameter =>
    simp only [shape?, Program.typeParameterShape?] at h
    split at h <;> cases h
    exact .typeParameter ‹_›
  | tuple =>
    obtain ⟨elements, helements, rfl⟩ := Option.map_eq_some_iff.mp h
    exact .tuple helements
  | literal =>
    obtain ⟨value, hvalue, rfl⟩ := Option.map_eq_some_iff.mp h
    exact .literal hvalue
  | primitive =>
    obtain ⟨kind, hkind, rfl⟩ := Option.map_eq_some_iff.mp h
    exact .primitive (Primitive.ofText?_eq_some_iff.mp hkind)
  | special =>
    obtain ⟨kind, hkind, rfl⟩ := Option.map_eq_some_iff.mp h
    exact .special (Special.ofText?_eq_some_iff.mp hkind)
  | array =>
    simp only [shape?, Program.arrayShape?] at h
    split at h <;> cases h
    rename_i harray
    exact .array (by simpa [Program.isArray] using harray)
  | callable =>
    obtain ⟨signature, hsignature, rfl⟩ := Option.map_eq_some_iff.mp h
    obtain ⟨others, hothers⟩ := List.head?_eq_some_iff.mp hsignature
    exact .callable hothers
  | promise =>
    simp only [shape?, Program.promiseShape?] at h
    split at h <;> cases h
    · exact .promise ‹_›
    · exact .promiseLike ‹_›
  | object =>
    simp only [shape?, Program.objectShape?] at h
    split at h <;> cases h
    rename_i hproperties
    exact .object (by simpa using hproperties)
  | unsupported =>
    cases h
    exact .unsupported

theorem Finds.shape?_eq_some {rule : Rule} {shape : Shape} (h : rule.Finds p type anchor shape) :
    rule.shape? p type anchor = some shape := by
  cases h with
  | enum hunion hexports => simp only [shape?, hunion, hexports]
  | union hunion => simp only [shape?, hunion]
  | typeParameter h => simp [shape?, Program.typeParameterShape?, h]
  | tuple h => simp [shape?, Program.tupleShape?, h]
  | literal h => simp [shape?, Program.literalShape?, h]
  | primitive h =>
    simp [shape?, Program.primitiveShape?, Primitive.ofText?_eq_some_iff.mpr h]
  | special h => simp [shape?, Program.specialShape?, Special.ofText?_eq_some_iff.mpr h]
  | array h =>
    have harray : p.isArray type = true := by simpa [Program.isArray] using h
    simp [shape?, Program.arrayShape?, harray]
  | callable h => simp [shape?, Program.callableShape?, h]
  | promise h => simp [shape?, Program.promiseShape?, h]
  | promiseLike h => simp [shape?, Program.promiseShape?, h]
  | object h => simp [shape?, Program.objectShape?, h]
  | unsupported => rfl

end Rule

namespace Program

/-! ## Unions of one member -/

/-- The only member of a union that exports nothing. -/
def sole? (p : Program) (type : TypeId) : Option TypeId :=
  match p.constituents? type, p.exportsOfType type with
  | some [member], [] => some member
  | _, _ => none

/-- The type that so many unions of one member lead to. -/
def behind? (p : Program) : (links : Nat) → TypeId → Option TypeId := steps? p.sole?

/-- From a type unions of one member lead to a type, and on to that type again. -/
def Circular (p : Program) (type : TypeId) : Prop :=
  ∃ links more other, p.behind? links type = some other ∧ p.behind? (more + 1) other = some other

variable {p : Program} {type : TypeId}

theorem shape_of_unionShape?_eq_some {shape : Shape} (h : p.unionShape? type = some shape)
    (anchor : Option NodeId) : p.shape type anchor = shape := by
  simp only [Program.shape, shapeRules, List.findSome?_cons, h, id, Option.getD_some]

theorem shape_of_sole?_eq_some {member : TypeId} (h : p.sole? type = some member)
    (anchor : Option NodeId) : p.shape type anchor = .constituent member := by
  unfold sole? at h
  split at h
  · rename_i hunion hexports
    cases h
    exact shape_of_unionShape?_eq_some (by simp only [unionShape?, hunion, hexports]) anchor
  · cases h

/-- What is no union of one member falls under the rule for enumerations or the one for unions, if
it is a union of any. -/
theorem unionShape?_of_sole?_eq_none (h : p.sole? type = none) (anchor : Option NodeId) :
    p.unionShape? type =
      (Rule.enum.shape? p type anchor).or (Rule.union.shape? p type anchor) := by
  rcases hunion : p.constituents? type with _ | _ | ⟨first, _ | ⟨second, rest⟩⟩ <;>
  rcases hexports : p.exportsOfType type with _ | ⟨member, members⟩ <;>
  simp [sole?, unionShape?, Rule.shape?, hunion, hexports] at h ⊢

/-- What is no union of one member gets its shape from the first rule that applies. -/
theorem exists_decides (h : p.sole? type = none) (anchor : Option NodeId) :
    ∃ rule : Rule, rule.Decides p type anchor (p.shape type anchor) := by
  have hrules : p.shapeRules type anchor =
      p.unionShape? type :: Rule.ordinary.map (Rule.shape? p type anchor) := rfl
  have hfirst : Rule.all.findSome? (Rule.shape? p type anchor) = some (p.shape type anchor) := by
    rw [shape, hrules, unionShape?_of_sole?_eq_none h anchor, Rule.all]
    simp only [List.findSome?_cons, List.findSome?_append, List.findSome?_map, Function.id_comp]
    cases Rule.enum.shape? p type anchor with
    | some shape => rfl
    | none =>
      cases Rule.union.shape? p type anchor with
      | some shape => rfl
      | none => cases Rule.ordinary.findSome? (Rule.shape? p type anchor) <;> rfl
  obtain ⟨before, rule, after, hall, hrule, hearlier⟩ := List.findSome?_eq_some_iff.mp hfirst
  refine ⟨rule, Rule.finds_of_shape?_eq_some hrule, before, after, hall, ?_⟩
  intro earlier hmem other hother
  have hnone := hearlier earlier hmem
  rw [hother.shape?_eq_some] at hnone
  cases hnone

theorem shape_ne_constituent (h : p.sole? type = none) (anchor : Option NodeId) (member : TypeId) :
    p.shape type anchor ≠ .constituent member := by
  intro hshape
  obtain ⟨rule, hfinds, -⟩ := exists_decides h anchor
  rw [hshape] at hfinds
  cases hfinds

/-- A union of one member has the outline of the member, with a level less of room. -/
theorem outline_of_sole?_eq_some {member : TypeId} (h : p.sole? type = some member) (room : Nat)
    (anchor : Option NodeId) :
    p.outline (room + 1) type anchor = p.outline room member anchor := by
  rw [outline, shape_of_sole?_eq_some h]
  rfl

/-- Unions of one member each take a level of room. -/
theorem outline_of_behind?_eq_some {links : Nat} {last : TypeId}
    (h : p.behind? links type = some last) (room : Nat) (anchor : Option NodeId) :
    p.outline (room + links) type anchor = p.outline room last anchor := by
  induction links generalizing type with
  | zero =>
    cases h
    rfl
  | succ links ih =>
    obtain ⟨member, hmember, hlast⟩ := Option.bind_eq_some_iff.mp h
    rw [← Nat.add_assoc, outline_of_sole?_eq_some hmember]
    exact ih hlast

/-- Unions of one member that take all the room leave a gap. -/
theorem outline_eq_gap {room : Nat} {last : TypeId} (h : p.behind? room type = some last)
    (anchor : Option NodeId) :
    p.outline room type anchor = .unsupported .recursionLimit (some (p.displayText last)) [] := by
  have hgap := outline_of_behind?_eq_some h 0 anchor
  rwa [Nat.zero_add] at hgap

/-! ## What decides on a type -/

/-- Where unions of one member, at most 63 of them, lead from a type to one that is none itself, the
type is classified by the first rule that applies to that last type: as what the rule makes of it,
with the last type's text and the locations of the anchor, and with its parts classified in the room
that is left. Where 64 unions of one member or more follow each other, or go round in a circle,
there is no more than a gap for want of room. -/
theorem classify_by_first_rule (p : Program) (type : TypeId) (anchor : Option NodeId) (g : UInt32)
    (n : Nat) :
    (∀ links last, links ≤ 63 → p.behind? links type = some last → p.sole? last = none →
      ∃ (rule : Rule) (shape : Shape), rule.Decides p last anchor shape ∧
        (p.classify maxNesting type anchor g n).value.erased =
          p.outlineShape (p.outline (63 - links)) last anchor shape) ∧
    ((∃ links, 64 ≤ links ∧ (p.behind? links type).isSome) ∨ p.Circular type →
      ∃ last, p.behind? 64 type = some last ∧
        (p.classify maxNesting type anchor g n).value =
          .unsupported .recursionLimit (some (p.displayText last)) []) := by
  have houtline := p.erased_value_classify maxNesting type anchor g n
  constructor
  · intro links last hlinks hlast hsole
    obtain ⟨rule, hrule⟩ := exists_decides hsole anchor
    refine ⟨rule, p.shape last anchor, hrule, ?_⟩
    have hroom : maxNesting = (63 - links + 1) + links := by
      unfold maxNesting
      omega
    rw [houtline, hroom, outline_of_behind?_eq_some hlast, outline]
  · intro hlong
    have hsome : (p.behind? 64 type).isSome := by
      obtain ⟨links, hle, hlinks⟩ | ⟨links, more, other, hother, hround⟩ := hlong
      · exact isSome_steps?_of_le hle hlinks
      · exact isSome_steps?_of_cycle hother hround (Nat.succ_pos more) 64
    obtain ⟨last, hlast⟩ := Option.isSome_iff_exists.mp hsome
    refine ⟨last, hlast, ?_⟩
    exact TypeObject.eq_of_erased_eq (houtline.trans (outline_eq_gap hlast anchor)) rfl rfl

/-- A row of 64 unions of one member each. It leads to a type that is an array by its text, can be
called, is named as a promise and has properties. Behind them stands a union of itself alone. -/
def unionsInARow : Program :=
  let row : List TypeRecord :=
    (List.range 64).map fun i => { text := "U", kind := .union [⟨i + 2⟩] }
  let last : TypeRecord :=
    { text := "typeof string[]", kind := .object, symbol := some ⟨0⟩, properties := [⟨1⟩],
      callSignatures := [⟨0⟩] }
  let circle : TypeRecord := { text := "C", kind := .union [⟨66⟩] }
  { types := (TypeRecord.error :: row ++ [last, circle]).toArray
    symbols := #[{ name := "Promise" }, { name := "then" }]
    signatures := #[{ parameters := [], result := ⟨0⟩ }] }

/-- Behind 63 unions the type is an array; behind 64, and in the circle, there is no room for it. -/
theorem classify_by_first_rule_row :
    let p := unionsInARow
    (p.behind? 63 ⟨2⟩ = some ⟨65⟩ ∧ p.sole? ⟨65⟩ = none ∧
      (∃ (rule : Rule) (shape : Shape), rule.Decides p ⟨65⟩ none shape ∧
        (p.classify maxNesting ⟨2⟩ none 0 0).value.erased =
          p.outlineShape (p.outline 0) ⟨65⟩ none shape) ∧
      (p.classify maxNesting ⟨2⟩ none 0 0).value.tag = .array) ∧
    (p.behind? 64 ⟨1⟩ = some ⟨65⟩ ∧
      (p.classify maxNesting ⟨1⟩ none 0 0).value =
        .unsupported .recursionLimit (some (p.displayText ⟨65⟩)) []) ∧
    (p.Circular ⟨66⟩ ∧
      (p.classify maxNesting ⟨66⟩ none 0 0).value =
        .unsupported .recursionLimit (some (p.displayText ⟨66⟩)) []) := by
  intro p
  have hlast : p.behind? 63 ⟨2⟩ = some ⟨65⟩ := by decide +kernel
  have hsole : p.sole? ⟨65⟩ = none := by decide +kernel
  have hlong : p.behind? 64 ⟨1⟩ = some ⟨65⟩ := by decide +kernel
  have hround (links : Nat) : p.behind? links ⟨66⟩ = some ⟨66⟩ := by
    have honce : p.behind? 1 ⟨66⟩ = some ⟨66⟩ := by decide +kernel
    simpa [behind?] using steps?_mul honce links
  have hcircular : p.Circular ⟨66⟩ := ⟨0, 0, ⟨66⟩, hround 0, hround 1⟩
  refine ⟨⟨hlast, hsole, ?_, by decide +kernel⟩, ⟨hlong, ?_⟩, hcircular, ?_⟩
  · exact (classify_by_first_rule p ⟨2⟩ none 0 0).1 63 ⟨65⟩ (Nat.le_refl 63) hlast hsole
  · obtain ⟨last, hbehind, hgap⟩ := (classify_by_first_rule p ⟨1⟩ none 0 0).2
      (.inl ⟨64, Nat.le_refl 64, by rw [hlong]; rfl⟩)
    cases hlong.symm.trans hbehind
    exact hgap
  · obtain ⟨last, hbehind, hgap⟩ := (classify_by_first_rule p ⟨66⟩ none 0 0).2 (.inr hcircular)
    cases (hround 64).symm.trans hbehind
    exact hgap

end Program
end PortableTypes
