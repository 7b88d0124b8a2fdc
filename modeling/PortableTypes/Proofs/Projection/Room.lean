import Mathlib.Data.List.Forall2
import PortableTypes.Proofs.Projection.Rules
import PortableTypes.Proofs.TypeObject.Nesting

/-!
# What room there is shows

With less room a type is classified as the same type object cut short: where the room ends there is
a gap, and an enumeration has lost the members whose literals were not reached. All else stays as it
is.
-/
namespace PortableTypes

namespace TypeObject

/-- The second type object is the first one cut short: in the place of some type objects there are
gaps for want of room, and enumerations may have lost members. -/
inductive CutShort : TypeObject → TypeObject → Prop
  | same (t : TypeObject) : CutShort t t
  | gap (t : TypeObject) (text : String) :
      CutShort t (.unsupported .recursionLimit (some text) [])
  | enum {typeName : String} {members kept : List EnumMember} {locations : List Location}
      (h : kept.Sublist members) :
      CutShort (.enum typeName members locations) (.enum typeName kept locations)
  | array {typeName : String} {child child' : TypeObject} {locations : List Location}
      (h : CutShort child child') :
      CutShort (.array typeName child locations) (.array typeName child' locations)
  | tuple {typeName : String} {items items' : List TypeObject} {locations : List Location}
      (h : List.Forall₂ CutShort items items') :
      CutShort (.tuple typeName items locations) (.tuple typeName items' locations)
  | union {typeName : String} {first first' second second' : TypeObject}
      {rest rest' : List TypeObject} {locations : List Location}
      (hfirst : CutShort first first') (hsecond : CutShort second second')
      (hrest : List.Forall₂ CutShort rest rest') :
      CutShort (.union typeName first second rest locations)
        (.union typeName first' second' rest' locations)
  | callable {arguments arguments' : List (String × TypeObject)} {result result' : TypeObject}
      {locations : List Location}
      (hnames : arguments.map Prod.fst = arguments'.map Prod.fst)
      (htypes : List.Forall₂ CutShort (arguments.map Prod.snd) (arguments'.map Prod.snd))
      (hresult : CutShort result result') :
      CutShort (.callable arguments result locations) (.callable arguments' result' locations)
  | promise {child child' : TypeObject} {locations : List Location} (h : CutShort child child') :
      CutShort (.promise child locations) (.promise child' locations)
  | promiseLike {child child' : TypeObject} {locations : List Location}
      (h : CutShort child child') :
      CutShort (.promiseLike child locations) (.promiseLike child' locations)

/-- A literal that is left is the literal that was there. -/
theorem CutShort.literal? {t t' : TypeObject} (h : CutShort t t') {value : LocatedLiteral}
    (hvalue : t'.literal? = some value) : t.literal? = some value := by
  cases h with
  | same => exact hvalue
  | _ => cases hvalue

end TypeObject

namespace Program

open TypeObject (CutShort)

/-! ## Parts that are cut short -/

section

variable {p : Program} {part part' : Reading}
  (hpart : ∀ type anchor, CutShort (part type anchor) (part' type anchor))

include hpart

theorem forall₂_cutShort_map {α : Type} (source : α → TypeId × Option NodeId) (as : List α) :
    List.Forall₂ CutShort (as.map fun a => part (source a).1 (source a).2)
      (as.map fun a => part' (source a).1 (source a).2) := by
  rw [List.forall₂_map_left_iff, List.forall₂_map_right_iff, List.forall₂_same]
  exact fun a _ => hpart _ _

/-- A member whose literal is still read is the member that was there. -/
theorem outlineMember?_of_cutShort {member : SymbolId} {m : EnumMember}
    (h : p.outlineMember? part' member = some m) : p.outlineMember? part member = some m := by
  simp only [outlineMember?, Option.bind_eq_bind, Option.bind_eq_some_iff] at h ⊢
  obtain ⟨name, hname, declaration, hdeclaration, value, hvalue, hm⟩ := h
  exact ⟨name, hname, declaration, hdeclaration, value, (hpart _ _).literal? hvalue, hm⟩

theorem sublist_outlineMembers (members : List SymbolId) :
    (members.filterMap (p.outlineMember? part')).Sublist
      (members.filterMap (p.outlineMember? part)) := by
  induction members with
  | nil => exact .slnil
  | cons member members ih =>
    cases hless : p.outlineMember? part' member with
    | none =>
      rw [List.filterMap_cons_none hless]
      exact ih.trans ((List.sublist_cons_self member members).filterMap _)
    | some m =>
      rw [List.filterMap_cons_some hless,
        List.filterMap_cons_some (outlineMember?_of_cutShort hpart hless)]
      exact ih.cons_cons m

theorem cutShort_outlineChild (source : Option (TypeId × Option NodeId)) (gap : TypeObject) :
    CutShort (outlineChild part source gap) (outlineChild part' source gap) := by
  cases source with
  | none => exact .same gap
  | some source => exact hpart _ _

/-- Parameters keep their names and places. -/
theorem forall₂_outlineParameters (parameters : List SymbolId) :
    List.Forall₂ (fun a a' => a.1 = a'.1 ∧ CutShort a.2 a'.2)
      (parameters.filterMap (p.outlineParameter? part))
      (parameters.filterMap (p.outlineParameter? part')) := by
  induction parameters with
  | nil => exact .nil
  | cons parameter parameters ih =>
    cases hdeclaration : (p.declarations parameter).head? with
    | none => simpa [outlineParameter?, hdeclaration] using ih
    | some declaration =>
      simp only [List.filterMap_cons, outlineParameter?, hdeclaration]
      exact .cons ⟨rfl, hpart _ _⟩ ih

/-- A shape is cut short where its parts are. -/
theorem cutShort_outlineShape (type : TypeId) (anchor : Option NodeId) (shape : Shape) :
    CutShort (p.outlineShape part type anchor shape) (p.outlineShape part' type anchor shape) := by
  cases shape with
  | enum members => exact .enum (sublist_outlineMembers hpart members)
  | union first second rest =>
    exact .union (hpart _ _) (hpart _ _) (forall₂_cutShort_map hpart (·, none) rest)
  | constituent member => exact hpart _ _
  | tuple elements => exact .tuple (forall₂_cutShort_map hpart (fun e => (p.typeAt e, some e)) _)
  | array => exact .array (cutShort_outlineChild hpart _ _)
  | callable signature =>
    have harguments := forall₂_outlineParameters (p := p) hpart (p.parameters signature)
    refine .callable ?_ ?_ (hpart _ _)
    · rw [← List.forall₂_eq_eq_eq, List.forall₂_map_left_iff, List.forall₂_map_right_iff]
      exact harguments.imp fun _ _ h => h.1
    · rw [List.forall₂_map_left_iff, List.forall₂_map_right_iff]
      exact harguments.imp fun _ _ h => h.2
  | promise => exact .promise (cutShort_outlineChild hpart _ _)
  | promiseLike => exact .promiseLike (cutShort_outlineChild hpart _ _)
  | typeParameter | literal | primitive | special | object | unknown => exact .same _

end

/-! ## Less room -/

theorem cutShort_outline (p : Program) {less room : Nat} (hle : less ≤ room) (type : TypeId)
    (anchor : Option NodeId) : CutShort (p.outline room type anchor) (p.outline less type anchor) := by
  induction less generalizing room type anchor with
  | zero => exact .gap _ _
  | succ less ih =>
    obtain ⟨room, rfl⟩ : ∃ k, room = k + 1 := ⟨room - 1, by omega⟩
    exact cutShort_outlineShape (ih (Nat.le_of_succ_le_succ hle)) type anchor _

/-- Where unions of one member leave some of the room, a type has the outline of the last type that
they lead to, also if there is more room. -/
theorem exists_outline_eq_outlineShape {p : Program} {type : TypeId} {room : Nat}
    (h : p.behind? room type = none) :
    ∃ last left, p.sole? last = none ∧ ∀ more anchor, p.outline (room + more) type anchor =
      p.outlineShape (p.outline (left + more)) last anchor (p.shape last anchor) := by
  obtain ⟨links, hlt, last, hlast, hsole⟩ := exists_last_of_steps?_eq_none h
  obtain ⟨left, rfl⟩ : ∃ k, room = k + 1 + links := ⟨room - links - 1, by omega⟩
  refine ⟨last, left, hsole, fun more anchor => ?_⟩
  have hroom : left + 1 + links + more = left + more + 1 + links := by omega
  rw [hroom, outline_of_behind?_eq_some hlast, outline]

/-- Nothing but a gap is left exactly if unions of one member take all the room. -/
theorem gap?_outline (p : Program) (room : Nat) (type : TypeId) (anchor : Option NodeId) :
    (p.outline room type anchor).gap? = some .recursionLimit ↔ (p.behind? room type).isSome := by
  cases hroom : p.behind? room type with
  | some last =>
    rw [outline_eq_gap hroom]
    exact iff_of_true rfl rfl
  | none =>
    obtain ⟨last, left, hsole, houtline⟩ := exists_outline_eq_outlineShape hroom
    rw [← Nat.add_zero room, houtline 0 anchor]
    cases hshape : p.shape last anchor with
    | constituent member => exact absurd hshape (shape_ne_constituent hsole anchor member)
    | _ => simp [outlineShape, TypeObject.gap?]

/-- Classification that starts deeper gives what it gives from further up, cut short: but for the
store keys, there are gaps for want of room in the place of some type objects, some members of
enumerations are left out, and all else is the same. No more than a gap is left exactly if unions of
one member take all the room. -/
theorem classify_cut_short (p : Program) (type : TypeId) (anchor : Option NodeId)
    (depth deeper : Nat) (hle : depth ≤ deeper) (g g' : UInt32) (n n' : Nat) :
    CutShort (p.classify (maxNesting - depth) type anchor g n).value.erased
      (p.classify (maxNesting - deeper) type anchor g' n').value.erased ∧
    ((p.classify (maxNesting - deeper) type anchor g' n').value.erased.gap? = some .recursionLimit ↔
      (p.behind? (maxNesting - deeper) type).isSome) := by
  rw [erased_value_classify, erased_value_classify]
  exact ⟨p.cutShort_outline (Nat.sub_le_sub_left hle maxNesting) type anchor,
    p.gap?_outline (maxNesting - deeper) type anchor⟩

/-- A type whose values are those of an enumeration or arrays of values of the type. The second
member of the enumeration stands behind a union of one member. -/
def enumerationOrArrays : Program :=
  { types := #[.error,
      { text := "E.A", kind := .literal (.string "a") },
      { text := "E.B", kind := .literal (.string "b") },
      { text := "E.B", kind := .union [⟨2⟩] },
      { text := "E", kind := .union [⟨1⟩, ⟨2⟩], symbol := some ⟨0⟩ },
      { text := "U", kind := .union [⟨4⟩, ⟨6⟩] },
      { text := "U[]", kind := .object, arguments := [⟨5⟩] }]
    symbols := #[{ name := "E", exports := [⟨1⟩, ⟨2⟩] },
      { name := "A", declarations := [⟨1⟩], valueDeclaration := some ⟨1⟩ },
      { name := "B", declarations := [⟨2⟩], valueDeclaration := some ⟨2⟩ }]
    nodes := #[{ file := ⟨0⟩, form := .other, type := some ⟨5⟩ },
      { file := ⟨0⟩, form := .other, declares := some ⟨1⟩, type := some ⟨1⟩ },
      { file := ⟨0⟩, form := .other, declares := some ⟨2⟩, type := some ⟨3⟩ }] }

/-- Of the enumeration and the arrays, at depth 62 the members and the elements are cut off. -/
theorem classify_cut_short_arrays :
    let p := enumerationOrArrays
    let whole := (p.classify (maxNesting - 60) ⟨5⟩ none 0 0).value.erased
    let cut := (p.classify (maxNesting - 62) ⟨5⟩ none 0 0).value.erased
    60 ≤ 62 ∧ CutShort whole cut ∧
    whole.children.map TypeObject.ownLiterals = [[.string "a", .string "b"], []] ∧
    cut.children.map TypeObject.ownLiterals = [[], []] ∧
    (whole.children.flatMap TypeObject.children).map TypeObject.gap? = [none] ∧
    (cut.children.flatMap TypeObject.children).map TypeObject.gap? = [some .recursionLimit] ∧
    cut.gap? ≠ some .recursionLimit := by
  intro p whole cut
  obtain ⟨hcut, hgap⟩ := classify_cut_short p ⟨5⟩ none 60 62 (by decide) 0 0 0 0
  have hroom : ¬ (p.behind? (maxNesting - 62) ⟨5⟩).isSome := by decide +kernel
  exact ⟨by decide, hcut, by decide +kernel, by decide +kernel, by decide +kernel,
    by decide +kernel, mt hgap.mp hroom⟩

/-! ## Members of enumerations -/

/-- Whether a type is a literal does not depend on its parts, unless it is a union of one member. -/
theorem literal?_outlineShape {p : Program} {type : TypeId} (h : p.sole? type = none)
    (part part' : Reading) (anchor : Option NodeId) :
    (p.outlineShape part type anchor (p.shape type anchor)).literal? =
      (p.outlineShape part' type anchor (p.shape type anchor)).literal? := by
  cases hshape : p.shape type anchor with
  | constituent member => exact absurd hshape (shape_ne_constituent h anchor member)
  | _ => rfl

/-- A literal is read if there is room for the unions of one member before it, and for itself. -/
theorem literal?_outline (p : Program) {limit room : Nat} (hle : limit ≤ room) (type : TypeId)
    (anchor : Option NodeId) :
    (p.outline limit type anchor).literal? =
      if (p.behind? limit type).isNone then (p.outline room type anchor).literal? else none := by
  cases hlimit : p.behind? limit type with
  | some last =>
    rw [outline_eq_gap hlimit]
    rfl
  | none =>
    obtain ⟨last, left, hsole, houtline⟩ := exists_outline_eq_outlineShape hlimit
    obtain ⟨more, rfl⟩ := Nat.exists_eq_add_of_le hle
    have hlimited := houtline 0 anchor
    rw [Nat.add_zero] at hlimited
    rw [hlimited, houtline more anchor]
    exact literal?_outlineShape hsole _ _ anchor

/-- The member that a symbol is on its own: its name, and the literal that the type at its value
declaration is classified as with all the room. -/
def ownMember? (p : Program) (member : SymbolId) : Option EnumMember :=
  p.outlineMember? (fun type anchor => (p.classify maxNesting type anchor 0 0).value) member

/-- Whether fewer than `limit` unions of one member follow each other from the type at the value
declaration of a member. -/
def withinReach (p : Program) (limit : Nat) (member : SymbolId) : Bool :=
  ((p.valueDeclaration? member).bind fun d => p.behind? limit (p.typeAt d)).isNone

theorem literal?_value_classify (p : Program) (room : Nat) (type : TypeId)
    (anchor : Option NodeId) (g : UInt32) (n : Nat) :
    (p.classify room type anchor g n).value.literal? = (p.outline room type anchor).literal? := by
  rw [← p.erased_value_classify room type anchor g n]
  cases (p.classify room type anchor g n).value <;> rfl

/-- Where room is scarce, the members within reach are left. -/
theorem outlineMember?_outline (p : Program) {limit : Nat} (hle : limit ≤ maxNesting)
    (member : SymbolId) :
    p.outlineMember? (p.outline limit) member =
      if p.withinReach limit member then p.ownMember? member else none := by
  unfold ownMember? outlineMember? withinReach
  cases p.symbolName? member with
  | none => simp
  | some name =>
    cases p.valueDeclaration? member with
    | none => simp
    | some declaration =>
      simp only [Option.bind_eq_bind, Option.bind_some, literal?_value_classify,
        p.literal?_outline hle]
      split <;> rfl

/-- The members of an enumeration that starts at a depth below 64 are, in the order of its exports,
those that have a literal for a value on their own, if fewer than 63 unions of one member, less the
depth, follow each other before the literal. The others are lost for want of room. -/
theorem enumeration_members (p : Program) (type : TypeId) (anchor : Option NodeId) (depth : Nat)
    (hdepth : depth < 64) (constituents : List TypeId)
    (hunion : p.constituents? type = some constituents) (hconstituents : constituents ≠ [])
    (hexports : p.exportsOfType type ≠ []) (g : UInt32) (n : Nat) :
    (p.classify (maxNesting - depth) type anchor g n).value =
      .enum (p.displayText type)
        (((p.exportsOfType type).filter (p.withinReach (63 - depth))).filterMap p.ownMember?)
        (p.anchorLocations anchor) := by
  have hshape : p.shape type anchor = .enum (p.exportsOfType type) := by
    obtain ⟨first, others, rfl⟩ := List.exists_cons_of_ne_nil hconstituents
    obtain ⟨member, members, hmembers⟩ := List.exists_cons_of_ne_nil hexports
    exact shape_of_unionShape?_eq_some (by simp only [unionShape?, hunion, hmembers]) anchor
  have hroom : maxNesting - depth = (63 - depth) + 1 := by
    unfold maxNesting
    omega
  have hmembers : (p.exportsOfType type).filterMap (p.outlineMember? (p.outline (63 - depth))) =
      ((p.exportsOfType type).filter (p.withinReach (63 - depth))).filterMap p.ownMember? := by
    rw [List.filterMap_filter]
    refine List.filterMap_congr fun member _ => ?_
    exact p.outlineMember?_outline (by unfold maxNesting; omega) member
  refine TypeObject.eq_of_erased_eq ?_ rfl rfl
  rw [erased_value_classify, hroom, outline, hshape, ← hmembers]
  rfl

/-- At depth 61 both members are there, and at depth 62 the second one is lost. -/
theorem enumeration_members_scarce :
    let p := enumerationOrArrays
    let a : EnumMember := ⟨"A", ⟨.string "a", []⟩⟩
    let b : EnumMember := ⟨"B", ⟨.string "b", []⟩⟩
    p.constituents? ⟨4⟩ = some [⟨1⟩, ⟨2⟩] ∧ p.exportsOfType ⟨4⟩ = [⟨1⟩, ⟨2⟩] ∧
    (p.classify (maxNesting - 61) ⟨4⟩ none 0 0).value = .enum (p.displayText ⟨4⟩) [a, b] [] ∧
    (p.classify (maxNesting - 62) ⟨4⟩ none 0 0).value = .enum (p.displayText ⟨4⟩) [a] [] := by
  intro p a b
  have hunion : p.constituents? ⟨4⟩ = some [⟨1⟩, ⟨2⟩] := by decide +kernel
  have hexports : p.exportsOfType ⟨4⟩ = [⟨1⟩, ⟨2⟩] := by decide +kernel
  have hboth : ((p.exportsOfType ⟨4⟩).filter (p.withinReach (63 - 61))).filterMap p.ownMember? =
      [a, b] := by decide +kernel
  have hone : ((p.exportsOfType ⟨4⟩).filter (p.withinReach (63 - 62))).filterMap p.ownMember? =
      [a] := by decide +kernel
  have hlocations : p.anchorLocations none = [] := rfl
  have hmembers (depth : Nat) (hdepth : depth < 64) :=
    enumeration_members p ⟨4⟩ none depth hdepth _ hunion (List.cons_ne_nil _ _)
      (by rw [hexports]; exact List.cons_ne_nil _ _) 0 0
  refine ⟨hunion, hexports, ?_, ?_⟩
  · rw [hmembers 61 (by decide), hboth, hlocations]
  · rw [hmembers 62 (by decide), hone, hlocations]

/-- At depth 63 an enumeration has no members, though both are literals on their own. -/
theorem enumeration_loses_members :
    let p := enumerationOrArrays
    p.constituents? ⟨4⟩ = some [⟨1⟩, ⟨2⟩] ∧ p.exportsOfType ⟨4⟩ = [⟨1⟩, ⟨2⟩] ∧
    (p.exportsOfType ⟨4⟩).filterMap p.ownMember? =
      [⟨"A", ⟨.string "a", []⟩⟩, ⟨"B", ⟨.string "b", []⟩⟩] ∧
    (p.classify (maxNesting - 63) ⟨4⟩ none 0 0).value ≠
      .enum (p.displayText ⟨4⟩) ((p.exportsOfType ⟨4⟩).filterMap p.ownMember?)
        (p.anchorLocations none) := by
  intro p
  refine ⟨by decide +kernel, by decide +kernel, by decide +kernel, fun h => ?_⟩
  have hliterals := congrArg TypeObject.ownLiterals h
  revert hliterals
  decide +kernel

end Program
end PortableTypes
