import PortableTypes.Projection.Classify
import PortableTypes.Proofs.TypeObject.Rekey

/-!
# Types in outline

Without its store keys, what classification gives for a type does not depend on the store. This
outline of a type is a plain recursion on the room: no object is stored and no event is reported on
the way to it.
-/
namespace PortableTypes

namespace Projecting

/-- Wherever a projection starts, `b` is what is in view of its result. -/
def Shows {α β : Type} (view : α → β) (b : β) (x : Projecting α) : Prop :=
  ∀ g n, view (x g n).value = b

section

variable {α β γ δ : Type} {view : α → β} {view' : γ → δ}

theorem Shows.pure {a : α} {b : β} (h : view a = b) : Shows view b (Pure.pure a) :=
  fun _ _ => h

theorem Shows.bind {x : Projecting α} {b : β} {f : α → Projecting γ} {d : δ}
    (hx : Shows view b x) (hf : ∀ a, view a = b → Shows view' d (f a)) :
    Shows view' d (x >>= f) :=
  fun g n => hf _ (hx g n) g _

/-- What comes first does not show. -/
theorem Shows.after (x : Projecting α) {f : α → Projecting γ} {d : δ}
    (hf : ∀ a, Shows view' d (f a)) : Shows view' d (x >>= f) :=
  fun g _ => hf _ g _

theorem shows_each {f : γ → Projecting α} {b : γ → β} (hf : ∀ c, Shows view (b c) (f c))
    (cs : List γ) : Shows (List.map view) (cs.map b) (each f cs) := by
  induction cs with
  | nil => exact .pure rfl
  | cons c cs ih =>
    refine (hf c).bind fun a ha => ih.bind fun as has => .pure ?_
    rw [List.map_cons, List.map_cons, ha, has]

theorem shows_eachSome {f : γ → Projecting (Option α)} {b : γ → Option β}
    (hf : ∀ c, Shows (Option.map view) (b c) (f c)) (cs : List γ) :
    Shows (List.map view) (cs.filterMap b) (eachSome f cs) := by
  induction cs with
  | nil => exact .pure rfl
  | cons c cs ih =>
    refine (hf c).bind fun o ho => ih.bind fun as has => .pure ?_
    rw [List.map_append, has, List.filterMap_cons, ← ho]
    cases o <;> rfl

end
end Projecting

namespace Program

open Projecting

/-! ## The outline of a type -/

/-- The locations of what was read off the anchor. -/
def anchorLocations (p : Program) (anchor : Option NodeId) : List Location :=
  ((p.anchorSymbol? anchor).map p.locations).getD []

/-- A type object for each type and the node that it was read off. -/
abbrev Reading := TypeId → Option NodeId → TypeObject

/-- A member of an enumeration, if it has a name and its value is read as a literal. -/
def outlineMember? (p : Program) (part : Reading) (member : SymbolId) : Option EnumMember := do
  let name ← p.symbolName? member
  let declaration ← p.valueDeclaration? member
  let value ← (part (p.typeAt declaration) (some declaration)).literal?
  return { name, value }

/-- A parameter with its name, if it is declared. -/
def outlineParameter? (p : Program) (part : Reading) (parameter : SymbolId) :
    Option (String × TypeObject) := do
  let declaration ← (p.declarations parameter).head?
  return ((p.symbolName? parameter).getD "", part (p.typeOfSymbol parameter) (some declaration))

/-- The child of an array or a promise, or the gap where none is found. -/
def outlineChild (part : Reading) (source : Option (TypeId × Option NodeId)) (gap : TypeObject) :
    TypeObject :=
  (source.map fun s => part s.1 s.2).getD gap

/-- The type object of a shape without store keys, with the parts read as given. -/
def outlineShape (p : Program) (part : Reading) (type : TypeId) (anchor : Option NodeId) :
    Shape → TypeObject :=
  let text := p.displayText type
  let locations := p.anchorLocations anchor
  fun
  | .enum members => .enum text (members.filterMap (p.outlineMember? part)) locations
  | .union first second rest =>
    .union text (part first none) (part second none) (rest.map (part · none)) locations
  | .constituent member => part member anchor
  | .typeParameter => .unsupported .typeParameter (some text) locations
  | .tuple elements => .tuple text (elements.map fun e => part (p.typeAt e) (some e)) locations
  | .literal value => .literal value locations
  | .primitive kind => .primitive kind locations
  | .special kind => .special kind locations
  | .array =>
    let gap := .unsupported .arrayElement none []
    .array text (outlineChild part (p.elementSource? type anchor) gap) locations
  | .callable signature =>
    .callable ((p.parameters signature).filterMap (p.outlineParameter? part))
      (part (p.resultType signature) none) locations
  | .promise =>
    let gap := .unsupported .promiseArgument none locations
    .promise (outlineChild part (p.promiseSource? type) gap) locations
  | .promiseLike =>
    let gap := .unsupported .promiseArgument none locations
    .promiseLike (outlineChild part (p.promiseSource? type) gap) locations
  | .object => .object text "" locations
  | .unknown => .unsupported .conversion (some text) locations

/-- The outline of a type, with room for so many types inside each other. -/
def outline (p : Program) : (room : Nat) → Reading
  | 0, type, _ => .unsupported .recursionLimit (some (p.displayText type)) []
  | room + 1, type, anchor =>
    p.outlineShape (p.outline room) type anchor (p.shape type anchor)

/-! ## Classification shows the outline -/

theorem shows_locationsOf (p : Program) (anchor : Option NodeId) :
    Shows id (p.anchorLocations anchor) (p.locationsOf (p.anchorSymbol? anchor)) := by
  unfold anchorLocations
  cases p.anchorSymbol? anchor <;> exact fun _ _ => rfl

section

variable {p : Program} {project : Projector} {part : Reading}
  (hproject : ∀ type anchor, Shows TypeObject.erased (part type anchor) (project type anchor))

include hproject

theorem shows_projectMember (member : SymbolId) :
    Shows (Option.map id) (p.outlineMember? part member) (p.projectMember project member) := by
  unfold projectMember outlineMember?
  cases p.symbolName? member with
  | none => exact .pure rfl
  | some name =>
    cases p.valueDeclaration? member with
    | none => exact .pure rfl
    | some declaration =>
      refine (hproject _ _).bind fun t ht => ?_
      simp only [Option.bind_eq_bind, Option.bind_some, ← ht]
      cases t with
      | literal value locations => exact .pure rfl
      | _ => exact .after (report _) fun _ => .pure rfl

theorem shows_projectParameter (parameter : SymbolId) :
    Shows (Option.map (TypeObject.rekeyArgument fun _ => "")) (p.outlineParameter? part parameter)
      (p.projectParameter project parameter) := by
  unfold projectParameter outlineParameter?
  cases (p.declarations parameter).head? with
  | none => exact .pure rfl
  | some declaration =>
    refine (hproject _ _).bind fun t ht => .pure ?_
    simp only [Option.bind_eq_bind, Option.bind_some, ← ht]
    rfl

theorem shows_projectElement (type : TypeId) (anchor : Option NodeId) :
    Shows TypeObject.erased
      (outlineChild part (p.elementSource? type anchor) (.unsupported .arrayElement none []))
      (p.projectElement project type anchor) := by
  unfold projectElement
  cases p.elementSource? type anchor with
  | none => exact .after (report _) fun _ => .pure rfl
  | some source => exact hproject _ _

theorem shows_projectPromised (type : TypeId) (locations : List Location) :
    Shows TypeObject.erased
      (outlineChild part (p.promiseSource? type) (.unsupported .promiseArgument none locations))
      (p.projectPromised project type locations) := by
  unfold projectPromised
  cases p.promiseSource? type with
  | none => exact .pure rfl
  | some source => exact hproject _ _

/-- A shape is projected as it is outlined, if its parts are. -/
theorem shows_projectShape (type : TypeId) (anchor : Option NodeId) (shape : Shape) :
    Shows TypeObject.erased (p.outlineShape part type anchor shape)
      (p.projectShape project type anchor (p.anchorLocations anchor) shape) := by
  cases shape with
  | enum members =>
    refine (shows_eachSome (shows_projectMember hproject) members).bind fun ms hms => .pure ?_
    rw [List.map_id] at hms
    rw [hms]
    rfl
  | union first second rest =>
    have hrest := shows_each (fun t => hproject t none) rest
    refine (hproject _ _).bind fun a ha => (hproject _ _).bind fun b hb => ?_
    refine hrest.bind fun cs hcs => .pure ?_
    rw [TypeObject.erased, TypeObject.rekey, TypeObject.rekeyItems_eq]
    simp only [outlineShape, ← ha, ← hb, ← hcs]
    rfl
  | constituent member => exact hproject _ _
  | tuple elements =>
    have hitems := shows_each (fun e => hproject (p.typeAt e) (some e)) elements
    refine hitems.bind fun items hitems => .pure ?_
    rw [TypeObject.erased, TypeObject.rekey, TypeObject.rekeyItems_eq]
    simp only [outlineShape, ← hitems]
    rfl
  | array =>
    refine (shows_projectElement hproject type anchor).bind fun child hchild => .pure ?_
    simp only [outlineShape, ← hchild]
    rfl
  | callable signature =>
    refine (shows_eachSome (shows_projectParameter hproject) _).bind fun arguments harguments => ?_
    refine (hproject _ _).bind fun result hresult => .pure ?_
    rw [TypeObject.erased, TypeObject.rekey, TypeObject.rekeyArguments_eq]
    simp only [outlineShape, ← harguments, ← hresult]
    rfl
  | promise =>
    refine (shows_projectPromised hproject type _).bind fun child hchild => .pure ?_
    simp only [outlineShape, ← hchild]
    rfl
  | promiseLike =>
    refine (shows_projectPromised hproject type _).bind fun child hchild => .pure ?_
    simp only [outlineShape, ← hchild]
    rfl
  | object => exact .after (intern _) fun _ => .pure rfl
  | unknown => exact .after (report _) fun _ => .pure rfl
  | typeParameter => exact .pure rfl
  | literal value => exact .pure rfl
  | primitive kind => exact .pure rfl
  | special kind => exact .pure rfl

end

theorem shows_classify (p : Program) (room : Nat) (type : TypeId) (anchor : Option NodeId) :
    Shows TypeObject.erased (p.outline room type anchor) (p.classify room type anchor) := by
  induction room generalizing type anchor with
  | zero => exact .after (report _) fun _ => .pure rfl
  | succ room ih =>
    refine (p.shows_locationsOf anchor).bind fun locations hlocations => ?_
    obtain rfl : locations = p.anchorLocations anchor := hlocations
    exact .after (report _) fun _ => shows_projectShape ih type anchor _

/-- Without store keys, classification gives the outline, wherever it starts. -/
theorem erased_value_classify (p : Program) (room : Nat) (type : TypeId) (anchor : Option NodeId)
    (g : UInt32) (n : Nat) :
    (p.classify room type anchor g n).value.erased = p.outline room type anchor :=
  p.shows_classify room type anchor g n

end Program
end PortableTypes
