import PortableTypes.Projection.Extraction
import PortableTypes.Projection.Property
import PortableTypes.Proofs.Projection.Shapes
import PortableTypes.Proofs.TypeObject.Leaves

/-!
# Object types and the objects that were stored for them

A projection hands out object types and stores objects. Every object type that it hands out belongs
to an object that it stored, under the key of that object's place, and what is said of the object
type is what the program says of the object. In classification the object types stand in the order
in which their objects were stored.
-/
namespace PortableTypes

namespace Event

/-- Whether an event is about a key that someone asked for. -/
def isOfKey : Event → Bool
  | .unknownKey _ | .propertiesRead .. | .objectExpanded .. => true
  | _ => false

/-- An event of a projection, which is asked for types and not for keys. -/
abbrev OfProjection (e : Event) : Prop := e.isOfKey = false

/-- Whether an event is about a type, its parts or its locations. -/
def isOfType : Event → Bool
  | .depthLimit .. | .classified .. | .noRule .. | .elementUnresolved .. | .memberSkipped ..
  | .interned .. | .locationDropped .. => true
  | _ => false

/-- An event of classification, which looks at nothing but types. -/
abbrev OfClassification (e : Event) : Prop := e.isOfType = true

theorem OfClassification.ofProjection {e : Event} (h : e.OfClassification) : e.OfProjection := by
  cases e with
  | unknownKey | propertiesRead | objectExpanded => cases h
  | _ => rfl

end Event

namespace Program

/-- The object type that is handed out for an object stored under a key. -/
def leafOf (p : Program) (key : StoreKey) (object : StoredObject) : ObjectLeaf :=
  ⟨p.displayText object.type, key.text, object.locations⟩

/-- The object types of objects that are stored from a place on. -/
def ledger (p : Program) (g : UInt32) : (n : Nat) → List StoredObject → List ObjectLeaf
  | _, [] => []
  | n, o :: os => p.leafOf ⟨g, n⟩ o :: p.ledger g (n + 1) os

theorem ledger_append (p : Program) (g : UInt32) (n : Nat) (os more : List StoredObject) :
    p.ledger g n (os ++ more) = p.ledger g n os ++ p.ledger g (n + os.length) more := by
  induction os generalizing n with
  | nil => simp [ledger]
  | cons o os ih => simp [ledger, ih, Nat.add_assoc, Nat.add_comm 1]

theorem mem_ledger {p : Program} {g : UInt32} {n : Nat} {os : List StoredObject}
    {leaf : ObjectLeaf} (h : leaf ∈ p.ledger g n os) :
    ∃ i o, os[i]? = some o ∧ leaf = p.leafOf ⟨g, n + i⟩ o := by
  induction os generalizing n with
  | nil => simp [ledger] at h
  | cons o os ih =>
    rw [ledger, List.mem_cons] at h
    obtain rfl | h := h
    · exact ⟨0, o, rfl, rfl⟩
    · obtain ⟨i, o', ho', rfl⟩ := ih h
      exact ⟨i + 1, o', ho', by rw [Nat.add_assoc, Nat.add_comm 1]⟩

/-- Whatever a projection starts from, the object types in view of its result are among those held
before and those of the objects it stores, in that order; it stores only types with properties, and
reports only events of the given kind. -/
structure Accounts (p : Program) (kind : Event → Prop) {α : Type} (view : α → List ObjectLeaf)
    (held : List ObjectLeaf) (x : Projecting α) : Prop where
  leaves : ∀ g n, (view (x g n).value).Sublist (held ++ p.ledger g n (x g n).objects)
  objects : ∀ g n, ∀ o ∈ (x g n).objects, p.properties o.type ≠ []
  events : ∀ g n, ∀ e ∈ (x g n).events, kind e

section

variable {p : Program} {kind : Event → Prop} {α β : Type} {view : α → List ObjectLeaf}
  {view' : β → List ObjectLeaf} {held : List ObjectLeaf}

theorem Accounts.pure {a : α} (h : (view a).Sublist held) :
    p.Accounts kind view held (Pure.pure a : Projecting α) where
  leaves _ _ := h.trans (List.sublist_append_left _ _)
  objects _ _ _ ho := absurd ho List.not_mem_nil
  events _ _ _ he := absurd he List.not_mem_nil

/-- What comes first hands its object types on to what comes next. -/
theorem Accounts.bind {x : Projecting α} {f : α → Projecting β} (hx : p.Accounts kind view [] x)
    (hf : ∀ a, p.Accounts kind view' (held ++ view a) (f a)) :
    p.Accounts kind view' held (x >>= f) where
  leaves g n := by
    let first := x g n
    let second := f first.value g (n + first.objects.length)
    have hfirst : (view first.value).Sublist (p.ledger g n first.objects) := hx.leaves g n
    have hsecond := (hf first.value).leaves g (n + first.objects.length)
    change (view' second.value).Sublist (held ++ p.ledger g n (first.objects ++ second.objects))
    rw [ledger_append, ← List.append_assoc]
    exact hsecond.trans (((List.Sublist.refl held).append hfirst).append (List.Sublist.refl _))
  objects g n o ho := by
    obtain ho | ho := List.mem_append.mp ho
    · exact hx.objects g n o ho
    · exact (hf _).objects g _ o ho
  events g n e he := by
    obtain he | he := List.mem_append.mp he
    · exact hx.events g n e he
    · exact (hf _).events g _ e he

/-- What comes first has no object types to hand on. -/
theorem Accounts.after {x : Projecting α} {f : α → Projecting β}
    (hx : p.Accounts kind (fun _ => []) [] x) (hf : ∀ a, p.Accounts kind view' held (f a)) :
    p.Accounts kind view' held (x >>= f) :=
  hx.bind fun a => by simpa using hf a

/-- What was held before can be left out, or only a part of the result be looked at. -/
theorem Accounts.mono {view₁ : α → List ObjectLeaf} {held₁ : List ObjectLeaf} {x : Projecting α}
    (hx : p.Accounts kind view₁ held₁ x) (hview : ∀ a, (view a).Sublist (view₁ a))
    (hheld : held₁.Sublist held) : p.Accounts kind view held x where
  leaves g n := (hview _).trans ((hx.leaves g n).trans (hheld.append (List.Sublist.refl _)))
  objects := hx.objects
  events := hx.events

theorem Accounts.imp {kind' : Event → Prop} {x : Projecting α} (hx : p.Accounts kind view held x)
    (h : ∀ e, kind e → kind' e) : p.Accounts kind' view held x where
  leaves := hx.leaves
  objects := hx.objects
  events g n e he := h e (hx.events g n e he)

theorem accounts_report {e : Event} (h : kind e) :
    p.Accounts kind (fun _ => []) [] (Projecting.report e) where
  leaves _ _ := List.nil_sublist _
  objects _ _ _ ho := absurd ho List.not_mem_nil
  events _ _ e' he := by
    obtain rfl := List.mem_singleton.mp he
    exact h

theorem accounts_reportAll {es : List Event} (h : ∀ e ∈ es, kind e) :
    p.Accounts kind (fun _ => []) [] (Projecting.reportAll es) where
  leaves _ _ := List.nil_sublist _
  objects _ _ _ ho := absurd ho List.not_mem_nil
  events _ _ := h

theorem accounts_intern {object : StoredObject} (h : p.properties object.type ≠ [])
    (hkind : ∀ key, kind (.interned key object.type)) :
    p.Accounts kind (fun key => [p.leafOf key object]) [] (Projecting.intern object) where
  leaves _ _ := List.Sublist.refl _
  objects _ _ o ho := by
    obtain rfl := List.mem_singleton.mp ho
    exact h
  events _ _ e he := by
    obtain rfl := List.mem_singleton.mp he
    exact hkind _

theorem accounts_each {f : α → Projecting β} (hf : ∀ a, p.Accounts kind view' [] (f a))
    (as : List α) : p.Accounts kind (·.flatMap view') [] (Projecting.each f as) := by
  induction as with
  | nil => exact .pure (List.nil_sublist _)
  | cons a as ih => exact (hf a).bind fun b => ih.bind fun bs => .pure (by simp)

theorem accounts_eachSome {f : α → Projecting (Option β)}
    (hf : ∀ a, p.Accounts kind (·.toList.flatMap view') [] (f a)) (as : List α) :
    p.Accounts kind (·.flatMap view') [] (Projecting.eachSome f as) := by
  induction as with
  | nil => exact .pure (List.nil_sublist _)
  | cons a as ih => exact (hf a).bind fun b => ih.bind fun bs => .pure (by simp)

end

/-! ## Classification -/

theorem accounts_locationsOf (p : Program) (symbol : Option SymbolId) :
    p.Accounts Event.OfClassification (fun _ => []) [] (p.locationsOf symbol) := by
  cases symbol with
  | none => exact .pure (List.nil_sublist _)
  | some symbol =>
    refine (accounts_reportAll fun e he => ?_).after fun _ => .pure (List.nil_sublist _)
    obtain ⟨l, -, rfl⟩ := List.mem_map.mp he
    exact rfl

section

variable {p : Program} {project : Projector}
  (hproject : ∀ t a, p.Accounts Event.OfClassification TypeObject.leaves [] (project t a))

include hproject

/-- A member of an enumeration is a literal, and holds no object types. -/
theorem accounts_projectMember (member : SymbolId) :
    p.Accounts Event.OfClassification (fun _ => []) [] (p.projectMember project member) := by
  unfold projectMember
  split
  · refine (hproject _ _).bind fun t => ?_
    split
    · exact .pure (List.nil_sublist _)
    · exact (accounts_report (by rfl)).after fun _ => .pure (List.nil_sublist _)
  · exact .pure (List.nil_sublist _)

theorem accounts_projectParameter (parameter : SymbolId) :
    p.Accounts Event.OfClassification (·.toList.flatMap fun a => a.2.leaves) []
      (p.projectParameter project parameter) := by
  unfold projectParameter
  split
  · exact .pure (List.nil_sublist _)
  · exact (hproject _ _).bind fun t => .pure (by simp)

theorem accounts_projectCallable (signature : SignatureId) (locations : List Location) :
    p.Accounts Event.OfClassification TypeObject.leaves []
      (p.projectCallable project signature locations) :=
  (accounts_eachSome (accounts_projectParameter hproject) _).bind fun arguments =>
    (hproject _ _).bind fun result =>
      .pure (by simp [TypeObject.leaves, TypeObject.leavesOfArguments_eq])

theorem accounts_projectElement (type : TypeId) (anchor : Option NodeId) :
    p.Accounts Event.OfClassification TypeObject.leaves []
      (p.projectElement project type anchor) := by
  unfold projectElement
  split
  · exact hproject _ _
  · exact (accounts_report (by rfl)).after fun _ => .pure (List.nil_sublist _)

theorem accounts_projectPromised (type : TypeId) (locations : List Location) :
    p.Accounts Event.OfClassification TypeObject.leaves []
      (p.projectPromised project type locations) := by
  unfold projectPromised
  split
  · exact hproject _ _
  · exact .pure (List.nil_sublist _)

/-- The type object of a shape holds the object types of its parts in their order; one is added if
the shape is an object's. -/
theorem accounts_projectShape (type : TypeId) (anchor : Option NodeId) (locations : List Location)
    {shape : Shape} (hshape : shape.Fits p type) :
    p.Accounts Event.OfClassification TypeObject.leaves []
      (p.projectShape project type anchor locations shape) := by
  cases shape with
  | enum members =>
    have hmember (m : SymbolId) : p.Accounts Event.OfClassification
        (fun o : Option EnumMember => o.toList.flatMap fun _ => []) []
        (p.projectMember project m) :=
      (accounts_projectMember hproject m).mono (by simp) (.refl _)
    exact (accounts_eachSome hmember members).bind fun _ => .pure (List.nil_sublist _)
  | union first second rest =>
    have hrest := accounts_each (fun t => hproject t none) rest
    exact (hproject _ _).bind fun _ => (hproject _ _).bind fun _ => hrest.bind fun _ =>
      .pure (by simp [TypeObject.leaves, TypeObject.leavesOfItems_eq])
  | constituent member => exact hproject _ _
  | tuple elements =>
    have hitems := accounts_each (fun e => hproject (p.typeAt e) (some e)) elements
    exact hitems.bind fun _ => .pure (by simp [TypeObject.leaves, TypeObject.leavesOfItems_eq])
  | array =>
    exact (accounts_projectElement hproject _ _).bind fun _ => .pure (by simp [TypeObject.leaves])
  | callable signature => exact accounts_projectCallable hproject _ _
  | promise =>
    exact (accounts_projectPromised hproject _ _).bind fun _ => .pure (by simp [TypeObject.leaves])
  | promiseLike =>
    exact (accounts_projectPromised hproject _ _).bind fun _ => .pure (by simp [TypeObject.leaves])
  | object =>
    have hproperties : p.properties type ≠ [] := hshape
    exact (accounts_intern hproperties fun _ => by rfl).bind fun _ =>
      .pure (by simp [TypeObject.leaves, leafOf])
  | unknown => exact (accounts_report (by rfl)).after fun _ => .pure (List.nil_sublist _)
  | typeParameter => exact .pure (List.nil_sublist _)
  | literal value => exact .pure (List.nil_sublist _)
  | primitive kind => exact .pure (List.nil_sublist _)
  | special kind => exact .pure (List.nil_sublist _)

end

/-- Classification hands out the object types of the objects it stores, in order; it leaves out
those of members of enumerations. -/
theorem accounts_classify (p : Program) (room : Nat) (type : TypeId) (anchor : Option NodeId) :
    p.Accounts Event.OfClassification TypeObject.leaves [] (p.classify room type anchor) := by
  induction room generalizing type anchor with
  | zero => exact (accounts_report (by rfl)).after fun _ => .pure (List.nil_sublist _)
  | succ room ih =>
    refine (accounts_locationsOf p _).after fun locations => ?_
    refine (accounts_report (by rfl)).after fun _ => ?_
    exact accounts_projectShape ih _ _ _ (p.fits_shape type anchor)

/-! ## Properties -/

theorem accounts_projectProperty (p : Program) (property : SymbolId) :
    p.Accounts Event.OfClassification TypeObject.leaves [] (p.projectProperty property) := by
  unfold projectProperty
  split
  · exact accounts_classify ..
  · exact (accounts_locationsOf p _).after fun _ => (accounts_classify ..).bind fun _ =>
      .pure (by simp [TypeObject.leaves])
  · exact .pure (List.nil_sublist _)
  · dsimp only
    split
    · exact (accounts_locationsOf p _).after fun _ =>
        accounts_projectCallable (accounts_classify p _) _ _
    · exact accounts_classify ..

theorem accounts_projectProperties (p : Program) (type : TypeId) :
    p.Accounts Event.OfClassification (·.flatMap fun q => q.type.leaves) []
      (p.projectProperties type) := by
  refine accounts_each (fun property => ?_) _
  exact (accounts_projectProperty p property).bind fun _ => .pure (by simp)

/-! ## Extraction

A re-export can repeat declarations and change their order. So one object type is followed at a
time.
-/

/-- An extraction accounts for an object type. -/
abbrev AccountsFor (p : Program) (leaf : ObjectLeaf) (x : Projecting Extracted) : Prop :=
  p.Accounts Event.OfProjection (fun r => leaf.among (leavesOfExtracted r)) [] x

/-- Every object type of an extraction belongs to an object that it stored. -/
theorem leavesOfExtracted_subset {p : Program} {x : Projecting Extracted}
    (hx : ∀ leaf, p.AccountsFor leaf x) (g : UInt32) (n : Nat) :
    leavesOfExtracted (x g n).value ⊆ p.ledger g n (x g n).objects := by
  intro leaf hleaf
  apply ((hx leaf).leaves g n).subset
  simp [ObjectLeaf.among, hleaf]

section

variable {p : Program} {leaf : ObjectLeaf}

theorem accounts_extractDeclaration (name : Option String) (node : NodeId) :
    p.Accounts Event.OfClassification (fun d => d.type.leaves) []
      (p.extractDeclaration name node) :=
  (accounts_classify ..).bind fun _ => .pure (by simp)

theorem accounts_extractVariable (node : NodeId) :
    p.Accounts Event.OfClassification (fun d => d.type.leaves) [] (p.extractVariable node) := by
  unfold extractVariable
  split <;> exact accounts_extractDeclaration ..

theorem leaves_pick_subset (items : List ExportItem) (ds : List Declaration) :
    (ExportItem.pick items ds).flatMap (fun d => d.type.leaves) ⊆
      ds.flatMap fun d => d.type.leaves := by
  intro leaf h
  obtain ⟨d, hd, hleaf⟩ := List.mem_flatMap.mp h
  obtain ⟨item, -, hitem⟩ := List.mem_filterMap.mp hd
  obtain ⟨found, hfound, rfl⟩ := Option.map_eq_some_iff.mp hitem
  exact List.mem_flatMap.mpr ⟨found, List.mem_of_find?_eq_some hfound, hleaf⟩

/-- A single declaration accounts for each of its object types. -/
theorem accountsFor_one {x : Projecting Declaration}
    (hx : p.Accounts Event.OfClassification (fun d => d.type.leaves) [] x) :
    p.AccountsFor leaf (do return .ok [← x] : Projecting Extracted) :=
  (hx.imp fun _ he => he.ofProjection).bind fun d =>
    .pure ((leaf.among_sublist _).trans (by simp [leavesOfExtracted]))

theorem accounts_extractAll {extract : NodeId → Projecting Extracted}
    (hextract : ∀ node, p.AccountsFor leaf (extract node))
    (statements : List NodeId) :
    p.AccountsFor leaf (extractAll extract statements) := by
  induction statements with
  | nil => exact .pure (List.nil_sublist _)
  | cons statement rest ih =>
    refine (hextract statement).bind fun first => ?_
    split
    · exact .pure (List.nil_sublist _)
    · refine ih.bind fun more => ?_
      split
      · exact .pure (List.nil_sublist _)
      · exact .pure (by simpa [leavesOfExtracted] using leaf.among_append _ _)

section Statements

variable {enter : Option Extractor}
  (henter : ∀ e ∈ enter, ∀ chain fileName, p.AccountsFor leaf (e chain fileName))
include henter

theorem accounts_extractReexport (chain : List FileId) (file : FileId)
    (specifier : Option String) (clause : Option ExportClause) :
    p.AccountsFor leaf (p.extractReexport enter chain file specifier clause) := by
  unfold extractReexport
  split
  · exact .pure (List.nil_sublist _)
  · rename_i specifier _
    dsimp only
    split
    · exact .pure (List.nil_sublist _)
    · split
      · exact (accounts_report (by rfl)).after fun _ => .pure (List.nil_sublist _)
      · rename_i e he
        have he : enter = some e := by
          split at he
          · contradiction
          · exact he
        refine (henter e he _ _).bind fun extracted => ?_
        split
        · exact .pure (List.nil_sublist _)
        · exact .pure (List.nil_sublist _)
        · split
          · exact .pure (List.nil_sublist _)
          · exact .pure (List.nil_sublist _)
          · exact .pure (ObjectLeaf.among_mono (leaves_pick_subset _ _))

theorem accounts_extractForm (chain : List FileId) (file : FileId) (fileName : String)
    (statement : NodeId) (form : Form) :
    p.AccountsFor leaf (p.extractForm enter chain file fileName statement form) := by
  unfold extractForm
  split
  · refine (accounts_extractReexport henter ..).bind fun extracted => ?_
    split
    · exact (accounts_report (by rfl)).after fun _ => .pure (List.nil_sublist _)
    · exact .pure (.refl _)
  · exact (accounts_report (by rfl)).after fun _ => .pure (List.nil_sublist _)
  · have hvariables := accounts_each (accounts_extractVariable (p := p))
    exact ((hvariables _).imp fun _ he => he.ofProjection).bind fun ds =>
      .pure (leaf.among_sublist _)
  · exact accountsFor_one (accounts_extractVariable _)
  · exact accountsFor_one (accounts_extractDeclaration ..)

theorem accounts_extractStatement (skipGenerics : Bool) (chain : List FileId) (file : FileId)
    (fileName : String) (statement : NodeId) :
    p.AccountsFor leaf (p.extractStatement skipGenerics enter chain file fileName statement) := by
  unfold extractStatement
  split
  · exact .pure (List.nil_sublist _)
  · split
    · exact .pure (List.nil_sublist _)
    · split
      · exact (accounts_report (by rfl)).after fun _ => .pure (List.nil_sublist _)
      · exact accounts_extractForm henter ..

theorem accounts_extractNamed (skipGenerics : Bool) (chain : List FileId) (fileName : String) :
    p.AccountsFor leaf (p.extractNamed skipGenerics enter chain fileName) := by
  unfold extractNamed
  split
  · exact .pure (List.nil_sublist _)
  · exact (accounts_report (by rfl)).after fun _ =>
      accounts_extractAll (accounts_extractStatement henter skipGenerics _ _ _) _

end Statements

theorem accounts_extractFile (skipGenerics : Bool) (room : Nat) (chain : List FileId)
    (fileName : String) :
    p.AccountsFor leaf (p.extractFile skipGenerics room chain fileName) := by
  induction room generalizing chain fileName with
  | zero => exact accounts_extractNamed (by simp) skipGenerics chain fileName
  | succ room ih => exact accounts_extractNamed (by simpa using ih) skipGenerics chain fileName

theorem accounts_extractExport (skipGenerics : Bool) (node : NodeId) :
    p.AccountsFor leaf (p.extractExport skipGenerics node) := by
  unfold extractExport
  split
  · split
    · exact accounts_extractReexport (by simpa using accounts_extractFile skipGenerics _) ..
    · exact (accounts_report (by rfl)).after fun _ => .pure (List.nil_sublist _)
  · exact .pure (List.nil_sublist _)

end

end Program
end PortableTypes
