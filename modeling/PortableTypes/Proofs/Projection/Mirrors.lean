import PortableTypes.Projection.Property
import PortableTypes.Proofs.Projection.Locations
import PortableTypes.Proofs.Projection.Shapes
import PortableTypes.Proofs.TypeObject.Nesting
import PortableTypes.Proofs.TypeObject.Rekey

/-!
# What projections give, and under which keys

Of a store a projection sees only the generation and the place of the next key. So two runs of the
same projection give the same up to these keys and store the same objects. Along with this goes what
holds of the result of any run: how deep its type objects are nested, and where its literals and its
locations come from.
-/
namespace PortableTypes

namespace Projecting

/-- `σ` takes the keys from place `n` of generation `g` on to those from place `n'` of `g'` on. -/
def Carries (σ : String → String) (g : UInt32) (n : Nat) (g' : UInt32) (n' : Nat) : Prop :=
  ∀ i, σ (StoreKey.mk g (n + i)).text = (StoreKey.mk g' (n' + i)).text

theorem Carries.add {σ : String → String} {g g' : UInt32} {n n' : Nat}
    (h : Carries σ g n g' n') (k : Nat) : Carries σ g (n + k) g' (n' + k) := by
  intro i
  rw [Nat.add_assoc, Nat.add_assoc]
  exact h (k + i)

theorem Carries.trans {σ τ : String → String} {g g' g'' : UInt32} {n n' n'' : Nat}
    (h : Carries σ g n g' n') (h' : Carries τ g' n' g'' n'') : Carries (τ ∘ σ) g n g'' n'' := by
  intro i
  simp only [Function.comp, h i, h' i]

/-- `P` holds of every result of the first projection; and from wherever the two start, if `σ` takes
the keys to come of the first to those of the second, then the second gives what is in view of the
first one's result and stores the same objects. -/
structure Mirrors (σ : String → String) {α β : Type} (P : α → Prop) (view : α → β)
    (x : Projecting α) (y : Projecting β) : Prop where
  holds : ∀ g n, P (x g n).value
  value : ∀ {g n g' n'}, Carries σ g n g' n' → (y g' n').value = view (x g n).value
  objects : ∀ {g n g' n'}, Carries σ g n g' n' → (y g' n').objects = (x g n).objects

section

variable {σ : String → String} {α β γ δ : Type} {P : α → Prop} {view : α → β} {Q : γ → Prop}
  {view' : γ → δ}

theorem Mirrors.pure {a : α} {b : β} (ha : P a) (hb : b = view a) :
    Mirrors σ P view (Pure.pure a) (Pure.pure b) where
  holds _ _ := ha
  value _ := hb
  objects _ := rfl

theorem Mirrors.bind {x : Projecting α} {y : Projecting β} {f : α → Projecting γ}
    {f' : β → Projecting δ} (hx : Mirrors σ P view x y)
    (hf : ∀ a, P a → Mirrors σ Q view' (f a) (f' (view a))) :
    Mirrors σ Q view' (x >>= f) (y >>= f') where
  holds g n := (hf _ (hx.holds g n)).holds g _
  value {g n g' n'} hσ := by
    have hnext := (hf _ (hx.holds g n)).value (hσ.add (x g n).objects.length)
    show (f' (y g' n').value g' (n' + (y g' n').objects.length)).value = _
    rw [hx.value hσ, hx.objects hσ]
    exact hnext
  objects {g n g' n'} hσ := by
    have hnext := (hf _ (hx.holds g n)).objects (hσ.add (x g n).objects.length)
    show (y g' n').objects ++ (f' (y g' n').value g' (n' + (y g' n').objects.length)).objects = _
    rw [hx.value hσ, hx.objects hσ, hnext]
    rfl

theorem Mirrors.map {x : Projecting α} {y : Projecting β} {f : α → γ} {f' : β → δ}
    (hx : Mirrors σ P view x y) (hP : ∀ a, P a → Q (f a))
    (hview : ∀ a, P a → f' (view a) = view' (f a)) : Mirrors σ Q view' (f <$> x) (f' <$> y) :=
  hx.bind fun a ha => .pure (hP a ha) (hview a ha)

theorem Mirrors.mono {P' : α → Prop} {x : Projecting α} {y : Projecting β}
    (hx : Mirrors σ P view x y) (h : ∀ a, P a → P' a) : Mirrors σ P' view x y where
  holds g n := h _ (hx.holds g n)
  value := hx.value
  objects := hx.objects

/-- What is reported makes no difference. -/
theorem mirrors_report {e e' : Event} :
    Mirrors σ (fun _ => True) id (report e) (report e') where
  holds _ _ := trivial
  value _ := rfl
  objects _ := rfl

theorem mirrors_reportAll (es : List Event) :
    Mirrors σ (fun _ => True) id (reportAll es) (reportAll es) where
  holds _ _ := trivial
  value _ := rfl
  objects _ := rfl

/-- What is made of the written key of an object that was added. -/
theorem mirrors_intern {f : String → α} {f' : String → β} (hP : ∀ key, P (f key))
    (hview : ∀ key, f' (σ key) = view (f key)) (object : StoredObject) :
    Mirrors σ P view (do return f (← intern object).text)
      (do return f' (← intern object).text) where
  holds _ _ := hP _
  value {g n g' n'} hσ := by
    have hkey : σ (StoreKey.mk g n).text = (StoreKey.mk g' n').text := hσ 0
    show f' (StoreKey.mk g' n').text = view (f (StoreKey.mk g n).text)
    rw [← hkey, hview]
  objects _ := rfl

theorem mirrors_each {f : γ → Projecting α} {f' : γ → Projecting β}
    (hf : ∀ c, Mirrors σ P view (f c) (f' c)) (cs : List γ) :
    Mirrors σ (fun as => ∀ a ∈ as, P a) (·.map view) (each f cs) (each f' cs) := by
  induction cs with
  | nil => exact .pure (List.forall_mem_nil _) rfl
  | cons c cs ih =>
    refine (hf c).bind fun a ha => ih.bind fun as has => ?_
    exact .pure (List.forall_mem_cons.mpr ⟨ha, has⟩) rfl

theorem mirrors_eachSome {f : γ → Projecting (Option α)} {f' : γ → Projecting (Option β)}
    (hf : ∀ c, Mirrors σ (fun o => ∀ a ∈ o, P a) (·.map view) (f c) (f' c)) (cs : List γ) :
    Mirrors σ (fun as => ∀ a ∈ as, P a) (·.map view) (eachSome f cs) (eachSome f' cs) := by
  induction cs with
  | nil => exact .pure (List.forall_mem_nil _) rfl
  | cons c cs ih =>
    refine (hf c).bind fun o ho => ih.bind fun as has => ?_
    refine .pure (List.forall_mem_append.mpr ⟨?_, has⟩) ?_
    · simpa using ho
    · cases o <;> rfl

end
end Projecting

/-! ## Classification -/

namespace Program

open Projecting

/-- What a type object holds itself comes from the program. -/
structure Vouches (p : Program) (t : TypeObject) : Prop where
  literals : ∀ l ∈ t.ownLiterals, ∃ type, p.literalValue? type = some l
  locations : ∀ l ∈ t.ownLocations, p.Verified l

/-- A projection gives type objects with at most `n` type objects on a way down, whose literals and
locations are the program's; wherever it starts, it gives the same type object under other keys. -/
abbrev YieldsType (p : Program) (σ : String → String) (n : Nat) (x : Projecting TypeObject) :
    Prop :=
  Mirrors σ (TypeObject.Throughout p.Vouches n) (TypeObject.rekey σ) x x

theorem mirrors_locationsOf {σ : String → String} (p : Program) (symbol : Option SymbolId) :
    Mirrors σ (fun ls => ∀ l ∈ ls, p.Verified l) id (p.locationsOf symbol)
      (p.locationsOf symbol) := by
  cases symbol with
  | none => exact .pure (List.forall_mem_nil _) rfl
  | some symbol =>
    refine (mirrors_reportAll _).bind fun _ _ => .pure ?_ rfl
    exact fun _ hl => verified_of_mem_locations hl

section

variable {p : Program} {σ : String → String} {n : Nat}

/-- A type object without literals of its own is as good as its locations and its children. -/
theorem throughout_of_children {t : TypeObject} (hliterals : t.ownLiterals = [])
    (hlocations : ∀ l ∈ t.ownLocations, p.Verified l)
    (hchildren : ∀ c ∈ t.children, c.Throughout p.Vouches n) : t.Throughout p.Vouches (n + 1) := by
  refine ⟨⟨?_, hlocations⟩, hchildren⟩
  intro l hl
  rw [hliterals] at hl
  exact absurd hl List.not_mem_nil

/-- A gap holds no more than locations. -/
theorem throughout_unsupported {gap : Gap} {typeText : Option String} {locations : List Location}
    (hlocations : ∀ l ∈ locations, p.Verified l) :
    (TypeObject.unsupported gap typeText locations).Throughout p.Vouches (n + 1) :=
  throughout_of_children rfl hlocations (List.forall_mem_nil _)

variable {project : Projector}
  (hproject : ∀ type anchor, p.YieldsType σ (n + 1) (project type anchor))

include hproject

/-- A member of an enumeration is a literal of the program, with its locations. -/
theorem mirrors_projectMember (member : SymbolId) :
    Mirrors σ
      (fun o => ∀ m ∈ o, p.Vouches (.literal m.value.value m.value.locations)) (·.map id)
      (p.projectMember project member) (p.projectMember project member) := by
  unfold projectMember
  split
  · refine (hproject _ _).bind fun t ht => ?_
    cases t with
    | literal value locations =>
      refine .pure ?_ rfl
      rintro m ⟨⟩
      exact ht.holds
    | _ => exact mirrors_report.bind fun _ _ => .pure (by rintro m ⟨⟩) rfl
  · exact .pure (by rintro m ⟨⟩) rfl

theorem mirrors_projectParameter (parameter : SymbolId) :
    Mirrors σ (fun o => ∀ a ∈ o, a.2.Throughout p.Vouches (n + 1))
      (·.map (TypeObject.rekeyArgument σ)) (p.projectParameter project parameter)
      (p.projectParameter project parameter) := by
  unfold projectParameter
  split
  · exact .pure (by rintro m ⟨⟩) rfl
  · refine (hproject _ _).bind fun t ht => .pure ?_ rfl
    rintro a ⟨⟩
    exact ht

theorem mirrors_projectCallable (signature : SignatureId) {locations : List Location}
    (hlocations : ∀ l ∈ locations, p.Verified l) :
    p.YieldsType σ (n + 2) (p.projectCallable project signature locations) := by
  refine (mirrors_eachSome (mirrors_projectParameter hproject) _).bind fun arguments hargs => ?_
  refine (hproject _ _).bind fun result hresult => .pure ?_ ?_
  · refine throughout_of_children rfl hlocations (List.forall_mem_append.mpr ⟨?_, ?_⟩)
    · exact List.forall_mem_map.mpr hargs
    · exact List.forall_mem_singleton.mpr hresult
  · rw [TypeObject.rekey, TypeObject.rekeyArguments_eq]

theorem mirrors_projectElement (type : TypeId) (anchor : Option NodeId) :
    p.YieldsType σ (n + 1) (p.projectElement project type anchor) := by
  unfold projectElement
  split
  · exact hproject _ _
  · refine mirrors_report.bind fun _ _ => .pure ?_ rfl
    exact throughout_unsupported (List.forall_mem_nil _)

theorem mirrors_projectPromised (type : TypeId) {locations : List Location}
    (hlocations : ∀ l ∈ locations, p.Verified l) :
    p.YieldsType σ (n + 1) (p.projectPromised project type locations) := by
  unfold projectPromised
  split
  · exact hproject _ _
  · exact .pure (throughout_unsupported hlocations) rfl

/-- The type object of a shape is nested one level deeper than its parts. -/
theorem mirrors_projectShape {type : TypeId} (anchor : Option NodeId) {locations : List Location}
    (hlocations : ∀ l ∈ locations, p.Verified l) {shape : Shape} (hshape : shape.Fits p type) :
    p.YieldsType σ (n + 2) (p.projectShape project type anchor locations shape) := by
  cases shape with
  | enum members =>
    refine (mirrors_eachSome (mirrors_projectMember hproject) members).bind fun ms hms => ?_
    refine .pure ⟨⟨?_, ?_⟩, List.forall_mem_nil _⟩ (by simp [TypeObject.rekey])
    · exact List.forall_mem_map.mpr fun m hm => (hms m hm).literals _ (List.mem_singleton_self _)
    · refine List.forall_mem_append.mpr ⟨hlocations, fun l hl => ?_⟩
      obtain ⟨m, hm, hl⟩ := List.mem_flatMap.mp hl
      exact (hms m hm).locations l hl
  | union first second rest =>
    have hrest := mirrors_each (fun t => hproject t none) rest
    refine (hproject _ _).bind fun a ha => (hproject _ _).bind fun b hb => ?_
    refine hrest.bind fun cs hcs => .pure ?_ ?_
    · refine throughout_of_children rfl hlocations ?_
      exact List.forall_mem_cons.mpr ⟨ha, List.forall_mem_cons.mpr ⟨hb, hcs⟩⟩
    · rw [TypeObject.rekey, TypeObject.rekeyItems_eq]
  | constituent member => exact (hproject _ _).mono fun _ ht => ht.succ
  | tuple elements =>
    have hitems := mirrors_each (fun e => hproject (p.typeAt e) (some e)) elements
    refine hitems.bind fun items hitems => .pure (throughout_of_children rfl hlocations hitems) ?_
    rw [TypeObject.rekey, TypeObject.rekeyItems_eq]
  | array =>
    refine (mirrors_projectElement hproject type anchor).bind fun child hchild => .pure ?_ rfl
    exact throughout_of_children rfl hlocations (List.forall_mem_singleton.mpr hchild)
  | callable signature => exact mirrors_projectCallable hproject signature hlocations
  | promise =>
    refine (mirrors_projectPromised hproject type hlocations).bind fun child hchild => .pure ?_ rfl
    exact throughout_of_children rfl hlocations (List.forall_mem_singleton.mpr hchild)
  | promiseLike =>
    refine (mirrors_projectPromised hproject type hlocations).bind fun child hchild => .pure ?_ rfl
    exact throughout_of_children rfl hlocations (List.forall_mem_singleton.mpr hchild)
  | object =>
    let object (key : String) : TypeObject := .object (p.displayText type) key locations
    have hobject (key : String) : (object key).Throughout p.Vouches (n + 2) :=
      throughout_of_children rfl hlocations (List.forall_mem_nil _)
    have hrekey (key : String) : object (σ key) = (object key).rekey σ := rfl
    exact mirrors_intern hobject hrekey { type, locations }
  | literal value =>
    refine .pure ⟨⟨?_, hlocations⟩, List.forall_mem_nil _⟩ rfl
    exact List.forall_mem_singleton.mpr ⟨type, hshape⟩
  | unknown =>
    exact mirrors_report.bind fun _ _ => .pure (throughout_unsupported hlocations) rfl
  | typeParameter => exact .pure (throughout_unsupported hlocations) rfl
  | primitive kind =>
    exact .pure (throughout_of_children rfl hlocations (List.forall_mem_nil _)) rfl
  | special kind =>
    exact .pure (throughout_of_children rfl hlocations (List.forall_mem_nil _)) rfl

end

/-- Each level of room lets a type object be nested one level deeper, and one level is there without
room. -/
theorem mirrors_classify (p : Program) (σ : String → String) (room : Nat) (type : TypeId)
    (anchor : Option NodeId) :
    p.YieldsType σ (room + 1) (p.classify room type anchor) := by
  induction room generalizing type anchor with
  | zero =>
    refine mirrors_report.bind fun _ _ => .pure ?_ rfl
    exact throughout_unsupported (List.forall_mem_nil _)
  | succ room ih =>
    refine (mirrors_locationsOf p _).bind fun locations hlocations => ?_
    refine mirrors_report.bind fun _ _ => ?_
    exact mirrors_projectShape ih anchor hlocations (p.fits_shape type anchor)

/-! ## Properties -/

/-- An array type that a property is annotated with, or a callable that a property is, goes around
what was classified with all the room. -/
theorem mirrors_projectProperty (p : Program) (σ : String → String) (property : SymbolId) :
    p.YieldsType σ (maxNesting + 2) (p.projectProperty property) := by
  unfold projectProperty
  split
  · exact (mirrors_classify ..).mono fun _ ht => ht.succ
  · refine (mirrors_locationsOf p _).bind fun locations hlocations => ?_
    refine (mirrors_classify ..).bind fun child hchild => .pure ?_ rfl
    exact throughout_of_children rfl hlocations (List.forall_mem_singleton.mpr hchild)
  · exact .pure (throughout_unsupported (List.forall_mem_nil _)) rfl
  · dsimp only
    split
    · refine (mirrors_locationsOf p _).bind fun locations hlocations => ?_
      exact mirrors_projectCallable (mirrors_classify p σ maxNesting) _ hlocations
    · exact (mirrors_classify ..).mono fun _ ht => ht.succ

theorem mirrors_projectProperties (p : Program) (σ : String → String) (type : TypeId) :
    Mirrors σ (fun qs => ∀ q ∈ qs, q.type.Throughout p.Vouches (maxNesting + 2))
      (·.map (Property.rekey σ)) (p.projectProperties type) (p.projectProperties type) := by
  refine mirrors_each (fun property => ?_) _
  exact (mirrors_projectProperty p σ property).bind fun t ht => .pure ht rfl

end Program
end PortableTypes
