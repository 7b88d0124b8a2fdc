import PortableTypes.CommandLine.Run
import PortableTypes.Proofs.Session.History

/-!
# Deeper expansion adds detail

Expanded further, a type has the same properties on the levels that were there before. The two runs
store different numbers of objects, so their keys differ; but wherever both come to the same
property, its keys lead to the same objects. In either run every key that is expanded is live.
-/
namespace PortableTypes

/-! ## Expanded properties -/

namespace ExpandedProperty

mutual

/-- The property with every store key in it replaced. -/
def rekey (σ : String → String) : ExpandedProperty → ExpandedProperty
  | .mk name type below => .mk name (type.rekey σ) (rekeyAll σ below)
termination_by structural q => q

def rekeyAll (σ : String → String) : List ExpandedProperty → List ExpandedProperty
  | [] => []
  | q :: qs => rekey σ q :: rekeyAll σ qs
termination_by structural qs => qs

end

theorem rekeyAll_eq (σ : String → String) (qs : List ExpandedProperty) :
    rekeyAll σ qs = qs.map (rekey σ) := by
  induction qs with
  | nil => rfl
  | cons q qs ih => rw [rekeyAll, ih, List.map_cons]

/-- The property without store keys. -/
def erased : ExpandedProperty → ExpandedProperty := rekey fun _ => ""

theorem erased_mk (name : String) (type : TypeObject) (below : List ExpandedProperty) :
    (mk name type below).erased = mk name (type.rekey fun _ => "") (below.map (·.erased)) := by
  simp only [erased, rekey, rekeyAll_eq]

/-- Properties without those that lie deeper than so many levels. -/
def cut : (levels : Nat) → List ExpandedProperty → List ExpandedProperty
  | 0, _ => []
  | levels + 1, qs => qs.map fun
    | .mk name type below => .mk name type (cut levels below)

/-- The property with what is below it cut. -/
def cutBelow (levels : Nat) : ExpandedProperty → ExpandedProperty
  | .mk name type below => .mk name type (cut levels below)

theorem cut_succ (levels : Nat) (qs : List ExpandedProperty) :
    cut (levels + 1) qs = qs.map (cutBelow levels) := by
  refine List.map_congr_left fun q _ => ?_
  cases q
  rfl

end ExpandedProperty

namespace ExpandedDeclaration

def erased (d : ExpandedDeclaration) : ExpandedDeclaration :=
  { d with type := d.type.rekey fun _ => "", properties := d.properties.map (·.erased) }

def cut (levels : Nat) (d : ExpandedDeclaration) : ExpandedDeclaration :=
  { d with properties := ExpandedProperty.cut levels d.properties }

end ExpandedDeclaration

namespace TypeObject

theorem expandableKey?_rekey (σ : String → String) (t : TypeObject) :
    (t.rekey σ).expandableKey? = t.expandableKey?.map σ := by
  induction t with
  | step t ih =>
    cases t with
    | array _ child _ | promise child _ | promiseLike child _ =>
      have hchild := ih child (List.mem_singleton_self child)
      simpa only [rekey, expandableKey?] using hchild
    | _ => simp [rekey, expandableKey?]

/-- The key to expand is that of an object type in the type object. -/
theorem exists_leaf_of_expandableKey? {t : TypeObject} {key : String}
    (h : key ∈ t.expandableKey?) : ∃ leaf ∈ t.leaves, leaf.storeKey = key := by
  induction t with
  | step t ih =>
    cases t with
    | object typeName storeKey locations =>
      cases h
      exact ⟨_, List.mem_singleton_self _, rfl⟩
    | array _ child _ | promise child _ | promiseLike child _ =>
      exact ih child (List.mem_singleton_self child) h
    | _ => cases h

end TypeObject

namespace Session

/-- A property with those below it. -/
def expandProperty (levels : Nat) (q : Property) : Asking ExpandedProperty := do
  return .mk q.name q.type (← expand levels q.type)

theorem expand_of_none {t : TypeObject} (h : t.expandableKey? = none) (levels : Nat)
    (s : Session) : expand levels t s = ⟨[], [], s⟩ := by
  cases levels with
  | zero => rfl
  | succ levels =>
    simp only [expand, h]
    rfl

theorem expand_of_some {t : TypeObject} {key : String} (h : t.expandableKey? = some key)
    (levels : Nat) :
    expand (levels + 1) t = (do
      Asking.report (.objectExpanded key (levels + 1))
      let qs ← properties key
      Asking.each (expandProperty levels) qs) := by
  simp only [expand, h]
  rfl

theorem grownFrom_expand (levels : Nat) (t : TypeObject) (s : Session) :
    s.GrownFrom (expand levels t s).session := by
  induction levels generalizing t s with
  | zero => exact .refl s
  | succ levels ih =>
    cases hkey : t.expandableKey? with
    | none =>
      rw [expand_of_none hkey]
      exact .refl s
    | some key =>
      rw [expand_of_some hkey]
      have hproperty (q : Property) (s : Session) :
          s.GrownFrom (expandProperty levels q s).session := ih q.type s
      exact (grownFrom_properties s key).trans (grownFrom_each hproperty _ _)

/-! ## Expanded keys are live -/

/-- No key was unknown on the way to an answer, and every key that was expanded is live. -/
structure Knows {α : Type} (a : Answer α) : Prop where
  known : ∀ key, .unknownKey key ∉ a.events
  live : ∀ key levels, .objectExpanded key levels ∈ a.events →
    ∃ object, a.session.store.lookup? key = some object

namespace Knows

variable {α β : Type} {a : Answer α}

/-- Events of projections are about no keys that someone asked for. -/
theorem of_projection (h : ∀ e ∈ a.events, e.OfProjection) : Knows a where
  known _ hkey := nomatch h _ hkey
  live _ _ hkey := nomatch h _ hkey

/-- What was known stays known while the store grows. -/
theorem bind {x : Asking α} {f : α → Asking β} {s : Session} (hx : Knows (x s))
    (hf : Knows (f (x s).value (x s).session))
    (hgrown : (x s).session.GrownFrom (f (x s).value (x s).session).session) :
    Knows ((x >>= f) s) where
  known key hkey := by
    obtain hkey | hkey := List.mem_append.mp hkey
    · exact hx.known key hkey
    · exact hf.known key hkey
  live key levels hkey := by
    obtain hkey | hkey := List.mem_append.mp hkey
    · obtain ⟨object, hobject⟩ := hx.live key levels hkey
      exact ⟨object, hgrown.lookup? hobject⟩
    · exact hf.live key levels hkey

theorem replace (h : Knows a) (b : β) : Knows ⟨b, a.events, a.session⟩ := ⟨h.known, h.live⟩

theorem map {x : Asking α} {s : Session} (hx : Knows (x s)) (f : α → β) :
    Knows ((do return f (← x) : Asking β) s) :=
  hx.bind (of_projection (List.forall_mem_nil _)) (.refl _)

end Knows

theorem knows_properties {s : Session} {key : String} {object : StoredObject}
    (hkey : s.store.lookup? key = some object) : Knows (Session.properties key s) := by
  have hevents := (s.program.accounts_projectProperties object.type).events s.store.generation
    s.store.size
  rw [properties_of_lookup?_eq_some hkey]
  constructor
  · intro other hother
    obtain hother | hother := List.mem_cons.mp hother
    · cases hother
    · cases hevents _ hother
  · intro other levels hother
    obtain hother | hother := List.mem_cons.mp hother
    · cases hother
    · cases hevents _ hother

/-- A question that adds to the store only. If the object types it starts from have stored objects,
every key it comes to is known. -/
structure Sustains {α : Type} (own : List ObjectLeaf) (x : Asking α) : Prop where
  grows : ∀ s : Session, s.GrownFrom (x s).session
  knows : ∀ {s : Session} {held : List ObjectLeaf}, s.Honours held → own ⊆ held →
    (x s).session.store.size ≤ 2 ^ 64 →
    Knows (x s) ∧ ∃ more, (x s).session.Honours (held ++ more)

namespace Sustains

variable {α β : Type}

theorem pure (own : List ObjectLeaf) (a : α) : Sustains own (Pure.pure a : Asking α) where
  grows := .refl
  knows h _ _ := by
    refine ⟨.of_projection (List.forall_mem_nil _), [], ?_⟩
    rw [List.append_nil]
    exact h

theorem map {own : List ObjectLeaf} {x : Asking α} (hx : Sustains own x) (f : α → β) :
    Sustains own (do return f (← x) : Asking β) where
  grows := hx.grows
  knows h hown hsize := by
    obtain ⟨hknows, hmore⟩ := hx.knows h hown hsize
    exact ⟨hknows.map f, hmore⟩

theorem each {own : α → List ObjectLeaf} {f : α → Asking β} (hf : ∀ a, Sustains (own a) (f a))
    (as : List α) : Sustains (as.flatMap own) (Asking.each f as) := by
  have hgrows := grownFrom_each fun a => (hf a).grows
  refine ⟨hgrows as, ?_⟩
  induction as with
  | nil => exact (pure _ []).knows
  | cons a as ih =>
    intro s held h hown hsize
    obtain ⟨hfirst, hrest⟩ := List.append_subset.mp hown
    have hgrown := hgrows as (f a s).session
    obtain ⟨hknows, more, hmore⟩ := (hf a).knows h hfirst (Nat.le_trans hgrown.size_le hsize)
    have hheld : as.flatMap own ⊆ held ++ more := fun l hl => List.mem_append_left _ (hrest hl)
    obtain ⟨hknows', more', hmore'⟩ := ih hmore hheld hsize
    refine ⟨hknows.bind (hknows'.map _) hgrown, more ++ more', ?_⟩
    rw [← List.append_assoc]
    exact hmore'

end Sustains

/-- Expansion comes to no key that is not live. -/
theorem sustains_expand (levels : Nat) (t : TypeObject) :
    Sustains t.leaves (expand levels t) := by
  induction levels generalizing t with
  | zero => exact .pure _ []
  | succ levels ih =>
    refine ⟨grownFrom_expand _ t, fun {s held} h hown hsize => ?_⟩
    cases hkey : t.expandableKey? with
    | none =>
      rw [expand_of_none hkey] at hsize ⊢
      exact (Sustains.pure _ []).knows h hown hsize
    | some key =>
      obtain ⟨leaf, hleaf, rfl⟩ := TypeObject.exists_leaf_of_expandableKey? hkey
      have hbelow := Sustains.each (fun q => (ih q.type).map (ExpandedProperty.mk q.name q.type))
        (Session.properties leaf.storeKey s).value
      have hgrown := hbelow.grows (Session.properties leaf.storeKey s).session
      rw [expand_of_some hkey] at hsize ⊢
      have hsizes := (grownFrom_properties s leaf.storeKey).trans hgrown
      obtain ⟨type, hbacks⟩ := h.backs (Nat.le_trans hsizes.size_le hsize) (hown hleaf)
      have hreport : Knows (Asking.report (.objectExpanded leaf.storeKey (levels + 1)) s) := by
        constructor
        · intro other hother
          cases List.mem_singleton.mp hother
        · intro other n hother
          cases List.mem_singleton.mp hother
          exact ⟨_, hbacks.lookup⟩
      obtain ⟨hknows, more, hmore⟩ :=
        hbelow.knows (h.properties leaf.storeKey) (List.subset_append_right _ _) hsize
      refine ⟨hreport.bind ((knows_properties hbacks.lookup).bind hknows hgrown) hsizes, ?_⟩
      rw [List.append_assoc] at hmore
      exact ⟨_, hmore⟩

/-! ## Two runs -/

/-- Two sessions over one program, the second of which has stored at least as many objects. -/
structure Abreast (s t : Session) : Prop where
  program : s.program = t.program
  size : s.store.size ≤ t.store.size

/-- The key that a type object is expanded by leads to the same object in two sessions, after `τ`
has taken it to a key of the second. -/
def Matched (τ : String → String) (type : TypeObject) (s t : Session) : Prop :=
  ∀ key ∈ type.expandableKey?, ∃ object,
    s.store.lookup? key = some object ∧ t.store.lookup? (τ key) = some object

theorem Matched.grown {τ : String → String} {type : TypeObject} {s t s' t' : Session}
    (h : Matched τ type s t) (hs : s.GrownFrom s') (ht : t.GrownFrom t') :
    Matched τ type s' t' := by
  intro key hkey
  obtain ⟨object, hobject, hobject'⟩ := h key hkey
  exact ⟨object, hs.lookup? hobject, ht.lookup? hobject'⟩

/-- What is stored behind the objects of a store. -/
theorem getElem?_append_size (store : Store) (objects : List StoredObject) (i : Nat) :
    (store.append objects).entries.toList[store.size + i]? = objects[i]? := by
  have hsize : store.size = store.entries.toList.length := by simp [Store.size]
  rw [Store.toList_entries_append, hsize, List.getElem?_append_right (Nat.le_add_right _ _),
    Nat.add_sub_cancel_left]

section Project

variable {α : Type} {x : Program → Projecting α} {τ : String → String} {P : α → Prop} {view : α → α}
  {s t : Session} (h : Abreast s t)
  (hcarries : Projecting.Carries τ s.store.generation s.store.size t.store.generation t.store.size)
  (hx : Projecting.Mirrors τ P view (x s.program) (x s.program))
include h hcarries hx

/-- A projection over sessions abreast stores the same objects in both. -/
theorem objects_project_abreast :
    (x t.program t.store.generation t.store.size).objects =
      (x s.program s.store.generation s.store.size).objects := by
  rw [← h.program]
  exact hx.objects hcarries

theorem value_project_abreast :
    (Asking.project x t).value = view (Asking.project x s).value := by
  have hvalue := hx.value hcarries
  show (x t.program t.store.generation t.store.size).value = _
  rw [← h.program]
  exact hvalue

theorem Abreast.project : Abreast (Asking.project x s).session (Asking.project x t).session := by
  refine ⟨h.program, ?_⟩
  show (s.store.append _).size ≤ (t.store.append _).size
  rw [Store.size_append, Store.size_append, objects_project_abreast h hcarries hx]
  exact Nat.add_le_add_right h.size _

/-- Object types of the objects that were stored are matched. -/
theorem matched_project (hsize : (Asking.project x t).session.store.size ≤ 2 ^ 64)
    {type : TypeObject} (hleaves : type.leaves ⊆ s.program.ledger s.store.generation s.store.size
      (x s.program s.store.generation s.store.size).objects) :
    Matched τ type (Asking.project x s).session (Asking.project x t).session := by
  have hsize' := Nat.le_trans (h.project hcarries hx).size hsize
  intro key hkey
  obtain ⟨leaf, hleaf, rfl⟩ := TypeObject.exists_leaf_of_expandableKey? hkey
  obtain ⟨i, object, hobject, rfl⟩ := Program.mem_ledger (hleaves hleaf)
  refine ⟨object, Store.lookup?_place hsize' ?_, ?_⟩
  · rw [← hobject]
    exact getElem?_append_size ..
  · rw [Program.leafOf, hcarries i]
    refine Store.lookup?_place hsize ?_
    rw [← hobject, ← objects_project_abreast h hcarries hx]
    exact getElem?_append_size ..

end Project

/-- Two questions that are asked of sessions abreast: the sessions stay abreast, and what is read
off the answers is the same. -/
def Agree {α β γ : Type} (pre : Session → Session → Prop) (read : α → γ) (read' : β → γ)
    (x : Asking α) (y : Asking β) : Prop :=
  ∀ {s t : Session}, Abreast s t → pre s t → (y t).session.store.size ≤ 2 ^ 64 →
    read (x s).value = read' (y t).value ∧ Abreast (x s).session (y t).session

theorem agree_each {α β γ δ ε : Type} {f : α → Asking γ} {f' : β → Asking δ} {view : α → β}
    {read : γ → ε} {read' : δ → ε} {τ : String → String} {type : α → TypeObject}
    (hgrown : ∀ a (s : Session), s.GrownFrom (f a s).session)
    (hgrown' : ∀ b (t : Session), t.GrownFrom (f' b t).session)
    (hf : ∀ a, Agree (Matched τ (type a)) read read' (f a) (f' (view a))) (as : List α) :
    Agree (fun s t => ∀ a ∈ as, Matched τ (type a) s t) (List.map read) (List.map read')
      (Asking.each f as) (Asking.each f' (as.map view)) := by
  induction as with
  | nil => exact fun h _ _ => ⟨rfl, h⟩
  | cons a as ih =>
    intro s t habreast hmatched hsize
    obtain ⟨hfirst, hrest⟩ := List.forall_mem_cons.mp hmatched
    have hsizes := (grownFrom_each hgrown' (as.map view) (f' (view a) t).session).size_le
    obtain ⟨hvalue, hnext⟩ := hf a habreast hfirst (Nat.le_trans hsizes hsize)
    have hrest' : ∀ b ∈ as, Matched τ (type b) (f a s).session (f' (view a) t).session :=
      fun b hb => (hrest b hb).grown (hgrown a s) (hgrown' (view a) t)
    obtain ⟨hvalues, hlast⟩ := ih hnext hrest' hsize
    exact ⟨List.cons_eq_cons.mpr ⟨hvalue, hvalues⟩, hlast⟩

/-- Behind matched keys there are the same properties under other keys, which are matched again. -/
theorem Abreast.properties {s t : Session} (h : Abreast s t) {key key' : String}
    {object : StoredObject} (hkey : s.store.lookup? key = some object)
    (hkey' : t.store.lookup? key' = some object)
    (hsize : (Session.properties key' t).session.store.size ≤ 2 ^ 64) :
    ∃ τ, (Session.properties key' t).value = (Session.properties key s).value.map (·.rekey τ)
      ∧ Abreast (Session.properties key s).session (Session.properties key' t).session
      ∧ ∀ q ∈ (Session.properties key s).value, Matched τ q.type
        (Session.properties key s).session (Session.properties key' t).session := by
  have hcarries := (carries_movedOn s.store.generation h.size).trans
    (carries_withGeneration s.store.generation t.store.generation t.store.size)
  have hmirrors := fun σ => s.program.mirrors_projectProperties σ object.type
  have hleaves := (s.program.accounts_projectProperties object.type).leaves s.store.generation
    s.store.size
  rw [properties_of_lookup?_eq_some hkey'] at hsize
  rw [properties_of_lookup?_eq_some hkey, properties_of_lookup?_eq_some hkey']
  have hnext := Abreast.project (x := fun p => p.projectProperties object.type) h hcarries
    (hmirrors _)
  refine ⟨_, value_project_abreast (x := fun p => p.projectProperties object.type) h hcarries
    (hmirrors _), hnext, fun q hq => ?_⟩
  refine matched_project (x := fun p => p.projectProperties object.type) h hcarries (hmirrors _)
    hsize fun leaf hleaf => ?_
  exact hleaves.subset (List.mem_flatMap.mpr ⟨q, hq, hleaf⟩)

/-- Properties agree where what is below them does. -/
theorem agree_expandProperty {levels more : Nat} {τ : String → String} {q : Property}
    (h : Agree (Matched τ q.type) (List.map (·.erased))
      (fun qs => (ExpandedProperty.cut levels qs).map (·.erased))
      (expand levels q.type) (expand more (q.type.rekey τ))) :
    Agree (Matched τ q.type) (·.erased) (fun q => (q.cutBelow levels).erased)
      (expandProperty levels q) (expandProperty more (q.rekey τ)) := by
  intro s t habreast hmatched hsize
  obtain ⟨hsame, hnext⟩ := h habreast hmatched hsize
  refine ⟨?_, hnext⟩
  show (ExpandedProperty.mk q.name q.type _).erased =
    (ExpandedProperty.mk q.name (q.type.rekey τ) (ExpandedProperty.cut levels _)).erased
  rw [ExpandedProperty.erased_mk, ExpandedProperty.erased_mk, TypeObject.rekey_rekey, hsame]
  rfl

/-- On the levels of the shorter expansion the longer one gives the same, but for the keys. -/
theorem agree_expand {levels more : Nat} (hle : levels ≤ more) (τ : String → String)
    (type : TypeObject) :
    Agree (Matched τ type) (List.map (·.erased))
      (fun qs => (ExpandedProperty.cut levels qs).map (·.erased))
      (expand levels type) (expand more (type.rekey τ)) := by
  induction levels generalizing more τ type with
  | zero =>
    intro s t habreast _ _
    have hgrown := (grownFrom_expand more (type.rekey τ) t)
    exact ⟨rfl, ⟨habreast.program.trans hgrown.program, Nat.le_trans habreast.size hgrown.size_le⟩⟩
  | succ levels ih =>
    obtain ⟨more, rfl⟩ := Nat.exists_eq_add_one_of_ne_zero (Nat.ne_of_gt (Nat.zero_lt_of_lt hle))
    intro s t habreast hmatched hsize
    cases hkey : type.expandableKey? with
    | none =>
      have hkey' : (type.rekey τ).expandableKey? = none := by
        rw [TypeObject.expandableKey?_rekey, hkey, Option.map_none]
      rw [expand_of_none hkey, expand_of_none hkey']
      exact ⟨rfl, habreast⟩
    | some key =>
      have hkey' : (type.rekey τ).expandableKey? = some (τ key) := by
        rw [TypeObject.expandableKey?_rekey, hkey, Option.map_some]
      obtain ⟨object, hobject, hobject'⟩ := hmatched key hkey
      rw [expand_of_some hkey'] at hsize
      rw [expand_of_some hkey, expand_of_some hkey']
      have hgrown (levels : Nat) (q : Property) (s : Session) :
          s.GrownFrom (expandProperty levels q s).session := grownFrom_expand levels q.type s
      have hbelow := grownFrom_each (hgrown more) (Session.properties (τ key) t).value
        (Session.properties (τ key) t).session
      obtain ⟨τ', hvalue, hnext, hmatched'⟩ :=
        habreast.properties hobject hobject' (Nat.le_trans hbelow.size_le hsize)
      have hproperty (q : Property) : Agree (Matched τ' q.type) (·.erased)
          (fun q => (q.cutBelow levels).erased)
          (expandProperty levels q) (expandProperty more (q.rekey τ')) :=
        agree_expandProperty (ih (Nat.le_of_succ_le_succ hle) τ' q.type)
      have heach := agree_each (hgrown levels) (hgrown more) hproperty
        (Session.properties key s).value hnext hmatched'
      rw [← hvalue] at heach
      obtain ⟨hvalues, hlast⟩ := heach hsize
      refine ⟨?_, hlast⟩
      dsimp only
      rw [ExpandedProperty.cut_succ, List.map_map]
      exact hvalues

section Questions

variable {s t : Session} (hprogram : s.program = t.program)
include hprogram

/-- A question is asked of two empty stores. -/
theorem abreast_reset : Abreast (reset s).session (reset t).session := ⟨hprogram, Nat.le_refl 0⟩

theorem abreast_declarations (fileName : String) (skipGenerics : Bool) :
    Abreast (declarations fileName skipGenerics s).session
      (declarations fileName skipGenerics t).session := by
  have hmirrors : s.program.YieldsExtracted (StoreKey.withGeneration t.counter.next)
    (s.program.extract skipGenerics fileName) := Program.mirrors_extractFile ..
  exact Abreast.project (x := fun p => p.extract skipGenerics fileName) (abreast_reset hprogram)
    (carries_withGeneration s.counter.next t.counter.next 0) hmirrors

theorem matched_declarations {fileName : String} {skipGenerics : Bool} {ds : List Declaration}
    (hds : (declarations fileName skipGenerics s).value = .ok ds)
    (hsize : (declarations fileName skipGenerics t).session.store.size ≤ 2 ^ 64) :
    ∀ d ∈ ds, Matched (StoreKey.withGeneration t.counter.next) d.type
      (declarations fileName skipGenerics s).session
      (declarations fileName skipGenerics t).session := by
  have hmirrors : s.program.YieldsExtracted (StoreKey.withGeneration t.counter.next)
    (s.program.extract skipGenerics fileName) := Program.mirrors_extractFile ..
  intro d hd
  refine matched_project (x := fun p => p.extract skipGenerics fileName) (abreast_reset hprogram)
    (carries_withGeneration s.counter.next t.counter.next 0) hmirrors hsize fun leaf hleaf => ?_
  refine Program.leavesOfExtracted_subset (fun _ => Program.accounts_extractFile ..) _ _ ?_
  show leaf ∈ leavesOfExtracted (declarations fileName skipGenerics s).value
  rw [hds]
  exact List.mem_flatMap.mpr ⟨d, hd, hleaf⟩

theorem abreast_typeOf (node : NodeId) :
    Abreast (typeOf node s).session (typeOf node t).session :=
  Abreast.project (x := typeProjection node) (abreast_reset hprogram)
    (carries_withGeneration s.counter.next t.counter.next 0)
    (mirrors_typeOf s.program (StoreKey.withGeneration t.counter.next) node)

theorem matched_typeOf {node : NodeId} (hsize : (typeOf node t).session.store.size ≤ 2 ^ 64) :
    Matched (StoreKey.withGeneration t.counter.next) (typeOf node s).value
      (typeOf node s).session (typeOf node t).session :=
  matched_project (x := typeProjection node) (abreast_reset hprogram)
    (carries_withGeneration s.counter.next t.counter.next 0)
    (mirrors_typeOf s.program (StoreKey.withGeneration t.counter.next) node) hsize
    ((accounts_typeOf s.program node).leaves _ _).subset

end Questions

theorem knows_declarations (fileName : String) (skipGenerics : Bool) (s : Session) :
    Knows (declarations fileName skipGenerics s) := by
  have haccounts : s.program.AccountsFor ⟨"", "", []⟩ (s.program.extract skipGenerics fileName) :=
    Program.accounts_extractFile ..
  exact .of_projection (haccounts.events _ _)

theorem knows_typeOf (node : NodeId) (s : Session) : Knows (typeOf node s) :=
  .of_projection ((accounts_typeOf s.program node).events _ _)

end Session

/-- What is read off each answer of a list. -/
theorem Asking.map_value_each {α β γ : Type} {f : α → Asking β} {read : β → γ} {expected : α → γ}
    (hf : ∀ a s, read (f a s).value = expected a) (as : List α) (s : Session) :
    (Asking.each f as s).value.map read = as.map expected := by
  induction as generalizing s with
  | nil => rfl
  | cons a as ih => exact List.cons_eq_cons.mpr ⟨hf a s, ih _⟩

namespace CommandLine

open Session

/-- A declaration with the properties below it. -/
def expandDeclaration (levels : Nat) (d : Declaration) : Asking ExpandedDeclaration := do
  return { name := d.name, type := d.type, properties := ← expand levels d.type }

theorem grownFrom_expandDeclaration (levels : Nat) (d : Declaration) (s : Session) :
    s.GrownFrom (expandDeclaration levels d s).session :=
  grownFrom_expand levels d.type s

/-- Expansion leaves the types of declarations as they are. -/
theorem map_type_each {γ : Type} (read : TypeObject → γ) (levels : Nat) (ds : List Declaration)
    (s : Session) :
    (Asking.each (expandDeclaration levels) ds s).value.map (fun d => read d.type) =
      ds.map fun d => read d.type := by
  apply Asking.map_value_each
  intro d s
  rfl

theorem sustains_expandDeclaration (levels : Nat) (d : Declaration) :
    Sustains d.type.leaves (expandDeclaration levels d) :=
  (sustains_expand levels d.type).map (ExpandedDeclaration.mk d.name d.type)

theorem agree_expandDeclaration {levels more : Nat} (hle : levels ≤ more) (τ : String → String)
    (d : Declaration) :
    Agree (Matched τ d.type) (·.erased) (fun d => (d.cut levels).erased)
      (expandDeclaration levels d) (expandDeclaration more (d.rekey τ)) := by
  intro s t habreast hmatched hsize
  obtain ⟨hsame, hnext⟩ := agree_expand hle τ d.type habreast hmatched hsize
  refine ⟨?_, hnext⟩
  have htype : (d.type.rekey τ).rekey (fun _ => "") = d.type.rekey fun _ => "" :=
    TypeObject.rekey_rekey ..
  show ({ name := d.name, type := d.type.rekey fun _ => "", properties := _ } :
      ExpandedDeclaration)
    = { name := d.name, type := (d.type.rekey τ).rekey fun _ => "", properties := _ }
  rw [htype]
  exact congrArg (ExpandedDeclaration.mk d.name (d.type.rekey fun _ => "")) hsame

/-! ## Commands -/

section

variable {file : String} {keepGenerics : Bool} {position : Position} {levels : Nat} {s : Session}

theorem extract_of_error {e : ProjectionError}
    (h : (declarations file (!keepGenerics) s).value = .error e) :
    extract file keepGenerics levels s =
      ⟨.error (.extraction file e), (declarations file (!keepGenerics) s).events,
        (declarations file (!keepGenerics) s).session⟩ := by
  simp [extract, bind, Asking.bind, pure, Asking.pure, h]

theorem extract_of_ok {ds : List Declaration}
    (h : (declarations file (!keepGenerics) s).value = .ok ds) :
    extract file keepGenerics levels s =
      (do
        let _ ← declarations file (!keepGenerics)
        return .ok (← Asking.each (expandDeclaration levels) ds) : Asking _) s := by
  simp only [extract, Bind.bind, Asking.bind, h]
  rfl

theorem lookUp_of_error {e : ProjectionError} (h : s.program.nodeUnder file position = .error e) :
    lookUp file position levels s = ⟨.error (.noType file position e), [], s⟩ := by
  simp [lookUp, bind, Asking.bind, pure, Asking.pure, typeUnder_of_error h]

/-- A cursor over a node gives a declaration of the type there. -/
theorem lookUp_of_ok {node : NodeId} (h : s.program.nodeUnder file position = .ok node) :
    lookUp file position levels s =
      (do
        let type ← typeOf node
        let name := ((s.program.refersTo? node).or (s.program.declares? node)).bind
          s.program.symbolName?
        return .ok (← expandDeclaration levels { name, type }) : Asking _) s := by
  simp [lookUp, expandDeclaration, bind, Asking.bind, pure, Asking.pure, typeUnder_of_ok h]

/-- In an extraction every key that is expanded is live. -/
theorem knows_extract (hsize : (extract file keepGenerics levels s).session.store.size ≤ 2 ^ 64) :
    Knows (extract file keepGenerics levels s) := by
  have hknows := knows_declarations file (!keepGenerics) s
  have honours := honours_declarations s file (!keepGenerics)
  cases hds : (declarations file (!keepGenerics) s).value with
  | error e =>
    rw [extract_of_error hds]
    exact hknows.replace _
  | ok ds =>
    rw [hds] at honours
    rw [extract_of_ok hds] at hsize ⊢
    have hbelow := Sustains.each (sustains_expandDeclaration levels) ds
    exact hknows.bind ((hbelow.knows honours (List.Subset.refl _) hsize).1.map _) (hbelow.grows _)

theorem knows_lookUp (hsize : (lookUp file position levels s).session.store.size ≤ 2 ^ 64) :
    Knows (lookUp file position levels s) := by
  cases hnode : s.program.nodeUnder file position with
  | error e =>
    rw [lookUp_of_error hnode]
    exact .of_projection (List.forall_mem_nil _)
  | ok node =>
    rw [lookUp_of_ok hnode] at hsize ⊢
    have hbelow := sustains_expandDeclaration levels
      ⟨((s.program.refersTo? node).or (s.program.declares? node)).bind s.program.symbolName?,
        (typeOf node s).value⟩
    have hknows := hbelow.knows (honours_typeOf s node) (List.Subset.refl _) hsize
    exact (knows_typeOf node s).bind (hknows.1.map _) (hbelow.grows _)

end

section Runs

variable {s t : Session} (hprogram : s.program = t.program) {levels more : Nat}
  (hle : levels ≤ more)
include hprogram hle

/-- Extraction with deeper expansion fails in the same way, or gives the same declarations with more
below them. -/
theorem extract_deeper {file : String} {keepGenerics : Bool}
    (hsize : (extract file keepGenerics more t).session.store.size ≤ 2 ^ 64) :
    (extract file keepGenerics more t).value.map (·.map fun d => (d.cut levels).erased)
        = (extract file keepGenerics levels s).value.map (·.map (·.erased))
      ∧ Abreast (extract file keepGenerics levels s).session
        (extract file keepGenerics more t).session := by
  have hvalue := value_declarations hprogram file (!keepGenerics)
  have habreast := abreast_declarations hprogram file (!keepGenerics)
  cases hds : (declarations file (!keepGenerics) s).value with
  | error e =>
    rw [hds] at hvalue
    rw [extract_of_error hds, extract_of_error hvalue]
    exact ⟨rfl, habreast⟩
  | ok ds =>
    rw [hds] at hvalue
    rw [extract_of_ok hvalue] at hsize
    rw [extract_of_ok hds, extract_of_ok hvalue]
    have hgrown := grownFrom_each (grownFrom_expandDeclaration more)
      (ds.map (·.rekey (StoreKey.withGeneration t.counter.next)))
      (declarations file (!keepGenerics) t).session
    have hmatched := matched_declarations hprogram hds (Nat.le_trans hgrown.size_le hsize)
    obtain ⟨hsame, hlast⟩ := agree_each (grownFrom_expandDeclaration levels)
      (grownFrom_expandDeclaration more)
      (agree_expandDeclaration hle (StoreKey.withGeneration t.counter.next)) ds habreast hmatched
      hsize
    exact ⟨congrArg Except.ok hsame.symm, hlast⟩

theorem lookUp_deeper {file : String} {position : Position} {node : NodeId}
    (hnode : t.program.nodeUnder file position = .ok node)
    (hsize : (lookUp file position more t).session.store.size ≤ 2 ^ 64) :
    (lookUp file position more t).value.map (fun d => (d.cut levels).erased)
        = (lookUp file position levels s).value.map (·.erased)
      ∧ Abreast (lookUp file position levels s).session
        (lookUp file position more t).session := by
  let name := ((t.program.refersTo? node).or (t.program.declares? node)).bind t.program.symbolName?
  let d : Declaration := { name, type := (typeOf node s).value }
  have hd : { name, type := (typeOf node t).value } = d.rekey (StoreKey.withGeneration
      t.counter.next) := by
    rw [value_typeOf hprogram node]
    rfl
  rw [lookUp_of_ok hnode] at hsize
  rw [lookUp_of_ok hnode, lookUp_of_ok (hprogram ▸ hnode), hprogram]
  change (expandDeclaration more ⟨name, (typeOf node t).value⟩
    (typeOf node t).session).session.store.size ≤ 2 ^ 64 at hsize
  have hgrown := grownFrom_expandDeclaration more ⟨name, (typeOf node t).value⟩
    (typeOf node t).session
  have hmatched := matched_typeOf hprogram (Nat.le_trans hgrown.size_le hsize)
  rw [hd] at hsize
  obtain ⟨hsame, hlast⟩ := agree_expandDeclaration hle (StoreKey.withGeneration t.counter.next) d
    (abreast_typeOf hprogram node) hmatched hsize
  rw [← hd] at hsame hlast
  exact ⟨congrArg Except.ok hsame.symm, hlast⟩

omit hle

/-- However deep the expansion, the declarations have the same types, but for the generation of the
keys. -/
theorem types_extract (file : String) (keepGenerics : Bool) :
    (extract file keepGenerics more t).value.map (·.map (·.type)) =
      (extract file keepGenerics levels s).value.map (·.map fun d => d.type.rekey
        (StoreKey.withGeneration (extract file keepGenerics more t).session.store.generation)) := by
  have hvalue := value_declarations hprogram file (!keepGenerics)
  cases hds : (declarations file (!keepGenerics) s).value with
  | error e =>
    rw [hds] at hvalue
    rw [extract_of_error hds, extract_of_error hvalue]
    rfl
  | ok ds =>
    rw [hds] at hvalue
    have hgrown := grownFrom_each (grownFrom_expandDeclaration more)
      (ds.map (·.rekey (StoreKey.withGeneration t.counter.next)))
      (declarations file (!keepGenerics) t).session
    have hgeneration : (extract file keepGenerics more t).session.store.generation
        = t.counter.next := by
      rw [extract_of_ok hvalue]
      exact hgrown.generation
    have hlonger := map_type_each id more
      (ds.map (·.rekey (StoreKey.withGeneration t.counter.next)))
      (declarations file (!keepGenerics) t).session
    have hshorter := map_type_each (TypeObject.rekey (StoreKey.withGeneration t.counter.next))
      levels ds (declarations file (!keepGenerics) s).session
    rw [List.map_map] at hlonger
    rw [hgeneration, extract_of_ok hds, extract_of_ok hvalue]
    exact congrArg Except.ok (hlonger.trans hshorter.symm)

theorem type_lookUp {file : String} {position : Position} {node : NodeId}
    (hnode : t.program.nodeUnder file position = .ok node) :
    (lookUp file position more t).value.map (·.type) =
      (lookUp file position levels s).value.map (fun d => d.type.rekey
        (StoreKey.withGeneration (lookUp file position more t).session.store.generation)) := by
  have hgeneration : (lookUp file position more t).session.store.generation = t.counter.next := by
    rw [lookUp_of_ok hnode]
    exact (grownFrom_expandDeclaration more _ (typeOf node t).session).generation
  rw [hgeneration, lookUp_of_ok hnode, lookUp_of_ok (hprogram ▸ hnode)]
  exact congrArg Except.ok (value_typeOf hprogram node)

end Runs

/-- Asked with more levels, a command on the same program fails in the same way or gives the same
declarations with more below them: cut off at the levels of the shorter run, and without store keys,
they are the same, and the types of the declarations are the same but for the generation of their
keys. In both runs no key is unknown and every key that is expanded is live. Places are numbers of
64 bits, and there are no more objects in the store than places. -/
theorem deeper_expansion_adds_detail {s t : Session} (hprogram : s.program = t.program)
    {levels more : Nat} (hle : levels ≤ more) :
    (∀ (file : String) (keepGenerics : Bool),
      let x := extract file keepGenerics levels s
      let y := extract file keepGenerics more t
      y.session.store.size ≤ 2 ^ 64 →
      y.value.map (·.map fun d => (d.cut levels).erased) = x.value.map (·.map (·.erased))
        ∧ y.value.map (·.map (·.type)) = x.value.map (·.map fun d =>
          d.type.rekey (StoreKey.withGeneration y.session.store.generation))
        ∧ Knows x ∧ Knows y) ∧
    ∀ (file : String) (position : Position),
      let x := lookUp file position levels s
      let y := lookUp file position more t
      y.session.store.size ≤ 2 ^ 64 →
      y.value.map (fun d => (d.cut levels).erased) = x.value.map (·.erased)
        ∧ y.value.map (·.type) = x.value.map (fun d =>
          d.type.rekey (StoreKey.withGeneration y.session.store.generation))
        ∧ Knows x ∧ Knows y := by
  constructor
  · intro file keepGenerics x y hsize
    obtain ⟨hsame, hlast⟩ := extract_deeper hprogram hle hsize
    exact ⟨hsame, types_extract hprogram file keepGenerics,
      knows_extract (Nat.le_trans hlast.size hsize), knows_extract hsize⟩
  · intro file position x y hsize
    cases hnode : t.program.nodeUnder file position with
    | error e =>
      have hx : x = _ := lookUp_of_error (hprogram ▸ hnode)
      have hy : y = _ := lookUp_of_error hnode
      rw [hx, hy]
      exact ⟨rfl, rfl, .of_projection (List.forall_mem_nil _),
        .of_projection (List.forall_mem_nil _)⟩
    | ok node =>
      obtain ⟨hsame, hlast⟩ := lookUp_deeper hprogram hle hnode hsize
      exact ⟨hsame, type_lookUp hprogram hnode, knows_lookUp (Nat.le_trans hlast.size hsize),
        knows_lookUp hsize⟩

/-- A file that declares a value of the type that contains itself. -/
def endlessFile : Program :=
  { endless with
    files := #[{ name := "a.ts", text := "let a: Node\n", statements := [⟨2⟩] }]
    nodes := endless.nodes.push
      { file := ⟨0⟩, form := .variableDeclaration "a" none, span := some ⟨4, 5⟩,
        type := some ⟨1⟩ } }

/-- One session expands two levels, the other, after other questions, four. -/
theorem deeper_expansion_adds_detail_endless :
    let s := Session.start endlessFile .initial
    let t := (typeOf ⟨0⟩ (Session.start endlessFile ⟨7⟩)).session
    s.program = t.program ∧ 2 ≤ 4 ∧
    (extract "a.ts" false 4 t).session.store.size = 5 ∧
    (lookUp "a.ts" ⟨0, 4⟩ 4 t).session.store.size = 5 ∧
    (extract "a.ts" false 4 t).value.map (·.map fun d => (d.cut 2).erased)
      = (extract "a.ts" false 2 s).value.map (·.map (·.erased)) ∧
    Knows (lookUp "a.ts" ⟨0, 4⟩ 4 t) := by
  intro s t
  have hprogram : s.program = t.program := rfl
  have hextract : (extract "a.ts" false 4 t).session.store.size = 5 := by decide +kernel
  have hlookUp : (lookUp "a.ts" ⟨0, 4⟩ 4 t).session.store.size = 5 := by decide +kernel
  have hdeeper := deeper_expansion_adds_detail hprogram (show 2 ≤ 4 by decide)
  have hsame := hdeeper.1 "a.ts" false (by rw [hextract]; decide)
  have hknows := hdeeper.2 "a.ts" ⟨0, 4⟩ (by rw [hlookUp]; decide)
  exact ⟨hprogram, by decide, hextract, hlookUp, hsame.1, hknows.2.2.2⟩

end CommandLine
end PortableTypes
