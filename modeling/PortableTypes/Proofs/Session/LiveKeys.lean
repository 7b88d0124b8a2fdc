import PortableTypes.Proofs.Projection.Ledger
import PortableTypes.Proofs.Session.Run
import PortableTypes.Proofs.Store.Key

/-!
# Keys are good until the next question

Whatever was asked of a session, every object type it returned since its store took its generation
has a key that leads to the stored object it stands for, and asking for the properties behind the
key gives the properties of that object's type.
-/
namespace PortableTypes

/-- What is read off each result of a list of projections. -/
theorem Projecting.map_value_each {α β γ : Type} {f : α → Projecting β} {read : β → γ}
    {expected : α → γ} (hf : ∀ a g n, read (f a g n).value = expected a) (as : List α) (g : UInt32)
    (n : Nat) : (Projecting.each f as g n).value.map read = as.map expected := by
  induction as generalizing n with
  | nil => rfl
  | cons a as ih => exact List.cons_eq_cons.mpr ⟨hf a g n, ih _⟩

theorem Program.names_projectProperties (p : Program) (type : TypeId) (g : UInt32) (n : Nat) :
    (p.projectProperties type g n).value.map (·.name) =
      (p.properties type).map fun q => (p.symbolName? q).getD "unknown" := by
  apply Projecting.map_value_each
  intro property g n
  rfl

namespace Session

/-- A session stands in for object types: each belongs to an object of the store, every object of
the store has properties, and the counter stands behind the generation of the store. -/
structure Honours (s : Session) (held : List ObjectLeaf) : Prop where
  held : held ⊆ s.program.ledger s.store.generation 0 s.store.entries.toList
  objects : ∀ o ∈ s.store.entries.toList, s.program.properties o.type ≠ []
  counter : s.counter.next = s.store.generation + 1

theorem honours_start (program : Program) (counter : Counter) :
    (start program counter).Honours [] where
  held := by simp
  objects := by simp [start, Store.fresh, Counter.draw]
  counter := rfl

theorem honours_reset (s : Session) : (reset s).session.Honours [] where
  held := by simp
  objects := by simp [reset, Store.reset, Store.fresh, Counter.draw]
  counter := rfl

theorem Honours.generation_reset_ne {s : Session} {held : List ObjectLeaf} (h : s.Honours held) :
    (reset s).session.store.generation ≠ s.store.generation := by
  change s.counter.next ≠ s.store.generation
  rw [h.counter]
  intro heq
  simp at heq

section

variable {s : Session} {held : List ObjectLeaf} {α : Type} {x : Program → Projecting α}

/-- A projection whose object types belong to the objects it stores keeps the session standing in
for them and for those from before. -/
theorem Honours.project {ls : List ObjectLeaf} (h : s.Honours held)
    (hleaves : ls ⊆ s.program.ledger s.store.generation s.store.size
      (x s.program s.store.generation s.store.size).objects)
    (hobjects : ∀ o ∈ (x s.program s.store.generation s.store.size).objects,
      s.program.properties o.type ≠ []) :
    (Asking.project x s).session.Honours (held ++ ls) where
  held := by
    simp only [Asking.project, Store.toList_entries_append, Program.ledger_append, Nat.zero_add,
      Array.length_toList]
    exact List.append_subset.mpr ⟨fun l hl => List.mem_append_left _ (h.held hl),
      fun l hl => List.mem_append_right _ (hleaves hl)⟩
  objects o ho := by
    simp only [Asking.project, Store.toList_entries_append, List.mem_append] at ho
    obtain ho | ho := ho
    · exact h.objects o ho
    · exact hobjects o ho
  counter := h.counter

theorem Honours.project_accounts {kind : Event → Prop} {view : α → List ObjectLeaf}
    (h : s.Honours held) (hx : s.program.Accounts kind view [] (x s.program)) :
    (Asking.project x s).session.Honours (held ++ view (Asking.project x s).value) :=
  h.project (hx.leaves _ _).subset (hx.objects _ _)

theorem Honours.project_extracted {x : Program → Projecting Program.Extracted}
    (h : s.Honours held) (hx : ∀ leaf, s.program.AccountsFor leaf (x s.program)) :
    (Asking.project x s).session.Honours
      (held ++ leavesOfExtracted (Asking.project x s).value) :=
  h.project (Program.leavesOfExtracted_subset hx _ _) ((hx ⟨"", "", []⟩).objects _ _)

/-- A question empties the store and is then answered by a projection. -/
theorem honours_question {kind : Event → Prop} {view : α → List ObjectLeaf}
    (hx : s.program.Accounts kind view [] (x s.program)) :
    ((do reset; Asking.project x : Asking α) s).session.Honours
      (view ((do reset; Asking.project x : Asking α) s).value) :=
  (honours_reset s).project_accounts hx

theorem honours_question_extracted {x : Program → Projecting Program.Extracted}
    (hx : ∀ leaf, s.program.AccountsFor leaf (x s.program)) :
    ((do reset; Asking.project x : Asking Program.Extracted) s).session.Honours
      (leavesOfExtracted ((do reset; Asking.project x : Asking Program.Extracted) s).value) :=
  (honours_reset s).project_extracted hx

end

/-! ## Operations -/

/-- The projection that answers for the type at a node. -/
abbrev typeProjection (node : NodeId) (p : Program) : Projecting TypeObject := do
  Projecting.report (.converted node (p.typeAt node))
  p.classify Program.maxNesting (p.typeAt node) (some node)

theorem accounts_typeOf (p : Program) (node : NodeId) :
    p.Accounts Event.OfProjection TypeObject.leaves [] (typeProjection node p) :=
  (Program.accounts_report (by rfl)).after fun _ =>
    (p.accounts_classify ..).imp fun _ he => he.ofProjection

theorem honours_typeOf (s : Session) (node : NodeId) :
    (typeOf node s).session.Honours (typeOf node s).value.leaves :=
  honours_question (accounts_typeOf s.program node)

theorem honours_declarations (s : Session) (fileName : String) (skipGenerics : Bool) :
    (declarations fileName skipGenerics s).session.Honours
      (leavesOfExtracted (declarations fileName skipGenerics s).value) :=
  honours_question_extracted fun _ => Program.accounts_extractFile ..

theorem honours_reexports (s : Session) (node : NodeId) (skipGenerics : Bool) :
    (reexports node skipGenerics s).session.Honours
      (leavesOfExtracted (reexports node skipGenerics s).value) :=
  honours_question_extracted fun _ => Program.accounts_extractExport ..

theorem properties_of_lookup?_eq_none {s : Session} {key : String}
    (h : s.store.lookup? key = none) :
    Session.properties key s =
      ⟨[{ name := "unknown", type := .unsupported .property none [] }], [.unknownKey key], s⟩ := by
  simp [Session.properties, lookup?, bind, Asking.bind, Asking.session, pure, Asking.pure, h,
    Asking.report]

theorem properties_of_lookup?_eq_some {s : Session} {key : String} {object : StoredObject}
    (h : s.store.lookup? key = some object) :
    Session.properties key s =
      (do
        Asking.report (.propertiesRead key object.type)
        Asking.project fun p => p.projectProperties object.type : Asking (List Property)) s := by
  simp [Session.properties, lookup?, bind, Asking.bind, Asking.session, pure, Asking.pure, h]

theorem generation_properties (s : Session) (key : String) :
    (Session.properties key s).session.store.generation = s.store.generation := by
  cases hkey : s.store.lookup? key with
  | none => rw [properties_of_lookup?_eq_none hkey]
  | some object => rw [properties_of_lookup?_eq_some hkey]; rfl

/-- Asking for properties keeps what was returned before, also if the key is unknown. -/
theorem Honours.properties {s : Session} {held : List ObjectLeaf} (h : s.Honours held)
    (key : String) :
    (Session.properties key s).session.Honours
      (held ++ (Session.properties key s).value.flatMap fun q => q.type.leaves) := by
  cases hkey : s.store.lookup? key with
  | none => simpa [properties_of_lookup?_eq_none hkey, TypeObject.leaves] using h
  | some object =>
    rw [properties_of_lookup?_eq_some hkey]
    exact h.project_accounts (x := fun p => p.projectProperties object.type)
      (Program.accounts_projectProperties _ _)

theorem typeUnder_of_error {s : Session} {fileName : String} {position : Position}
    {e : ProjectionError} (h : s.program.nodeUnder fileName position = .error e) :
    typeUnder fileName position s = ⟨.error e, [], s⟩ := by
  simp [typeUnder, bind, Asking.bind, Asking.session, pure, Asking.pure, h]

theorem typeUnder_of_ok {s : Session} {fileName : String} {position : Position} {node : NodeId}
    (h : s.program.nodeUnder fileName position = .ok node) :
    typeUnder fileName position s =
      ⟨.ok (((s.program.refersTo? node).or (s.program.declares? node)).bind s.program.symbolName?,
        (typeOf node s).value), (typeOf node s).events, (typeOf node s).session⟩ := by
  simp [typeUnder, bind, Asking.bind, Asking.session, pure, Asking.pure, h]

/-- An operation keeps the generation of the store and adds to what the session stands in for, or it
changes the generation and the session stands in for the new reply alone. -/
theorem Honours.perform {s : Session} {held : List ObjectLeaf} (h : s.Honours held)
    (op : Operation) :
    ((perform op s).session.store.generation = s.store.generation ∧
      (perform op s).session.Honours (held ++ (perform op s).value.leaves)) ∨
    ((perform op s).session.store.generation ≠ s.store.generation ∧
      (perform op s).session.Honours (perform op s).value.leaves) := by
  cases op with
  | typeOf node => exact .inr ⟨h.generation_reset_ne, honours_typeOf s node⟩
  | declarations fileName skipGenerics =>
    exact .inr ⟨h.generation_reset_ne, honours_declarations s fileName skipGenerics⟩
  | reexports node skipGenerics =>
    exact .inr ⟨h.generation_reset_ne, honours_reexports s node skipGenerics⟩
  | typeUnder fileName position =>
    cases hnode : s.program.nodeUnder fileName position with
    | error e =>
      refine .inl ?_
      simp [Session.perform, bind, Asking.bind, pure, Asking.pure, typeUnder_of_error hnode,
        Reply.leaves, h]
    | ok node =>
      refine .inr ?_
      simp only [Session.perform, bind, Asking.bind, pure, Asking.pure, typeUnder_of_ok hnode,
        Reply.leaves]
      exact ⟨h.generation_reset_ne, honours_typeOf s node⟩
  | properties key => exact .inl ⟨generation_properties s key, h.properties key⟩
  | reset => exact .inr ⟨h.generation_reset_ne, honours_reset s⟩
  | turnTo program => exact .inr ⟨h.generation_reset_ne, honours_reset { s with program }⟩

theorem Honours.step {t : Transcript} (h : t.session.Honours t.leaves) (op : Operation) :
    (t.step op).session.Honours (t.step op).leaves := by
  obtain ⟨hsame, hnext⟩ | ⟨hnew, hnext⟩ := h.perform op
  · simpa [Transcript.step, hsame, Transcript.leaves] using hnext
  · simpa [Transcript.step, hnew, Transcript.leaves] using hnext

theorem honours_run (program : Program) (counter : Counter) (ops : List Operation) :
    (Transcript.run program counter ops).session.Honours
      (Transcript.run program counter ops).leaves := by
  have hfold (t : Transcript) (h : t.session.Honours t.leaves) :
      (ops.foldl Transcript.step t).session.Honours (ops.foldl Transcript.step t).leaves := by
    induction ops generalizing t with
    | nil => exact h
    | cons op ops ih => exact ih _ (h.step op)
  exact hfold _ (honours_start program counter)

/-- A session gives the properties of a type for the key of an object type. -/
structure Backs (s : Session) (type : TypeId) (leaf : ObjectLeaf) : Prop where
  /-- The key leads to an object of the type, with the places of the object type. -/
  lookup : s.store.lookup? leaf.storeKey = some ⟨type, leaf.locations⟩
  typeName : s.program.displayText type = leaf.typeName
  properties_ne_nil : s.program.properties type ≠ []
  /-- There is one property for each of the type's, in order and by its name. -/
  names : (Session.properties leaf.storeKey s).value.map (·.name) =
    (s.program.properties type).map fun q => (s.program.symbolName? q).getD "unknown"
  /-- No key is reported as unknown. -/
  known : ∀ key, .unknownKey key ∉ (Session.properties leaf.storeKey s).events

/-- An object type of the ledger is backed, if its place has a written form. -/
theorem Honours.backs {s : Session} {held : List ObjectLeaf} (h : s.Honours held)
    (hsize : s.store.size ≤ 2 ^ 64) {leaf : ObjectLeaf} (hleaf : leaf ∈ held) :
    ∃ type, s.Backs type leaf := by
  obtain ⟨i, o, ho, rfl⟩ := Program.mem_ledger (h.held hleaf)
  rw [Nat.zero_add] at *
  have hlookup : s.store.lookup? (StoreKey.mk s.store.generation i).text = some o :=
    Store.lookup?_place hsize ho
  refine ⟨o.type, hlookup, rfl, h.objects o (List.mem_of_getElem? ho), ?_, ?_⟩
  · rw [Program.leafOf, properties_of_lookup?_eq_some hlookup]
    exact s.program.names_projectProperties o.type _ _
  · intro key hkey
    rw [Program.leafOf, properties_of_lookup?_eq_some hlookup] at hkey
    obtain hkey | hkey := List.mem_cons.mp hkey
    · contradiction
    · have hprojection := (s.program.accounts_projectProperties o.type).events _ _ _ hkey
      cases hprojection

/-- Of the object types at any depth of what a session returned since its store took its generation,
through any operations on any programs: each has a key under which the store has an object, whose
type has the object type's name and properties to show, and whose places are the object type's; so
asking for the properties behind the key gives that type's properties, and the key is never unknown.
Places are numbers of 64 bits, and there are no more objects in the store than places. -/
theorem live_keys_resolve (program : Program) (counter : Counter) (ops : List Operation)
    (hsize : (Transcript.run program counter ops).session.store.size ≤ 2 ^ 64) (leaf : ObjectLeaf)
    (hleaf : leaf ∈ (Transcript.run program counter ops).leaves) :
    ∃ type, (Transcript.run program counter ops).session.Backs type leaf :=
  (honours_run program counter ops).backs hsize hleaf

/-- A type with one property, of that type itself. -/
def endless : Program :=
  { types := #[.error, { text := "Node", kind := .object, properties := [⟨0⟩] }]
    symbols := #[{ name := "next", declarations := [⟨1⟩], type := some ⟨1⟩ }]
    nodes := #[{ file := ⟨0⟩, form := .other, type := some ⟨1⟩ },
      { file := ⟨0⟩, form := .propertySignature "next" none, declares := some ⟨0⟩ }] }

/-- The key of the second object type comes out of the properties behind the first. -/
theorem live_keys_resolve_endless :
    (Transcript.run endless .initial [.typeOf ⟨0⟩, .properties "2-0"]).session.store.size ≤ 2 ^ 64 ∧
    ⟨"Node", "2-1", []⟩ ∈
      (Transcript.run endless .initial [.typeOf ⟨0⟩, .properties "2-0"]).leaves ∧
    ∃ type, (Transcript.run endless .initial [.typeOf ⟨0⟩, .properties "2-0"]).session.Backs type
      ⟨"Node", "2-1", []⟩ := by
  have hsize : (Transcript.run endless .initial
      [.typeOf ⟨0⟩, .properties "2-0"]).session.store.size ≤ 2 ^ 64 := by decide +kernel
  have hleaf : ⟨"Node", "2-1", []⟩ ∈
      (Transcript.run endless .initial [.typeOf ⟨0⟩, .properties "2-0"]).leaves := by
    decide +kernel
  exact ⟨hsize, hleaf, live_keys_resolve endless .initial _ hsize _ hleaf⟩

end Session
end PortableTypes
