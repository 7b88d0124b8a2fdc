import PortableTypes.Proofs.Session.Results

/-!
# Answers and what was asked before

A question is answered from the program alone: what was asked before shows only in the generation of
the keys. The properties behind a key do not depend on which keys were asked for in between: what
was stored since shows only in the places of the new keys.
-/
namespace PortableTypes

namespace Session

/-! ## Questions -/

/-- A question about the program, and not about a key. -/
def Operation.isQuestion : Operation → Bool
  | .typeOf _ | .declarations .. | .reexports .. | .typeUnder .. => true
  | .properties _ | .reset | .turnTo _ => false

/-- Keys of the same places differ by their generation only. -/
theorem carries_withGeneration (g g' : UInt32) (n : Nat) :
    Projecting.Carries (StoreKey.withGeneration g') g n g' n :=
  fun _ => StoreKey.withGeneration_text ..

/-- Keys from a later place on are moved on by the difference. -/
theorem carries_movedOn (g : UInt32) {n n' : Nat} (h : n ≤ n') :
    Projecting.Carries (StoreKey.movedOn (n' - n)) g n g n' := by
  intro i
  rw [StoreKey.movedOn_text]
  have hplace : n + i + (n' - n) = n' + i := by omega
  rw [hplace]

/-- What is left of a result without its keys is the same from every start. -/
theorem eq_from_every_start {α β : Type} {P : α → Prop} {rekey : (String → String) → α → α}
    {x : Projecting α} (hx : ∀ σ, Projecting.Mirrors σ P (rekey σ) x x) {read : α → β}
    (hread : ∀ σ a, read (rekey σ a) = read a) (g g' : UInt32) (n n' : Nat) :
    read (x g n).value = read (x g' n').value := by
  have hstart (g : UInt32) (n : Nat) : read (x g n).value = read (x 0 0).value := by
    have hkeys := (carries_movedOn 0 (Nat.zero_le n)).trans (carries_withGeneration 0 g n)
    rw [(hx _).value hkeys, hread]
  rw [hstart g n, hstart g' n']

section

variable {s t : Session} (hprogram : s.program = t.program)
include hprogram

/-- A question is answered by a projection over the empty store, so two sessions over a program
answer alike but for the generation of the keys. -/
theorem value_question {α : Type} {P : α → Prop} {rekey : (String → String) → α → α}
    {x : Program → Projecting α}
    (hx : ∀ σ, Projecting.Mirrors σ P (rekey σ) (x t.program) (x t.program)) :
    ((do reset; Asking.project x : Asking α) t).value =
      rekey (StoreKey.withGeneration t.counter.next)
        ((do reset; Asking.project x : Asking α) s).value := by
  have hkeys := carries_withGeneration s.counter.next t.counter.next 0
  obtain ⟨program, store, counter⟩ := s
  subst hprogram
  exact (hx _).value hkeys

theorem value_typeOf (node : NodeId) :
    (typeOf node t).value =
      (typeOf node s).value.rekey (StoreKey.withGeneration t.counter.next) :=
  value_question hprogram fun σ => mirrors_typeOf t.program σ node

theorem value_declarations (fileName : String) (skipGenerics : Bool) :
    (declarations fileName skipGenerics t).value =
      (declarations fileName skipGenerics s).value.rekey
        (StoreKey.withGeneration t.counter.next) :=
  value_question (x := fun p => p.extract skipGenerics fileName) hprogram fun _ =>
    Program.mirrors_extractFile ..

theorem value_reexports (node : NodeId) (skipGenerics : Bool) :
    (reexports node skipGenerics t).value =
      (reexports node skipGenerics s).value.rekey (StoreKey.withGeneration t.counter.next) :=
  value_question (x := fun p => p.extractExport skipGenerics node) hprogram fun _ =>
    Program.mirrors_extractExport ..

end

/-- Two sessions over one program, whatever was asked of each before, answer a question alike, but
for the generation of the keys; and a cursor over nothing leaves a session as it is, with all its
keys. -/
theorem answer_independent_of_history (s t : Session) (hprogram : s.program = t.program) :
    (∀ op : Operation, op.isQuestion = true → (perform op t).value =
      (perform op s).value.rekey
        (StoreKey.withGeneration (perform op t).session.store.generation)) ∧
    ∀ (fileName : String) (position : Position) (e : ProjectionError),
      (typeUnder fileName position s).value = .error e →
      (typeUnder fileName position s).session = s := by
  constructor
  · intro op hop
    cases op with
    | typeOf node => exact congrArg Reply.type (value_typeOf hprogram node)
    | declarations fileName skipGenerics =>
      exact congrArg Reply.declarations (value_declarations hprogram fileName skipGenerics)
    | reexports node skipGenerics =>
      exact congrArg Reply.declarations (value_reexports hprogram node skipGenerics)
    | typeUnder fileName position =>
      simp only [perform, bind, Asking.bind, pure, Asking.pure]
      cases hnode : t.program.nodeUnder fileName position with
      | error e =>
        rw [typeUnder_of_error hnode, typeUnder_of_error (hprogram ▸ hnode), Reply.rekey]
      | ok node =>
        rw [typeUnder_of_ok hnode, typeUnder_of_ok (hprogram ▸ hnode), Reply.rekey, hprogram,
          value_typeOf hprogram node]
        rfl
    | properties key => cases hop
    | reset => cases hop
    | turnTo program => cases hop
  · intro fileName position e he
    cases hnode : s.program.nodeUnder fileName position with
    | error e => rw [typeUnder_of_error hnode]
    | ok node =>
      rw [typeUnder_of_ok hnode] at he
      cases he

/-- One session has asked for properties and put a cursor over nothing, the other comes from another
program. -/
theorem answer_independent_of_history_endless :
    let s := (Transcript.run endless .initial
      [.typeOf ⟨0⟩, .properties "2-0", .typeUnder "a.ts" ⟨0, 0⟩]).session
    let t := (Transcript.run numberOrArrays .initial [.typeOf ⟨0⟩, .turnTo endless]).session
    s.program = t.program ∧
    (perform (.typeOf ⟨0⟩) s).value.leaves = [⟨"Node", "3-0", []⟩] ∧
    (perform (.typeOf ⟨0⟩) t).value.leaves = [⟨"Node", "4-0", []⟩] ∧
    (perform (.typeOf ⟨0⟩) t).value =
      (perform (.typeOf ⟨0⟩) s).value.rekey (StoreKey.withGeneration 4) ∧
    (typeUnder "a.ts" ⟨0, 0⟩ s).session = s := by
  intro s t
  have hprogram : s.program = t.program := rfl
  obtain ⟨hquestion, hcursor⟩ := answer_independent_of_history s t hprogram
  have hgeneration : (perform (.typeOf ⟨0⟩) t).session.store.generation = 4 := by decide +kernel
  have hanswer := hquestion (.typeOf ⟨0⟩) rfl
  rw [hgeneration] at hanswer
  exact ⟨hprogram, by decide +kernel, by decide +kernel, hanswer,
    hcursor "a.ts" ⟨0, 0⟩ (.fileNotFound "a.ts") rfl⟩

/-! ## Properties -/

/-- A session that has gone on from another by storing objects. -/
def GrownFrom (s later : Session) : Prop :=
  ∃ objects, later = { s with store := s.store.append objects }

namespace GrownFrom

variable {s later last : Session}

theorem refl (s : Session) : s.GrownFrom s := ⟨[], by simp [Store.append]⟩

theorem trans (h : s.GrownFrom later) (h' : later.GrownFrom last) : s.GrownFrom last := by
  obtain ⟨objects, rfl⟩ := h
  obtain ⟨more, rfl⟩ := h'
  exact ⟨objects ++ more, by rw [Store.append_append]⟩

theorem program (h : s.GrownFrom later) : s.program = later.program := by
  obtain ⟨objects, rfl⟩ := h
  rfl

theorem generation (h : s.GrownFrom later) :
    later.store.generation = s.store.generation := by
  obtain ⟨objects, rfl⟩ := h
  rfl

theorem size_le (h : s.GrownFrom later) : s.store.size ≤ later.store.size := by
  obtain ⟨objects, rfl⟩ := h
  simp

theorem lookup? (h : s.GrownFrom later) {key : String} {object : StoredObject}
    (hkey : s.store.lookup? key = some object) : later.store.lookup? key = some object := by
  obtain ⟨objects, rfl⟩ := h
  exact Store.lookup?_append hkey objects

end GrownFrom

theorem grownFrom_properties (s : Session) (key : String) :
    s.GrownFrom (Session.properties key s).session := by
  cases hkey : s.store.lookup? key with
  | none =>
    rw [properties_of_lookup?_eq_none hkey]
    exact .refl s
  | some object =>
    rw [properties_of_lookup?_eq_some hkey]
    exact ⟨_, rfl⟩

/-- The session after the properties behind keys were asked for, in order. -/
def afterKeys (s : Session) (keys : List String) : Session :=
  (Asking.each Session.properties keys s).session

theorem grownFrom_each {α β : Type} {f : α → Asking β}
    (hf : ∀ a (s : Session), s.GrownFrom (f a s).session) (as : List α) (s : Session) :
    s.GrownFrom (Asking.each f as s).session := by
  induction as generalizing s with
  | nil => exact .refl s
  | cons a as ih => exact (hf a s).trans (ih _)

theorem grownFrom_afterKeys (s : Session) (keys : List String) :
    s.GrownFrom (s.afterKeys keys) :=
  grownFrom_each (fun key s => grownFrom_properties s key) keys s

theorem value_properties_of_grownFrom {s later : Session} (h : s.GrownFrom later) {key : String}
    {object : StoredObject} (hkey : s.store.lookup? key = some object) :
    (Session.properties key later).value = (Session.properties key s).value.map
      (·.rekey (StoreKey.movedOn (later.store.size - s.store.size))) := by
  have hkeys := carries_movedOn s.store.generation h.size_le
  rw [properties_of_lookup?_eq_some hkey, properties_of_lookup?_eq_some (h.lookup? hkey)]
  obtain ⟨objects, rfl⟩ := h
  exact (s.program.mirrors_projectProperties _ object.type).value hkeys

/-- The keys among the properties behind a key are those of the objects that were stored for
them. -/
theorem minted_properties {s : Session} {key : String} {object : StoredObject}
    (hkey : s.store.lookup? key = some object) {q : Property}
    (hq : q ∈ (Session.properties key s).value) {leaf : ObjectLeaf} (hleaf : leaf ∈ q.type.leaves) :
    ∃ i, s.store.size ≤ i ∧ i < (Session.properties key s).session.store.size ∧
      leaf.storeKey = (StoreKey.mk s.store.generation i).text := by
  rw [properties_of_lookup?_eq_some hkey] at hq ⊢
  have haccounts := (s.program.accounts_projectProperties object.type).leaves s.store.generation
    s.store.size
  obtain ⟨i, o, ho, rfl⟩ := Program.mem_ledger
    (haccounts.subset (List.mem_flatMap.mpr ⟨q, hq, hleaf⟩))
  have hi := (List.getElem?_eq_some_iff.mp ho).1
  refine ⟨s.store.size + i, Nat.le_add_right _ _, ?_, rfl⟩
  show s.store.size + i < (s.store.append _).size
  rw [Store.size_append]
  exact Nat.add_lt_add_left hi _

/-- The properties behind a live key are the same now and after the properties behind any keys, live
or not, were asked for, once the places of the keys among them are moved on by as many objects as
were stored in between; these keys are new in either case. And every live key goes on leading to the
same object. -/
theorem properties_independent_of_order (s : Session) (key : String) (object : StoredObject)
    (hkey : s.store.lookup? key = some object) (keys : List String) :
    (Session.properties key (s.afterKeys keys)).value = (Session.properties key s).value.map
      (·.rekey (StoreKey.movedOn ((s.afterKeys keys).store.size - s.store.size))) ∧
    (∀ q ∈ (Session.properties key s).value, ∀ leaf ∈ q.type.leaves,
      ∃ i, s.store.size ≤ i ∧ i < (Session.properties key s).session.store.size ∧
        leaf.storeKey = (StoreKey.mk s.store.generation i).text) ∧
    s.store.size ≤ (s.afterKeys keys).store.size ∧
    ∀ k o, s.store.lookup? k = some o → (s.afterKeys keys).store.lookup? k = some o := by
  have hgrown := grownFrom_afterKeys s keys
  refine ⟨value_properties_of_grownFrom hgrown hkey, ?_, hgrown.size_le, ?_⟩
  · intro q hq leaf hleaf
    exact minted_properties hkey hq hleaf
  · intro k o hk
    exact hgrown.lookup? hk

/-- Between the two times the first key is asked for, then keys that are not live, then a key that
was new. -/
theorem properties_independent_of_order_endless :
    let s := (typeOf ⟨0⟩ (start endless .initial)).session
    let keys := ["2-0", "1-0", "2-7", "2-", "2-1"]
    s.store.lookup? "2-0" = some ⟨⟨1⟩, []⟩ ∧
    (Session.properties "2-0" s).value.flatMap (·.type.leaves) = [⟨"Node", "2-1", []⟩] ∧
    (Session.properties "2-0" (s.afterKeys keys)).value.flatMap (·.type.leaves) =
      [⟨"Node", "2-3", []⟩] ∧
    (Session.properties "2-0" (s.afterKeys keys)).value =
      (Session.properties "2-0" s).value.map (·.rekey (StoreKey.movedOn 2)) ∧
    (s.afterKeys keys).store.lookup? "2-0" = some ⟨⟨1⟩, []⟩ := by
  intro s keys
  have hkey : s.store.lookup? "2-0" = some ⟨⟨1⟩, []⟩ := by decide +kernel
  have hsizes : (s.afterKeys keys).store.size - s.store.size = 2 := by decide +kernel
  obtain ⟨hvalue, -, -, hlive⟩ := properties_independent_of_order s "2-0" ⟨⟨1⟩, []⟩ hkey keys
  rw [hsizes] at hvalue
  exact ⟨hkey, by decide +kernel, by decide +kernel, hvalue, hlive "2-0" _ hkey⟩

end Session
end PortableTypes
