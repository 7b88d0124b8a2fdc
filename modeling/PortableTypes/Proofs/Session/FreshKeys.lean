import Mathlib.Data.List.Nodup
import PortableTypes.Proofs.Session.LiveKeys

/-!
# The keys of one answer

The store keys in one answer are new, and no two of them are the same: read from left to right they
name places of the store that ascend, behind those that were taken before. Places may be passed
over, since a member of an enumeration that is no literal is left out with the objects that were
stored for it.
-/
namespace PortableTypes

/-- Different keys are written differently. -/
theorem StoreKey.text_injective : Function.Injective StoreKey.text := by
  intro k k' h
  have hgeneration : Nat.toDigits 10 k.generation.toNat = Nat.toDigits 10 k'.generation.toNat := by
    rw [← takeWhile_text, ← takeWhile_text, h]
  have hindex : '-' :: Nat.toDigits 10 k.index = '-' :: Nat.toDigits 10 k'.index := by
    rw [← dropWhile_text, ← dropWhile_text, h]
  have hsame {m n : Nat} (h : Nat.toDigits 10 m = Nat.toDigits 10 n) : m = n := by
    rw [← Text.digitsValue_toDigits m, h, Text.digitsValue_toDigits]
  obtain ⟨g, i⟩ := k
  obtain ⟨g', i'⟩ := k'
  obtain rfl : g = g' := UInt32.toNat_inj.mp (hsame hgeneration)
  obtain rfl : i = i' := hsame (List.cons.inj hindex).2
  rfl

namespace Program

/-- The keys of objects that are stored from a place on are those of the places that follow. -/
theorem map_storeKey_ledger (p : Program) (g : UInt32) (n : Nat) (os : List StoredObject) :
    (p.ledger g n os).map (·.storeKey) =
      (List.range' n os.length).map fun i => (StoreKey.mk g i).text := by
  induction os generalizing n with
  | nil => rfl
  | cons o os ih => simp [ledger, leafOf, ih, List.range'_succ]

end Program

namespace Session

/-! ## Places that ascend -/

/-- Keys name places of a store in its generation that ascend, from a place on. -/
def Ascending (store : Store) (start : Nat) (keys : List String) : Prop :=
  ∃ places : List Nat, keys = places.map (fun i => (StoreKey.mk store.generation i).text) ∧
    places.Pairwise (· < ·) ∧ ∀ i ∈ places, start ≤ i ∧ i < store.size

theorem Ascending.nodup {store : Store} {start : Nat} {keys : List String}
    (h : Ascending store start keys) : keys.Nodup := by
  obtain ⟨places, rfl, hpairwise, -⟩ := h
  have hplaces : places.Nodup := hpairwise.imp fun hlt => Nat.ne_of_lt hlt
  have hplace : Function.Injective fun i => (StoreKey.mk store.generation i).text := by
    intro i j h
    cases StoreKey.text_injective h
    rfl
  exact List.Nodup.map hplace hplaces

/-- The keys that a projection hands out name places behind the store it starts from. -/
theorem ascending_project {s : Session} {α : Type} {x : Program → Projecting α}
    {kind : Event → Prop} {view : α → List ObjectLeaf}
    (hx : s.program.Accounts kind view [] (x s.program)) :
    Ascending (Asking.project x s).session.store s.store.size
      ((view (Asking.project x s).value).map (·.storeKey)) := by
  let objects := (x s.program s.store.generation s.store.size).objects
  have hsize : (Asking.project x s).session.store.size = s.store.size + objects.length :=
    Store.size_append ..
  have hkeys := (hx.leaves s.store.generation s.store.size).map (·.storeKey)
  rw [List.nil_append, Program.map_storeKey_ledger] at hkeys
  obtain ⟨places, hplaces, heq⟩ := List.sublist_map_iff.mp hkeys
  refine ⟨places, heq, (List.pairwise_lt_range' 1).sublist hplaces, fun i hi => ?_⟩
  have hplace := List.mem_range'_1.mp (hplaces.subset hi)
  rw [hsize]
  exact hplace

/-! ## Answers -/

/-- The keys of an answer are new: they name places that ascend, none is there twice, and the store
before the answer knows none of them. -/
structure Fresh (before after : Store) (start : Nat) (keys : List String) : Prop where
  ascending : Ascending after start keys
  nodup : keys.Nodup
  unknown : ∀ key ∈ keys, before.lookup? key = none

/-- Places of another generation, or behind the ones that are taken, are new. -/
theorem Ascending.fresh {before after : Store} {start : Nat} {keys : List String}
    (h : Ascending after start keys)
    (hnew : after.generation = before.generation → before.size ≤ start) :
    Fresh before after start keys := by
  refine ⟨h, h.nodup, fun key hkey => ?_⟩
  obtain ⟨places, rfl, -, hplaces⟩ := h
  obtain ⟨i, hi, rfl⟩ := List.mem_map.mp hkey
  apply Store.lookup?_text_eq_none
  by_cases hgeneration : after.generation = before.generation
  · have hsize : before.entries.size ≤ i := Nat.le_trans (hnew hgeneration) (hplaces i hi).1
    rw [Store.get?, if_pos hgeneration]
    exact Array.getElem?_eq_none hsize
  · exact if_neg hgeneration

theorem fresh_typeOf {s : Session} {held : List ObjectLeaf} (h : s.Honours held) (node : NodeId) :
    Fresh s.store (typeOf node s).session.store 0
      ((typeOf node s).value.leaves.map (·.storeKey)) := by
  have hascending : Ascending (typeOf node s).session.store 0
      ((typeOf node s).value.leaves.map (·.storeKey)) :=
    ascending_project (s := (reset s).session) (accounts_typeOf s.program node)
  refine hascending.fresh fun hsame => ?_
  exact absurd hsame h.generation_reset_ne

theorem fresh_properties (s : Session) (key : String) :
    Fresh s.store (Session.properties key s).session.store s.store.size
      (((Session.properties key s).value.flatMap fun q => q.type.leaves).map (·.storeKey)) := by
  have hascending : Ascending (Session.properties key s).session.store s.store.size
      (((Session.properties key s).value.flatMap fun q => q.type.leaves).map (·.storeKey)) := by
    cases hkey : s.store.lookup? key with
    | none =>
      rw [properties_of_lookup?_eq_none hkey]
      exact ⟨[], rfl, .nil, List.forall_mem_nil _⟩
    | some object =>
      rw [properties_of_lookup?_eq_some hkey]
      exact ascending_project (x := fun p => p.projectProperties object.type)
        (s.program.accounts_projectProperties object.type)
  exact hascending.fresh fun _ => Nat.le_refl _

/-- Whatever was asked of a session before, the keys in its next answer are new. For the type at
a node or under a cursor, their places ascend from the start of the store, which has a new
generation; for the properties behind a key, from the end of the store as it was. -/
theorem keys_fresh_and_ascending (program : Program) (counter : Counter) (ops : List Operation) :
    let s := (Transcript.run program counter ops).session
    (∀ node, Fresh s.store (typeOf node s).session.store 0
      ((typeOf node s).value.leaves.map (·.storeKey))) ∧
    (∀ fileName position name t, (typeUnder fileName position s).value = .ok (name, t) →
      Fresh s.store (typeUnder fileName position s).session.store 0
        (t.leaves.map (·.storeKey))) ∧
    (∀ key, Fresh s.store (Session.properties key s).session.store s.store.size
      (((Session.properties key s).value.flatMap fun q => q.type.leaves).map (·.storeKey))) := by
  intro s
  have hhonours := honours_run program counter ops
  refine ⟨fresh_typeOf hhonours, fun fileName position name t ht => ?_, fresh_properties s⟩
  cases hnode : s.program.nodeUnder fileName position with
  | error e =>
    rw [typeUnder_of_error hnode] at ht
    cases ht
  | ok node =>
    rw [typeUnder_of_ok hnode] at ht ⊢
    cases ht
    exact fresh_typeOf hhonours node

/-- A name of a tuple type, of an object type, an enumeration with a member of the object type, and
the object type again. The object type has a property of its own type. -/
def aroundEnumeration : Program :=
  { files := #[{ name := "a.ts", text := "let t: [Node, E, Node]\n" }]
    types := #[.error, { text := "Node", kind := .object, properties := [⟨0⟩] },
      { text := "E", kind := .union [⟨1⟩], symbol := some ⟨1⟩ },
      { text := "[Node, E, Node]", kind := .object, origin := some ⟨1⟩ }]
    symbols := #[{ name := "next", declarations := [⟨5⟩], type := some ⟨1⟩ },
      { name := "E", exports := [⟨2⟩] },
      { name := "A", valueDeclaration := some ⟨4⟩ }]
    nodes := #[{ file := ⟨0⟩, form := .identifier "t", span := some ⟨4, 5⟩, type := some ⟨3⟩ },
      { file := ⟨0⟩, form := .tupleType [⟨2⟩, ⟨3⟩, ⟨2⟩] },
      { file := ⟨0⟩, form := .other, type := some ⟨1⟩ },
      { file := ⟨0⟩, form := .other, type := some ⟨2⟩ },
      { file := ⟨0⟩, form := .other, type := some ⟨1⟩ },
      { file := ⟨0⟩, form := .propertySignature "next" none, declares := some ⟨0⟩ }] }

/-- The place of the member that is left out is passed over; properties come behind all three. -/
theorem keys_fresh_and_ascending_tuple :
    let s := (Transcript.run aroundEnumeration .initial [.typeUnder "a.ts" ⟨0, 4⟩]).session
    (∃ name t, (typeUnder "a.ts" ⟨0, 4⟩ s).value = .ok (name, t) ∧
      t.leaves.map (·.storeKey) = ["3-0", "3-2"] ∧
      Fresh s.store (typeUnder "a.ts" ⟨0, 4⟩ s).session.store 0 ["3-0", "3-2"]) ∧
    s.store.size = 3 ∧
    Fresh s.store (Session.properties "2-2" s).session.store 3 ["2-3"] := by
  intro s
  obtain ⟨-, hcursor, hproperties⟩ :=
    keys_fresh_and_ascending aroundEnumeration .initial [.typeUnder "a.ts" ⟨0, 4⟩]
  have hsize : s.store.size = 3 := by decide +kernel
  have hkey : ((Session.properties "2-2" s).value.flatMap fun q => q.type.leaves).map
      (·.storeKey) = ["2-3"] := by decide +kernel
  have hnode : s.program.nodeUnder "a.ts" ⟨0, 4⟩ = .ok ⟨0⟩ := by decide +kernel
  have hkeys : (typeOf ⟨0⟩ s).value.leaves.map (·.storeKey) = ["3-0", "3-2"] := by decide +kernel
  obtain ⟨name, hvalue⟩ : ∃ name,
      (typeUnder "a.ts" ⟨0, 4⟩ s).value = .ok (name, (typeOf ⟨0⟩ s).value) :=
    ⟨_, by rw [typeUnder_of_ok hnode]⟩
  have hunder := hcursor "a.ts" ⟨0, 4⟩ name (typeOf ⟨0⟩ s).value hvalue
  have hbehind := hproperties "2-2"
  rw [hkeys] at hunder
  rw [hkey, hsize] at hbehind
  -- With the session spelled out the facts stand as they are asked for; else they would be compared
  -- by running it.
  subst s
  exact ⟨⟨name, _, hvalue, hkeys, hunder⟩, hsize, hbehind⟩

end Session
end PortableTypes
