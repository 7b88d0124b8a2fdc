import PortableTypes.Proofs.Text.Digits
import PortableTypes.Store

/-!
# Written keys

A key is read back from its written form. Places are numbers of 64 bits, so a place from `2 ^ 64` on
has no written form that can be read. Objects that are added to a store change nothing about the
keys it knows.
-/
namespace PortableTypes

namespace StoreKey

theorem ne_dash_of_mem_toDigits {n : Nat} {c : Char} (hc : c ∈ Nat.toDigits 10 n) :
    (c != '-') = true := by
  have hne : c ≠ '-' := fun h => Text.not_mem_toDigits (by decide) (h ▸ hc)
  simpa using hne

/-- What stands before the first dash of a written key is its generation. -/
@[simp] theorem takeWhile_text (k : StoreKey) :
    k.text.toList.takeWhile (· != '-') = Nat.toDigits 10 k.generation.toNat := by
  rw [text, String.toList_ofList, List.takeWhile_append_of_pos fun _ => ne_dash_of_mem_toDigits]
  simp

@[simp] theorem dropWhile_text (k : StoreKey) :
    k.text.toList.dropWhile (· != '-') = '-' :: Nat.toDigits 10 k.index := by
  rw [text, String.toList_ofList, List.dropWhile_append_of_pos fun _ => ne_dash_of_mem_toDigits]
  simp

theorem parse?_text_eq (k : StoreKey) :
    parse? k.text = if k.index < 2 ^ 64 then some k else none := by
  have hgeneration := k.generation.toNat_lt
  simp [parse?, hgeneration]

@[simp] theorem parse?_text {k : StoreKey} (h : k.index < 2 ^ 64) : parse? k.text = some k := by
  rw [parse?_text_eq, if_pos h]

/-- A written key with another generation. -/
def withGeneration (g : UInt32) (key : String) : String :=
  String.ofList (Nat.toDigits 10 g.toNat ++ key.toList.dropWhile (· != '-'))

theorem withGeneration_text (g : UInt32) (k : StoreKey) :
    withGeneration g k.text = (StoreKey.mk g k.index).text := by
  rw [withGeneration, dropWhile_text, text]

/-- A written key with a place that is `d` further on. -/
def movedOn (d : Nat) (key : String) : String :=
  match Text.parseNat? (key.toList.dropWhile (· != '-')).tail with
  | some index =>
    String.ofList (key.toList.takeWhile (· != '-') ++ '-' :: Nat.toDigits 10 (index + d))
  | none => key

theorem movedOn_text (d : Nat) (k : StoreKey) :
    movedOn d k.text = (StoreKey.mk k.generation (k.index + d)).text := by
  simp only [movedOn, dropWhile_text, takeWhile_text, List.tail_cons, Text.parseNat?_toDigits]
  rfl

end StoreKey

namespace Store

theorem lookup?_text {s : Store} {k : StoreKey} (h : k.index < 2 ^ 64) :
    s.lookup? k.text = s.get? k := by
  simp [lookup?, StoreKey.parse?_text h]

/-- The key of a place leads to the object there, if the place has a written form. -/
theorem lookup?_own (s : Store) (place : Nat) :
    s.lookup? (StoreKey.mk s.generation place).text =
      if place < 2 ^ 64 then s.entries[place]? else none := by
  by_cases h : place < 2 ^ 64
  · rw [lookup?_text h, get?, if_pos rfl, if_pos h]
  · rw [lookup?, StoreKey.parse?_text_eq, if_neg h, if_neg h, Option.bind_none]

theorem lookup?_place {s : Store} {i : Nat} {object : StoredObject} (hsize : s.size ≤ 2 ^ 64)
    (h : s.entries.toList[i]? = some object) :
    s.lookup? (StoreKey.mk s.generation i).text = some object := by
  rw [Array.getElem?_toList] at h
  have hi := (Array.getElem?_eq_some_iff.mp h).1
  rw [lookup?_own, if_pos (Nat.lt_of_lt_of_le hi hsize)]
  exact h

/-- A key that a store does not know is not known in its written form either. -/
theorem lookup?_text_eq_none {s : Store} {k : StoreKey} (h : s.get? k = none) :
    s.lookup? k.text = none := by
  rw [lookup?, StoreKey.parse?_text_eq]
  split <;> simp [h]

/-! ## Objects that are added -/

@[simp] theorem toList_entries_append (s : Store) (objects : List StoredObject) :
    (s.append objects).entries.toList = s.entries.toList ++ objects := by
  simp [append]

@[simp] theorem size_append (s : Store) (objects : List StoredObject) :
    (s.append objects).size = s.size + objects.length := by
  rw [size, ← Array.length_toList, toList_entries_append, List.length_append, Array.length_toList,
    size]

theorem append_append (s : Store) (objects more : List StoredObject) :
    (s.append objects).append more = s.append (objects ++ more) := by
  have hentries : s.entries ++ objects ++ more = s.entries ++ (objects ++ more) := by
    apply Array.toList_inj.mp
    simp
  rw [append, append, append, hentries]

/-- Objects that are added change no object that is there. -/
theorem lookup?_append {s : Store} {key : String} {object : StoredObject}
    (h : s.lookup? key = some object) (objects : List StoredObject) :
    (s.append objects).lookup? key = some object := by
  obtain ⟨k, hk, hget⟩ := Option.bind_eq_some_iff.mp h
  refine Option.bind_eq_some_iff.mpr ⟨k, hk, ?_⟩
  unfold get? at hget ⊢
  split at hget
  · rename_i hgeneration
    have hindex := (Array.getElem?_eq_some_iff.mp hget).1
    rw [if_pos (show k.generation = (s.append objects).generation from hgeneration),
      ← Array.getElem?_toList, toList_entries_append,
      List.getElem?_append_left (by simpa using hindex), Array.getElem?_toList]
    exact hget
  · contradiction

end Store
end PortableTypes
