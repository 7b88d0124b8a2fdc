import Mathlib.Data.List.TakeWhile
import PortableTypes.Proofs.Store.Key
import PortableTypes.Proofs.Text.Figures

/-!
# Texts that are read as keys

A key is read from two numbers with a dash between them. A number may have a plus sign before it and
zeros in front, but it has to fit: into 32 bits before the dash and into 64 behind it. So several
texts lead to one object, and a text leads to an object only if its two numbers are the generation
of the store and the place of the object there.
-/
namespace PortableTypes

namespace StoreKey

open Text

theorem ne_dash_of_spells {cs : List Char} {n : Nat} (h : Spells cs n) :
    ∀ c ∈ cs, (c != '-') = true := by
  obtain ⟨f, hcs, -⟩ := h
  have hfigures : ∀ c ∈ f.chars, (c != '-') = true := by
    intro c hc
    have hne : c ≠ '-' := by
      rintro rfl
      exact absurd (f.isDigit _ hc) (by decide)
    simpa using hne
  obtain rfl | rfl := hcs
  · exact hfigures
  · simpa using hfigures

theorem eq_mk_iff {key : StoreKey} {m n : Nat} (hm : m < 2 ^ 32) :
    ⟨UInt32.ofNat m, n⟩ = key ↔ key.generation.toNat = m ∧ key.index = n := by
  constructor
  · rintro rfl
    exact ⟨UInt32.toNat_ofNat_of_lt' hm, rfl⟩
  · rintro ⟨rfl, rfl⟩
    rw [UInt32.ofNat_toNat]

/-- The first dash divides a text into what is read as the two numbers. -/
theorem parse?_of_dash {text : String} {left right : List Char} {key : StoreKey}
    (htext : text.toList = left ++ '-' :: right) (hleft : ∀ c ∈ left, (c != '-') = true) :
    parse? text = some key ↔ ∃ m n, Spells left m ∧ m < 2 ^ 32 ∧ Spells right n ∧ n < 2 ^ 64 ∧
      key.generation.toNat = m ∧ key.index = n := by
  have hread : parse? text = (parseNat? left).bind fun m => (parseNat? right).bind fun n =>
      if m < 2 ^ 32 && n < 2 ^ 64 then some ⟨UInt32.ofNat m, n⟩ else none := by
    simp only [parse?, htext]
    rw [List.takeWhile_append_of_pos hleft, List.dropWhile_append_of_pos hleft]
    simp
  simp only [hread, Option.bind_eq_some_iff, parseNat?_eq_some_iff]
  constructor
  · rintro ⟨m, hm, n, hn, h⟩
    split at h
    · rename_i hfit
      obtain ⟨hmlt, hnlt⟩ : m < 2 ^ 32 ∧ n < 2 ^ 64 := by simpa using hfit
      exact ⟨m, n, hm, hmlt, hn, hnlt, (eq_mk_iff hmlt).mp (Option.some.inj h)⟩
    · contradiction
  · rintro ⟨m, n, hm, hmlt, hn, hnlt, hkey⟩
    refine ⟨m, hm, n, hn, ?_⟩
    rw [if_pos (by simpa using And.intro hmlt hnlt), (eq_mk_iff hmlt).mpr hkey]

theorem exists_dash_of_parse? {text : String} {key : StoreKey} (h : parse? text = some key) :
    ∃ left right, text.toList = left ++ '-' :: right ∧ ∀ c ∈ left, (c != '-') = true := by
  have hhead := List.head?_dropWhile_not (· != '-') text.toList
  have hparts := List.takeWhile_append_dropWhile (p := (· != '-')) (l := text.toList)
  cases hdrop : text.toList.dropWhile (· != '-') with
  | nil => simp [parse?, hdrop] at h
  | cons c right =>
    rw [hdrop] at hhead hparts
    obtain rfl : c = '-' := by simpa using hhead
    exact ⟨_, right, hparts.symm, fun c hc => List.mem_takeWhile_imp (p := (· != '-')) hc⟩

/-- What a key is read from. -/
theorem parse?_eq_some_iff {text : String} {key : StoreKey} :
    parse? text = some key ↔ ∃ left right m n, text.toList = left ++ '-' :: right ∧
      Spells left m ∧ m < 2 ^ 32 ∧ Spells right n ∧ n < 2 ^ 64 ∧
      key.generation.toNat = m ∧ key.index = n := by
  constructor
  · intro h
    obtain ⟨left, right, htext, hleft⟩ := exists_dash_of_parse? h
    obtain ⟨m, n, hparts⟩ := (parse?_of_dash htext hleft).mp h
    exact ⟨left, right, m, n, htext, hparts⟩
  · rintro ⟨left, right, m, n, htext, hm, hparts⟩
    exact (parse?_of_dash htext (ne_dash_of_spells hm)).mpr ⟨m, n, hm, hparts⟩

end StoreKey

namespace Store

/-- The store after objects were put into it one by one. -/
def internAll (s : Store) (objects : List StoredObject) : Store :=
  objects.foldl (fun s object => (s.intern object).2) s

/-- Objects that are put in one by one stand behind those that are there, in order. -/
theorem internAll_eq_append (s : Store) (objects : List StoredObject) :
    s.internAll objects = s.append objects := by
  induction objects generalizing s with
  | nil => simp [internAll, append]
  | cons object objects ih =>
    have hstep : (s.intern object).2 = s.append [object] := by
      simp [intern, append]
    have hrest := ih (s.append [object])
    rw [append_append] at hrest
    rw [← hstep] at hrest
    exact hrest

theorem lookup?_eq_some_iff {s : Store} {text : String} {object : StoredObject} :
    s.lookup? text = some object ↔ ∃ (i : Nat) (_ : i < s.entries.size),
      StoreKey.parse? text = some ⟨s.generation, i⟩ ∧ s.entries[i] = object := by
  rw [lookup?, Option.bind_eq_some_iff]
  constructor
  · rintro ⟨⟨generation, i⟩, hkey, hget⟩
    unfold get? at hget
    split at hget
    · rename_i hgeneration
      obtain rfl : generation = s.generation := hgeneration
      obtain ⟨hi, hobject⟩ := Array.getElem?_eq_some_iff.mp hget
      exact ⟨i, hi, hkey, hobject⟩
    · contradiction
  · rintro ⟨i, hi, hkey, hobject⟩
    refine ⟨_, hkey, ?_⟩
    rw [get?, if_pos rfl]
    exact Array.getElem?_eq_some_iff.mpr ⟨hi, hobject⟩

/-- A text is read as a key exactly if it is two numbers with a dash between them, each spelled
after at most one plus sign, of at most 32 and 64 bits, and the key has these numbers. The keys that
are read back from their written form are those with a place of at most 64 bits. A text leads to an
object of a store exactly if it is read as the key of a place in use, of the store's generation, and
to the object in that place; and places are filled in the order in which objects are put in. -/
theorem key_texts_resolve_exactly :
    (∀ (text : String) (key : StoreKey), StoreKey.parse? text = some key ↔
      ∃ left right m n, text.toList = left ++ '-' :: right ∧
        Text.Spells left m ∧ m < 2 ^ 32 ∧ Text.Spells right n ∧ n < 2 ^ 64 ∧
        key.generation.toNat = m ∧ key.index = n) ∧
    (∀ key : StoreKey, StoreKey.parse? key.text = some key ↔ key.index < 2 ^ 64) ∧
    (∀ (s : Store) (text : String) (object : StoredObject), s.lookup? text = some object ↔
      ∃ (i : Nat) (_ : i < s.entries.size),
        StoreKey.parse? text = some ⟨s.generation, i⟩ ∧ s.entries[i] = object) ∧
    ∀ (s : Store) (objects : List StoredObject),
      (s.internAll objects).generation = s.generation ∧
      (s.internAll objects).entries.toList = s.entries.toList ++ objects := by
  refine ⟨fun _ _ => StoreKey.parse?_eq_some_iff, fun key => ?_, fun _ _ _ => lookup?_eq_some_iff,
    fun s objects => ?_⟩
  · rw [StoreKey.parse?_text_eq]
    split <;> simp_all
  · rw [internAll_eq_append]
    exact ⟨rfl, toList_entries_append s objects⟩

example :
    let s := (Store.fresh .initial).1.append [⟨⟨5⟩, []⟩, ⟨⟨7⟩, []⟩]
    ["1-1", "+01-+1", "1-4294967297", "4294967297-1", "1--1", "1-2"].map s.lookup? =
      [some ⟨⟨7⟩, []⟩, some ⟨⟨7⟩, []⟩, none, none, none, none] := by decide +kernel

end Store
end PortableTypes
