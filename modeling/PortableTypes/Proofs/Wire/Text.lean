import PortableTypes.Proofs.Json.RoundTrip
import PortableTypes.Proofs.Wire.TypeObject

/-!
# Type objects survive their texts

A type object is read back from its compact and from its pretty text if its numbers read back and
at most 127 brackets are open at once. Nested deeper, it is read with a fault, which is noticed when
the object is set aside behind its tag, before anything in it is decoded.
-/
namespace PortableTypes

/-- A text of a document is decoded as the document, up to its nesting. -/
theorem Decode.ofText_text {α : Type} (decode : Decoder α) {j : Json} (hj : j.Readable)
    (s : Json.Spacing) : ofText decode (j.text s) = decode (j.limited Json.maxDepth) := by
  simp only [ofText, Json.read_text hj]
  cases decode (j.limited Json.maxDepth) <;> rfl

namespace TypeObject

/-- Positions and small whole numbers read back, so the whole document does. -/
theorem readable_encode {t : TypeObject}
    (hnumbers : ∀ x ∈ t.numbers, ∃ n ∈ x.whole?, n * 10 < 2 ^ 53) : t.encode.Readable := by
  refine sound_encode (fun n hn => Number.natural_readsBack (by omega)) t fun x hx _ => ?_
  obtain ⟨n, hwhole, hn⟩ := hnumbers x hx
  exact Number.real_readsBack hwhole hn

/-- Where a type object is nested too deep, the fault is noticed before anything is decoded. -/
theorem decode_limited_of_lt {t : TypeObject} {room : Nat} (hroom : 0 < room)
    (h : room < t.encode.depth) (medium : Medium) :
    decode medium (t.encode.limited room) = .error (.flaw .malformed) := by
  obtain ⟨room, rfl⟩ := Nat.exists_eq_add_one_of_ne_zero (Nat.ne_of_gt hroom)
  obtain ⟨fields, hencode, htag⟩ := t.exists_encode_eq_tagged
  have hsound := sound_encode (p := fun _ => True) (fun _ _ => trivial) t fun _ _ _ => trivial
  have hcheck := Json.check_limited_of_lt hsound.check_eq h
  rw [hencode, tagged, Json.limited_object_succ, List.map_cons] at hcheck ⊢
  have htag' : "__type" ∉ (fields.map fun f => (f.1, f.2.limited room)).map Prod.fst := by
    rw [List.map_map]
    exact htag
  have hfields : (Json.object (fields.map fun f => (f.1, f.2.limited room))).check
      = .error .malformed := hcheck
  show (Decode.tagged medium TypeTag.all TypeTag.wire "__type" _ _ >>= _) = _
  rw [Json.limited, Decode.tagged_object medium _ (by decide) t.tag.mem_all htag', hfields]
  rfl

/-- With any blanks, a type object whose numbers read back is read back from its text exactly if it
is not nested too deep. -/
theorem ofText_text {t : TypeObject} (hreadable : t.encode.Readable)
    (hfinite : ∀ x ∈ t.numbers, x.isFinite = true) (s : Json.Spacing) :
    ofText (t.encode.text s)
      = if t.encode.depth ≤ Json.maxDepth then .ok t else .error (.flaw .malformed) := by
  rw [ofText, Decode.ofText_text _ hreadable]
  split
  · rename_i hdepth
    rw [Json.limited_of_depth_le hdepth]
    exact t.decodeNested_encode hfinite (Nat.lt_add_one _) .text
  · rename_i hdepth
    exact decode_limited_of_lt (by decide) (Nat.lt_of_not_le hdepth) .text

/-- Numbers that are whole and at most `10 ^ 14` in magnitude read back. -/
theorem ofText_text_of_whole {t : TypeObject}
    (hnumbers : ∀ x ∈ t.numbers, ∃ n ∈ x.whole?, n ≤ 10 ^ 14) (s : Json.Spacing) :
    ofText (t.encode.text s)
      = if t.encode.depth ≤ 127 then .ok t else .error (.flaw .malformed) := by
  have hreadable : t.encode.Readable := readable_encode fun x hx => by
    obtain ⟨n, hwhole, hn⟩ := hnumbers x hx
    exact ⟨n, hwhole, by omega⟩
  have hfinite : ∀ x ∈ t.numbers, x.isFinite = true := fun x hx => by
    obtain ⟨n, hwhole, -⟩ := hnumbers x hx
    exact (Binary64.whole?_eq_some.mp hwhole).1
  exact ofText_text hreadable hfinite s

/-- A type object whose numbers are whole and at most `10 ^ 14` in magnitude is read back from its
compact and from its pretty text if at most 127 brackets are open at once; otherwise the text is
refused. -/
theorem ofText_toText_eq_ite (t : TypeObject)
    (hnumbers : ∀ x ∈ t.numbers, ∃ n ∈ x.whole?, n ≤ 10 ^ 14) :
    ofText t.toText = (if t.encode.depth ≤ 127 then .ok t else .error (.flaw .malformed))
      ∧ ofText t.toPrettyText
        = (if t.encode.depth ≤ 127 then .ok t else .error (.flaw .malformed)) :=
  ⟨ofText_text_of_whole hnumbers .tight, ofText_text_of_whole hnumbers .onLines⟩

/-- Promises nested `n` deep. -/
def tower : (n : Nat) → TypeObject
  | 0 => .special .never []
  | n + 1 => .promise (tower n) []

theorem ofText_toText_eq_ite_everyForm :
    (∀ x ∈ everyForm.numbers, ∃ n ∈ x.whole?, n ≤ 10 ^ 14)
      ∧ ofText everyForm.toText = .ok everyForm
      ∧ ofText everyForm.toPrettyText = .ok everyForm
      ∧ ofText (tower 125).toText = .ok (tower 125)
      ∧ ofText (tower 126).toText = .error (.flaw .malformed) := by
  have hnumbers : ∀ x ∈ everyForm.numbers, ∃ n ∈ x.whole?, n ≤ 10 ^ 14 := by decide +kernel
  have htower : ∀ m, ∀ x ∈ (tower m).numbers, ∃ n ∈ x.whole?, n ≤ 10 ^ 14 := by
    intro m
    induction m with
    | zero => exact List.forall_mem_nil _
    | succ m ih => exact ih
  have hdepth : everyForm.encode.depth ≤ 127 ∧ (tower 125).encode.depth ≤ 127
      ∧ ¬ (tower 126).encode.depth ≤ 127 := by decide +kernel
  have heveryForm := ofText_toText_eq_ite everyForm hnumbers
  have hlimit := ofText_toText_eq_ite (tower 125) (htower 125)
  have hbeyond := ofText_toText_eq_ite (tower 126) (htower 126)
  rw [if_pos hdepth.1] at heveryForm
  rw [if_pos hdepth.2.1] at hlimit
  rw [if_neg hdepth.2.2] at hbeyond
  exact ⟨hnumbers, heveryForm.1, heveryForm.2, hlimit.1, hbeyond.1⟩

end TypeObject
end PortableTypes
