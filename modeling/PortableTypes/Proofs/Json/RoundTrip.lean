import PortableTypes.Proofs.Json.Numerals
import PortableTypes.Proofs.Json.Parts
import PortableTypes.Proofs.Json.Steps

/-!
# Documents survive their texts

The text of a document, with any blanks, is read as the document, up to the number of brackets that
may be open: a document nested deeper is read with a fault behind each bracket that is one too many.
-/
namespace PortableTypes.Json

mutual

/-- A document as it is read where `room` brackets may be opened. -/
def limited : Json → (room : Nat) → Json
  | .array items, room =>
    .array (if room = 0 then .fault .tooDeep :: limitedItems items (room - 1)
      else limitedItems items (room - 1))
  | .object fields, room =>
    .object (if room = 0 then nameless (.name .tooDeep) :: limitedFields fields (room - 1)
      else limitedFields fields (room - 1))
  | .null, _ => .null
  | .boolean b, _ => .boolean b
  | .number n, _ => .number n
  | .string s, _ => .string s
  | .fault f, _ => .fault f
termination_by structural j => j

def limitedItems : List Json → (room : Nat) → List Json
  | [], _ => []
  | j :: js, room => limited j room :: limitedItems js room
termination_by structural js => js

def limitedFields : List (String × Json) → (room : Nat) → List (String × Json)
  | [], _ => []
  | (name, j) :: fs, room => (name, limited j room) :: limitedFields fs room
termination_by structural fs => fs

end

theorem limitedItems_eq (items : List Json) (room : Nat) :
    limitedItems items room = items.map (limited · room) := by
  induction items with
  | nil => rfl
  | cons j items ih => rw [limitedItems, ih, List.map_cons]

theorem limitedFields_eq (fields : List (String × Json)) (room : Nat) :
    limitedFields fields room = fields.map fun f => (f.1, f.2.limited room) := by
  induction fields with
  | nil => rfl
  | cons f fields ih => rw [limitedFields, ih, List.map_cons]

theorem limited_array_succ (items : List Json) (room : Nat) :
    (Json.array items).limited (room + 1) = .array (items.map (limited · room)) := by
  rw [limited, if_neg (Nat.succ_ne_zero room), limitedItems_eq, Nat.add_sub_cancel]

theorem limited_object_succ (fields : List (String × Json)) (room : Nat) :
    (Json.object fields).limited (room + 1)
      = .object (fields.map fun f => (f.1, f.2.limited room)) := by
  rw [limited, if_neg (Nat.succ_ne_zero room), limitedFields_eq, Nat.add_sub_cancel]

/-- Nothing happens to a document that is not nested too deep. -/
theorem limited_of_depth_le {j : Json} {room : Nat} (h : j.depth ≤ room) :
    j.limited room = j := by
  induction j generalizing room with
  | array items ih =>
    obtain _ | room := room
    · exact absurd h (Nat.not_succ_le_zero _)
    · have hitems : ∀ j ∈ items, j.limited room = j :=
        fun j hj => ih j hj (depth_array_le_iff.mp h j hj)
      rw [limited_array_succ, List.map_congr_left hitems, List.map_id']
  | object fields ih =>
    obtain _ | room := room
    · exact absurd h (Nat.not_succ_le_zero _)
    · have hfields : ∀ f ∈ fields, (f.1, f.2.limited room) = f :=
        fun f hf => Prod.ext rfl (ih f hf (depth_object_le_iff.mp h f hf))
      rw [limited_object_succ, List.map_congr_left hfields, List.map_id']
  | null | boolean b | number n | string s | fault f => rfl

/-- A document that is nested too deep is read with a fault. -/
theorem depth_le_of_check_limited {j : Json} {room : Nat} (h : (j.limited room).check = .ok ()) :
    j.depth ≤ room := by
  induction j generalizing room with
  | array items ih =>
    obtain _ | room := room
    · rw [limited, if_pos rfl, check_array_eq_ok] at h
      cases (List.forall_mem_cons.mp h).1
    · rw [limited_array_succ, check_array_eq_ok, List.forall_mem_map] at h
      exact depth_array_le_iff.mpr fun j hj => ih j hj (h j hj)
  | object fields ih =>
    obtain _ | room := room
    · rw [limited, if_pos rfl, check_object_eq_ok] at h
      cases (List.forall_mem_cons.mp h).1
    · rw [limited_object_succ, check_object_eq_ok, List.forall_mem_map] at h
      exact depth_object_le_iff.mpr fun f hf => ih f hf (h f hf)
  | null | boolean b | number n | string s | fault f => exact Nat.zero_le room

theorem check_limited_cases {j : Json} (hj : j.check = .ok ()) (room : Nat) :
    (j.limited room).check = .ok () ∨ (j.limited room).check = .error .malformed := by
  induction j generalizing room with
  | array items ih =>
    rw [check_array_eq_ok] at hj
    obtain _ | room := room
    · exact .inr rfl
    · rw [limited_array_succ]
      exact checkItems_cases (List.forall_mem_map.mpr fun j hm => ih j hm (hj j hm) room)
  | object fields ih =>
    rw [check_object_eq_ok] at hj
    obtain _ | room := room
    · exact .inr rfl
    · rw [limited_object_succ]
      exact checkFields_cases (List.forall_mem_map.mpr fun f hm => ih f hm (hj f hm) room)
  | null | boolean b | number n | string s | fault f => exact .inl hj

/-- A document without faults is read with one exactly if it is nested too deep. -/
theorem check_limited_of_lt {j : Json} (hj : j.check = .ok ()) {room : Nat}
    (h : room < j.depth) : (j.limited room).check = .error .malformed := by
  refine (check_limited_cases hj room).resolve_left fun hok => ?_
  exact Nat.not_lt_of_le (depth_le_of_check_limited hok) h

/-- A document without faults whose numbers read back. -/
abbrev Readable (j : Json) : Prop := j.Sound Number.ReadsBack

/-! ## What is written -/

theorem length_lt_writeChar (c : Char) (rest : List Char) :
    rest.length < (writeChar c rest).length := by
  unfold writeChar
  repeat' split
  all_goals
    simp only [List.length_cons]
    omega

theorem length_lt_writeString (text : String) (rest : List Char) :
    rest.length < (writeString text rest).length := by
  have hchars : ∀ cs : List Char, rest.length < (cs.foldr writeChar ('"' :: rest)).length := by
    intro cs
    induction cs with
    | nil => exact Nat.lt_succ_self _
    | cons c cs ih => exact Nat.lt_trans ih (length_lt_writeChar c _)
  exact Nat.lt_succ_of_lt (hchars text.toList)

theorem exists_text_eq_cons {n : Number} (h : n.ReadsBack) :
    ∃ c cs, n.text = c :: cs ∧ (c = '-' ∨ c.isDigit = true) := by
  obtain ⟨c, cs, htext, hc, -⟩ := h [] (by rintro c ⟨⟩)
  rw [List.append_nil] at htext
  exact ⟨c, cs, htext, hc⟩

theorem startsValue_write {j : Json} (hj : j.Readable) (s : Spacing) (level : Nat)
    (rest : List Char) : StartsValue (j.write s level rest) := by
  cases hj with
  | null => exact ⟨_, _, rfl, rfl, by decide⟩
  | boolean b => cases b <;> exact ⟨_, _, rfl, rfl, by decide⟩
  | number h =>
    obtain ⟨c, cs, htext, hc⟩ := exists_text_eq_cons h
    refine ⟨c, cs ++ rest, ?_, isSpace_of_number hc, ne_of_number hc (by decide) rfl⟩
    rw [write, htext, List.cons_append]
  | string text => exact ⟨_, _, rfl, rfl, by decide⟩
  | @array items h => cases items <;> exact ⟨_, _, rfl, rfl, by decide⟩
  | @object fields h => cases fields <;> exact ⟨_, _, rfl, rfl, by decide⟩

section Lengths

variable {s : Spacing}

theorem length_le_writeItems {items : List Json}
    (h : ∀ j ∈ items, ∀ level rest, rest.length < (j.write s level rest).length)
    (level : Nat) (rest : List Char) : rest.length ≤ (writeItems s level items rest).length := by
  induction items with
  | nil => exact Nat.le.refl
  | cons j items ih =>
    obtain ⟨hj, hitems⟩ := List.forall_mem_cons.mp h
    have hrest := ih hitems
    have hitem := hj level (writeItems s level items rest)
    simp only [writeItems, List.length_cons, List.length_append]
    omega

theorem length_le_writeFields {fields : List (String × Json)}
    (h : ∀ f ∈ fields, ∀ level rest, rest.length < (f.2.write s level rest).length)
    (level : Nat) (rest : List Char) :
    rest.length ≤ (writeFields s level fields rest).length := by
  induction fields with
  | nil => exact Nat.le.refl
  | cons f fields ih =>
    obtain ⟨name, j⟩ := f
    obtain ⟨hf, hfields⟩ := List.forall_mem_cons.mp h
    have hrest := ih hfields
    have hvalue := hf level (writeFields s level fields rest)
    have hname := length_lt_writeString name (':' :: (s.gap ++ j.write s level
      (writeFields s level fields rest)))
    simp only [writeFields, List.length_cons, List.length_append] at hname hvalue ⊢
    omega

theorem length_lt_write {j : Json} (hj : j.Readable) (level : Nat) (rest : List Char) :
    rest.length < (j.write s level rest).length := by
  induction hj generalizing level rest with
  | null =>
    simp only [write, List.length_cons]
    omega
  | boolean b =>
    cases b <;>
    · simp only [write, List.length_cons]
      omega
  | number h =>
    obtain ⟨c, cs, htext, -⟩ := exists_text_eq_cons h
    simp only [write, htext, List.length_append, List.length_cons]
    omega
  | string text => exact length_lt_writeString text rest
  | @array items h ih =>
    cases items with
    | nil =>
      simp only [write, List.length_cons]
      omega
    | cons j items =>
      have hclose := length_le_writeItems ih (level + 1) (s.line level ++ ']' :: rest)
      simp only [write, writeItems, List.length_cons, List.length_append] at hclose ⊢
      omega
  | @object fields h ih =>
    cases fields with
    | nil =>
      simp only [write, List.length_cons]
      omega
    | cons f fields =>
      have hclose := length_le_writeFields ih (level + 1) (s.line level ++ '\x7d' :: rest)
      simp only [write, writeFields, List.length_cons, List.length_append] at hclose ⊢
      omega

end Lengths

/-! ## What is read -/

theorem endsNumber_cons {c : Char} (h : c.isDigit = false ∧ c ≠ '.' ∧ c ≠ 'e' ∧ c ≠ 'E')
    (cs : List Char) : EndsNumber (c :: cs) := by
  rintro d ⟨⟩
  exact h

theorem endsNumber_append {blanks cs : List Char} (hblanks : Blank blanks) (h : EndsNumber cs) :
    EndsNumber (blanks ++ cs) := by
  cases blanks with
  | nil => exact h
  | cons c blanks =>
    have hspace := hblanks c List.mem_cons_self
    apply endsNumber_cons
    simp only [isSpace, Bool.or_eq_true, decide_eq_true_eq] at hspace
    obtain ((rfl | rfl) | rfl) | rfl := hspace <;> decide

section Reading

variable {s : Spacing}

/-- A document is read back with enough fuel: two steps for each character of the text and one more.
-/
def ReadBack (s : Spacing) (j : Json) : Prop :=
  ∀ {fuel : Nat} (room level : Nat) {rest : List Char}, EndsNumber rest →
    2 * (j.write s level rest).length + 1 ≤ fuel →
    readValue fuel room (j.write s level rest) = (j.limited room, some rest)

section Items

variable {items : List Json} (room level : Nat) {close : List Char} (hclose : Blank close)
  (rest : List Char)
include hclose

theorem endsNumber_writeItems : EndsNumber (writeItems s level items (close ++ ']' :: rest)) := by
  cases items with
  | nil => exact endsNumber_append hclose (endsNumber_cons (by decide) rest)
  | cons j items => exact endsNumber_cons (by decide) _

theorem readItems_writeItems (hreadable : ∀ j ∈ items, j.Readable)
    (hread : ∀ j ∈ items, j.ReadBack s) {fuel : Nat}
    (hfuel : 2 * (writeItems s level items (close ++ ']' :: rest)).length + 2 ≤ fuel) :
    readItems fuel room false (writeItems s level items (close ++ ']' :: rest))
      = (items.map (limited · room), some rest) := by
  obtain ⟨fuel, rfl⟩ := Nat.exists_eq_add_one_of_ne_zero (show fuel ≠ 0 by omega)
  induction items generalizing fuel with
  | nil => exact readItems_close hclose fuel room false rest
  | cons j items ih =>
    obtain ⟨hj, hreadable⟩ := List.forall_mem_cons.mp hreadable
    obtain ⟨hreadj, hread⟩ := List.forall_mem_cons.mp hread
    have hshorter := length_lt_write (s := s) hj level
      (writeItems s level items (close ++ ']' :: rest))
    simp only [writeItems, List.length_cons, List.length_append] at hfuel
    obtain ⟨fuel, rfl⟩ := Nat.exists_eq_add_one_of_ne_zero (show fuel ≠ 0 by omega)
    exact readItems_next (s.line_blank level) (startsValue_write hj s level _)
      (hreadj room level (endsNumber_writeItems level hclose rest) (by omega))
      (ih hreadable hread fuel (by omega))

end Items

section Fields

variable {fields : List (String × Json)} (room level : Nat) {close : List Char}
  (hclose : Blank close) (rest : List Char)
include hclose

theorem endsNumber_writeFields :
    EndsNumber (writeFields s level fields (close ++ '\x7d' :: rest)) := by
  cases fields with
  | nil => exact endsNumber_append hclose (endsNumber_cons (by decide) rest)
  | cons f fields => exact endsNumber_cons (by decide) _

theorem readFields_writeFields (hreadable : ∀ f ∈ fields, f.2.Readable)
    (hread : ∀ f ∈ fields, f.2.ReadBack s) {fuel : Nat}
    (hfuel : 2 * (writeFields s level fields (close ++ '\x7d' :: rest)).length + 2 ≤ fuel) :
    readFields fuel room false (writeFields s level fields (close ++ '\x7d' :: rest))
      = (fields.map (fun f => (f.1, f.2.limited room)), some rest) := by
  obtain ⟨fuel, rfl⟩ := Nat.exists_eq_add_one_of_ne_zero (show fuel ≠ 0 by omega)
  induction fields generalizing fuel with
  | nil => exact readFields_close hclose fuel room false rest
  | cons f fields ih =>
    obtain ⟨name, j⟩ := f
    obtain ⟨hj, hreadable⟩ := List.forall_mem_cons.mp hreadable
    obtain ⟨hreadj, hread⟩ := List.forall_mem_cons.mp hread
    change j.Readable at hj
    change j.ReadBack s at hreadj
    have hshorter := length_lt_write (s := s) hj level
      (writeFields s level fields (close ++ '\x7d' :: rest))
    have hname := length_lt_writeString name (':' :: (s.gap ++ j.write s level
      (writeFields s level fields (close ++ '\x7d' :: rest))))
    simp only [writeFields, List.length_cons, List.length_append] at hfuel hname
    obtain ⟨fuel, rfl⟩ := Nat.exists_eq_add_one_of_ne_zero (show fuel ≠ 0 by omega)
    refine readFields_next (s.line_blank level) ?_ (ih hreadable hread fuel (by omega)) name
    rw [readValue_append s.gap_blank]
    exact hreadj room level (endsNumber_writeFields level hclose rest) (by omega)

end Fields

theorem readBack_array {items : List Json} (hreadable : ∀ j ∈ items, j.Readable)
    (hread : ∀ j ∈ items, j.ReadBack s) : (Json.array items).ReadBack s := by
  intro fuel room level rest _ hfuel
  obtain ⟨fuel, rfl⟩ := Nat.exists_eq_add_one_of_ne_zero (show fuel ≠ 0 by omega)
  rw [limited, limitedItems_eq]
  cases items with
  | nil =>
    simp only [write, List.length_cons] at hfuel
    obtain ⟨fuel, rfl⟩ := Nat.exists_eq_add_one_of_ne_zero (show fuel ≠ 0 by omega)
    exact readValue_array (readItems_close (List.forall_mem_nil _) fuel (room - 1) true rest)
  | cons j items =>
    obtain ⟨hj, hreadable⟩ := List.forall_mem_cons.mp hreadable
    obtain ⟨hreadj, hread⟩ := List.forall_mem_cons.mp hread
    have hshorter := length_lt_write (s := s) hj (level + 1)
      (writeItems s (level + 1) items (s.line level ++ ']' :: rest))
    simp only [write, List.length_cons, List.length_append] at hfuel
    obtain ⟨fuel, rfl⟩ := Nat.exists_eq_add_one_of_ne_zero (show fuel ≠ 0 by omega)
    have hends : EndsNumber (writeItems s (level + 1) items (s.line level ++ ']' :: rest)) :=
      endsNumber_writeItems (level + 1) (s.line_blank level) rest
    exact readValue_array (readItems_first (s.line_blank (level + 1))
      (startsValue_write hj s (level + 1) _) (hreadj (room - 1) (level + 1) hends (by omega))
      (readItems_writeItems (room - 1) (level + 1) (s.line_blank level) rest hreadable hread
        (by omega)))

theorem readBack_object {fields : List (String × Json)} (hreadable : ∀ f ∈ fields, f.2.Readable)
    (hread : ∀ f ∈ fields, f.2.ReadBack s) : (Json.object fields).ReadBack s := by
  intro fuel room level rest _ hfuel
  obtain ⟨fuel, rfl⟩ := Nat.exists_eq_add_one_of_ne_zero (show fuel ≠ 0 by omega)
  rw [limited, limitedFields_eq]
  cases fields with
  | nil =>
    simp only [write, List.length_cons] at hfuel
    obtain ⟨fuel, rfl⟩ := Nat.exists_eq_add_one_of_ne_zero (show fuel ≠ 0 by omega)
    exact readValue_object (readFields_close (List.forall_mem_nil _) fuel (room - 1) true rest)
  | cons f fields =>
    obtain ⟨name, j⟩ := f
    obtain ⟨hj, hreadable⟩ := List.forall_mem_cons.mp hreadable
    obtain ⟨hreadj, hread⟩ := List.forall_mem_cons.mp hread
    change j.Readable at hj
    change j.ReadBack s at hreadj
    have hshorter := length_lt_write (s := s) hj (level + 1)
      (writeFields s (level + 1) fields (s.line level ++ '\x7d' :: rest))
    have hname := length_lt_writeString name (':' :: (s.gap ++ j.write s (level + 1)
      (writeFields s (level + 1) fields (s.line level ++ '\x7d' :: rest))))
    simp only [write, List.length_cons, List.length_append] at hfuel hname
    obtain ⟨fuel, rfl⟩ := Nat.exists_eq_add_one_of_ne_zero (show fuel ≠ 0 by omega)
    have hends : EndsNumber (writeFields s (level + 1) fields (s.line level ++ '\x7d' :: rest)) :=
      endsNumber_writeFields (level + 1) (s.line_blank level) rest
    refine readValue_object (readFields_first (s.line_blank (level + 1)) ?_
      (readFields_writeFields (room - 1) (level + 1) (s.line_blank level) rest hreadable hread
        (by omega)) name)
    rw [readValue_append s.gap_blank]
    exact hreadj (room - 1) (level + 1) hends (by omega)

/-- Whatever the blanks, the text of a readable document is read as the document, up to the number
of brackets that may be open. -/
theorem Readable.readBack {j : Json} (hj : j.Readable) : j.ReadBack s := by
  induction hj with
  | null =>
    intro fuel room level rest _ hfuel
    obtain ⟨fuel, rfl⟩ := Nat.exists_eq_add_one_of_ne_zero (show fuel ≠ 0 by omega)
    rfl
  | boolean b =>
    intro fuel room level rest _ hfuel
    obtain ⟨fuel, rfl⟩ := Nat.exists_eq_add_one_of_ne_zero (show fuel ≠ 0 by omega)
    cases b <;> rfl
  | number h =>
    intro fuel room level rest hrest hfuel
    obtain ⟨fuel, rfl⟩ := Nat.exists_eq_add_one_of_ne_zero (show fuel ≠ 0 by omega)
    obtain ⟨c, cs, htext, hc, hread⟩ := h rest hrest
    rw [write, htext, readValue_number hc, hread, limited]
  | string text =>
    intro fuel room level rest _ hfuel
    obtain ⟨fuel, rfl⟩ := Nat.exists_eq_add_one_of_ne_zero (show fuel ≠ 0 by omega)
    exact readValue_string fuel room text rest
  | array h ih => exact readBack_array h ih
  | object h ih => exact readBack_object h ih

end Reading

/-- A whole text is read to its end. -/
theorem read_text {j : Json} (hj : j.Readable) (s : Spacing) (room : Nat) :
    read room (j.text s) = (j.limited room, true) := by
  have hread : readValue (2 * (j.write s 0 []).length + 2) room (j.write s 0 [])
      = (j.limited room, some []) := hj.readBack room 0 (by rintro c ⟨⟩) (Nat.le_succ _)
  rw [read, text, String.toList_ofList, hread]
  rfl

end PortableTypes.Json
