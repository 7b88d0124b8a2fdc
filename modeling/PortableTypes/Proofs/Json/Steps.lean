import PortableTypes.Proofs.Json.Escapes

/-!
# Steps of the reader

What one step of the reader does with the brackets, commas, names and blanks of a text, given what
it reads behind them.
-/
namespace PortableTypes.Json

/-- Characters that only separate the parts of a text. -/
def Blank (cs : List Char) : Prop := ∀ c ∈ cs, isSpace c = true

theorem skipSpace_append {blanks : List Char} (h : Blank blanks) (cs : List Char) :
    skipSpace (blanks ++ cs) = skipSpace cs :=
  List.dropWhile_append_of_pos h

theorem skipSpace_cons {c : Char} (h : isSpace c = false) (cs : List Char) :
    skipSpace (c :: cs) = c :: cs := by
  rw [skipSpace, List.dropWhile_cons_of_neg (by simp [h])]

/-- A text that starts with a value: no blank and no closing bracket of an array. -/
def StartsValue (cs : List Char) : Prop :=
  ∃ c more, cs = c :: more ∧ isSpace c = false ∧ c ≠ ']'

/-- A character that is not the first one of a number. -/
theorem ne_of_number {c d : Char} (hc : c = '-' ∨ c.isDigit = true) (hminus : d ≠ '-')
    (hdigit : d.isDigit = false) : c ≠ d := by
  rintro rfl
  obtain h | h := hc
  · exact hminus h
  · rw [hdigit] at h
    cases h

theorem isSpace_of_number {c : Char} (hc : c = '-' ∨ c.isDigit = true) : isSpace c = false := by
  simp [isSpace, ne_of_number hc (d := ' '), ne_of_number hc (d := '\n'),
    ne_of_number hc (d := '\t'), ne_of_number hc (d := '\r')]

section

variable {fuel room : Nat} {blanks cs more : List Char} {rest : Option (List Char)}

theorem readValue_append (h : Blank blanks) (fuel room : Nat) (cs : List Char) :
    readValue fuel room (blanks ++ cs) = readValue fuel room cs := by
  cases fuel with
  | zero => rfl
  | succ fuel => simp only [readValue, skipSpace_append h]

theorem readValue_string (fuel room : Nat) (s : String) (cs : List Char) :
    readValue (fuel + 1) room (writeString s cs) = (.string s, some cs) := by
  rw [writeString, readValue, skipSpace_cons rfl]
  simp only [if_true, readString_written]

theorem readValue_number {c : Char} (hc : c = '-' ∨ c.isDigit = true) (fuel room : Nat)
    (cs : List Char) : readValue (fuel + 1) room (c :: cs) = readScalar c cs := by
  rw [readValue, skipSpace_cons (isSpace_of_number hc)]
  simp only [if_neg (ne_of_number hc (d := '"') (by decide) rfl),
    if_neg (ne_of_number hc (d := '[') (by decide) rfl),
    if_neg (ne_of_number hc (d := '\x7b') (by decide) rfl)]

theorem readValue_array {items : List Json}
    (h : readItems fuel (room - 1) true cs = (items, rest)) :
    readValue (fuel + 1) room ('[' :: cs)
      = (.array (if room = 0 then .fault .tooDeep :: items else items), rest) := by
  rw [readValue, skipSpace_cons rfl]
  simp only [h]
  rfl

theorem readValue_object {fields : List (String × Json)}
    (h : readFields fuel (room - 1) true cs = (fields, rest)) :
    readValue (fuel + 1) room ('\x7b' :: cs)
      = (.object (if room = 0 then nameless (.name .tooDeep) :: fields else fields), rest) := by
  rw [readValue, skipSpace_cons rfl]
  simp only [h]
  rfl

theorem readItems_close (h : Blank blanks) (fuel room : Nat) (first : Bool) (cs : List Char) :
    readItems (fuel + 1) room first (blanks ++ ']' :: cs) = ([], some cs) := by
  rw [readItems, skipSpace_append h, skipSpace_cons rfl]
  simp only [if_true]

section Items

variable {j : Json} {js : List Json} (hblanks : Blank blanks) (hstart : StartsValue cs)
  (hvalue : readValue fuel room cs = (j, some more))
  (hitems : readItems fuel room false more = (js, rest))
include hblanks hstart hvalue hitems

theorem readItems_first : readItems (fuel + 1) room true (blanks ++ cs) = (j :: js, rest) := by
  obtain ⟨c, cs, rfl, hspace, hclose⟩ := hstart
  rw [readItems, skipSpace_append hblanks, skipSpace_cons hspace]
  simp only [if_neg hclose, if_true, hvalue, hitems]

theorem readItems_next :
    readItems (fuel + 1) room false (',' :: (blanks ++ cs)) = (j :: js, rest) := by
  obtain ⟨c, cs, rfl, hspace, hclose⟩ := hstart
  rw [readItems, skipSpace_cons rfl]
  simp only [skipSpace_append hblanks, skipSpace_cons hspace, if_neg hclose, hvalue, hitems]
  rfl

end Items

theorem readFields_close (h : Blank blanks) (fuel room : Nat) (first : Bool) (cs : List Char) :
    readFields (fuel + 1) room first (blanks ++ '\x7d' :: cs) = ([], some cs) := by
  rw [readFields, skipSpace_append h, skipSpace_cons rfl]
  simp only [if_true]

section Fields

variable {j : Json} {fs : List (String × Json)} (hblanks : Blank blanks)
  (hvalue : readValue fuel room cs = (j, some more))
  (hfields : readFields fuel room false more = (fs, rest)) (name : String)
include hblanks hvalue hfields

theorem readFields_first :
    readFields (fuel + 1) room true (blanks ++ writeString name (':' :: cs))
      = ((name, j) :: fs, rest) := by
  rw [writeString, readFields, skipSpace_append hblanks, skipSpace_cons rfl]
  simp only [readString_written, skipSpace_cons (c := ':') rfl, if_true, hvalue, hfields]
  rfl

theorem readFields_next :
    readFields (fuel + 1) room false (',' :: (blanks ++ writeString name (':' :: cs)))
      = ((name, j) :: fs, rest) := by
  rw [writeString, readFields, skipSpace_cons rfl]
  simp only [skipSpace_append hblanks, skipSpace_cons (c := '"') rfl, readString_written,
    skipSpace_cons (c := ':') rfl, if_true, hvalue, hfields]
  rfl

end Fields

end

end PortableTypes.Json
