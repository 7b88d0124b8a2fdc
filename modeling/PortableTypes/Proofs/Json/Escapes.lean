import PortableTypes.Json.Printer
import PortableTypes.Json.Reader

/-!
# Strings survive their escapes

Whatever a string holds, the reader gets its characters back one by one: a character that is
written plainly, as a short escape or as a code point escape is pushed onto the scan all the same.
-/
namespace PortableTypes.Json

theorem codeUnit?_hexDigits : ∀ n < 32,
    codeUnit? '0' '0' (hexDigit (n / 16)) (hexDigit n) = some n := by
  decide

theorem Scan.pushUnit_control (s : Scan) {n : Nat} (h : n < 32) :
    s.pushUnit n = s.push (Char.ofNat n) := by
  have hlow : ¬ 0xDC00 ≤ n := by omega
  have hhigh : ¬ 0xD800 ≤ n := by omega
  simp [pushUnit, hlow, hhigh]

/-- A character that is not escaped. -/
theorem readString_plain (s : Scan) {c : Char} (hquote : c ≠ '"') (hslash : c ≠ '\\')
    (hcontrol : ¬ c.toNat < 0x20) (rest : List Char) :
    readString s (c :: rest) = readString (s.push c) rest := by
  rw [readString, if_neg hcontrol]
  · exact hquote
  all_goals simp [hslash]

/-- One written character is one character of the scan. -/
theorem readString_writeChar (s : Scan) (c : Char) (rest : List Char) :
    readString s (writeChar c rest) = readString (s.push c) rest := by
  unfold writeChar
  split
  · subst_vars; rfl
  split
  · subst_vars; rfl
  split
  · rename_i hcontrol
    have hc : Char.ofNat c.toNat = c := Char.ofNat_toNat c
    split
    · subst_vars; rfl
    split
    · subst_vars; rfl
    split
    · subst_vars; rfl
    split
    · rename_i h
      rw [← hc, h]
      rfl
    split
    · rename_i h
      rw [← hc, h]
      rfl
    · have hunit := codeUnit?_hexDigits c.toNat hcontrol
      rw [readString, hunit]
      simp only [s.pushUnit_control hcontrol, hc]
  · rename_i hquote hslash hcontrol
    exact readString_plain s hquote hslash hcontrol rest

theorem readString_writeChars (s : Scan) (cs rest : List Char) :
    readString s (cs.foldr writeChar ('"' :: rest)) = (cs.foldl Scan.push s).close rest := by
  induction cs generalizing s with
  | nil => rw [List.foldr_nil, readString, List.foldl_nil]
  | cons c cs ih => rw [List.foldr_cons, readString_writeChar, ih, List.foldl_cons]

/-- Characters pushed without escapes in between leave no half of a pair behind. -/
theorem Scan.foldl_push (cs acc : List Char) :
    cs.foldl push ⟨acc, none, false⟩ = ⟨cs.reverse ++ acc, none, false⟩ := by
  induction cs generalizing acc with
  | nil => rfl
  | cons c cs ih =>
    rw [List.foldl_cons, List.reverse_cons, List.append_assoc]
    exact ih (c :: acc)

/-- A written string is read back, up to its closing quote. -/
theorem readString_written (s : String) (rest : List Char) :
    readString {} (s.toList.foldr writeChar ('"' :: rest)) = .text s rest := by
  rw [readString_writeChars, Scan.foldl_push]
  simp [Scan.close]

end PortableTypes.Json
