import PortableTypes.Text.Basic

/-!
# Decimal digits

Writing a natural number with decimal digits and reading the digits gives the number back.
-/
namespace PortableTypes.Text

@[simp] theorem digitsValue_toDigits (n : Nat) : digitsValue (Nat.toDigits 10 n) = n :=
  Nat.ofDigitChars_ten_toDigits

theorem isDigit_of_mem_toDigits {n : Nat} {c : Char} (h : c ∈ Nat.toDigits 10 n) :
    c.isDigit = true :=
  Nat.isDigit_of_mem_toDigits (by decide) (by decide) h

@[simp] theorem all_isDigit_toDigits (n : Nat) : (Nat.toDigits 10 n).all Char.isDigit = true :=
  List.all_eq_true.mpr fun _ h => isDigit_of_mem_toDigits h

theorem not_mem_toDigits {n : Nat} {c : Char} (hc : c.isDigit = false) :
    c ∉ Nat.toDigits 10 n := by
  intro h
  have hd := isDigit_of_mem_toDigits h
  simp [hc] at hd

@[simp] theorem parseNat?_toDigits (n : Nat) : parseNat? (Nat.toDigits 10 n) = some n := by
  have hplus : '+' ∉ Nat.toDigits 10 n := not_mem_toDigits (by decide)
  unfold parseNat?
  split
  · rename_i digits h
    simp [h] at hplus
  · simp

/-- The digits of a positive number do not start with a zero. -/
theorem exists_toDigits_eq_cons {n : Nat} (hn : 0 < n) :
    ∃ c cs, Nat.toDigits 10 n = c :: cs ∧ c ≠ '0' := by
  induction n using Nat.strongRecOn with
  | ind n ih =>
    obtain hlt | hge := Nat.lt_or_ge n 10
    · refine ⟨n.digitChar, [], Nat.toDigits_of_lt_base hlt, ?_⟩
      simp
      omega
    · have hquot : 0 < n / 10 := Nat.div_pos hge (by decide)
      obtain ⟨c, cs, hdigits, hc⟩ := ih (n / 10) (Nat.div_lt_self hn (by decide)) hquot
      refine ⟨c, cs ++ [(n % 10).digitChar], ?_, hc⟩
      rw [Nat.toDigits_of_base_le (by decide) hge, hdigits, List.cons_append]

end PortableTypes.Text
