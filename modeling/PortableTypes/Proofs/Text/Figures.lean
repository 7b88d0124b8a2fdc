import Mathlib.Data.List.Induction
import Mathlib.Data.Nat.Digits.Defs
import PortableTypes.Proofs.Text.Digits

/-!
# Numbers in figures

Decimal figures stand for a number by place value. Zeros in front of them change nothing about it,
and a number has no two rows of figures that start with no zero. What is read as a natural number is
one or more figures after at most one plus sign, and nothing else.
-/
namespace PortableTypes.Text

/-- The number of decimal figures by place value, the units last. -/
def placeValue (cs : List Char) : Nat := Nat.ofDigits 10 (cs.reverse.map digitValue)

/-- One or more decimal figures. -/
structure Figures where
  chars : List Char
  ne_nil : chars ≠ []
  isDigit : ∀ c ∈ chars, c.isDigit = true

/-- Figures of a number, after a plus sign or none. -/
def Spells (cs : List Char) (n : Nat) : Prop :=
  ∃ f : Figures, (cs = f.chars ∨ cs = '+' :: f.chars) ∧ placeValue f.chars = n

/-! ## Single figures -/

theorem toNat_of_isDigit {c : Char} (h : c.isDigit = true) :
    digitValue c < 10 ∧ c.toNat = 48 + digitValue c := by
  have hrange : 48 ≤ c.toNat ∧ c.toNat ≤ 57 := Char.isDigit_iff_toNat.mp h
  have hvalue : digitValue c = c.toNat - 48 := rfl
  omega

theorem digitChar_digitValue {c : Char} (h : c.isDigit = true) :
    (digitValue c).digitChar = c := by
  obtain ⟨hlt, hc⟩ := toNat_of_isDigit h
  rw [← Char.toNat_inj, Nat.toNat_digitChar_of_lt_ten hlt, hc]

/-! ## Place value -/

/-- Reading figures from the left adds up their place values. -/
theorem digitsValue_eq_placeValue (cs : List Char) : digitsValue cs = placeValue cs := by
  induction cs using List.reverseRecOn with
  | nil => rfl
  | append_singleton cs c ih =>
    have hstep : digitsValue (cs ++ [c]) = 10 * digitsValue cs + digitValue c := by
      simp [digitsValue]
    have hplace : placeValue (cs ++ [c]) = digitValue c + 10 * placeValue cs := by
      simp [placeValue, Nat.ofDigits_cons]
    rw [hstep, hplace, ih, Nat.add_comm]

/-- Zeros in front do not count. -/
theorem placeValue_dropWhile_zero (cs : List Char) :
    placeValue (cs.dropWhile (· == '0')) = placeValue cs := by
  simp only [← digitsValue_eq_placeValue]
  induction cs with
  | nil => rfl
  | cons c cs ih =>
    by_cases hc : c = '0'
    · subst hc
      exact ih
    · rw [List.dropWhile_cons_of_neg (by simpa using hc)]

namespace Figures

variable {f g : Figures}

theorem map_digitChar_digitValue (f : Figures) :
    (f.chars.map digitValue).map Nat.digitChar = f.chars := by
  have hback : ∀ c ∈ f.chars, (Nat.digitChar ∘ digitValue) c = id c := fun c hc =>
    digitChar_digitValue (f.isDigit c hc)
  rw [List.map_map, List.map_congr_left hback, List.map_id]

/-- Without zeros in front the figures are the digits of their number. -/
theorem digits_placeValue (h : f.chars.head? ≠ some '0') :
    Nat.digits 10 (placeValue f.chars) = f.chars.reverse.map digitValue := by
  apply Nat.digits_ofDigits 10 (by decide)
  · intro n hn
    obtain ⟨c, hc, rfl⟩ := List.mem_map.mp hn
    exact (toNat_of_isDigit (f.isDigit c (List.mem_reverse.mp hc))).1
  · -- the first figure is the last of the digits, which counts most
    intro hne hzero
    have hhead := f.isDigit _ (List.head_mem f.ne_nil)
    rw [List.getLast_map, List.getLast_reverse] at hzero
    have hchar := digitChar_digitValue hhead
    rw [hzero] at hchar
    rw [List.head?_eq_some_head f.ne_nil, ← hchar] at h
    exact h rfl

theorem placeValue_pos (h : f.chars.head? ≠ some '0') : 0 < placeValue f.chars := by
  refine Nat.pos_of_ne_zero fun hzero => f.ne_nil ?_
  have hdigits := digits_placeValue h
  rw [hzero, Nat.digits_zero] at hdigits
  simpa using hdigits.symm

/-- Figures without zeros in front are known by their number. -/
theorem chars_eq_of_placeValue_eq (hf : f.chars.head? ≠ some '0') (hg : g.chars.head? ≠ some '0')
    (h : placeValue f.chars = placeValue g.chars) : f.chars = g.chars := by
  have hdigits : f.chars.reverse.map digitValue = g.chars.reverse.map digitValue := by
    rw [← digits_placeValue hf, ← digits_placeValue hg, h]
  rw [List.map_reverse, List.map_reverse, List.reverse_inj] at hdigits
  rw [← f.map_digitChar_digitValue, ← g.map_digitChar_digitValue, hdigits]

theorem head?_append_ne {c : Char} (hc : c.isDigit = false) (rest : List Char) :
    (f.chars ++ rest).head? ≠ some c := by
  have hdigit := f.isDigit _ (List.head_mem f.ne_nil)
  rw [List.head?_append, List.head?_eq_some_head f.ne_nil, Option.some_or]
  intro h
  rw [Option.some.inj h, hc] at hdigit
  contradiction

end Figures

/-! ## Reading -/

theorem exists_figures_iff {cs : List Char} :
    (∃ f : Figures, f.chars = cs) ↔ ¬ (cs.isEmpty || !cs.all Char.isDigit) = true := by
  constructor
  · rintro ⟨f, rfl⟩
    simpa using ⟨f.ne_nil, f.isDigit⟩
  · intro h
    simp only [Bool.or_eq_true, List.isEmpty_iff, Bool.not_eq_true', not_or, Bool.not_eq_false,
      List.all_eq_true] at h
    exact ⟨⟨cs, h.1, h.2⟩, rfl⟩

/-- A natural number is read exactly if it is spelled. -/
theorem parseNat?_eq_some_iff {cs : List Char} {n : Nat} :
    parseNat? cs = some n ↔ Spells cs n := by
  have hread (ds : List Char) :
      (if ds.isEmpty || !ds.all Char.isDigit then none else some (digitsValue ds)) = some n ↔
        ∃ f : Figures, f.chars = ds ∧ placeValue ds = n := by
    rw [exists_and_right, exists_figures_iff, ← digitsValue_eq_placeValue]
    split <;> simp_all
  constructor
  · intro h
    unfold parseNat? at h
    split at h
    · obtain ⟨f, rfl, hn⟩ := (hread _).mp h
      exact ⟨f, .inr rfl, hn⟩
    · obtain ⟨f, rfl, hn⟩ := (hread _).mp h
      exact ⟨f, .inl rfl, hn⟩
  · rintro ⟨f, rfl | rfl, hn⟩
    · unfold parseNat?
      split
      · rename_i rest hplus
        have hhead := f.head?_append_ne (show '+'.isDigit = false by decide) []
        simp [hplus] at hhead
      · exact (hread _).mpr ⟨f, rfl, hn⟩
    · exact (hread _).mpr ⟨f, rfl, hn⟩

end PortableTypes.Text
