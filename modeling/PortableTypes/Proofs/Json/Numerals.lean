import PortableTypes.Json.Reader
import PortableTypes.Proofs.Number.Whole

/-!
# Numbers survive their texts

A number reads back if its text, followed by anything that does not continue a number, is read as
that number. Natural numbers below `2 ^ 64` do, and so do doubles that hold whole numbers up to a
tenth of `2 ^ 53`: they are read as a whole number of tenths, which is exact, and divided by ten.
-/
namespace PortableTypes

namespace Json

/-- Nothing at the start of a text continues a number. -/
def EndsNumber (cs : List Char) : Prop :=
  ∀ c ∈ cs.head?, c.isDigit = false ∧ c ≠ '.' ∧ c ≠ 'e' ∧ c ≠ 'E'

theorem takeWhile_isDigit {ds rest : List Char} (hds : ∀ d ∈ ds, d.isDigit = true)
    (hrest : ∀ c ∈ rest.head?, c.isDigit = false) :
    (ds ++ rest).takeWhile Char.isDigit = ds := by
  rw [List.takeWhile_append_of_pos hds]
  cases rest with
  | nil => simp
  | cons c rest => simp [hrest c rfl]

theorem dropWhile_isDigit {ds rest : List Char} (hds : ∀ d ∈ ds, d.isDigit = true)
    (hrest : ∀ c ∈ rest.head?, c.isDigit = false) :
    (ds ++ rest).dropWhile Char.isDigit = rest := by
  rw [List.dropWhile_append_of_pos hds]
  cases rest with
  | nil => rfl
  | cons c rest => simp [hrest c rfl]

theorem readWhole_toDigits (n : Nat) {rest : List Char}
    (hrest : ∀ c ∈ rest.head?, c.isDigit = false) :
    readWhole (Nat.toDigits 10 n ++ rest) = .ok (Nat.toDigits 10 n, rest) := by
  obtain rfl | hpos := Nat.eq_zero_or_pos n
  · have hnext : (rest.head?.map Char.isDigit).getD false = false := by
      cases rest with
      | nil => rfl
      | cons c rest => exact hrest c rfl
    show readWhole ('0' :: rest) = _
    simp only [readWhole, hnext]
    rfl
  · obtain ⟨c, cs, hdigits, hc⟩ := Text.exists_toDigits_eq_cons hpos
    have hall : ∀ d ∈ c :: cs, d.isDigit = true := fun d hd =>
      Text.isDigit_of_mem_toDigits (hdigits ▸ hd)
    obtain ⟨hfirst, hcs⟩ := List.forall_mem_cons.mp hall
    rw [hdigits, List.cons_append, readWhole, if_neg hc, if_pos hfirst,
      takeWhile_isDigit hcs hrest, dropWhile_isDigit hcs hrest]

theorem readFraction_none {cs : List Char} (h : ∀ c ∈ cs.head?, c ≠ '.') :
    readFraction cs = .ok (none, cs) := by
  cases cs with
  | nil => rfl
  | cons c cs =>
    have hc := h c rfl
    rw [readFraction]
    rintro _ ⟨rfl, -⟩
    exact hc rfl

theorem readExponent_none {cs : List Char} (h : ∀ c ∈ cs.head?, c ≠ 'e' ∧ c ≠ 'E') :
    readExponent cs = .ok (none, cs) := by
  cases cs with
  | nil => rfl
  | cons c cs =>
    obtain ⟨he, hE⟩ := h c rfl
    simp [readExponent, he, hE]

/-- A numeral is read part by part. -/
theorem readNumeral_eq {negative : Bool} {cs cs₁ cs₂ cs₃ whole : List Char}
    {fraction : Option (List Char)} {exponent : Option (Bool × List Char)}
    (hwhole : readWhole cs = .ok (whole, cs₁)) (hfraction : readFraction cs₁ = .ok (fraction, cs₂))
    (hexponent : readExponent cs₂ = .ok (exponent, cs₃)) :
    readNumeral negative cs = .ok (⟨negative, whole, fraction, exponent⟩, cs₃) := by
  simp only [readNumeral, hwhole, hfraction, hexponent, bind, Except.bind]
  rfl

end Json

namespace Numeral

theorem le_foldl_digits (ds : List Char) (a : Nat) :
    a ≤ ds.foldl (fun n c => 10 * n + Text.digitValue c) a := by
  induction ds generalizing a with
  | nil => exact Nat.le.refl
  | cons d ds ih =>
    have h := ih (10 * a + Text.digitValue d)
    rw [List.foldl_cons]
    omega

/-- Digits whose value fits into 64 bits are all read. -/
theorem absorb_eq {ds : List Char} {a : Nat}
    (h : ds.foldl (fun n c => 10 * n + Text.digitValue c) a < 2 ^ 64) :
    absorb a ds = (ds.foldl (fun n c => 10 * n + Text.digitValue c) a, []) := by
  induction ds generalizing a with
  | nil => rfl
  | cons d ds ih =>
    have hle := le_foldl_digits ds (10 * a + Text.digitValue d)
    rw [List.foldl_cons] at h ⊢
    have hnext : a * 10 + Text.digitValue d = 10 * a + Text.digitValue d := by omega
    simp only [absorb, hnext]
    rw [if_pos (by omega), ih h]

theorem absorb_toDigits {n : Nat} (hn : n < 2 ^ 64) :
    absorb 0 (Nat.toDigits 10 n) = (n, []) := by
  have hvalue := Text.digitsValue_toDigits n
  rw [Text.digitsValue] at hvalue
  rw [absorb_eq (by rw [hvalue]; exact hn), hvalue]

theorem value_natural {n : Nat} (hn : n < 2 ^ 64) :
    value ⟨false, Nat.toDigits 10 n, none, none⟩ = some (.natural n) := by
  simp only [value, absorb_toDigits hn]
  rfl

/-- A whole number with a zero behind the point has the value of the number. -/
theorem value_whole {x : Binary64} {n : Nat} (hx : x.whole? = some n) (hn : n * 10 < 2 ^ 53) :
    value ⟨x.negative, Nat.toDigits 10 n, some ['0'], none⟩ = some (.real x) := by
  obtain ⟨hfinite, hunits⟩ := Binary64.whole?_eq_some.mp hx
  have htenth : absorb n ['0'] = (n * 10, []) := by
    have hzero : n * 10 + Text.digitValue '0' = n * 10 := rfl
    simp only [absorb, hzero]
    rw [if_pos (by omega)]
  simp only [value, absorb_toDigits (show n < 2 ^ 64 by omega), htenth, scaled]
  have hpower : ((([] : List Char).length : Int)
      - ((['0'].length - ([] : List Char).length : Nat) : Int)) = .negSucc 0 := rfl
  rw [hpower, Binary64.ofDecimal_tenth hfinite hunits hn]
  rfl

end Numeral

namespace Json

section Number

variable {rest : List Char} (hrest : EndsNumber rest)
include hrest

theorem readNumber_natural {n : Nat} (hn : n < 2 ^ 64) :
    readNumber false (Nat.toDigits 10 n ++ rest) = (.number (.natural n), some rest) := by
  have hwhole := readWhole_toDigits n fun c hc => (hrest c hc).1
  have hfraction := readFraction_none fun c hc => (hrest c hc).2.1
  have hexponent := readExponent_none fun c hc => (hrest c hc).2.2
  simp only [readNumber, readNumeral_eq hwhole hfraction hexponent, Numeral.value_natural hn]

theorem readNumber_whole {x : Binary64} {n : Nat} (hx : x.whole? = some n)
    (hn : n * 10 < 2 ^ 53) :
    readNumber x.negative (Nat.toDigits 10 n ++ '.' :: '0' :: rest)
      = (.number (.real x), some rest) := by
  have hwhole : readWhole (Nat.toDigits 10 n ++ '.' :: '0' :: rest)
      = .ok (Nat.toDigits 10 n, '.' :: '0' :: rest) := readWhole_toDigits n (by
    rintro c ⟨⟩
    rfl)
  have hfraction : readFraction ('.' :: '0' :: rest) = .ok (some ['0'], rest) := by
    have hzero : ∀ d ∈ ['0'], d.isDigit = true := List.forall_mem_singleton.mpr rfl
    have htake := takeWhile_isDigit hzero fun c hc => (hrest c hc).1
    have hdrop := dropWhile_isDigit hzero fun c hc => (hrest c hc).1
    rw [List.singleton_append] at htake hdrop
    rw [readFraction, htake, hdrop]
    rfl
  have hexponent := readExponent_none fun c hc => (hrest c hc).2.2
  simp only [readNumber, readNumeral_eq hwhole hfraction hexponent, Numeral.value_whole hx hn]

end Number

theorem readScalar_digit {c : Char} (hc : c.isDigit = true) (cs : List Char) :
    readScalar c cs = readNumber false (c :: cs) := by
  have hne : ∀ d : Char, d.isDigit = false → c ≠ d := by
    rintro d hd rfl
    rw [hc] at hd
    cases hd
  rw [readScalar, if_neg (hne 'n' rfl), if_neg (hne 't' rfl), if_neg (hne 'f' rfl),
    if_neg (hne '-' rfl), if_pos hc]

end Json

namespace Number

/-- The text of a number, before anything that does not continue it, is read as the number. -/
def ReadsBack (n : Number) : Prop :=
  ∀ rest, Json.EndsNumber rest → ∃ c cs, n.text ++ rest = c :: cs
    ∧ (c = '-' ∨ c.isDigit = true) ∧ Json.readScalar c cs = (.number n, some rest)

/-- The digits of a number stand at the start of what is read of it. -/
theorem exists_toDigits_append (n : Nat) (rest : List Char) :
    ∃ c cs, Nat.toDigits 10 n ++ rest = c :: cs ∧ c.isDigit = true := by
  obtain ⟨c, cs, hdigits⟩ := List.exists_cons_of_ne_nil (Nat.toDigits_ne_nil (n := n) (b := 10))
  refine ⟨c, cs ++ rest, by rw [hdigits, List.cons_append], ?_⟩
  exact Text.isDigit_of_mem_toDigits (n := n) (by rw [hdigits]; exact List.mem_cons_self)

theorem natural_readsBack {n : Nat} (hn : n < 2 ^ 64) : ReadsBack (.natural n) := by
  intro rest hrest
  obtain ⟨c, cs, htext, hc⟩ := exists_toDigits_append n rest
  refine ⟨c, cs, htext, .inr hc, ?_⟩
  rw [Json.readScalar_digit hc, ← htext, Json.readNumber_natural hrest hn]

theorem real_readsBack {x : Binary64} {n : Nat} (hx : x.whole? = some n) (hn : n * 10 < 2 ^ 53) :
    ReadsBack (.real x) := by
  intro rest hrest
  have hread := Json.readNumber_whole hrest hx hn
  have hmagnitude : Layout.json.magnitude x ++ rest
      = Nat.toDigits 10 n ++ '.' :: '0' :: rest := by
    rw [Layout.json_magnitude hx (by omega), List.append_assoc]
    rfl
  cases hsign : x.negative with
  | true =>
    refine ⟨'-', Layout.json.magnitude x ++ rest, ?_, .inl rfl, ?_⟩
    · simp [text, Layout.text, hsign]
    · rw [hsign] at hread
      rw [hmagnitude]
      exact hread
  | false =>
    obtain ⟨c, cs, htext, hc⟩ := exists_toDigits_append n ('.' :: '0' :: rest)
    refine ⟨c, cs, ?_, .inr hc, ?_⟩
    · simp [text, Layout.text, hsign, hmagnitude, htext]
    · rw [hsign, htext] at hread
      rw [Json.readScalar_digit hc, hread]

end Number

end PortableTypes
