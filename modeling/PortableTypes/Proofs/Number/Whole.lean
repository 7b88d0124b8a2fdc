import PortableTypes.Number.Layout
import PortableTypes.Proofs.Number.Exact
import PortableTypes.Proofs.Text.Digits

/-!
# Texts of whole numbers

The rounding interval of a whole number below `2 ^ 53` lies strictly between the whole numbers next
to it. So the only decimals without a fraction in it are those of the number itself, and the text of
the number has exactly its digits.
-/
namespace PortableTypes

/-- The whole number that is the magnitude of a finite number, if there is one. -/
def Binary64.whole? (x : Binary64) : Option Nat :=
  if x.isFinite = true ∧ x.units % unitsOfOne = 0 then some (x.units / unitsOfOne) else none

theorem Binary64.whole?_eq_some {x : Binary64} {n : Nat} :
    x.whole? = some n ↔ x.isFinite = true ∧ x.units = n * unitsOfOne := by
  unfold whole?
  constructor
  · intro h
    split at h
    · rename_i hx
      cases h
      exact ⟨hx.1, (Nat.div_mul_cancel (Nat.dvd_of_mod_eq_zero hx.2)).symm⟩
    · cases h
  · rintro ⟨hx, hunits⟩
    rw [hunits, if_pos ⟨hx, Nat.mul_mod_left n unitsOfOne⟩, Nat.mul_div_cancel n unitsOfOne_pos]

theorem Binary64.isZero_iff_units {x : Binary64} : x.isZero = true ↔ x.units = 0 := by
  have hscale := Nat.two_pow_pos x.scale
  simp only [isZero, units, significand, Bool.and_eq_true, beq_iff_eq, Nat.mul_eq_zero]
  constructor
  · rintro ⟨he, hf⟩
    exact .inl (by rw [if_pos he, hf])
  · rintro (hm | hs)
    · split at hm
      · exact ⟨‹_›, hm⟩
      · omega
    · omega

namespace Decimal

/-- An interval strictly between the whole numbers next to its value `n`. -/
structure Interval.Around (i : Interval) (n : Nat) : Prop where
  value : i.value = n * i.den
  low_lt : i.low < i.value
  lt_low : i.value < i.low + i.den
  lt_high : i.value < i.high
  high_lt : i.high < i.value + i.den

namespace Interval.Around

variable {i : Interval} {n : Nat} (h : i.Around n)
include h

/-- Of the multiples of a power of ten the interval contains at most its value. -/
theorem contains_scaled (p m : Nat) :
    (i.scaled (.ofNat p)).contains m = true ↔ m * 10 ^ p = n := by
  obtain ⟨hvalue, hlow, hlow', hhigh, hhigh'⟩ := h
  have hprod : m * (i.den * 10 ^ p) = m * 10 ^ p * i.den := by ac_rfl
  simp only [scaled, contains, hprod]
  constructor
  · intro hc
    have hbounds : i.low ≤ m * 10 ^ p * i.den ∧ m * 10 ^ p * i.den ≤ i.high := by
      split at hc <;> simp only [Bool.and_eq_true, decide_eq_true_eq] at hc <;> omega
    have hle : m * 10 ^ p < n + 1 := by
      apply Nat.lt_of_mul_lt_mul_right (a := i.den)
      rw [Nat.add_one_mul]
      omega
    have hge : n < m * 10 ^ p + 1 := by
      apply Nat.lt_of_mul_lt_mul_right (a := i.den)
      rw [Nat.add_one_mul]
      omega
    omega
  · intro hm
    rw [hm, ← hvalue]
    split
    · simp only [Bool.and_eq_true, decide_eq_true_eq]
      omega
    · simp only [Bool.and_eq_true, decide_eq_true_eq]
      omega

/-- The multiple of a power of ten nearest to the value is the value, if that is one. -/
theorem nearest_scaled (tie : Tie) (p k : Nat) :
    (i.scaled (.ofNat p)).nearest tie = some k ↔ k * 10 ^ p = n := by
  have hden : 0 < i.den := by
    have hlow := h.low_lt
    have hlow' := h.lt_low
    omega
  have hpow : 0 < 10 ^ p := Nat.pow_pos (by decide)
  have hquot : (i.scaled (.ofNat p)).value / (i.scaled (.ofNat p)).den = n / 10 ^ p := by
    show i.value / (i.den * 10 ^ p) = n / 10 ^ p
    rw [h.value, Nat.mul_comm n, Nat.mul_div_mul_left _ _ hden]
  have hupper : (i.scaled (.ofNat p)).contains (n / 10 ^ p + 1) = false := by
    rw [Bool.eq_false_iff, Ne, h.contains_scaled, Nat.add_one_mul]
    have hmod := Nat.div_add_mod n (10 ^ p)
    have hlt := Nat.mod_lt n hpow
    rw [Nat.mul_comm] at hmod
    omega
  simp only [nearest, hquot, hupper]
  by_cases hlower : n / 10 ^ p * 10 ^ p = n
  · rw [(h.contains_scaled p _).mpr hlower, Option.some_inj]
    constructor
    · rintro rfl
      exact hlower
    · rintro rfl
      exact Nat.mul_div_cancel k hpow
  · rw [Bool.eq_false_iff.mpr (mt (h.contains_scaled p _).mp hlower)]
    constructor
    · intro hnone
      cases hnone
    · rintro rfl
      exact absurd (by rw [Nat.mul_div_cancel k hpow]) hlower

end Interval.Around

/-- A search among the numbers below `total` that finds something at `last` ends there or before. -/
theorem findSome?_range {α : Type} {f : Nat → Option α} {last total : Nat} {a : α}
    (hlast : f last = some a) (h : last < total) :
    ∃ j ≤ last, ∃ b, f j = some b ∧ (List.range total).findSome? f = some b := by
  have hsome : ((List.range (last + 1)).findSome? f).isSome = true := by
    rw [List.findSome?_isSome_iff]
    exact ⟨last, List.mem_range.mpr (Nat.lt_succ_self last), by rw [hlast, Option.isSome_some]⟩
  obtain ⟨b, hb⟩ := Option.isSome_iff_exists.mp hsome
  obtain ⟨j, hj, hjb⟩ := List.exists_of_findSome?_eq_some hb
  refine ⟨j, Nat.le_of_lt_succ (List.mem_range.mp hj), b, hjb, ?_⟩
  obtain ⟨more, rfl⟩ := Nat.exists_eq_add_of_lt h
  rw [Nat.add_right_comm, List.range_add, List.findSome?_append, hb]
  rfl

section Whole

variable {x : Binary64} {n : Nat} (hx : x.whole? = some n) (hn : n < 2 ^ 53)
include hx hn

/-- Below `2 ^ 53` the numbers lie at most one apart. -/
theorem two_pow_scale_le : 2 ^ x.scale ≤ Binary64.unitsOfOne := by
  obtain ⟨hfinite, hunits⟩ := Binary64.whole?_eq_some.mp hx
  obtain hnormal | hzero := (Binary64.fits_of_isFinite hfinite).normal
  · apply Nat.le_of_not_lt
    intro hlt
    -- a larger step is a larger power of two, so twice as large at least
    have hstep : 2 * Binary64.unitsOfOne ≤ 2 ^ x.scale := by
      obtain ⟨k, hk⟩ := Binary64.exists_two_pow_eq_unitsOfOne
      rw [← hk] at hlt ⊢
      rw [← Nat.pow_succ']
      exact Nat.pow_le_pow_right (by decide) ((Nat.pow_lt_pow_iff_right (by decide)).mp hlt)
    have hle : 2 ^ 53 * Binary64.unitsOfOne ≤ n * Binary64.unitsOfOne := by
      calc 2 ^ 53 * Binary64.unitsOfOne
        _ = 2 ^ 52 * (2 * Binary64.unitsOfOne) := by omega
        _ ≤ x.significand * 2 ^ x.scale := Nat.mul_le_mul hnormal hstep
        _ = n * Binary64.unitsOfOne := hunits
    exact Nat.not_lt_of_le (Nat.le_of_mul_le_mul_right hle Binary64.unitsOfOne_pos) hn
  · rw [hzero]
    exact Binary64.unitsOfOne_pos

theorem interval_around (hpos : 0 < n) : (Interval.of x).Around n := by
  obtain ⟨-, hunits⟩ := Binary64.whole?_eq_some.mp hx
  have hstep := two_pow_scale_le hx hn
  have hstep_pos := Nat.two_pow_pos x.scale
  simp only [Interval.of, hunits]
  generalize 2 ^ x.scale = step at hstep hstep_pos
  generalize Binary64.unitsOfOne = unit at hstep
  have hvalue : unit ≤ n * unit := Nat.le_mul_of_pos_left unit hpos
  have hbelow : ∀ b : Bool, 0 < (if b = true then step else 2 * step)
      ∧ (if b = true then step else 2 * step) ≤ 2 * unit := by
    intro b
    split <;> omega
  obtain ⟨hpos', hle⟩ := hbelow (decide (x.fraction.val = 0) && decide (1 < x.exponent.val))
  constructor
  · show 4 * (n * unit) = n * (4 * unit)
    ac_rfl
  all_goals
    dsimp only
    omega

theorem leadingPower_whole (hpos : 0 < n) :
    leadingPower (Interval.of x).value (Interval.of x).den
      = ((Nat.toDigits 10 n).length - 1 : Nat) := by
  have haround := interval_around hx hn hpos
  have hden : 0 < (Interval.of x).den := by
    have hlow := haround.low_lt
    have hlow' := haround.lt_low
    omega
  have hlen : 0 < (Nat.toDigits 10 n).length := Nat.length_toDigits_pos
  rw [leadingPower, haround.value, if_pos (Nat.le_mul_of_pos_left _ hpos),
    Nat.mul_div_cancel _ hden]
  omega

/-- The digits of a whole number are those of the number without some zeros at its end. -/
theorem shortest_whole (hpos : 0 < n) (tie : Tie) :
    ∃ k p : Nat, k * 10 ^ p = n ∧ shortest tie x = ofScaled k p := by
  have haround := interval_around hx hn hpos
  have hlen : (Nat.toDigits 10 n).length ≤ 17 :=
    (Nat.length_toDigits_le_iff (by decide) (by decide)).mpr (Nat.lt_trans hn (by decide))
  simp only [shortest, leadingPower_whole hx hn hpos]
  generalize hlead : (Nat.toDigits 10 n).length - 1 = lead
  -- counts of digits up to that of the number itself leave no fraction
  have hpower : ∀ j ≤ lead, (lead : Int) - j = .ofNat (lead - j) := fun j hj => by
    show (lead : Int) - j = ((lead - j : Nat) : Int)
    omega
  have hlast : (((Interval.of x).scaled ((lead : Int) - lead)).nearest tie).map
      (ofScaled · ((lead : Int) - lead)) = some (ofScaled n 0) := by
    have hone := (haround.nearest_scaled tie 0 n).mpr (Nat.mul_one n)
    rw [Int.sub_self, show (0 : Int) = .ofNat 0 from rfl, hone]
    rfl
  obtain ⟨j, hj, d, hd, hfind⟩ := findSome?_range
    (f := fun j => (((Interval.of x).scaled ((lead : Int) - j)).nearest tie).map
      (ofScaled · ((lead : Int) - j))) hlast (by omega : lead < 17)
  rw [hpower j hj] at hd
  obtain ⟨k, hk, rfl⟩ := Option.map_eq_some_iff.mp hd
  exact ⟨k, lead - j, (haround.nearest_scaled tie _ _).mp hk, by rw [hfind]; rfl⟩

end Whole

/-- The digits of a decimal without the zeros at its end. -/
theorem exists_digits_ofScaled (n : Nat) (power : Int) :
    ∃ z, Nat.toDigits 10 n = (ofScaled n power).digits ++ List.replicate z '0' := by
  let ds := (Nat.toDigits 10 n).reverse
  refine ⟨(ds.takeWhile (· == '0')).length, ?_⟩
  have hzeros : (ds.takeWhile (· == '0')).reverse
      = List.replicate (ds.takeWhile (· == '0')).length '0' := by
    rw [List.eq_replicate_iff, List.length_reverse]
    refine ⟨rfl, fun c hc => ?_⟩
    have hall := List.all_eq_true.mp List.all_takeWhile c (List.mem_reverse.mp hc)
    exact eq_of_beq hall
  show Nat.toDigits 10 n = (ds.dropWhile (· == '0')).reverse ++ _
  rw [← hzeros, ← List.reverse_append, List.takeWhile_append_dropWhile, List.reverse_reverse]

end Decimal

namespace Layout

/-- Multiplying by a power of ten appends zeros. -/
theorem toDigits_mul_pow {m : Nat} (hm : 0 < m) (p : Nat) :
    Nat.toDigits 10 (m * 10 ^ p) = Nat.toDigits 10 m ++ List.replicate p '0' := by
  induction p with
  | zero => simp
  | succ p ih =>
    have hpos : 0 < m * 10 ^ p := Nat.mul_pos hm (Nat.pow_pos (by decide))
    have hten : m * 10 ^ (p + 1) = 10 * (m * 10 ^ p) + 0 := by
      rw [Nat.pow_succ, ← Nat.mul_assoc, Nat.mul_comm, Nat.add_zero]
    rw [hten, ← Nat.toDigits_append_toDigits (by decide) hpos (by decide), ih,
      List.replicate_succ', List.append_assoc]
    rfl

/-- Digits that end in front of the point are filled up with zeros. -/
theorem placed_of_le (mark : List Char) {d : Decimal} {q : Nat} (hpoint : d.point = .ofNat q)
    (hpos : 0 < q) (hlen : d.digits.length ≤ q) :
    placed mark d = d.digits ++ List.replicate (q - d.digits.length) '0' ++ mark := by
  simp only [placed, hpoint]
  rw [if_neg (Nat.ne_of_gt hpos), if_pos hlen]

/-- The zeros that were taken off the end of a whole number are put back in front of its mark. -/
theorem placed_ofScaled {k : Nat} (hk : 0 < k) (p : Nat) (mark : List Char) :
    placed mark (Decimal.ofScaled k p) = Nat.toDigits 10 (k * 10 ^ p) ++ mark := by
  obtain ⟨z, hz⟩ := Decimal.exists_digits_ofScaled k p
  have hlen : (Nat.toDigits 10 k).length = (Decimal.ofScaled k p).digits.length + z := by
    rw [hz, List.length_append, List.length_replicate]
  have hpos : 0 < (Nat.toDigits 10 k).length := Nat.length_toDigits_pos
  have hpoint : (Decimal.ofScaled k p).point = .ofNat ((Nat.toDigits 10 k).length + p) := rfl
  have hfill : (Nat.toDigits 10 k).length + p - (Decimal.ofScaled k p).digits.length = z + p := by
    omega
  rw [placed_of_le mark hpoint (by omega) (by omega), hfill, toDigits_mul_pow hk, hz,
    ← List.replicate_append_replicate]
  simp only [List.append_assoc]

/-- A whole number is written with its digits, a point and a zero. -/
theorem json_magnitude {x : Binary64} {n : Nat} (hx : x.whole? = some n) (hn : n < 2 ^ 53) :
    json.magnitude x = Nat.toDigits 10 n ++ ['.', '0'] := by
  obtain ⟨-, hunits⟩ := Binary64.whole?_eq_some.mp hx
  obtain rfl | hpos := Nat.eq_zero_or_pos n
  · have hzero : x.isZero = true := Binary64.isZero_iff_units.mpr (by rw [hunits, Nat.zero_mul])
    rw [magnitude, if_pos hzero]
    rfl
  · have hzero : ¬ x.isZero = true := by
      rw [Binary64.isZero_iff_units, hunits]
      exact Nat.ne_of_gt (Nat.mul_pos hpos Binary64.unitsOfOne_pos)
    obtain ⟨k, p, rfl, hshortest⟩ := Decimal.shortest_whole hx hn hpos json.tie
    have hk : 0 < k := Nat.pos_of_mul_pos_right hpos
    have hpositional : json.positional ((Decimal.ofScaled k p).point - 1) = true := by
      have hlen : (Nat.toDigits 10 (k * 10 ^ p)).length ≤ 16 :=
        (Nat.length_toDigits_le_iff (by decide) (by decide)).mpr (Nat.lt_trans hn (by decide))
      rw [toDigits_mul_pow hk, List.length_append, List.length_replicate] at hlen
      simp only [json, Decimal.ofScaled, Bool.and_eq_true, decide_eq_true_eq]
      omega
    simp only [magnitude, if_neg hzero, hshortest, if_pos hpositional]
    exact placed_ofScaled hk p _

end Layout
end PortableTypes
