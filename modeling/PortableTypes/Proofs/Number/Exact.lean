import PortableTypes.Number.Binary64

/-!
# Exact numbers

A ratio that is itself a double-precision number is not changed by rounding: the significand and
the scale of the number are found again. So every natural number below `2 ^ 53` is held exactly.
-/
namespace PortableTypes.Binary64

theorem two_pow_eq_unitsOfOne {k : Nat} (h : k = 1074) : 2 ^ k = unitsOfOne := by
  rw [h, unitsOfOne]

theorem exists_two_pow_eq_unitsOfOne : ∃ k, 2 ^ k = unitsOfOne := ⟨_, two_pow_eq_unitsOfOne rfl⟩

theorem unitsOfOne_pos : 0 < unitsOfOne := by
  obtain ⟨k, hk⟩ := exists_two_pow_eq_unitsOfOne
  rw [← hk]
  exact Nat.two_pow_pos k

/-- A significand and a scale as the fields of a finite number hold them: below the smallest scale
only significands with a leading one occur. -/
structure Fits (m s : Nat) : Prop where
  lt : m < 2 ^ 53
  normal : 2 ^ 52 ≤ m ∨ s = 0
  le : s ≤ 2045

theorem fits_of_isFinite {x : Binary64} (hx : x.isFinite = true) :
    Fits x.significand x.scale := by
  have he := x.exponent.isLt
  have hf := x.fraction.isLt
  simp only [isFinite, topExponent, bne_iff_ne] at hx
  constructor
  · unfold significand
    split <;> omega
  · unfold significand scale
    split
    · exact .inr (by omega)
    · exact .inl (by omega)
  · unfold scale
    omega

/-- The fields of a finite number, read as one whole number. -/
theorem ofMagnitude_significand {x : Binary64} (hx : x.isFinite = true) :
    ofMagnitude x.negative (x.scale * 2 ^ 52 + x.significand) = x := by
  obtain ⟨negative, ⟨e, he⟩, ⟨f, hf⟩⟩ := x
  simp only [isFinite, topExponent, bne_iff_ne] at hx
  have hbits : scale ⟨negative, ⟨e, he⟩, ⟨f, hf⟩⟩ * 2 ^ 52
      + significand ⟨negative, ⟨e, he⟩, ⟨f, hf⟩⟩ = e * 2 ^ 52 + f := by
    simp only [scale, significand]
    split
    · subst_vars
      simp
    · omega
  have hquot : (e * 2 ^ 52 + f) / 2 ^ 52 = e := by omega
  have hrem : (e * 2 ^ 52 + f) % 2 ^ 52 = f := by omega
  rw [hbits, ofMagnitude, if_pos (by rw [topExponent]; omega), hquot, hrem]
  congr
  · exact Fin.ext (Nat.mod_eq_of_lt he)
  · exact Fin.ext (Nat.mod_eq_of_lt hf)

section Fits

variable {m s : Nat} (h : Fits m s)
include h

theorem Fits.bits_lt : s * 2 ^ 52 + m < topExponent * 2 ^ 52 := by
  have hlt := h.lt
  have hle := h.le
  rw [topExponent]
  omega

theorem units_ofMagnitude (negative : Bool) :
    (ofMagnitude negative (s * 2 ^ 52 + m)).units = m * 2 ^ s := by
  have hlt := h.lt
  have hle := h.le
  rw [ofMagnitude, if_pos h.bits_lt]
  obtain hm | hm := Nat.lt_or_ge m (2 ^ 52)
  · obtain rfl : s = 0 := h.normal.resolve_left (by omega)
    have hquot : (0 * 2 ^ 52 + m) / 2 ^ 52 = 0 := by omega
    have hrem : (0 * 2 ^ 52 + m) % 2 ^ 52 = m := by omega
    rw [hquot, hrem]
    show (m % 2 ^ 52) * 2 ^ 0 = m * 2 ^ 0
    rw [Nat.mod_eq_of_lt hm]
  · have hquot : (s * 2 ^ 52 + m) / 2 ^ 52 = s + 1 := by omega
    have hrem : (s * 2 ^ 52 + m) % 2 ^ 52 = m - 2 ^ 52 := by omega
    have hexp : (s + 1) % 2048 = s + 1 := by omega
    have hsig : 2 ^ 52 + (m - 2 ^ 52) % 2 ^ 52 = m := by omega
    rw [hquot, hrem]
    simp only [units, significand, scale, Fin.ofNat, hexp, if_neg (Nat.succ_ne_zero s),
      Nat.add_sub_cancel, hsig]

/-- The scale is found again from the size of the magnitude. -/
theorem Fits.log2_eq : (m * 2 ^ s).log2 - 52 = s := by
  have hlt := h.lt
  obtain hm | rfl := h.normal
  · have hlog : (m * 2 ^ s).log2 = 52 + s := by
      have hne : m * 2 ^ s ≠ 0 :=
        Nat.mul_ne_zero (by omega) (Nat.ne_of_gt (Nat.two_pow_pos s))
      rw [Nat.log2_eq_iff hne]
      constructor
      · rw [Nat.pow_add]
        exact Nat.mul_le_mul_right _ hm
      · rw [show 52 + s + 1 = 53 + s by omega, Nat.pow_add]
        exact Nat.mul_lt_mul_of_pos_right hlt (Nat.two_pow_pos s)
    omega
  · have hlog : m.log2 < 53 := by
      obtain rfl | hm := Nat.eq_zero_or_pos m
      · decide
      · exact (Nat.log2_lt (by omega)).mpr hlt
    rw [Nat.pow_zero, Nat.mul_one]
    omega

end Fits

theorem roundHalfEven_mul {den : Nat} (hden : 0 < den) (q : Nat) :
    roundHalfEven (q * den) den = q := by
  have hdiv : q * den / den = q := Nat.mul_div_cancel q hden
  have hmod : q * den % den = 0 := Nat.mul_mod_left q den
  simp only [roundHalfEven, hdiv, hmod]
  rw [if_neg (by simp [Nat.ne_of_lt hden])]

/-- A ratio equal to `m * 2 ^ s` units is rounded to the number with that significand and scale. -/
theorem Fits.ofRatio_eq {m s : Nat} (h : Fits m s) (negative : Bool) {num den : Nat}
    (hden : 0 < den) (hratio : num * unitsOfOne = m * 2 ^ s * den) :
    ofRatio negative num den = ofMagnitude negative (s * 2 ^ 52 + m) := by
  have hquot : m * 2 ^ s * den / den = m * 2 ^ s := Nat.mul_div_cancel _ hden
  have hpos : 0 < den * 2 ^ s := Nat.mul_pos hden (Nat.two_pow_pos s)
  have hprod : m * 2 ^ s * den = m * (den * 2 ^ s) := by ac_rfl
  simp only [ofRatio, hratio, hquot, h.log2_eq]
  rw [hprod, roundHalfEven_mul hpos]

/-- A ratio that is a finite number already is not changed. -/
theorem ofRatio_units {x : Binary64} (hx : x.isFinite = true) {num den : Nat} (hden : 0 < den)
    (hratio : num * unitsOfOne = x.units * den) : ofRatio x.negative num den = x := by
  rw [(fits_of_isFinite hx).ofRatio_eq x.negative hden hratio, ofMagnitude_significand hx]

/-- The significand and the scale of a natural number below `2 ^ 53`. -/
theorem exists_fits {n : Nat} (hn : n < 2 ^ 53) :
    ∃ m s, Fits m s ∧ m * 2 ^ s = n * unitsOfOne := by
  obtain rfl | hpos := Nat.eq_zero_or_pos n
  · exact ⟨0, 0, ⟨by decide, .inr rfl, by decide⟩, by simp only [Nat.zero_mul]⟩
  · have hlog : n.log2 < 53 := (Nat.log2_lt (by omega)).mpr hn
    have hbounds := (Nat.log2_eq_iff (Nat.ne_of_gt hpos)).mp rfl
    refine ⟨n * 2 ^ (52 - n.log2), n.log2 + 1022, ⟨?_, .inl ?_, by omega⟩, ?_⟩
    · calc n * 2 ^ (52 - n.log2)
        _ < 2 ^ (n.log2 + 1) * 2 ^ (52 - n.log2) :=
          Nat.mul_lt_mul_of_pos_right hbounds.2 (Nat.two_pow_pos _)
        _ = 2 ^ 53 := by rw [← Nat.pow_add, show n.log2 + 1 + (52 - n.log2) = 53 by omega]
    · calc 2 ^ 52
        _ = 2 ^ n.log2 * 2 ^ (52 - n.log2) := by
          rw [← Nat.pow_add, show n.log2 + (52 - n.log2) = 52 by omega]
        _ ≤ n * 2 ^ (52 - n.log2) := Nat.mul_le_mul_right _ hbounds.1
    · rw [Nat.mul_assoc, ← Nat.pow_add, two_pow_eq_unitsOfOne (by omega)]

/-- Natural numbers below `2 ^ 53` are held exactly. -/
theorem units_ofNat {n : Nat} (hn : n < 2 ^ 53) : (ofNat n).units = n * unitsOfOne := by
  obtain ⟨m, s, hfits, hunits⟩ := exists_fits hn
  have hratio : n * unitsOfOne = m * 2 ^ s * 1 := by rw [hunits, Nat.mul_one]
  rw [ofNat, hfits.ofRatio_eq false Nat.one_pos hratio, units_ofMagnitude hfits, hunits]

@[simp] theorem negative_ofRatio (negative : Bool) (num den : Nat) :
    (ofRatio negative num den).negative = negative := by
  simp only [ofRatio, ofMagnitude]
  split <;> rfl

/-- A whole number written with one zero behind the point is read exactly: ten times the number
divided by ten. -/
theorem ofDecimal_tenth {x : Binary64} (hx : x.isFinite = true) {n : Nat}
    (hunits : x.units = n * unitsOfOne) (hn : n * 10 < 2 ^ 53) :
    ofDecimal x.negative (n * 10) (.negSucc 0) = some x := by
  have hten := units_ofNat (n := 10) (by decide)
  have hdiv : (ofNat (n * 10)).div (ofNat 10) = { x with negative := false } := by
    have hsign : ((ofNat (n * 10)).negative != (ofNat 10).negative) = false := by
      simp [ofNat]
    rw [div, hsign]
    refine ofRatio_units (x := { x with negative := false }) hx ?_ ?_
    · rw [hten]
      exact Nat.mul_pos (by decide : 0 < 10) unitsOfOne_pos
    · show _ = x.units * _
      have hprod : ∀ u : Nat, n * 10 * u * u = n * u * (10 * u) := fun u => by ac_rfl
      rw [units_ofNat hn, hten, hunits, hprod]
  have hpow : powTen 1 = ofNat 10 := rfl
  simp only [ofDecimal, Nat.zero_add, hpow, hdiv, maxPowTen]
  rw [if_pos (by decide)]
  obtain ⟨negative, exponent, fraction⟩ := x
  cases negative <;> rfl

end PortableTypes.Binary64
