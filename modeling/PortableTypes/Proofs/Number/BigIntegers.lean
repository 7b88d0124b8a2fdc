import Mathlib.Data.List.TakeWhile
import PortableTypes.Checker.Literal
import PortableTypes.Proofs.Text.Figures

/-!
# Whole numbers of any size

A whole number is spelled with a minus or none, one or more decimal figures and a mark or none, and
white space may stand at both ends. The spellings are exactly the texts that are read. What is read
is a canonical record of the number: two spellings are read as one record if they are of the same
number, and a canonical record is read back from its text.
-/
namespace PortableTypes

namespace Text

/-! ## White space at the ends -/

theorem exists_eq_trim (p : Char → Bool) (cs : List Char) :
    ∃ before after, cs = before ++ trim p cs ++ after ∧
      (∀ c ∈ before, p c = true) ∧ ∀ c ∈ after, p c = true := by
  refine ⟨cs.takeWhile p, ((cs.dropWhile p).reverse.takeWhile p).reverse, ?_, ?_, ?_⟩
  · rw [trim, List.append_assoc, ← List.reverse_append, List.takeWhile_append_dropWhile,
      List.reverse_reverse, List.takeWhile_append_dropWhile]
  · exact fun c hc => List.mem_takeWhile_imp hc
  · exact fun c hc => List.mem_takeWhile_imp (List.mem_reverse.mp hc)

theorem dropWhile_append_of_plain {p : Char → Bool} {content : List Char}
    (hcontent : ∀ c ∈ content, p c = false) (hne : content ≠ []) (rest : List Char) :
    (content ++ rest).dropWhile p = content ++ rest := by
  obtain ⟨c, cs, rfl⟩ := List.exists_cons_of_ne_nil hne
  rw [List.cons_append, List.dropWhile_cons_of_neg (by simp [hcontent c])]

theorem trim_eq {p : Char → Bool} {before content after : List Char}
    (hbefore : ∀ c ∈ before, p c = true) (hcontent : ∀ c ∈ content, p c = false)
    (hne : content ≠ []) (hafter : ∀ c ∈ after, p c = true) :
    trim p (before ++ content ++ after) = content := by
  have hreverse : ∀ c ∈ content.reverse, p c = false := by simpa using hcontent
  have hback := dropWhile_append_of_plain hreverse (by simpa using hne) []
  rw [List.append_nil] at hback
  rw [trim, List.append_assoc, List.dropWhile_append_of_pos hbefore,
    dropWhile_append_of_plain hcontent hne, List.reverse_append,
    List.dropWhile_append_of_pos (by simpa using hafter), hback, List.reverse_reverse]

theorem isBlank_of_isDigit {c : Char} (h : c.isDigit = true) : isBlank c = false := by
  have hrange : 48 ≤ c.toNat ∧ c.toNat ≤ 57 := Char.isDigit_iff_toNat.mp h
  simp only [isBlank, Bool.or_eq_false_iff, Bool.and_eq_false_iff, decide_eq_false_iff_not,
    beq_eq_false_iff_ne]
  omega

end Text

namespace BigInteger

open Text

/-- The whole number of a sign and a magnitude. -/
def signed (minus : Bool) (magnitude : Nat) : Int := if minus then -magnitude else magnitude

/-- A sign and a positive magnitude are known by the number. -/
theorem signed_inj {s t : Bool} {m n : Nat} (hm : 0 < m) (h : signed s m = signed t n) :
    s = t ∧ m = n := by
  cases s <;> cases t <;> simp [signed] at h ⊢ <;> omega

/-- The whole number of a record. -/
def value (b : BigInteger) : Int := signed b.negative (placeValue b.digits.toList)

/-- The digits do not start with a zero, or the record is that of zero: one digit and no minus. -/
def Canonical (b : BigInteger) : Prop :=
  (∃ f : Figures, b.digits = String.ofList f.chars ∧ f.chars.head? ≠ some '0') ∨ b = ⟨false, "0"⟩

/-- A whole number as it may be written: a minus or none, decimal figures, a mark or none, and white
space at both ends. -/
structure Spelling where
  before : List Char
  minus : Bool
  figures : Figures
  mark : Bool
  after : List Char
  blank_before : ∀ c ∈ before, isBlank c = true
  blank_after : ∀ c ∈ after, isBlank c = true

namespace Spelling

/-- What stands between the white space. -/
def inner (w : Spelling) : List Char :=
  (if w.minus then ['-'] else []) ++ (w.figures.chars ++ if w.mark then ['n'] else [])

def text (w : Spelling) : String := String.ofList (w.before ++ w.inner ++ w.after)

def value (w : Spelling) : Int := signed w.minus (placeValue w.figures.chars)

/-- The record of the whole number. -/
def record (w : Spelling) : BigInteger :=
  { negative := w.minus && stripZeros w.figures.chars != ['0']
    digits := String.ofList (stripZeros w.figures.chars) }

theorem inner_ne_nil (w : Spelling) : w.inner ≠ [] := by
  simp [inner, w.figures.ne_nil]

theorem isBlank_inner (w : Spelling) : ∀ c ∈ w.inner, isBlank c = false := by
  intro c hc
  simp only [inner, List.mem_append] at hc
  obtain hc | hc | hc := hc
  · obtain ⟨-, rfl⟩ : w.minus = true ∧ c = '-' := by simpa using hc
    decide
  · exact isBlank_of_isDigit (w.figures.isDigit c hc)
  · obtain ⟨-, rfl⟩ : w.mark = true ∧ c = 'n' := by simpa using hc
    decide

theorem trim_text (w : Spelling) : trim isBlank w.text.toList = w.inner := by
  rw [text, String.toList_ofList]
  exact trim_eq w.blank_before w.isBlank_inner w.inner_ne_nil w.blank_after

end Spelling

/-! ## Texts that are read -/

theorem exists_eq_signed (cs : List Char) :
    ∃ (minus : Bool) (rest : List Char), cs = (if minus then ['-'] else []) ++ rest ∧
      (minus = false → rest.head? ≠ some '-') := by
  by_cases h : cs.head? = some '-'
  · obtain ⟨rest, rfl⟩ := List.head?_eq_some_iff.mp h
    exact ⟨true, rest, rfl, by simp⟩
  · exact ⟨false, cs, rfl, fun _ => h⟩

theorem exists_eq_marked (cs : List Char) :
    ∃ mark : Bool, cs = stripMark cs ++ if mark then ['n'] else [] := by
  unfold stripMark
  split
  · rename_i hlast
    obtain ⟨start, rfl⟩ := List.getLast?_eq_some_iff.mp hlast
    exact ⟨true, by simp⟩
  · exact ⟨false, by simp⟩

theorem stripMark_figures (f : Figures) (mark : Bool) :
    stripMark (f.chars ++ if mark then ['n'] else []) = f.chars := by
  cases mark with
  | true => simp [stripMark]
  | false =>
    have hlast : f.chars.getLast? ≠ some 'n' := fun h =>
      absurd (f.isDigit 'n' (List.mem_of_getLast? h)) (by decide)
    simp [stripMark, hlast]

/-- Between the minus and the mark there have to be figures. -/
theorem parse?_of_trim {text : String} {minus : Bool} {rest : List Char}
    (htrim : trim isBlank text.toList = (if minus then ['-'] else []) ++ rest)
    (hrest : minus = false → rest.head? ≠ some '-') :
    parse? text =
      if (stripMark rest).isEmpty || !(stripMark rest).all Char.isDigit then none
      else some
        { negative := minus && stripZeros (stripMark rest) != ['0']
          digits := String.ofList (stripZeros (stripMark rest)) } := by
  unfold parse?
  rw [htrim]
  cases minus with
  | true => rfl
  | false =>
    obtain _ | ⟨c, cs⟩ := rest
    · rfl
    · have hc : c ≠ '-' := by simpa using hrest rfl
      simp [hc]

theorem parse?_text (w : Spelling) : parse? w.text = some w.record := by
  have hfigures := exists_figures_iff.mp ⟨w.figures, rfl⟩
  have hhead := w.figures.head?_append_ne (show '-'.isDigit = false by decide)
  rw [parse?_of_trim w.trim_text fun _ => hhead _, stripMark_figures, if_neg hfigures]
  rfl

/-- What is read is spelled. -/
theorem exists_spelling {text : String} {b : BigInteger} (h : parse? text = some b) :
    ∃ w : Spelling, w.text = text := by
  obtain ⟨before, after, htext, hbefore, hafter⟩ := exists_eq_trim isBlank text.toList
  obtain ⟨minus, rest, htrim, hrest⟩ := exists_eq_signed (trim isBlank text.toList)
  obtain ⟨mark, hmark⟩ := exists_eq_marked rest
  rw [parse?_of_trim htrim hrest] at h
  split at h
  · contradiction
  · rename_i hfigures
    obtain ⟨f, hf⟩ := exists_figures_iff.mpr hfigures
    refine ⟨⟨before, minus, f, mark, after, hbefore, hafter⟩, ?_⟩
    rw [Spelling.text, Spelling.inner, hf, ← hmark, ← htrim, ← htext, String.ofList_toList]

/-! ## Canonical records -/

/-- Without zeros in front there are figures of the same number left, or the number is zero. -/
theorem stripZeros_cases (f : Figures) :
    (∃ g : Figures, stripZeros f.chars = g.chars ∧ g.chars.head? ≠ some '0' ∧
      placeValue g.chars = placeValue f.chars) ∨
    (stripZeros f.chars = ['0'] ∧ placeValue f.chars = 0) := by
  have hvalue := placeValue_dropWhile_zero f.chars
  have hsubset : f.chars.dropWhile (· == '0') ⊆ f.chars := List.dropWhile_subset _
  have hhead := List.head?_dropWhile_not (· == '0') f.chars
  unfold stripZeros
  cases hdrop : f.chars.dropWhile (· == '0') with
  | nil =>
    rw [hdrop] at hvalue
    exact .inr ⟨rfl, hvalue.symm⟩
  | cons c cs =>
    rw [hdrop] at hvalue hsubset hhead
    refine .inl ⟨⟨c :: cs, List.cons_ne_nil c cs, fun d hd => f.isDigit d (hsubset hd)⟩, rfl, ?_,
      hvalue⟩
    simpa using hhead

theorem canonical_record (w : Spelling) : w.record.Canonical := by
  obtain ⟨g, hstrip, hhead, -⟩ | ⟨hstrip, -⟩ := stripZeros_cases w.figures
  · exact .inl ⟨g, congrArg String.ofList hstrip, hhead⟩
  · right
    simp [Spelling.record, hstrip]

theorem value_record (w : Spelling) : w.record.value = w.value := by
  obtain ⟨g, hstrip, hhead, hvalue⟩ | ⟨hstrip, hvalue⟩ := stripZeros_cases w.figures
  · have hne : (g.chars != ['0']) = true := by
      rw [bne_iff_ne]
      intro h
      simp [h] at hhead
    simp [Spelling.record, Spelling.value, value, hstrip, hne, hvalue]
  · have hzero : placeValue ['0'] = 0 := by decide
    simp [Spelling.record, Spelling.value, value, signed, hstrip, hvalue, hzero]

/-- Canonical records are known by their numbers. -/
theorem Canonical.eq_of_value_eq {a b : BigInteger} (ha : a.Canonical) (hb : b.Canonical)
    (h : a.value = b.value) : a = b := by
  -- no other canonical record is of zero, so that the two are both of this form or both of the other
  have hnonzero {c : BigInteger} {f : Figures} (hc : c.digits = String.ofList f.chars)
      (hf : f.chars.head? ≠ some '0') : c.value ≠ value ⟨false, "0"⟩ := by
    have hpos := f.placeValue_pos hf
    have hzero : value ⟨false, "0"⟩ = 0 := by decide
    rw [hzero, value, signed, hc, String.toList_ofList]
    split <;> omega
  obtain ⟨f, hfa, hf⟩ | rfl := ha
  · obtain ⟨g, hgb, hg⟩ | rfl := hb
    · obtain ⟨aminus, adigits⟩ := a
      obtain ⟨bminus, bdigits⟩ := b
      simp only at hfa hgb
      simp only [value, hfa, hgb, String.toList_ofList] at h
      obtain ⟨rfl, hplace⟩ := signed_inj (f.placeValue_pos hf) h
      rw [hfa, hgb, Figures.chars_eq_of_placeValue_eq hf hg hplace]
    · exact absurd h (hnonzero hfa hf)
  · obtain ⟨g, hgb, hg⟩ | rfl := hb
    · exact absurd h.symm (hnonzero hgb hg)
    · rfl

/-- A sign and figures as they are printed: with the mark, and without white space. -/
def printed (minus : Bool) (f : Figures) : Spelling where
  before := []
  minus := minus
  figures := f
  mark := true
  after := []
  blank_before := by simp
  blank_after := by simp

theorem exists_spelling_display {b : BigInteger} (h : b.Canonical) :
    ∃ w : Spelling, w.text = b.display ∧ w.value = b.value := by
  have hprinted {c : BigInteger} {f : Figures} (hc : c.digits = String.ofList f.chars) :
      (printed c.negative f).text = c.display ∧ (printed c.negative f).value = c.value := by
    constructor
    · apply String.toList_inj.mp
      cases hminus : c.negative <;>
        simp [printed, Spelling.text, Spelling.inner, display, hminus, hc]
    · rw [Spelling.value, value, hc, String.toList_ofList]
      rfl
  obtain ⟨f, hf, -⟩ | rfl := h
  · exact ⟨_, hprinted hf⟩
  · exact ⟨_, hprinted (f := ⟨['0'], by simp, by simp⟩) rfl⟩

/-- The texts that are read as whole numbers are their spellings. What is read from a spelling is a
canonical record of its number, so two spellings are read as the same record if they are of the same
number; and the records that are read back from what they are printed as are the canonical ones. -/
theorem spellings_read_canonically :
    (∀ text : String, (∃ b, parse? text = some b) ↔ ∃ w : Spelling, w.text = text) ∧
    (∀ w : Spelling, ∃ b, parse? w.text = some b ∧ b.Canonical ∧ b.value = w.value) ∧
    (∀ v w : Spelling, parse? v.text = parse? w.text ↔ v.value = w.value) ∧
    ∀ b : BigInteger, parse? b.display = some b ↔ b.Canonical := by
  refine ⟨fun text => ⟨?_, ?_⟩, fun w => ?_, fun v w => ⟨?_, ?_⟩, fun b => ⟨?_, ?_⟩⟩
  · rintro ⟨b, hb⟩
    exact exists_spelling hb
  · rintro ⟨w, rfl⟩
    exact ⟨w.record, parse?_text w⟩
  · exact ⟨w.record, parse?_text w, canonical_record w, value_record w⟩
  · intro h
    rw [parse?_text, parse?_text, Option.some.injEq] at h
    rw [← value_record, ← value_record, h]
  · intro h
    rw [← value_record, ← value_record] at h
    rw [parse?_text, parse?_text, (canonical_record v).eq_of_value_eq (canonical_record w) h]
  · intro h
    obtain ⟨w, hw⟩ := exists_spelling h
    rw [← hw, parse?_text, Option.some.injEq] at h
    exact h ▸ canonical_record w
  · intro h
    obtain ⟨w, hw, hvalue⟩ := exists_spelling_display h
    rw [← value_record] at hvalue
    rw [← hw, parse?_text, (canonical_record w).eq_of_value_eq h hvalue]

example : ["\u2003-0045n\n", "-0n", "12a", "- 1"].map parse? =
    [some ⟨true, "45"⟩, some ⟨false, "0"⟩, none, none] := by decide +kernel

end BigInteger
end PortableTypes
