import Mathlib.Order.Bounds.Basic
import PortableTypes.Proofs.Source.LineMap

/-!
# The lines of a text

A line is what stands up to the next line feed or carriage return, with the one or two characters
that end it; a carriage return and a line feed right behind it end one line. Lines are told apart
here without counting anything. A line map lists the byte offsets at which they begin, so that each
line cuts its text into what stands before the line, its content, its ending, and what follows.
-/
namespace PortableTypes

/-- What stands on a line, and the characters that end the line: none on the last one. -/
structure Line where
  content : List Char
  ending : List Char
  deriving DecidableEq, Repr

namespace Line

def text (l : Line) : List Char := l.content ++ l.ending

/-- The code units before some place in the content of a line. -/
def IsColumn (l : Line) (column : Nat) : Prop :=
  ∃ start, start <+: l.content ∧ Text.units start = column

/-- The line ends, and its ending takes in all it can of the text behind it. -/
def EndsBefore (l : Line) (after : List Char) : Prop :=
  l.ending = ['\n'] ∨ l.ending = ['\r', '\n'] ∨ (l.ending = ['\r'] ∧ after.head? ≠ some '\n')

/-- The offsets at which lines begin that stand one behind the other. -/
def offsets : (offset : Nat) → List Line → List Nat
  | _, [] => []
  | offset, l :: ls => offset :: offsets (offset + Text.bytes l.text) ls

/-- What fits of the content of a line reaches to the greatest column that fits. -/
theorem isGreatest_column (l : Line) (n : Nat) :
    IsGreatest {column | l.IsColumn column ∧ column ≤ n}
      (Text.units (Text.leading Text.unitsOf n l.content)) := by
  constructor
  · exact ⟨⟨_, Text.leading_isPrefix n l.content, rfl⟩, Text.total_leading_le n l.content⟩
  · rintro _ ⟨⟨start, hstart, rfl⟩, hle⟩
    exact Text.total_le_of_isPrefix (Text.prefix_leading hstart hle)

theorem EndsBefore.ending_ne_nil {l : Line} {after : List Char} (h : l.EndsBefore after) :
    l.ending ≠ [] := by
  obtain h | h | ⟨h, -⟩ := h <;> simp [h]

@[simp] theorem length_offsets (offset : Nat) (ls : List Line) :
    (offsets offset ls).length = ls.length := by
  induction ls generalizing offset with
  | nil => rfl
  | cons l ls ih => simp [offsets, ih]

/-- A line begins behind the texts of the lines before it. -/
theorem getElem?_offsets {ls : List Line} {i : Nat} (h : i < ls.length) (offset : Nat) :
    (offsets offset ls)[i]? = some (offset + Text.bytes ((ls.take i).flatMap text)) := by
  induction ls generalizing i offset with
  | nil => exact absurd h (Nat.not_lt_zero i)
  | cons l ls ih =>
    cases i with
    | zero => simp [offsets, Text.bytes]
    | succ i =>
      have hrest := ih (Nat.lt_of_succ_lt_succ h) (offset + Text.bytes l.text)
      simp [offsets, hrest, Nat.add_assoc]

end Line

namespace Text

def endsLine (c : Char) : Bool := c == '\n' || c == '\r'

/-- The lines of a text. There is a last line behind the last ending, if only an empty one. -/
def lines : List Char → List Line
  | [] => [⟨[], []⟩]
  | '\r' :: '\n' :: cs => ⟨[], ['\r', '\n']⟩ :: lines cs
  | '\r' :: cs => ⟨[], ['\r']⟩ :: lines cs
  | '\n' :: cs => ⟨[], ['\n']⟩ :: lines cs
  | c :: cs => (lines cs).modifyHead fun l => { l with content := c :: l.content }

example : lines ['a', '\r', '\n', '\r', 'b'] =
    [⟨['a'], ['\r', '\n']⟩, ⟨[], ['\r']⟩, ⟨['b'], []⟩] := by decide

theorem exists_lines_eq_cons (cs : List Char) : ∃ l ls, lines cs = l :: ls := by
  fun_induction lines cs with
  | case1 => exact ⟨_, _, rfl⟩
  | case2 cs => exact ⟨_, _, rfl⟩
  | case3 cs => exact ⟨_, _, rfl⟩
  | case4 cs => exact ⟨_, _, rfl⟩
  | case5 c cs _ _ _ ih =>
    obtain ⟨l, ls, hlines⟩ := ih
    exact ⟨_, ls, by rw [hlines, List.modifyHead_cons]⟩

/-- The lines of a text, one behind the other, are the text. -/
theorem flatMap_text_lines (cs : List Char) : (lines cs).flatMap Line.text = cs := by
  fun_induction lines cs with
  | case1 => rfl
  | case2 cs ih => simp [Line.text, ih]
  | case3 cs _ ih => simp [Line.text, ih]
  | case4 cs ih => simp [Line.text, ih]
  | case5 c cs _ _ _ ih =>
    obtain ⟨l, ls, hlines⟩ := exists_lines_eq_cons cs
    rw [hlines] at ih ⊢
    simpa [Line.text] using ih

theorem head?_ne_of_lone {cs : List Char} (h : ∀ rest, cs = '\n' :: rest → False) :
    cs.head? ≠ some '\n' := by
  intro hhead
  obtain ⟨rest, hrest⟩ := List.head?_eq_some_iff.mp hhead
  exact h rest hrest

/-- The offsets of a line map are those at which the lines begin. -/
theorem offsets_lines (offset : Nat) (cs : List Char) :
    Line.offsets offset (lines cs) = offset :: LineMap.startsAfter offset cs := by
  fun_induction lines cs generalizing offset with
  | case1 => rfl
  | case2 cs ih => simp [Line.offsets, LineMap.startsAfter, Line.text, bytes, ih, Nat.add_assoc]
  | case3 cs hnext ih =>
    simp [Line.offsets, LineMap.startsAfter, Line.text, bytes, ih, head?_ne_of_lone hnext]
  | case4 cs ih => simp [Line.offsets, LineMap.startsAfter, Line.text, bytes, ih]
  | case5 c cs _ hreturn hfeed ih =>
    obtain ⟨l, ls, hlines⟩ := exists_lines_eq_cons cs
    have hrest := ih (offset + c.utf8Size)
    have hsize : bytes (c :: (l.content ++ l.ending)) =
        c.utf8Size + bytes (l.content ++ l.ending) := rfl
    have hplain : c ≠ '\n' ∧ c ≠ '\r' := ⟨hfeed, hreturn⟩
    rw [hlines] at hrest ⊢
    simp only [Line.offsets, List.cons.injEq, true_and] at hrest
    simp [Line.offsets, LineMap.startsAfter, Line.text, hplain, ← hrest, hsize, Nat.add_assoc]

/-! ## Contents and endings -/

/-- Lines as they stand in a text: no content has a character that ends a line, and each line but
the last has an ending that is complete. -/
inductive Ruled : List Line → Prop
  | last {content : List Char} (plain : ∀ c ∈ content, endsLine c = false) : Ruled [⟨content, []⟩]
  | cons {l : Line} {ls : List Line} (plain : ∀ c ∈ l.content, endsLine c = false)
      (ending : l.EndsBefore (ls.flatMap Line.text)) (rest : Ruled ls) : Ruled (l :: ls)

theorem ruled_lines (cs : List Char) : Ruled (lines cs) := by
  fun_induction lines cs with
  | case1 => exact .last (by simp)
  | case2 cs ih => exact .cons (by simp) (.inr (.inl rfl)) ih
  | case3 cs hnext ih =>
    refine .cons (by simp) (.inr (.inr ⟨rfl, ?_⟩)) ih
    rw [flatMap_text_lines]
    exact head?_ne_of_lone hnext
  | case4 cs ih => exact .cons (by simp) (.inl rfl) ih
  | case5 c cs _ hreturn hfeed ih =>
    have hplain : c ≠ '\n' ∧ c ≠ '\r' := ⟨hfeed, hreturn⟩
    have hc : endsLine c = false := by simp [endsLine, hplain]
    generalize lines cs = ls at ih
    cases ih with
    | last plain => exact .last (by simpa [hc] using plain)
    | cons plain ending rest => exact .cons (by simpa [hc] using plain) ending rest

namespace Ruled

variable {ls : List Line}

theorem plain (h : Ruled ls) {l : Line} (hl : l ∈ ls) : ∀ c ∈ l.content, endsLine c = false := by
  induction h with
  | last plain =>
    obtain rfl := List.mem_singleton.mp hl
    exact plain
  | cons plain _ _ ih =>
    obtain rfl | hl := List.mem_cons.mp hl
    · exact plain
    · exact ih hl

/-- The last line has no ending, any other has one. -/
theorem ending (h : Ruled ls) {i : Nat} {l : Line} (hl : ls[i]? = some l) :
    (i + 1 = ls.length ∧ l.ending = []) ∨
    (i + 1 < ls.length ∧ l.EndsBefore ((ls.drop (i + 1)).flatMap Line.text)) := by
  induction h generalizing i with
  | last plain =>
    cases i with
    | zero =>
      cases hl
      exact .inl ⟨rfl, rfl⟩
    | succ i => simp at hl
  | @cons head ls plain ending rest ih =>
    cases i with
    | zero =>
      cases hl
      have hrest : 0 < ls.length := by cases rest <;> simp
      exact .inr ⟨by simpa using hrest, ending⟩
    | succ i => simpa using ih hl

/-- No line end is split where a line begins. -/
theorem not_split (h : Ruled ls) (i : Nat) :
    ¬ (((ls.take i).flatMap Line.text).getLast? = some '\r' ∧
      ((ls.drop i).flatMap Line.text).head? = some '\n') := by
  induction h generalizing i with
  | last plain => cases i <;> simp
  | @cons l ls plain ending rest ih =>
    cases i with
    | zero => simp
    | succ i =>
      rintro ⟨hlast, hhead⟩
      rw [List.take_succ_cons, List.flatMap_cons, List.getLast?_append] at hlast
      rw [List.drop_succ_cons] at hhead
      cases hbetween : ((ls.take i).flatMap Line.text).getLast? with
      | some c =>
        rw [hbetween, Option.some_or] at hlast
        exact ih i ⟨hbetween.trans hlast, hhead⟩
      | none =>
        -- nothing stands between the first line and line `i`
        have hnothing := List.getLast?_eq_none_iff.mp hbetween
        have hls : (ls.drop i).flatMap Line.text = ls.flatMap Line.text := by
          conv_rhs => rw [← List.take_append_drop i ls, List.flatMap_append, hnothing]
          simp
        rw [hls] at hhead
        rw [hbetween, Option.none_or, Line.text, List.getLast?_append] at hlast
        obtain hending | hending | ⟨hending, hnext⟩ := ending
        · simp [hending] at hlast
        · simp [hending] at hlast
        · exact hnext hhead

end Ruled

/-! ## A text cut at a line -/

/-- A line of a text, with what stands before it and what follows. -/
structure Cut (cs : List Char) (i : Nat) (before : List Char) (l : Line) (after : List Char) :
    Prop where
  line : (lines cs)[i]? = some l
  eq : cs = before ++ (l.content ++ (l.ending ++ after))
  plain : ∀ c ∈ l.content, endsLine c = false
  start : (Line.offsets 0 (lines cs))[i]? = some (bytes before)
  whole : ¬ SplitsLineEnd cs (bytes before)
  /-- Only the last line has no ending. -/
  ending : (l.ending = [] ∧ after = [] ∧ (Line.offsets 0 (lines cs))[i + 1]? = none) ∨
    (l.EndsBefore after ∧
      (Line.offsets 0 (lines cs))[i + 1]? = some (bytes before + bytes l.text))

theorem exists_cut {cs : List Char} {i : Nat} {l : Line} (h : (lines cs)[i]? = some l) :
    ∃ before after, Cut cs i before l after := by
  obtain ⟨hi, rfl⟩ := List.getElem?_eq_some_iff.mp h
  have hruled := ruled_lines cs
  have hdrop : (lines cs).drop i = (lines cs)[i] :: (lines cs).drop (i + 1) :=
    List.drop_eq_getElem_cons hi
  have hcs : cs =
      ((lines cs).take i).flatMap Line.text ++ ((lines cs).drop i).flatMap Line.text := by
    rw [← List.flatMap_append, List.take_append_drop, flatMap_text_lines]
  refine ⟨((lines cs).take i).flatMap Line.text, ((lines cs).drop (i + 1)).flatMap Line.text, ?_⟩
  constructor
  case line => exact h
  case eq =>
    rw [hdrop, List.flatMap_cons] at hcs
    simpa only [Line.text, List.append_assoc] using hcs
  case plain => exact hruled.plain (List.getElem_mem hi)
  case start => simpa using Line.getElem?_offsets hi 0
  case whole =>
    have hsplit := hruled.not_split i
    rwa [← splitsLineEnd_append_iff, ← hcs] at hsplit
  case ending =>
    obtain ⟨hlast, hending⟩ | ⟨hnext, hending⟩ := hruled.ending h
    · refine .inl ⟨hending, ?_, ?_⟩
      · simp [hlast]
      · simp [hlast]
    · refine .inr ⟨hending, ?_⟩
      rw [Line.getElem?_offsets hnext, ← List.take_append_getElem hi, List.flatMap_append,
        bytes_append, List.flatMap_singleton, Nat.zero_add]

/-- No place in the content of a line splits a line end. -/
theorem Cut.not_splitsLineEnd {cs : List Char} {i : Nat} {before after : List Char} {l : Line}
    (hcut : Cut cs i before l after) {w : List Char} (hw : w <+: l.content) :
    ¬ SplitsLineEnd cs (bytes (before ++ w)) := by
  obtain ⟨rest, hrest⟩ := hw
  obtain rfl | ⟨start, c, rfl⟩ := List.eq_nil_or_concat' w
  · rw [List.append_nil]
    exact hcut.whole
  · have hplain := hcut.plain c (by simp [← hrest])
    have hcs : cs = (before ++ (start ++ [c])) ++ (rest ++ (l.ending ++ after)) := by
      simp [hcut.eq, ← hrest]
    rw [hcs, splitsLineEnd_append_iff]
    rintro ⟨hlast, -⟩
    rw [← List.append_assoc, List.getLast?_concat, Option.some.injEq] at hlast
    simp [hlast, endsLine] at hplain

theorem Cut.splitsLineEnd {cs : List Char} {i : Nat} {before after : List Char} {l : Line}
    (hcut : Cut cs i before l after) (hending : l.ending = ['\r', '\n']) :
    SplitsLineEnd cs (bytes (before ++ (l.content ++ ['\r']))) := by
  have hcs : cs = (before ++ (l.content ++ ['\r'])) ++ ('\n' :: after) := by
    simp [hcut.eq, hending]
  rw [hcs, splitsLineEnd_append_iff]
  exact ⟨by simp, rfl⟩

end Text

/-! ## The line at an offset -/

namespace LineMap

open Text

theorem starts_ofText (text : String) :
    (ofText text).starts = Line.offsets 0 (lines text.toList) :=
  (offsets_lines 0 text.toList).symm

@[simp] theorem lineCount_ofText (text : String) :
    (ofText text).lineCount = (lines text.toList).length := by
  rw [lineCount, starts_ofText, Line.length_offsets]

/-- Of starts one behind the other, those up to an offset come first. -/
theorem lt_length_takeWhile_iff {starts : List Nat} (h : starts.Pairwise (· < ·)) (offset : Nat)
    {i start : Nat} (hi : starts[i]? = some start) :
    i < (starts.takeWhile (· ≤ offset)).length ↔ start ≤ offset := by
  induction h generalizing i with
  | nil => simp at hi
  | @cons first starts hfirst _ ih =>
    by_cases hle : first ≤ offset
    · rw [List.takeWhile_cons_of_pos (by simpa using hle), List.length_cons]
      cases i with
      | zero =>
        cases hi
        simp [hle]
      | succ i =>
        rw [Nat.succ_lt_succ_iff]
        exact ih hi
    · rw [List.takeWhile_cons_of_neg (by simpa using hle), List.length_nil]
      have hlater : first ≤ start := by
        cases i with
        | zero =>
          cases hi
          exact Nat.le_refl _
        | succ i => exact Nat.le_of_lt (hfirst start (List.mem_of_getElem? hi))
      omega

theorem length_reached_pos (text : String) (offset : Nat) :
    0 < ((ofText text).starts.takeWhile (· ≤ offset)).length :=
  (lt_length_takeWhile_iff (pairwise_starts text) offset List.getElem?_cons_zero).mpr
    (Nat.zero_le offset)

theorem length_reached_le (text : String) (offset : Nat) :
    ((ofText text).starts.takeWhile (· ≤ offset)).length ≤ (lines text.toList).length := by
  have hcount : (ofText text).starts.length = (lines text.toList).length := lineCount_ofText text
  rw [← hcount]
  exact (List.takeWhile_sublist _).length_le

/-- A line holds the offsets from its start to the start of the next line. -/
theorem lineAt_eq_iff {text : String} {i offset : Nat} {before after : List Char} {l : Line}
    (hcut : Cut text.toList i before l after) :
    (ofText text).lineAt offset = i ↔
      bytes before ≤ offset ∧ (l.ending ≠ [] → offset < bytes before + bytes l.text) := by
  have hsorted := pairwise_starts text
  have hpos := length_reached_pos text offset
  have hstart := hcut.start
  rw [← starts_ofText] at hstart
  have hthis := lt_length_takeWhile_iff hsorted offset hstart
  have hnext : i + 1 < ((ofText text).starts.takeWhile (· ≤ offset)).length ↔
      l.ending ≠ [] ∧ bytes before + bytes l.text ≤ offset := by
    obtain ⟨hending, -, hnone⟩ | ⟨hending, hsome⟩ := hcut.ending
    · rw [List.getElem?_eq_none_iff, Line.length_offsets] at hnone
      have hlength := length_reached_le text offset
      simp only [hending, ne_eq, not_true_eq_false, false_and, iff_false]
      omega
    · rw [← starts_ofText] at hsome
      simpa [hending.ending_ne_nil] using lt_length_takeWhile_iff hsorted offset hsome
  -- the starts up to the offset are counted, and the line is the last one counted
  rw [← hthis, lineAt]
  constructor
  · intro hline
    refine ⟨by omega, fun hending => ?_⟩
    by_contra hlater
    have hbeyond := hnext.mpr ⟨hending, by omega⟩
    omega
  · rintro ⟨hreached, hlater⟩
    have hbefore : ¬ i + 1 < ((ofText text).starts.takeWhile (· ≤ offset)).length := by
      intro hbeyond
      obtain ⟨hending, hle⟩ := hnext.mp hbeyond
      have hlt := hlater hending
      omega
    omega

/-- Every offset is on a line, those behind the text on the last one. -/
theorem exists_cut_lineAt (text : String) (offset : Nat) :
    ∃ before l after, Cut text.toList ((ofText text).lineAt offset) before l after := by
  have hpos := length_reached_pos text offset
  have hlength := length_reached_le text offset
  have hline : (ofText text).lineAt offset < (lines text.toList).length := by
    unfold lineAt
    omega
  obtain ⟨before, after, hcut⟩ := exists_cut (List.getElem?_eq_getElem hline)
  exact ⟨before, _, after, hcut⟩

end LineMap
end PortableTypes
