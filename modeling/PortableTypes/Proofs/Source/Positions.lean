import PortableTypes.Proofs.Source.Lines

/-!
# Offsets and positions of a text

An offset and the position it is carried to stand on the same line, behind the same characters of
it. So an offset comes back from its position, moved to the start of the character it falls into and
out of the line end it splits; and a position comes back from its offset, with the greatest column
of the line's content that does not lie behind its own.
-/
namespace PortableTypes

namespace Position

/-- Positions are ordered by line, then by column. -/
instance : LT Position where
  lt a b := a.line < b.line ∨ (a.line = b.line ∧ a.character < b.character)

theorem lt_of_le_of_ne {a b : Position} (hle : a ≤ b) (hne : a ≠ b) : a < b := by
  obtain ⟨line, character⟩ := a
  obtain hline | ⟨hline, hcharacter⟩ := hle
  · exact .inl hline
  · refine .inr ⟨hline, UInt32.lt_of_le_of_ne hcharacter fun h => ?_⟩
    subst hline h
    exact hne rfl

theorem toNat_line_le {a b : Position} (h : a ≤ b) : a.line.toNat ≤ b.line.toNat := by
  obtain hline | ⟨hline, -⟩ := h
  · exact Nat.le_of_lt (UInt32.lt_iff_toNat_lt.mp hline)
  · rw [hline]

end Position

namespace LineMap

open Text

/-! ## Columns -/

theorem columnBytes_eq (columns : Nat) (cs : List Char) :
    columnBytes columns cs = bytes (leading unitsOf columns (cs.takeWhile (!endsLine ·))) := by
  induction cs generalizing columns with
  | nil => rfl
  | cons c cs ih =>
    by_cases hends : c = '\n' ∨ c = '\r'
    · have hstop : endsLine c = true := by simpa [endsLine] using hends
      obtain rfl | rfl := hends <;> simp [columnBytes, hstop, leading, bytes]
    · have hplain : c ≠ '\n' ∧ c ≠ '\r' := not_or.mp hends
      have hgoes : endsLine c = false := by simpa [endsLine] using hplain
      by_cases hfits : unitsOf c ≤ columns
      · have hroom : ¬ columns < unitsOf c := by omega
        simp [columnBytes, hplain, hgoes, leading, hfits, hroom, ih, bytes]
      · have hroom : columns < unitsOf c := by omega
        simp [columnBytes, hplain, hgoes, leading, hfits, hroom, bytes]

section

variable {text : String} {i offset : Nat} {before after : List Char} {l : Line}

theorem takeWhile_line (hcut : Cut text.toList i before l after) :
    (l.content ++ (l.ending ++ after)).takeWhile (!endsLine ·) = l.content := by
  have hplain : ∀ c ∈ l.content, (!endsLine c) = true := by
    intro c hc
    rw [hcut.plain c hc]
    rfl
  have hstop : (l.ending ++ after).takeWhile (!endsLine ·) = [] := by
    obtain ⟨hending, hafter, -⟩ | ⟨hending | hending | ⟨hending, -⟩, -⟩ := hcut.ending
    · simp [hending, hafter]
    all_goals simp [hending, endsLine]
  rw [List.takeWhile_append_of_pos hplain, hstop, List.append_nil]

theorem dropBytes_line (hcut : Cut text.toList i before l after) :
    dropBytes (bytes before) (ofText text).text = l.content ++ (l.ending ++ after) := by
  have htext : (ofText text).text = before ++ (l.content ++ (l.ending ++ after)) := hcut.eq
  rw [htext, dropBytes_bytes_append]

/-- The offset of a position lies behind the characters of its line that fit before its column. -/
theorem offset?_eq (hcut : Cut text.toList i before l after) {p : Position}
    (hline : p.line.toNat = i) :
    (ofText text).offset? p =
      some (bytes before + bytes (leading unitsOf p.character.toNat l.content)) := by
  have hstart : (ofText text).lineStart? p.line.toNat = some (bytes before) := by
    rw [lineStart?, hline, starts_ofText]
    exact hcut.start
  rw [offset?, hstart, Option.map_some, dropBytes_line hcut, columnBytes_eq, takeWhile_line hcut]

theorem offset?_eq_none_iff {p : Position} :
    (ofText text).offset? p = none ↔ (ofText text).lineCount ≤ p.line.toNat := by
  simp [offset?, lineStart?, lineCount]

/-- A position with an offset is on a line of the text. -/
theorem exists_cut_of_offset? {p : Position} (h : (ofText text).offset? p = some offset) :
    ∃ before l after, Cut text.toList p.line.toNat before l after ∧
      offset = bytes before + bytes (leading unitsOf p.character.toNat l.content) := by
  have hline : p.line.toNat < (lines text.toList).length := by
    rw [← lineCount_ofText, ← Nat.not_le, ← offset?_eq_none_iff, h]
    simp
  obtain ⟨before, after, hcut⟩ := exists_cut (List.getElem?_eq_getElem hline)
  rw [offset?_eq hcut rfl, Option.some.injEq] at h
  exact ⟨before, _, after, hcut, h.symm⟩

/-! ## Characters before an offset -/

/-- The characters that stand before an offset on its line. -/
def lineBefore (m : LineMap) (offset : Nat) : List Char :=
  let start := m.starts.getD (m.lineAt offset) 0
  takeBytes (offset - start) (dropBytes start m.text)

theorem position_eq (m : LineMap) (offset : Nat) :
    m.position offset = ⟨.ofNat (m.lineAt offset), .ofNat (units (m.lineBefore offset))⟩ := rfl

theorem lineBefore_eq (hcut : Cut text.toList ((ofText text).lineAt offset) before l after) :
    (ofText text).lineBefore offset =
      takeBytes (offset - bytes before) (l.content ++ (l.ending ++ after)) := by
  have hstart : (ofText text).starts.getD ((ofText text).lineAt offset) 0 = bytes before := by
    rw [starts_ofText, List.getD_eq_getElem?_getD, hcut.start, Option.getD_some]
  rw [lineBefore, hstart, dropBytes_line hcut]

theorem charStart_eq_of_cut
    (hcut : Cut text.toList ((ofText text).lineAt offset) before l after) :
    charStart text.toList offset = bytes before + bytes ((ofText text).lineBefore offset) := by
  have hreached := ((lineAt_eq_iff hcut).mp rfl).1
  rw [charStart_eq, lineBefore_eq hcut, ← bytes_append, ← takeBytes_append hreached, ← hcut.eq]

/-- An offset stands within the content of its line, or right behind it; or it splits the end of the
line. -/
theorem lineBefore_cases (hcut : Cut text.toList ((ofText text).lineAt offset) before l after) :
    (ofText text).lineBefore offset <+: l.content ∨
    (l.ending = ['\r', '\n'] ∧ (ofText text).lineBefore offset = l.content ++ ['\r']) := by
  obtain ⟨hreached, hlater⟩ := (lineAt_eq_iff hcut).mp rfl
  have hsize := bytes_takeBytes_le (offset - bytes before) (l.content ++ (l.ending ++ after))
  have hrest := takeBytes_isPrefix (offset - bytes before) (l.content ++ (l.ending ++ after))
  rw [← lineBefore_eq hcut] at hsize hrest
  generalize (ofText text).lineBefore offset = w at hsize hrest
  obtain ⟨hending, hafter, -⟩ | ⟨hending, -⟩ := hcut.ending
  · left
    simpa [hending, hafter] using hrest
  · -- the line has an ending, and its last character does not fit before the offset
    have hproper : ¬ l.text <+: w := by
      intro hwhole
      have hle := bytes_le_of_isPrefix hwhole
      have hlt := hlater hending.ending_ne_nil
      omega
    have hline : l.text <+: l.content ++ (l.ending ++ after) := ⟨after, by simp [Line.text]⟩
    have hw : w <+: l.text := (List.prefix_or_prefix_of_prefix hrest hline).resolve_right hproper
    have hne : w ≠ l.text := by
      rintro rfl
      exact hproper List.prefix_rfl
    unfold Line.text at hw hne
    have hsingle {c : Char} (hc : l.ending = [c]) : w <+: l.content := by
      rw [hc, List.prefix_concat_iff] at hw
      rw [hc] at hne
      exact hw.resolve_left hne
    obtain hending | hending | ⟨hending, -⟩ := hending
    · exact .inl (hsingle hending)
    · have hsplit : l.content ++ l.ending = (l.content ++ ['\r']) ++ ['\n'] := by simp [hending]
      rw [hsplit, List.prefix_concat_iff] at hw
      rw [hsplit] at hne
      obtain hreturn | hcontent := List.prefix_concat_iff.mp (hw.resolve_left hne)
      · exact .inr ⟨hending, hreturn⟩
      · exact .inl hcontent
    · exact .inl (hsingle hending)

/-- Where an offset is moved to, the content of its line is cut in the same column. -/
theorem snap_eq (hcut : Cut text.toList ((ofText text).lineAt offset) before l after) :
    snap text.toList offset = bytes before +
      bytes (leading unitsOf (units ((ofText text).lineBefore offset)) l.content) := by
  have hstart := charStart_eq_of_cut hcut
  rw [← bytes_append] at hstart
  obtain hcontent | ⟨hending, hreturn⟩ := lineBefore_cases hcut
  · have hwhole := hcut.not_splitsLineEnd hcontent
    have hcolumn : leading unitsOf (units ((ofText text).lineBefore offset)) l.content =
        (ofText text).lineBefore offset := leading_total unitsOf_pos hcontent
    rw [← hstart] at hwhole
    rw [snap, if_neg hwhole, hcolumn, hstart, bytes_append]
  · have hsplit := hcut.splitsLineEnd hending
    have hall : leading unitsOf (units (l.content ++ ['\r'])) l.content = l.content :=
      leading_of_total_le (total_le_of_isPrefix (List.prefix_append _ _))
    have hsize : bytes (l.content ++ ['\r']) = bytes l.content + 1 := bytes_append _ _
    rw [← hreturn, ← hstart] at hsplit
    rw [snap, if_pos hsplit, hstart, hreturn, hall, bytes_append, hsize]
    omega

/-- A place in the content of a line is on that line. -/
theorem lineAt_content (hcut : Cut text.toList i before l after) {w : List Char}
    (hw : w <+: l.content) : (ofText text).lineAt (bytes before + bytes w) = i := by
  rw [lineAt_eq_iff hcut]
  refine ⟨Nat.le_add_right _ _, fun hending => ?_⟩
  have hcontent := bytes_le_of_isPrefix hw
  have hpos := bytes_pos hending
  rw [Line.text, bytes_append]
  omega

theorem position_content (hcut : Cut text.toList i before l after) {w : List Char}
    (hw : w <+: l.content) :
    (ofText text).position (bytes before + bytes w) = ⟨.ofNat i, .ofNat (units w)⟩ := by
  have hline := lineAt_content hcut hw
  have hrest : w <+: l.content ++ (l.ending ++ after) := hw.trans (List.prefix_append _ _)
  rw [position_eq, hline]
  rw [← hline] at hcut
  rw [lineBefore_eq hcut, Nat.add_sub_cancel_left, takeBytes_bytes hrest]

theorem offset?_content (hcut : Cut text.toList i before l after) {w : List Char}
    (hw : w <+: l.content) {p : Position} (hline : p.line.toNat = i)
    (hcolumn : p.character.toNat = units w) :
    (ofText text).offset? p = some (bytes before + bytes w) := by
  have hleading : leading unitsOf (units w) l.content = w := leading_total unitsOf_pos hw
  rw [offset?_eq hcut hline, hcolumn, hleading]

end

/-! ## There and back -/

theorem toNat_line_position (text : String) (offset : UInt32) :
    ((ofText text).position offset.toNat).line.toNat = (ofText text).lineAt offset.toNat := by
  have hline := lineAt_le text offset.toNat
  have hword := offset.toNat_lt
  rw [position_eq, UInt32.toNat_ofNat', Nat.mod_eq_of_lt (by omega)]

theorem toNat_character_position (text : String) (offset : UInt32) :
    ((ofText text).position offset.toNat).character.toNat =
      units ((ofText text).lineBefore offset.toNat) := by
  have hcolumn : units ((ofText text).lineBefore offset.toNat) ≤ offset.toNat :=
    Nat.le_trans (units_takeBytes_le _ _) (Nat.sub_le _ _)
  have hword := offset.toNat_lt
  rw [position_eq, UInt32.toNat_ofNat', Nat.mod_eq_of_lt (by omega)]

theorem offset?_position_eq_snap (text : String) (offset : UInt32) :
    (ofText text).offset? ((ofText text).position offset.toNat) =
      some (snap text.toList offset.toNat) := by
  obtain ⟨before, l, after, hcut⟩ := exists_cut_lineAt text offset.toNat
  rw [offset?_eq hcut (toNat_line_position text offset), toNat_character_position, snap_eq hcut]

/-- An offset comes back from its position, moved to the start of the character it falls into, or to
the end of the text if it lies behind it, and before the carriage return if it splits a line end. So
it comes back as it was if it splits neither. -/
theorem offset?_position (text : String) (offset : UInt32) :
    (ofText text).offset? ((ofText text).position offset.toNat) =
      some (snap text.toList offset.toNat) ∧
    ((ofText text).offset? ((ofText text).position offset.toNat) = some offset.toNat ↔
      IsBoundary text.toList offset.toNat ∧ ¬ SplitsLineEnd text.toList offset.toNat) := by
  have hback := offset?_position_eq_snap text offset
  refine ⟨hback, ?_⟩
  rw [hback, Option.some.injEq, snap_eq_self_iff]

/-- The offset of a position is on its line. -/
theorem lineAt_of_offset? {text : String} {p : Position} {offset : Nat}
    (h : (ofText text).offset? p = some offset) : (ofText text).lineAt offset = p.line.toNat := by
  obtain ⟨before, l, after, hcut, rfl⟩ := exists_cut_of_offset? h
  exact lineAt_content hcut (leading_isPrefix _ _)

/-- The offset of a position is not behind the end of the text. -/
theorem le_of_offset? {text : String} {p : Position} {offset : Nat}
    (h : (ofText text).offset? p = some offset) : offset ≤ bytes text.toList := by
  obtain ⟨before, l, after, hcut, rfl⟩ := exists_cut_of_offset? h
  have hw : leading unitsOf p.character.toNat l.content <+: l.content := leading_isPrefix _ _
  have hcontent := bytes_le_of_isPrefix hw
  rw [hcut.eq, bytes_append, bytes_append]
  omega

/-- A position has an offset if its line exists. The position of that offset is on the same line, in
the greatest column of the line's content that is no greater than the column asked for, and has the
same offset. -/
theorem position_offset? (text : String) (p : Position) :
    ((ofText text).offset? p = none ↔ (ofText text).lineCount ≤ p.line.toNat) ∧
    ∀ offset, (ofText text).offset? p = some offset →
      offset ≤ bytes text.toList ∧
      ∃ l character, (lines text.toList)[p.line.toNat]? = some l ∧
        (ofText text).position offset = ⟨p.line, character⟩ ∧
        IsGreatest {column | l.IsColumn column ∧ column ≤ p.character.toNat} character.toNat ∧
        (ofText text).offset? ⟨p.line, character⟩ = some offset := by
  refine ⟨offset?_eq_none_iff, fun offset hoffset => ⟨le_of_offset? hoffset, ?_⟩⟩
  obtain ⟨before, l, after, hcut, rfl⟩ := exists_cut_of_offset? hoffset
  have hw : leading unitsOf p.character.toNat l.content <+: l.content := leading_isPrefix _ _
  have hgreatest := l.isGreatest_column p.character.toNat
  generalize leading unitsOf p.character.toNat l.content = w at hw hgreatest
  have hword : (UInt32.ofNat (units w)).toNat = units w := by
    have hcolumn : units w ≤ p.character.toNat := hgreatest.1.2
    have hbound := p.character.toNat_lt
    rw [UInt32.toNat_ofNat', Nat.mod_eq_of_lt (by omega)]
  refine ⟨l, .ofNat (units w), hcut.line, ?_, ?_, ?_⟩
  · rw [position_content hcut hw, UInt32.ofNat_toNat]
  · rwa [hword]
  · exact offset?_content hcut hw rfl hword

/-- A column inside a character of two code units. -/
theorem position_offset?_within_character :
    (ofText "a😀\r\nb").offset? ⟨0, 2⟩ = some 1 ∧
    ∃ l character, (lines "a😀\r\nb".toList)[0]? = some l ∧
      (ofText "a😀\r\nb").position 1 = ⟨0, character⟩ ∧
      IsGreatest {column | l.IsColumn column ∧ column ≤ 2} character.toNat ∧
      (ofText "a😀\r\nb").offset? ⟨0, character⟩ = some 1 := by
  have hoffset : (ofText "a😀\r\nb").offset? ⟨0, 2⟩ = some 1 := by decide +kernel
  exact ⟨hoffset, ((position_offset? "a😀\r\nb" ⟨0, 2⟩).2 1 hoffset).2⟩

/-! ## Order -/

/-- Offsets in different characters have different positions. -/
theorem charStart_eq_of_position_eq {text : String} {a b : UInt32}
    (h : (ofText text).position a.toNat = (ofText text).position b.toNat) :
    charStart text.toList a.toNat = charStart text.toList b.toNat := by
  have hline : (ofText text).lineAt a.toNat = (ofText text).lineAt b.toNat := by
    rw [← toNat_line_position, ← toNat_line_position, h]
  have hunits : units ((ofText text).lineBefore a.toNat) =
      units ((ofText text).lineBefore b.toNat) := by
    rw [← toNat_character_position, ← toNat_character_position, h]
  obtain ⟨before, l, after, hcut⟩ := exists_cut_lineAt text a.toNat
  have hcut' := hcut
  rw [hline] at hcut'
  rw [charStart_eq_of_cut hcut, charStart_eq_of_cut hcut']
  rw [lineBefore_eq hcut, lineBefore_eq hcut'] at hunits ⊢
  rw [eq_of_total_eq unitsOf_pos (takeBytes_isPrefix _ _) (takeBytes_isPrefix _ _) hunits]

theorem eq_of_position_eq {text : String} {a b : UInt32} (ha : IsBoundary text.toList a.toNat)
    (hb : IsBoundary text.toList b.toNat)
    (h : (ofText text).position a.toNat = (ofText text).position b.toNat) : a = b := by
  have hsame := charStart_eq_of_position_eq h
  rw [charStart_eq_self_iff.mpr ha, charStart_eq_self_iff.mpr hb] at hsame
  exact UInt32.toNat_inj.mp hsame

theorem position_lt_of_lt {text : String} {a b : UInt32} (ha : IsBoundary text.toList a.toNat)
    (hb : IsBoundary text.toList b.toNat) (h : a < b) :
    (ofText text).position a.toNat < (ofText text).position b.toNat :=
  Position.lt_of_le_of_ne (position_mono text (UInt32.le_of_lt h)) fun heq =>
    UInt32.ne_of_lt h (eq_of_position_eq ha hb heq)

theorem exists_offset? {text : String} {p : Position}
    (h : p.line.toNat < (ofText text).lineCount) :
    ∃ offset, (ofText text).offset? p = some offset :=
  Option.ne_none_iff_exists'.mp fun hnone => Nat.not_le.mpr h (offset?_eq_none_iff.mp hnone)

theorem offset?_mono {text : String} {p q : Position} {a b : Nat} (h : p ≤ q)
    (ha : (ofText text).offset? p = some a) (hb : (ofText text).offset? q = some b) : a ≤ b := by
  obtain hlines | ⟨hline, hcharacter⟩ := h
  · by_contra hlater
    have hback := (ofText text).lineAt_mono (Nat.le_of_not_le hlater)
    rw [lineAt_of_offset? ha, lineAt_of_offset? hb] at hback
    exact Nat.not_lt.mpr hback (UInt32.lt_iff_toNat_lt.mp hlines)
  · obtain ⟨before, l, after, hcut, rfl⟩ := exists_cut_of_offset? ha
    rw [offset?_eq hcut (by rw [hline]), Option.some.injEq] at hb
    have hcolumns : p.character.toNat ≤ q.character.toNat := UInt32.le_iff_toNat_le.mp hcharacter
    have hle : bytes (leading unitsOf p.character.toNat l.content) ≤
        bytes (leading unitsOf q.character.toNat l.content) :=
      bytes_le_of_isPrefix (leading_prefix_leading hcolumns l.content)
    rw [← hb]
    omega

end LineMap
end PortableTypes
