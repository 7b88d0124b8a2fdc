import PortableTypes.Proofs.Source.Positions

/-!
# Where lines start

The starts of lines can be told from the bytes of a text alone, with a look at one byte ahead: no
byte of a longer character is a line feed or a carriage return. They split no character, and a text
that is cut at them falls into its lines.
-/
namespace PortableTypes

namespace Text

/-! ## Bytes -/

/-- The bytes of a text, character by character. -/
def encoded (cs : List Char) : List UInt8 := cs.flatMap String.utf8EncodeChar

/-- The offsets just behind the bytes that end a line, in bytes that begin at `offset`. -/
def startsInBytes : (offset : Nat) → List UInt8 → List Nat
  | _, [] => []
  | offset, b :: bs =>
    if b = 10 || (b = 13 && bs.head? != some 10) then
      (offset + 1) :: startsInBytes (offset + 1) bs
    else startsInBytes (offset + 1) bs

theorem encoded_toList (text : String) : encoded text.toList = text.toByteArray.data.toList := by
  rw [← String.utf8Encode_toList, List.utf8Encode, List.data_toByteArray]
  rfl

theorem length_encoded (cs : List Char) : (encoded cs).length = bytes cs := by
  induction cs with
  | nil => rfl
  | cons c cs ih =>
    have hbytes : bytes (c :: cs) = c.utf8Size + bytes cs := rfl
    rw [encoded, List.flatMap_cons, List.length_append, String.length_utf8EncodeChar, hbytes, ← ih]
    rfl

theorem utf8ByteSize_eq_bytes (text : String) : text.utf8ByteSize = bytes text.toList := by
  rw [← length_encoded, encoded_toList, Array.length_toList, ← String.size_toByteArray]
  rfl

/-- A boundary between characters is a valid position in the bytes of the text. -/
theorem IsBoundary.isValid {text : String} {n : Nat} (h : IsBoundary text.toList n) :
    String.Pos.Raw.IsValid text ⟨n⟩ := by
  obtain ⟨before, ⟨after, htext⟩, rfl⟩ := h
  have hsize := utf8ByteSize_eq_bytes (String.ofList before)
  rw [String.toList_ofList] at hsize
  refine String.Pos.Raw.isValid_iff_exists_append.mpr
    ⟨String.ofList before, String.ofList after, ?_, ?_⟩
  · rw [← String.ofList_append, htext, String.ofList_toList]
  · rw [← hsize]
    rfl

/-- A byte below 128 is a character of its own. -/
theorem toNat_eq_of_mem_utf8EncodeChar {c : Char} {b : UInt8}
    (hb : b ∈ String.utf8EncodeChar c) (hsmall : b.toNat < 128) : c.toNat = b.toNat := by
  have hvalue {n : Nat} (hn : n < 256) (hb : b = UInt8.ofNat n) : b.toNat = n := by
    rw [hb, UInt8.toNat_ofNat_of_lt' hn]
  simp only [String.utf8EncodeChar] at hb
  change c.val.toNat = b.toNat
  generalize c.val.toNat = v at hb
  split at hb
  · exact (hvalue (by omega) (List.mem_singleton.mp hb)).symm
  · -- every byte of a longer character has its highest bit set
    obtain ⟨n, hlow, hlt, hb⟩ : ∃ n, 128 ≤ n ∧ n < 256 ∧ b = UInt8.ofNat n := by
      split at hb
      on_goal 2 => split at hb
      all_goals simp only [List.mem_cons, List.not_mem_nil, or_false] at hb
      · obtain hb | hb := hb <;> exact ⟨_, by omega, by omega, hb⟩
      · obtain hb | hb | hb := hb <;> exact ⟨_, by omega, by omega, hb⟩
      · obtain hb | hb | hb | hb := hb <;> exact ⟨_, by omega, by omega, hb⟩
    rw [hvalue hlt hb] at hsmall
    omega

theorem eq_of_mem_utf8EncodeChar {c d : Char} (hd : d.toNat < 128)
    (h : UInt8.ofNat d.toNat ∈ String.utf8EncodeChar c) : c = d := by
  have hvalue : (UInt8.ofNat d.toNat).toNat = d.toNat :=
    UInt8.toNat_ofNat_of_lt' (show d.toNat < 256 by omega)
  rw [← Char.toNat_inj, toNat_eq_of_mem_utf8EncodeChar h (by omega), hvalue]

theorem startsInBytes_append {bs : List UInt8} (hplain : ∀ b ∈ bs, b ≠ 10 ∧ b ≠ 13) (offset : Nat)
    (rest : List UInt8) :
    startsInBytes offset (bs ++ rest) = startsInBytes (offset + bs.length) rest := by
  induction bs generalizing offset with
  | nil => rfl
  | cons b bs ih =>
    have hb := hplain b List.mem_cons_self
    have hrest := ih (fun b' hb' => hplain b' (List.mem_cons_of_mem b hb')) (offset + 1)
    rw [List.cons_append, startsInBytes, if_neg (by simp [hb]), hrest, List.length_cons]
    congr 1
    omega

theorem head?_encoded_eq_feed_iff (cs : List Char) :
    (encoded cs).head? = some 10 ↔ cs.head? = some '\n' := by
  constructor
  · intro h
    obtain _ | ⟨c, cs⟩ := cs
    · simp [encoded] at h
    · rw [encoded, List.flatMap_cons, List.head?_append,
        List.head?_eq_some_head String.utf8EncodeChar_ne_nil, Option.some_or] at h
      have hmem := List.head_mem (String.utf8EncodeChar_ne_nil (c := c))
      rw [Option.some.inj h] at hmem
      rw [List.head?_cons, eq_of_mem_utf8EncodeChar (d := '\n') (by decide) hmem]
  · intro h
    obtain ⟨rest, rfl⟩ := List.head?_eq_some_iff.mp h
    rfl

/-- A scan of the bytes finds the starts of the lines. -/
theorem startsInBytes_encoded (offset : Nat) (cs : List Char) :
    startsInBytes offset (encoded cs) = LineMap.startsAfter offset cs := by
  induction cs generalizing offset with
  | nil => rfl
  | cons c cs ih =>
    have hnext : ((encoded cs).head? != some 10) = (cs.head? != some '\n') := by
      rw [Bool.eq_iff_iff, bne_iff_ne, bne_iff_ne, ne_eq, head?_encoded_eq_feed_iff]
    by_cases hfeed : c = '\n'
    · subst hfeed
      have hbytes : encoded ('\n' :: cs) = 10 :: encoded cs := rfl
      have hsize : '\n'.utf8Size = 1 := rfl
      simp [hbytes, startsInBytes, LineMap.startsAfter, hsize, ih]
    by_cases hreturn : c = '\r'
    · subst hreturn
      have hbytes : encoded ('\r' :: cs) = 13 :: encoded cs := rfl
      have hsize : '\r'.utf8Size = 1 := rfl
      simp [hbytes, startsInBytes, hnext, LineMap.startsAfter, hsize, ih]
    · have hplain : ∀ b ∈ String.utf8EncodeChar c, b ≠ 10 ∧ b ≠ 13 := by
        intro b hb
        constructor
        · rintro rfl
          exact hfeed (eq_of_mem_utf8EncodeChar (by decide) hb)
        · rintro rfl
          exact hreturn (eq_of_mem_utf8EncodeChar (by decide) hb)
      have hbytes : encoded (c :: cs) = String.utf8EncodeChar c ++ encoded cs := rfl
      rw [hbytes, startsInBytes_append hplain, String.length_utf8EncodeChar, ih]
      simp [LineMap.startsAfter, hfeed, hreturn]

/-! ## Pieces -/

/-- The pieces of a text that is cut at byte offsets, in order: a piece reaches to the next offset,
the last one to the end of the text. -/
def cutAt (cs : List Char) : List Nat → List (List Char)
  | [] => []
  | [start] => [dropBytes start cs]
  | start :: next :: offsets =>
    takeBytes (next - start) (dropBytes start cs) :: cutAt cs (next :: offsets)

/-- A text that is cut where its lines begin falls into the lines. -/
theorem cutAt_offsets (before : List Char) (ls : List Line) :
    cutAt (before ++ ls.flatMap Line.text) (Line.offsets (bytes before) ls) = ls.map Line.text := by
  induction ls generalizing before with
  | nil => rfl
  | cons l ls ih =>
    have hstart := dropBytes_bytes_append before ((l :: ls).flatMap Line.text)
    obtain _ | ⟨next, ls⟩ := ls
    · simpa [Line.offsets, cutAt] using hstart
    · have hrest := ih (before ++ l.text)
      rw [bytes_append, List.append_assoc] at hrest
      have hpiece : takeBytes (bytes l.text) ((l :: next :: ls).flatMap Line.text) = l.text :=
        takeBytes_bytes (List.prefix_append _ _)
      rw [Line.offsets, Line.offsets, cutAt, hstart, Nat.add_sub_cancel_left, hpiece]
      exact congrArg (l.text :: ·) hrest

end Text

namespace LineMap

open Text

theorem cutAt_starts (text : String) :
    cutAt text.toList (ofText text).starts = (lines text.toList).map Line.text := by
  have hcut := cutAt_offsets [] (lines text.toList)
  rwa [List.nil_append, flatMap_text_lines, show bytes [] = 0 from rfl, ← starts_ofText] at hcut

/-- No line starts inside a character. -/
theorem isBoundary_of_mem_starts {text : String} {start : Nat}
    (h : start ∈ (ofText text).starts) : IsBoundary text.toList start := by
  rw [starts_ofText] at h
  obtain ⟨i, hi⟩ := List.mem_iff_getElem?.mp h
  have hline : i < (lines text.toList).length := by
    rw [← Line.length_offsets 0]
    exact (List.getElem?_eq_some_iff.mp hi).1
  obtain ⟨before, after, hcut⟩ := exists_cut (List.getElem?_eq_getElem hline)
  exact ⟨before, ⟨_, hcut.eq.symm⟩, Option.some.inj (hcut.start.symm.trans hi)⟩

/-- In a text below `2 ^ 32` bytes the starts of the lines and the offsets of all positions are
numbers of 32 bits. -/
theorem toNat_ofNat_of_utf8ByteSize_lt {text : String} (hsize : text.utf8ByteSize < UInt32.size) :
    (∀ start ∈ (ofText text).starts, (UInt32.ofNat start).toNat = start) ∧
    ∀ p offset, (ofText text).offset? p = some offset → (UInt32.ofNat offset).toNat = offset := by
  have hword {n : Nat} (hle : n ≤ text.utf8ByteSize) : (UInt32.ofNat n).toNat = n :=
    UInt32.toNat_ofNat_of_lt' (Nat.lt_of_le_of_lt hle hsize)
  refine ⟨fun start hstart => hword ?_, fun p offset hoffset => hword ?_⟩
  · exact (isBoundary_of_mem_starts hstart).isValid.le_rawEndPos
  · rw [utf8ByteSize_eq_bytes]
    exact le_of_offset? hoffset

/-- The starts of a text's lines are zero and the offsets behind the bytes that end lines. They come
one behind the other, none behind the end of the text or inside a character, and those of a text
whose size is a number of 32 bits are such numbers. The text cut at them falls into pieces that make
up the text: each but the last is a line with its ending, and the last is a line without one. -/
theorem starts_divide_lines (text : String) :
    (ofText text).starts = 0 :: startsInBytes 0 text.toByteArray.data.toList ∧
    (ofText text).starts.Pairwise (· < ·) ∧
    (∀ start ∈ (ofText text).starts,
      start ≤ text.utf8ByteSize ∧ String.Pos.Raw.IsValid text ⟨start⟩ ∧
      (text.utf8ByteSize < UInt32.size → (UInt32.ofNat start).toNat = start)) ∧
    (cutAt text.toList (ofText text).starts).flatten = text.toList ∧
    ∃ ls : List Line, cutAt text.toList (ofText text).starts = ls.map Line.text ∧ Ruled ls := by
  refine ⟨?_, pairwise_starts text, fun start hstart => ?_, ?_, ?_⟩
  · rw [← encoded_toList, startsInBytes_encoded]
    rfl
  · have hvalid := (isBoundary_of_mem_starts hstart).isValid
    have hle : start ≤ text.utf8ByteSize := hvalid.le_rawEndPos
    exact ⟨hle, hvalid, fun hsize => (toNat_ofNat_of_utf8ByteSize_lt hsize).1 start hstart⟩
  · rw [cutAt_starts, ← List.flatMap_def, flatMap_text_lines]
  · exact ⟨lines text.toList, cutAt_starts text, ruled_lines text.toList⟩

/-- A carriage return alone, one with a line feed, and a line feed behind a longer character. -/
theorem starts_divide_lines_mixedEndings :
    4 ∈ (ofText "a\r\r\n日\n").starts ∧ "a\r\r\n日\n".utf8ByteSize < UInt32.size ∧
    String.Pos.Raw.IsValid "a\r\r\n日\n" ⟨4⟩ ∧ (UInt32.ofNat 4).toNat = 4 ∧
    cutAt "a\r\r\n日\n".toList (ofText "a\r\r\n日\n").starts =
      [['a', '\r'], ['\r', '\n'], ['日', '\n'], []] ∧
    ∃ ls : List Line, cutAt "a\r\r\n日\n".toList (ofText "a\r\r\n日\n").starts = ls.map Line.text ∧
      Ruled ls := by
  have hmem : 4 ∈ (ofText "a\r\r\n日\n").starts := by decide +kernel
  have hsize : "a\r\r\n日\n".utf8ByteSize < UInt32.size := by decide +kernel
  obtain ⟨-, -, hstarts, -, hpieces⟩ := starts_divide_lines "a\r\r\n日\n"
  obtain ⟨-, hvalid, hword⟩ := hstarts 4 hmem
  exact ⟨hmem, hsize, hvalid, hword hsize, by decide +kernel, hpieces⟩

end LineMap
end PortableTypes
