import Mathlib.Data.List.Infix
import Mathlib.Data.Nat.Find
import PortableTypes.Text.Basic

/-!
# Where a text can be cut

Bytes and code units are two ways to give characters a size. Of the beginnings of a text that fit
into a given size one is the longest, and it is what a cut at a byte offset leaves. The offset is a
boundary of the text if this beginning fills it; any other offset falls into a character, or lies
behind the text.
-/
namespace PortableTypes.Text

/-! ## Beginnings that fit -/

/-- The size of a text whose characters have the given sizes. -/
def total (size : Char → Nat) (cs : List Char) : Nat := (cs.map size).foldr (· + ·) 0

/-- The leading characters of a text that fit into `n`. -/
def leading (size : Char → Nat) : (n : Nat) → List Char → List Char
  | _, [] => []
  | n, c :: cs => if size c ≤ n then c :: leading size (n - size c) cs else []

section

variable {size : Char → Nat} {u v cs : List Char} {m n : Nat}

@[simp] theorem total_nil : total size [] = 0 := rfl

@[simp] theorem total_cons (c : Char) (cs : List Char) :
    total size (c :: cs) = size c + total size cs := rfl

@[simp] theorem total_append (u v : List Char) :
    total size (u ++ v) = total size u + total size v := by
  induction u with
  | nil => simp
  | cons c u ih => simp [ih, Nat.add_assoc]

theorem total_le_of_isPrefix (h : u <+: v) : total size u ≤ total size v := by
  obtain ⟨rest, rfl⟩ := h
  simp

theorem leading_isPrefix (n : Nat) (cs : List Char) : leading size n cs <+: cs := by
  induction cs generalizing n with
  | nil => simp [leading]
  | cons c cs ih =>
    by_cases hfits : size c ≤ n
    · simpa [leading, hfits] using ih (n - size c)
    · simp [leading, hfits]

theorem total_leading_le (n : Nat) (cs : List Char) : total size (leading size n cs) ≤ n := by
  induction cs generalizing n with
  | nil => simp [leading]
  | cons c cs ih =>
    by_cases hfits : size c ≤ n
    · have hrest := ih (n - size c)
      simp only [leading, if_pos hfits, total_cons]
      omega
    · simp [leading, hfits]

/-- No beginning that fits is longer than the leading characters that do. -/
theorem prefix_leading (h : u <+: cs) (hn : total size u ≤ n) : u <+: leading size n cs := by
  induction u generalizing n cs with
  | nil => exact List.nil_prefix
  | cons c u ih =>
    obtain ⟨rest, rfl⟩ := h
    have hfits : size c ≤ n := by
      rw [total_cons] at hn
      omega
    have hrest : total size u ≤ n - size c := by
      rw [total_cons] at hn
      omega
    simpa [leading, hfits] using ih (List.prefix_append u rest) hrest

theorem leading_prefix_leading (h : m ≤ n) (cs : List Char) :
    leading size m cs <+: leading size n cs :=
  prefix_leading (leading_isPrefix m cs) (Nat.le_trans (total_leading_le m cs) h)

theorem leading_of_total_le (h : total size cs ≤ n) : leading size n cs = cs := by
  have hwhole : cs <+: leading size n cs := prefix_leading List.prefix_rfl h
  exact (leading_isPrefix n cs).eq_of_length_le hwhole.length_le

/-- With characters of some size each, a beginning is known by its size. -/
theorem eq_of_total_eq (hpos : ∀ c, 0 < size c) (hu : u <+: cs) (hv : v <+: cs)
    (h : total size u = total size v) : u = v := by
  have hextends {u v : List Char} (huv : u <+: v) (h : total size u = total size v) : u = v := by
    obtain ⟨rest, rfl⟩ := huv
    cases rest with
    | nil => simp
    | cons c rest =>
      have hc := hpos c
      simp only [total_append, total_cons] at h
      omega
  obtain huv | hvu := List.prefix_or_prefix_of_prefix hu hv
  · exact hextends huv h
  · exact (hextends hvu h.symm).symm

theorem leading_total (hpos : ∀ c, 0 < size c) (h : u <+: cs) :
    leading size (total size u) cs = u := by
  have hlonger : u <+: leading size (total size u) cs := prefix_leading h (Nat.le_refl _)
  have hsize : total size (leading size (total size u) cs) = total size u :=
    Nat.le_antisymm (total_leading_le _ cs) (total_le_of_isPrefix hlonger)
  exact eq_of_total_eq hpos (leading_isPrefix _ cs) h hsize

end

/-! ## Bytes and code units -/

section

variable {u v cs : List Char} {m n : Nat}

theorem unitsOf_pos (c : Char) : 0 < unitsOf c := by
  unfold unitsOf
  split <;> omega

theorem unitsOf_le_utf8Size (c : Char) : unitsOf c ≤ c.utf8Size := by
  have hpos := c.utf8Size_pos
  unfold unitsOf
  split
  · omega
  · rename_i hlarge
    have hfour : c.utf8Size = 4 := by
      rw [Char.utf8Size_eq_four_iff, UInt32.lt_iff_toNat_lt]
      exact Nat.not_lt.mp hlarge
    omega

theorem units_le_bytes (cs : List Char) : units cs ≤ bytes cs := by
  change total unitsOf cs ≤ total Char.utf8Size cs
  induction cs with
  | nil => simp
  | cons c cs ih =>
    have hc := unitsOf_le_utf8Size c
    simp only [total_cons]
    omega

@[simp] theorem bytes_append (u v : List Char) : bytes (u ++ v) = bytes u + bytes v :=
  total_append u v

theorem bytes_pos (h : cs ≠ []) : 0 < bytes cs := by
  obtain ⟨c, rest, rfl⟩ := List.exists_cons_of_ne_nil h
  exact Nat.lt_of_lt_of_le c.utf8Size_pos (Nat.le_add_right _ _)

theorem bytes_le_of_isPrefix (h : u <+: v) : bytes u ≤ bytes v := total_le_of_isPrefix h

theorem eq_of_bytes_eq (hu : u <+: cs) (hv : v <+: cs) (h : bytes u = bytes v) : u = v :=
  eq_of_total_eq Char.utf8Size_pos hu hv h

theorem takeBytes_eq_leading (n : Nat) (cs : List Char) :
    takeBytes n cs = leading Char.utf8Size n cs := by
  induction cs generalizing n with
  | nil => rfl
  | cons c cs ih => simp [takeBytes, leading, ih]

theorem takeBytes_append_dropBytes (n : Nat) (cs : List Char) :
    takeBytes n cs ++ dropBytes n cs = cs := by
  induction cs generalizing n with
  | nil => rfl
  | cons c cs ih =>
    by_cases hfits : c.utf8Size ≤ n
    · simp [takeBytes, dropBytes, hfits, ih]
    · simp [takeBytes, dropBytes, hfits]

theorem takeBytes_isPrefix (n : Nat) (cs : List Char) : takeBytes n cs <+: cs :=
  ⟨dropBytes n cs, takeBytes_append_dropBytes n cs⟩

theorem bytes_takeBytes_le (n : Nat) (cs : List Char) : bytes (takeBytes n cs) ≤ n := by
  rw [takeBytes_eq_leading]
  exact total_leading_le n cs

theorem prefix_takeBytes (h : u <+: cs) (hn : bytes u ≤ n) : u <+: takeBytes n cs := by
  rw [takeBytes_eq_leading]
  exact prefix_leading h hn

theorem takeBytes_bytes (h : u <+: cs) : takeBytes (bytes u) cs = u := by
  rw [takeBytes_eq_leading]
  exact leading_total Char.utf8Size_pos h

theorem dropBytes_bytes_append (u v : List Char) : dropBytes (bytes u) (u ++ v) = v := by
  have hcut := takeBytes_append_dropBytes (bytes u) (u ++ v)
  rw [takeBytes_bytes (List.prefix_append u v)] at hcut
  exact List.append_cancel_left hcut

theorem takeBytes_append (h : bytes u ≤ n) :
    takeBytes n (u ++ v) = u ++ takeBytes (n - bytes u) v := by
  induction u generalizing n with
  | nil => rfl
  | cons c u ih =>
    change c.utf8Size + bytes u ≤ n at h
    have hfits : c.utf8Size ≤ n := by omega
    have hrest := ih (show bytes u ≤ n - c.utf8Size by omega)
    have hsize : n - c.utf8Size - bytes u = n - bytes (c :: u) := Nat.sub_sub ..
    simp [takeBytes, hfits, hrest, hsize]

/-- Text that fits into `n` bytes has at most `n` code units. -/
theorem units_takeBytes_le (n : Nat) (cs : List Char) : units (takeBytes n cs) ≤ n :=
  Nat.le_trans (units_le_bytes _) (bytes_takeBytes_le n cs)

theorem units_takeBytes_mono (h : m ≤ n) (cs : List Char) :
    units (takeBytes m cs) ≤ units (takeBytes n cs) := by
  rw [takeBytes_eq_leading, takeBytes_eq_leading]
  exact total_le_of_isPrefix (leading_prefix_leading h cs)

end

/-! ## Boundaries -/

/-- A byte offset that splits no character: so many bytes stand before some place in the text. -/
def IsBoundary (cs : List Char) (n : Nat) : Prop := ∃ before, before <+: cs ∧ bytes before = n

/-- A byte offset between a carriage return and the line feed right behind it. -/
def SplitsLineEnd (cs : List Char) (n : Nat) : Prop :=
  ∃ before, before ++ ['\r', '\n'] <+: cs ∧ bytes before + 1 = n

instance (cs : List Char) (n : Nat) : Decidable (IsBoundary cs n) :=
  decidable_of_iff (∃ before ∈ cs.inits, bytes before = n) (by simp [IsBoundary])

instance (cs : List Char) (n : Nat) : Decidable (SplitsLineEnd cs n) :=
  decidable_of_iff
    (∃ before ∈ cs.inits, before ++ ['\r', '\n'] <+: cs ∧ bytes before + 1 = n) (by
      simp only [List.mem_inits, SplitsLineEnd]
      refine exists_congr fun before => and_iff_right_of_imp fun h => ?_
      exact (List.prefix_append before _).trans h.1)

/-- Where the character starts that a byte offset falls into. An offset behind the text counts as
its end. -/
def charStart (cs : List Char) (n : Nat) : Nat :=
  Nat.findGreatest (IsBoundary cs) (min n (bytes cs))

/-- The boundary before a byte offset that leaves every line end in one piece. -/
def snap (cs : List Char) (n : Nat) : Nat :=
  if SplitsLineEnd cs (charStart cs n) then charStart cs n - 1 else charStart cs n

example : (List.range 9).map (snap ['a', '\r', '\n', '😀']) = [0, 1, 1, 3, 3, 3, 3, 7, 7] := by
  decide

section

variable {u v cs : List Char} {n : Nat}

/-- The character an offset falls into starts behind the leading characters that fit before it. -/
theorem charStart_eq (cs : List Char) (n : Nat) : charStart cs n = bytes (takeBytes n cs) := by
  have hprefix := takeBytes_isPrefix n cs
  rw [charStart, Nat.findGreatest_eq_iff]
  refine ⟨?_, fun _ => ⟨_, hprefix, rfl⟩, ?_⟩
  · exact le_min (bytes_takeBytes_le n cs) (bytes_le_of_isPrefix hprefix)
  · rintro k hlater hk ⟨before, hbefore, rfl⟩
    have hfits : before <+: takeBytes n cs := prefix_takeBytes hbefore (by omega)
    have hle := bytes_le_of_isPrefix hfits
    omega

theorem charStart_eq_self_iff : charStart cs n = n ↔ IsBoundary cs n := by
  constructor
  · intro h
    exact ⟨takeBytes n cs, takeBytes_isPrefix n cs, by rw [← charStart_eq, h]⟩
  · rintro ⟨before, hbefore, rfl⟩
    rw [charStart_eq, takeBytes_bytes hbefore]

theorem charStart_le (cs : List Char) (n : Nat) : charStart cs n ≤ n := by
  rw [charStart_eq]
  exact bytes_takeBytes_le n cs

theorem snap_eq_self_iff : snap cs n = n ↔ IsBoundary cs n ∧ ¬ SplitsLineEnd cs n := by
  have hle := charStart_le cs n
  rw [← charStart_eq_self_iff]
  by_cases hsplit : SplitsLineEnd cs (charStart cs n)
  · have hpos : 0 < charStart cs n := by
      obtain ⟨before, -, hsize⟩ := hsplit
      omega
    rw [snap, if_pos hsplit]
    constructor
    · omega
    · rintro ⟨hstart, hwhole⟩
      rw [hstart] at hsplit
      exact absurd hsplit hwhole
  · rw [snap, if_neg hsplit]
    constructor
    · intro hstart
      rw [hstart] at hsplit
      exact ⟨hstart, hsplit⟩
    · exact And.left

theorem splitsLineEnd_append_iff :
    SplitsLineEnd (u ++ v) (bytes u) ↔ u.getLast? = some '\r' ∧ v.head? = some '\n' := by
  rw [List.getLast?_eq_some_iff, List.head?_eq_some_iff]
  constructor
  · rintro ⟨before, hbefore, hsize⟩
    obtain ⟨after, hafter⟩ := hbefore
    have hcut : before ++ ['\r'] ++ '\n' :: after = u ++ v := by simpa using hafter
    have hu : before ++ ['\r'] = u := by
      refine eq_of_bytes_eq ⟨_, hcut⟩ (List.prefix_append u v) ?_
      rw [bytes_append, ← hsize]
      rfl
    subst hu
    exact ⟨⟨before, rfl⟩, ⟨after, (List.append_cancel_left hcut).symm⟩⟩
  · rintro ⟨⟨before, rfl⟩, after, rfl⟩
    refine ⟨before, ⟨after, by simp⟩, ?_⟩
    rw [bytes_append]
    rfl

end
end PortableTypes.Text
