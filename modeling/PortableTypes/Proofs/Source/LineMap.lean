import PortableTypes.Proofs.Text.Boundaries
import PortableTypes.Source.LineMap

/-!
# Positions follow offsets

A later offset of a text has a later position, or the same. Lines start one behind the other, so a
line is no greater than the offset it starts at; and a character has no more code units than bytes,
so a column is no greater than the bytes before it. Lines and columns of offsets of 32 bits are
therefore numbers of 32 bits, and none is cut off.
-/
namespace PortableTypes

namespace LineMap

theorem lt_of_mem_startsAfter {offset start : Nat} {cs : List Char}
    (h : start ∈ startsAfter offset cs) : offset < start := by
  induction cs generalizing offset with
  | nil => exact absurd h List.not_mem_nil
  | cons c cs ih =>
    have hpos := c.utf8Size_pos
    simp only [startsAfter] at h
    split at h
    · obtain rfl | h := List.mem_cons.mp h
      · omega
      · have hnext := ih h
        omega
    · have hnext := ih h
      omega

/-- Lines start one behind the other. -/
theorem pairwise_startsAfter (offset : Nat) (cs : List Char) :
    (startsAfter offset cs).Pairwise (· < ·) := by
  induction cs generalizing offset with
  | nil => exact .nil
  | cons c cs ih =>
    simp only [startsAfter]
    split
    · exact .cons (fun start hstart => lt_of_mem_startsAfter hstart) (ih _)
    · exact ih _

theorem pairwise_starts (text : String) : (ofText text).starts.Pairwise (· < ·) :=
  .cons (fun _ hstart => lt_of_mem_startsAfter hstart) (pairwise_startsAfter 0 _)

/-- Starts one behind the other, none of them before `lower`, reach an offset with at most one for
each offset on the way. -/
theorem length_takeWhile_le {starts : List Nat} (h : starts.Pairwise (· < ·)) (offset lower : Nat)
    (hlower : ∀ start ∈ starts, lower ≤ start) :
    (starts.takeWhile (· ≤ offset)).length ≤ offset + 1 - lower := by
  induction h generalizing lower with
  | nil => exact Nat.zero_le _
  | @cons start starts hstart _ ih =>
    have hfirst := hlower start List.mem_cons_self
    by_cases hle : start ≤ offset
    · have hrest := ih (start + 1) hstart
      rw [List.takeWhile_cons_of_pos (by simpa using hle), List.length_cons]
      omega
    · rw [List.takeWhile_cons_of_neg (by simpa using hle)]
      exact Nat.zero_le _

theorem lineAt_le (text : String) (offset : Nat) : (ofText text).lineAt offset ≤ offset := by
  have hlines := length_takeWhile_le (pairwise_starts text) offset 0 fun _ _ => Nat.zero_le _
  unfold lineAt
  omega

theorem lineAt_mono (m : LineMap) {a b : Nat} (h : a ≤ b) : m.lineAt a ≤ m.lineAt b := by
  have hlines : (m.starts.takeWhile (· ≤ a)).length ≤ (m.starts.takeWhile (· ≤ b)).length := by
    induction m.starts with
    | nil => exact Nat.le_refl _
    | cons start starts ih =>
      by_cases hle : start ≤ a
      · have hle' : start ≤ b := by omega
        simpa [List.takeWhile_cons, hle, hle'] using ih
      · simp [List.takeWhile_cons, hle]
  unfold lineAt
  omega

/-- A later offset has a later position, or the same. -/
theorem position_mono (text : String) {a b : UInt32} (h : a ≤ b) :
    (ofText text).position a.toNat ≤ (ofText text).position b.toNat := by
  have hab : a.toNat ≤ b.toNat := UInt32.le_iff_toNat_le.mp h
  have hsize := b.toNat_lt
  have hlines := (ofText text).lineAt_mono hab
  have hline := lineAt_le text b.toNat
  rcases Nat.lt_or_eq_of_le hlines with hearlier | hsame
  · left
    simp only [position, UInt32.lt_iff_toNat_lt, UInt32.toNat_ofNat']
    rw [Nat.mod_eq_of_lt (by omega), Nat.mod_eq_of_lt (by omega)]
    exact hearlier
  · right
    refine ⟨congrArg UInt32.ofNat hsame, ?_⟩
    simp only [position, UInt32.le_iff_toNat_le, UInt32.toNat_ofNat', hsame]
    -- on one line the text before the earlier offset is the beginning of that before the later
    generalize (ofText text).starts.getD ((ofText text).lineAt b.toNat) 0 = start
    generalize Text.dropBytes start (ofText text).text = line
    have hbefore := Text.units_takeBytes_mono (Nat.sub_le_sub_right hab start) line
    have hbound := Text.units_takeBytes_le (b.toNat - start) line
    rw [Nat.mod_eq_of_lt (by omega), Nat.mod_eq_of_lt (by omega)]
    exact hbefore

end LineMap
end PortableTypes
