import Mathlib.Logic.Basic

/-!
# Steps

A thing may have a next one, as a node has its parent, or a union of one member that member. Step by
step one comes to a thing that has no next one, or goes on without end.
-/
namespace PortableTypes

variable {α : Type} {next : α → Option α} {a b : α}

/-- The thing that so many steps lead to. -/
def steps? (next : α → Option α) : (steps : Nat) → α → Option α
  | 0, a => some a
  | steps + 1, a => (next a).bind (steps? next steps)

theorem steps?_add (m n : Nat) :
    steps? next (m + n) a = (steps? next m a).bind (steps? next n) := by
  induction m generalizing a with
  | zero => simp [steps?]
  | succ m ih =>
    rw [Nat.succ_add, steps?, steps?, Option.bind_assoc]
    exact Option.bind_congr fun b _ => ih

theorem isSome_steps?_of_le {m n : Nat} (hle : m ≤ n) (h : (steps? next n a).isSome) :
    (steps? next m a).isSome := by
  obtain ⟨k, rfl⟩ := Nat.exists_eq_add_of_le hle
  rw [steps?_add] at h
  exact Option.isSome_of_isSome_bind h

/-- What comes back to itself does so any number of times. -/
theorem steps?_mul {k : Nat} (h : steps? next k a = some a) (times : Nat) :
    steps? next (k * times) a = some a := by
  induction times with
  | zero => rfl
  | succ times ih =>
    rw [Nat.mul_succ, steps?_add, ih]
    exact h

/-- Behind a circle there is no end to the steps. -/
theorem isSome_steps?_of_cycle {m k : Nat} (hb : steps? next m a = some b)
    (hcycle : steps? next k b = some b) (hk : 0 < k) (n : Nat) : (steps? next n a).isSome := by
  have hround : (steps? next (m + k * n) a).isSome := by
    rw [steps?_add, hb, Option.bind_some, steps?_mul hcycle]
    rfl
  have hle : n ≤ m + k * n := by
    have hmul := Nat.le_mul_of_pos_left n hk
    omega
  exact isSome_steps?_of_le hle hround

/-- Steps that come to an end do so at a thing without a next one. -/
theorem exists_last_of_steps?_eq_none {n : Nat} (h : steps? next n a = none) :
    ∃ m < n, ∃ last, steps? next m a = some last ∧ next last = none := by
  induction n generalizing a with
  | zero => cases h
  | succ n ih =>
    cases hnext : next a with
    | none => exact ⟨0, Nat.succ_pos n, a, rfl, hnext⟩
    | some b =>
      rw [steps?, hnext, Option.bind_some] at h
      obtain ⟨m, hm, last, hlast, hend⟩ := ih h
      refine ⟨m + 1, Nat.succ_lt_succ hm, last, ?_, hend⟩
      rw [steps?, hnext, Option.bind_some, hlast]

end PortableTypes
