import Mathlib.Data.Finset.Card
import PortableTypes.Program.Query
import PortableTypes.Proofs.Program.Steps

/-!
# Parents of nodes

Going up from parent to parent one comes to a node without a parent in no more steps than there are
nodes, or never, and then there is a cycle on the way. So parents that are counted up to a limit
above the number of nodes are all counted where there is no cycle, and put the nodes into the same
order under every such limit.
-/
namespace PortableTypes.Program

/-- The node that is so many parents above a node. -/
def above? (p : Program) : (steps : Nat) → NodeId → Option NodeId
  | 0, node => some node
  | steps + 1, node => (p.parent? node).bind (p.above? steps)

/-- No node that is met on the way up from a node is met again. -/
def AcyclicAbove (p : Program) (node : NodeId) : Prop :=
  ∀ steps more other, p.above? steps node = some other → p.above? (more + 1) other ≠ some other

section

variable {p : Program} {node child : NodeId}

theorem above?_eq_steps? (p : Program) : p.above? = steps? p.parent? := by
  funext steps node
  induction steps generalizing node with
  | zero => rfl
  | succ steps ih =>
    rw [above?, steps?]
    exact Option.bind_congr fun parent _ => ih parent

theorem above?_add (m n : Nat) :
    p.above? (m + n) node = (p.above? m node).bind (p.above? n) := by
  simp only [above?_eq_steps?, steps?_add]

theorem isSome_above?_of_le {m n : Nat} (hle : m ≤ n) (h : (p.above? n node).isSome) :
    (p.above? m node).isSome := by
  rw [above?_eq_steps?] at *
  exact isSome_steps?_of_le hle h

/-- A node with a parent has a record. -/
theorem index_lt_of_isSome_above? {m : Nat} {other : NodeId} (hother : p.above? m node = some other)
    (h : (p.above? (m + 1) node).isSome) : other.index < p.nodes.size := by
  have hparent : (p.parent? other).isSome := by
    rw [above?_add, hother] at h
    exact Option.isSome_of_isSome_bind h
  have hrecord : (p.node? other).isSome := Option.isSome_of_isSome_bind hparent
  simpa [node?] using hrecord

theorem isSome_above?_of_cycle {m k : Nat} {other : NodeId} (hother : p.above? m node = some other)
    (hcycle : p.above? k other = some other) (hk : 0 < k) (steps : Nat) :
    (p.above? steps node).isSome := by
  rw [above?_eq_steps?] at *
  exact isSome_steps?_of_cycle hother hcycle hk steps

/-- More steps than there are nodes come to a node twice. -/
theorem exists_cycle (h : (p.above? (p.nodes.size + 1) node).isSome) :
    ∃ m k other, p.above? m node = some other ∧ p.above? (k + 1) other = some other := by
  let place (i : Nat) : Nat := ((p.above? i node).map (·.index)).getD 0
  have hplace {i : Nat} (hi : i ≤ p.nodes.size) :
      ∃ other, p.above? i node = some other ∧ place i = other.index := by
    obtain ⟨other, hother⟩ := Option.isSome_iff_exists.mp
      (isSome_above?_of_le (Nat.le_succ_of_le hi) h)
    exact ⟨other, hother, by simp [place, hother]⟩
  have hmaps : Set.MapsTo place (Finset.range (p.nodes.size + 1)) (Finset.range p.nodes.size) := by
    intro i hi
    have hi : i < p.nodes.size + 1 := by simpa using hi
    obtain ⟨other, hother, heq⟩ := hplace (Nat.le_of_lt_succ hi)
    have hlt := index_lt_of_isSome_above? hother (isSome_above?_of_le hi h)
    simpa [heq] using hlt
  obtain ⟨i, hi, j, hj, hne, heq⟩ :=
    Finset.exists_ne_map_eq_of_card_lt_of_maps_to (by simp) hmaps
  -- of the two times the earlier one is where the circle starts
  have hcircle {i j : Nat} (hij : i < j) (hj : j ≤ p.nodes.size) (heq : place i = place j) :
      ∃ m k other, p.above? m node = some other ∧ p.above? (k + 1) other = some other := by
    obtain ⟨a, ha, hai⟩ := hplace (Nat.le_of_lt (Nat.lt_of_lt_of_le hij hj))
    obtain ⟨b, hb, hbj⟩ := hplace hj
    have hab : a = b := by
      cases a
      cases b
      simp_all
    obtain ⟨k, rfl⟩ := Nat.exists_eq_add_of_lt hij
    rw [Nat.add_assoc, above?_add, ha, ← hab] at hb
    exact ⟨i, k, a, ha, hb⟩
  have hi : i ≤ p.nodes.size := Nat.le_of_lt_succ (by simpa using hi)
  have hj : j ≤ p.nodes.size := Nat.le_of_lt_succ (by simpa using hj)
  obtain hij | hij := Nat.lt_or_gt_of_ne hne
  · exact hcircle hij hj heq
  · exact hcircle hij hi heq.symm

/-- More steps than there are nodes go on without end. -/
theorem isSome_above?_of_size_lt (h : (p.above? (p.nodes.size + 1) node).isSome) (steps : Nat) :
    (p.above? steps node).isSome := by
  obtain ⟨m, k, other, hother, hcycle⟩ := exists_cycle h
  exact isSome_above?_of_cycle hother hcycle (Nat.succ_pos k) steps

/-! ## Counting parents -/

theorem ancestors_le (p : Program) (limit : Nat) (node : NodeId) :
    p.ancestors limit node ≤ limit := by
  induction limit generalizing node with
  | zero => exact Nat.le_refl 0
  | succ limit ih =>
    unfold ancestors
    split
    · exact Nat.succ_le_succ (ih _)
    · exact Nat.zero_le _

/-- Counting comes to the limit if there is a node that far up. -/
theorem ancestors_eq_iff {limit : Nat} :
    p.ancestors limit node = limit ↔ (p.above? limit node).isSome := by
  induction limit generalizing node with
  | zero => simp [ancestors, above?]
  | succ limit ih =>
    cases hparent : p.parent? node with
    | none => simp [ancestors, above?, hparent]
    | some parent => simp [ancestors, above?, hparent, ih]

/-- A limit that is not reached makes no difference. -/
theorem ancestors_of_lt {limit more : Nat} (h : p.ancestors limit node < limit)
    (hle : limit ≤ more) : p.ancestors more node = p.ancestors limit node := by
  induction limit generalizing node more with
  | zero => exact absurd h (Nat.not_lt_zero _)
  | succ limit ih =>
    obtain ⟨more, rfl⟩ : ∃ k, more = k + 1 := ⟨more - 1, by omega⟩
    cases hparent : p.parent? node with
    | none => simp [ancestors, hparent]
    | some parent =>
      simp only [ancestors, hparent] at h ⊢
      rw [ih (Nat.lt_of_succ_lt_succ h) (Nat.le_of_succ_le_succ hle)]

/-- The parents of a node are at most as many as there are nodes, or there is no end to them. -/
theorem ancestors_cases (p : Program) (node : NodeId) :
    (p.depthOf node ≤ p.nodes.size ∧
      ∀ limit, p.nodes.size < limit → p.ancestors limit node = p.depthOf node) ∨
    ∀ limit, p.ancestors limit node = limit := by
  obtain hlt | heq := Nat.lt_or_eq_of_le (p.ancestors_le (p.nodes.size + 1) node)
  · exact .inl ⟨Nat.le_of_lt_succ hlt, fun limit hlimit => ancestors_of_lt hlt hlimit⟩
  · exact .inr fun limit =>
      ancestors_eq_iff.mpr (isSome_above?_of_size_lt (ancestors_eq_iff.mp heq) limit)

/-- Of two nodes the same one is deeper, whatever the limit. -/
theorem ancestors_lt_ancestors_iff {a b : NodeId} {limit : Nat} (hlimit : p.nodes.size < limit) :
    p.ancestors limit a < p.ancestors limit b ↔ p.depthOf a < p.depthOf b := by
  obtain ⟨ha, ha'⟩ | ha := p.ancestors_cases a <;> obtain ⟨hb, hb'⟩ | hb := p.ancestors_cases b
  · rw [ha' limit hlimit, hb' limit hlimit]
  · rw [ha' limit hlimit, hb limit, depthOf, depthOf, hb] at *
    omega
  · rw [ha limit, hb' limit hlimit, depthOf, depthOf, ha] at *
    omega
  · simp only [depthOf, ha, hb]
    omega

/-- Below the limit, parents are counted up to the node that has none. -/
theorem exists_top_of_lt {limit : Nat} (h : p.ancestors limit node < limit) :
    ∃ top, p.above? (p.ancestors limit node) node = some top ∧ p.parent? top = none := by
  induction limit generalizing node with
  | zero => exact absurd h (Nat.not_lt_zero _)
  | succ limit ih =>
    cases hparent : p.parent? node with
    | none =>
      refine ⟨node, ?_, hparent⟩
      simp [ancestors, hparent, above?]
    | some parent =>
      simp only [ancestors, hparent] at h ⊢
      obtain ⟨top, htop, hnone⟩ := ih (Nat.lt_of_succ_lt_succ h)
      exact ⟨top, by simpa [above?, hparent] using htop, hnone⟩

theorem depthOf_le_of_acyclic (h : p.AcyclicAbove node) : p.depthOf node ≤ p.nodes.size := by
  obtain hlt | heq := Nat.lt_or_eq_of_le (p.ancestors_le (p.nodes.size + 1) node)
  · exact Nat.le_of_lt_succ hlt
  · obtain ⟨steps, more, other, hother, hcycle⟩ := exists_cycle (ancestors_eq_iff.mp heq)
    exact absurd hcycle (h steps more other hother)

theorem depthOf_of_not_acyclic (h : ¬ p.AcyclicAbove node) :
    p.depthOf node = p.nodes.size + 1 := by
  simp only [AcyclicAbove, not_forall, not_not] at h
  obtain ⟨steps, more, other, hother, hcycle⟩ := h
  exact ancestors_eq_iff.mpr (isSome_above?_of_cycle hother hcycle (Nat.succ_pos more) _)

/-- A child is one deeper than its parent, if the limit is not reached. -/
theorem depthOf_eq_succ (hparent : p.parent? child = some node)
    (h : p.depthOf child ≤ p.nodes.size) : p.depthOf child = p.depthOf node + 1 := by
  have hchild : p.depthOf child = p.ancestors p.nodes.size node + 1 := by
    simp [depthOf, ancestors, hparent]
  have hlimit : p.ancestors p.nodes.size node < p.nodes.size := by omega
  have hnode : p.depthOf node = p.ancestors p.nodes.size node :=
    ancestors_of_lt hlimit (Nat.le_succ _)
  rw [hchild, hnode]

end
end PortableTypes.Program
