import Mathlib.Data.Prod.Lex
import PortableTypes.Proofs.Program.Ancestors

/-!
# The node at an offset

Of the nodes of a file that touch an offset the one with the shortest span is chosen, of those the
one with the most parents above it, and of those the first. Parents are counted up to a limit that
only a cycle reaches. So where children lie inside their parents no child of the chosen node touches
the offset: it would be no longer, and one deeper.
-/
namespace PortableTypes.Program

/-! ## The best of some candidates -/

namespace Candidate

/-- The better one of two candidates, the first if neither is. -/
def keep (held : Option Candidate) (c : Candidate) : Option Candidate :=
  match held with
  | none => some c
  | some b => if c.better b then some c else some b

theorem mem_of_mem_keep {held : Option Candidate} {c d : Candidate} (h : d ∈ keep held c) :
    d ∈ held ∨ d = c := by
  unfold keep at h
  split at h
  · simp_all
  · split at h <;> simp_all

theorem mem_of_mem_best {cs : List Candidate} {c : Candidate} (h : c ∈ best cs) : c ∈ cs := by
  have hfold (rest : List Candidate) (held : Option Candidate) (hc : c ∈ rest.foldl keep held) :
      c ∈ held ∨ c ∈ rest := by
    induction rest generalizing held with
    | nil => exact .inl hc
    | cons d rest ih =>
      obtain hkept | hmem := ih _ hc
      · obtain hheld | rfl := mem_of_mem_keep hkept
        · exact .inl hheld
        · exact .inr List.mem_cons_self
      · exact .inr (List.mem_cons_of_mem _ hmem)
  obtain hnone | hmem := hfold cs none h
  · cases hnone
  · exact hmem

/-- Candidates that are changed so that the better ones stay the better ones have the same best. -/
theorem best_map {f : Candidate → Candidate} {cs : List Candidate}
    (h : ∀ a ∈ cs, ∀ b ∈ cs, (f a).better (f b) = a.better b) :
    best (cs.map f) = (best cs).map f := by
  have hfold (rest : List Candidate) (held : Option Candidate) (hrest : rest ⊆ cs)
      (hheld : ∀ c ∈ held, c ∈ cs) :
      (rest.map f).foldl keep (held.map f) = (rest.foldl keep held).map f := by
    induction rest generalizing held with
    | nil => rfl
    | cons c rest ih =>
      obtain ⟨hc, hrest⟩ := List.cons_subset.mp hrest
      have hkeep : keep (held.map f) (f c) = (keep held c).map f := by
        cases held with
        | none => rfl
        | some b =>
          simp only [keep, Option.map_some, h c hc b (hheld b rfl)]
          split <;> rfl
      have hkept (d : Candidate) (hd : d ∈ keep held c) : d ∈ cs := by
        obtain hd | rfl := mem_of_mem_keep hd
        · exact hheld d hd
        · exact hc
      rw [List.map_cons, List.foldl_cons, List.foldl_cons, hkeep]
      exact ih _ hrest hkept
  exact hfold cs none (List.Subset.refl _) (fun _ hc => nomatch hc)

/-! ## The least rank -/

/-- The rank of a candidate among those for an offset: the length of the span, then the depth the
other way round, then the place in the table. -/
def rank (c : Candidate) : Nat ×ₗ Int ×ₗ Nat :=
  toLex (c.length, toLex (-(c.depth : Int), c.node.index))

theorem rank_injective {a b : Candidate} (h : a.rank = b.rank) : a = b := by
  obtain ⟨⟨i⟩, length, depth⟩ := a
  obtain ⟨⟨j⟩, length', depth'⟩ := b
  simp only [rank, EmbeddingLike.apply_eq_iff_eq, Prod.mk.injEq] at h
  obtain ⟨rfl, hdepth, rfl⟩ := h
  have hdepth : depth = depth' := by omega
  rw [hdepth]

/-- Of two candidates the later one is better just if its rank is less. -/
theorem better_iff_rank_lt {a b : Candidate} (h : b.node.index < a.node.index) :
    a.better b = true ↔ a.rank < b.rank := by
  simp only [better, rank, Prod.Lex.toLex_lt_toLex, Bool.or_eq_true, Bool.and_eq_true,
    decide_eq_true_eq, beq_iff_eq]
  omega

theorem keep_some {b c : Candidate} (h : b.node.index < c.node.index) :
    ∃ kept, keep (some b) c = some kept ∧ (kept = b ∨ kept = c) ∧
      kept.rank ≤ b.rank ∧ kept.rank ≤ c.rank := by
  by_cases hbetter : c.better b = true
  · have hlt := (better_iff_rank_lt h).mp hbetter
    exact ⟨c, by simp [keep, hbetter], .inr rfl, le_of_lt hlt, le_refl _⟩
  · have hle := not_lt.mp (mt (better_iff_rank_lt h).mpr hbetter)
    exact ⟨b, by simp [keep, hbetter], .inl rfl, le_refl _, hle⟩

/-- Of candidates in the order of the table the one that is kept to the end has the least rank. -/
theorem foldl_keep {b : Candidate} {rest : List Candidate}
    (h : (b :: rest).Pairwise fun a c => a.node.index < c.node.index) :
    ∃ c, rest.foldl keep (some b) = some c ∧ c ∈ b :: rest ∧ ∀ d ∈ b :: rest, c.rank ≤ d.rank := by
  induction rest generalizing b with
  | nil => exact ⟨b, rfl, by simp, by simp⟩
  | cons c rest ih =>
    obtain ⟨hb, hrest⟩ := List.pairwise_cons.mp h
    obtain ⟨hc, hrest'⟩ := List.pairwise_cons.mp hrest
    obtain ⟨kept, hkept, hcases, hleb, hlec⟩ := keep_some (hb c List.mem_cons_self)
    -- the kept one of the first two still stands before the rest, which is all the induction needs
    have hkeptBefore : ∀ d ∈ rest, kept.node.index < d.node.index := by
      obtain rfl | rfl := hcases
      · exact fun d hd => hb d (List.mem_cons_of_mem _ hd)
      · exact hc
    obtain ⟨best, hbest, hmem, hleast⟩ := ih (List.pairwise_cons.mpr ⟨hkeptBefore, hrest'⟩)
    refine ⟨best, by rw [List.foldl_cons, hkept, hbest], ?_, ?_⟩
    · obtain rfl | hmem := List.mem_cons.mp hmem
      · obtain rfl | rfl := hcases <;> simp
      · simp [hmem]
    · intro d hd
      have hkeptLeast := hleast kept List.mem_cons_self
      obtain rfl | hd := List.mem_cons.mp hd
      · exact le_trans hkeptLeast hleb
      · obtain rfl | hd := List.mem_cons.mp hd
        · exact le_trans hkeptLeast hlec
        · exact hleast d (List.mem_cons_of_mem _ hd)

/-- The best of candidates in the order of the table is the one with the least rank. -/
theorem best_eq_some_iff {cs : List Candidate} {c : Candidate}
    (h : cs.Pairwise fun a b => a.node.index < b.node.index) :
    best cs = some c ↔ c ∈ cs ∧ ∀ d ∈ cs, c.rank ≤ d.rank := by
  cases cs with
  | nil => simp [best]
  | cons b rest =>
    obtain ⟨least, hbest, hmem, hleast⟩ := foldl_keep h
    have hbest : best (b :: rest) = some least := hbest
    rw [hbest, Option.some.injEq]
    constructor
    · rintro rfl
      exact ⟨hmem, hleast⟩
    · rintro ⟨hc, hcleast⟩
      exact rank_injective (le_antisymm (hleast c hc) (hcleast least hmem))

theorem best_eq_none_iff {cs : List Candidate}
    (h : cs.Pairwise fun a b => a.node.index < b.node.index) : best cs = none ↔ cs = [] := by
  cases cs with
  | nil => simp [best]
  | cons b rest =>
    obtain ⟨least, hbest, -, -⟩ := foldl_keep h
    have hbest : best (b :: rest) = some least := hbest
    simp [hbest]

end Candidate

/-! ## Nodes that touch an offset -/

/-- A node of the file whose span touches the offset. -/
def Touches (p : Program) (file : FileId) (offset : Nat) (node : NodeId) : Prop :=
  p.nodeFile? node = some file ∧ ∃ span, p.span? node = some span ∧ span.touches offset = true

/-- What decides about a node at an offset, in this order: the length of its span, the number of
parents above it the other way round, and its place in the table. -/
def rank (p : Program) (node : NodeId) : Nat ×ₗ Int ×ₗ Nat :=
  toLex (((p.span? node).map Span.length).getD 0, toLex (-(p.depthOf node : Int), node.index))

/-- A node with its place as a candidate for an offset, if it is of the file and touches it. -/
def candidate? (p : Program) (file : FileId) (offset : Nat) (x : Node × Nat) : Option Candidate :=
  match x.1.span with
  | some span =>
    if x.1.file = file && span.touches offset then
      some { node := ⟨x.2⟩, length := span.length, depth := p.depthOf ⟨x.2⟩ }
    else none
  | none => none

theorem candidates_eq_filterMap (p : Program) (file : FileId) (offset : Nat) :
    p.candidates file offset = p.nodes.toList.zipIdx.filterMap (p.candidate? file offset) := rfl

section

variable {p : Program} {file : FileId} {offset : Nat}

theorem candidate?_eq_some_iff {x : Node × Nat} {c : Candidate} :
    p.candidate? file offset x = some c ↔
      ∃ span, x.1.span = some span ∧ x.1.file = file ∧ span.touches offset = true ∧
        c = ⟨⟨x.2⟩, span.length, p.depthOf ⟨x.2⟩⟩ := by
  unfold candidate?
  cases hspan : x.1.span with
  | none => simp
  | some span => simp [and_assoc, eq_comm (a := c)]

theorem touches_iff {node : NodeId} :
    p.Touches file offset node ↔
      ∃ n span, p.node? node = some n ∧ n.file = file ∧ n.span = some span ∧
        span.touches offset = true := by
  simp only [Touches, nodeFile?, span?, Option.map_eq_some_iff, Option.bind_eq_some_iff]
  constructor
  · rintro ⟨⟨n, hn, hfile⟩, span, ⟨n', hn', hspan⟩, htouches⟩
    obtain rfl : n = n' := Option.some.inj (hn.symm.trans hn')
    exact ⟨n, span, hn, hfile, hspan, htouches⟩
  · rintro ⟨n, span, hn, hfile, hspan, htouches⟩
    exact ⟨⟨n, hn, hfile⟩, span, ⟨n, hn, hspan⟩, htouches⟩

theorem mem_candidates_iff {c : Candidate} :
    c ∈ p.candidates file offset ↔ p.Touches file offset c.node ∧ c.rank = p.rank c.node := by
  rw [candidates_eq_filterMap, List.mem_filterMap, touches_iff]
  constructor
  · rintro ⟨x, hmem, hc⟩
    obtain ⟨span, hspan, hfile, htouches, rfl⟩ := candidate?_eq_some_iff.mp hc
    have hn : p.node? ⟨x.2⟩ = some x.1 := by
      simpa [node?] using List.mem_zipIdx_iff_getElem?.mp hmem
    refine ⟨⟨x.1, span, hn, hfile, hspan, htouches⟩, ?_⟩
    simp [Candidate.rank, rank, span?, hn, hspan]
  · rintro ⟨⟨n, span, hn, hfile, hspan, htouches⟩, hrank⟩
    refine ⟨⟨n, c.node.index⟩, ?_, candidate?_eq_some_iff.mpr ⟨span, hspan, hfile, htouches, ?_⟩⟩
    · exact List.mem_zipIdx_iff_getElem?.mpr (by simpa [node?] using hn)
    · refine Candidate.rank_injective (hrank.trans ?_)
      simp [Candidate.rank, rank, span?, hn, hspan]

theorem pairwise_candidates (p : Program) (file : FileId) (offset : Nat) :
    (p.candidates file offset).Pairwise fun a b => a.node.index < b.node.index := by
  have hplaces : p.nodes.toList.zipIdx.Pairwise fun x y => x.2 < y.2 := by
    rw [← List.pairwise_map (f := Prod.snd), List.zipIdx_map_snd]
    exact List.pairwise_lt_range'
  rw [candidates_eq_filterMap, List.pairwise_filterMap]
  refine hplaces.imp fun hlt a ha b hb => ?_
  obtain ⟨_, -, -, -, rfl⟩ := candidate?_eq_some_iff.mp ha
  obtain ⟨_, -, -, -, rfl⟩ := candidate?_eq_some_iff.mp hb
  exact hlt

theorem exists_candidate {node : NodeId} (h : p.Touches file offset node) :
    ∃ c ∈ p.candidates file offset, c.node = node ∧ c.rank = p.rank node :=
  ⟨⟨node, ((p.span? node).map Span.length).getD 0, p.depthOf node⟩,
    mem_candidates_iff.mpr ⟨h, rfl⟩, rfl, rfl⟩

/-- The node at an offset is the one of the least rank that touches it. -/
theorem nodeAt?_eq_some_iff {node : NodeId} :
    p.nodeAt? file offset = some node ↔
      p.Touches file offset node ∧
        ∀ other, p.Touches file offset other → p.rank node ≤ p.rank other := by
  simp only [nodeAt?, Option.map_eq_some_iff,
    Candidate.best_eq_some_iff (pairwise_candidates p file offset)]
  constructor
  · rintro ⟨c, ⟨hc, hleast⟩, rfl⟩
    obtain ⟨htouches, hrank⟩ := mem_candidates_iff.mp hc
    refine ⟨htouches, fun other hother => ?_⟩
    obtain ⟨d, hd, -, hrank'⟩ := exists_candidate hother
    rw [← hrank, ← hrank']
    exact hleast d hd
  · rintro ⟨htouches, hleast⟩
    obtain ⟨c, hc, rfl, hrank⟩ := exists_candidate htouches
    refine ⟨c, ⟨hc, fun d hd => ?_⟩, rfl⟩
    obtain ⟨htouches', hrank'⟩ := mem_candidates_iff.mp hd
    rw [hrank, hrank']
    exact hleast d.node htouches'

theorem nodeAt?_eq_none_iff :
    p.nodeAt? file offset = none ↔ ∀ node, ¬ p.Touches file offset node := by
  have hsorted := pairwise_candidates p file offset
  rw [nodeAt?, Option.map_eq_none_iff, Candidate.best_eq_none_iff hsorted,
    List.eq_nil_iff_forall_not_mem]
  constructor
  · intro hnone node htouches
    obtain ⟨c, hc, -, -⟩ := exists_candidate htouches
    exact hnone c hc
  · intro hnone c hc
    exact hnone c.node (mem_candidates_iff.mp hc).1

end

/-! ## Children inside their parents -/

/-- No node is above itself, and parents are in the file of their children and around them. -/
structure Nested (p : Program) : Prop where
  acyclic : ∀ node steps, p.above? (steps + 1) node ≠ some node
  sameFile : ∀ child parent file, p.parent? child = some parent → p.nodeFile? parent = some file →
    p.nodeFile? child = some file
  inside : ∀ child parent inner outer, p.parent? child = some parent →
    p.span? child = some inner → p.span? parent = some outer →
    outer.start ≤ inner.start ∧ inner.stop ≤ outer.stop

theorem Nested.rank_lt {p : Program} (h : p.Nested) {child node : NodeId} {inner outer : Span}
    (hparent : p.parent? child = some node) (hinner : p.span? child = some inner)
    (houter : p.span? node = some outer) : p.rank child < p.rank node := by
  obtain ⟨hstart, hstop⟩ := h.inside child node inner outer hparent hinner houter
  have hlength : inner.length ≤ outer.length := by
    rw [UInt32.le_iff_toNat_le] at hstart hstop
    unfold Span.length
    omega
  have hacyclic : p.AcyclicAbove child := fun _ more other _ => h.acyclic other more
  have hdepth := depthOf_eq_succ hparent (depthOf_le_of_acyclic hacyclic)
  simp only [rank, hinner, houter, Option.map_some, Option.getD_some, Prod.Lex.toLex_lt_toLex]
  omega

theorem Nested.not_touches {p : Program} (h : p.Nested) {file : FileId} {offset : Nat}
    {node child : NodeId} {span : Span} (hnode : p.nodeAt? file offset = some node)
    (hparent : p.parent? child = some node) (hspan : p.span? child = some span) :
    span.touches offset = false := by
  obtain ⟨⟨hfile, outer, houter, -⟩, hleast⟩ := nodeAt?_eq_some_iff.mp hnode
  by_contra htouches
  have hchild : p.Touches file offset child :=
    ⟨h.sameFile child node file hparent hfile, span, hspan, Bool.eq_true_of_not_eq_false htouches⟩
  exact not_lt.mpr (hleast child hchild) (h.rank_lt hparent hspan houter)

/-- The node at an offset is the one with the shortest span, then with the most parents, then in the
first place, of the nodes of the file that touch it; there is none just if no node does. The depth
of a node is the number of steps up to a node without a parent, and the limit if there is a cycle on
the way. Where nodes are nested, no child of the node at an offset touches the offset. -/
theorem nodeAt?_narrowest_deepest (p : Program) (file : FileId) (offset : Nat) :
    (p.nodeAt? file offset = none ↔ ∀ node, ¬ p.Touches file offset node) ∧
    (∀ node, p.nodeAt? file offset = some node ↔
      p.Touches file offset node ∧
        ∀ other, p.Touches file offset other → p.rank node ≤ p.rank other) ∧
    (∀ node,
      (p.AcyclicAbove node → p.depthOf node ≤ p.nodes.size ∧
        ∃ top, p.above? (p.depthOf node) node = some top ∧ p.parent? top = none) ∧
      (¬ p.AcyclicAbove node → p.depthOf node = p.nodes.size + 1)) ∧
    (p.Nested → ∀ node child span, p.nodeAt? file offset = some node →
      p.parent? child = some node → p.span? child = some span → span.touches offset = false) := by
  refine ⟨nodeAt?_eq_none_iff, fun node => nodeAt?_eq_some_iff, fun node => ⟨fun h => ?_,
    depthOf_of_not_acyclic⟩, fun h node child span => h.not_touches⟩
  have hle := depthOf_le_of_acyclic h
  exact ⟨hle, exists_top_of_lt (Nat.lt_succ_of_le hle)⟩

/-- Parents that stand before their children in the table lead back to no node. -/
theorem above?_ne_of_index_lt {p : Program}
    (h : ∀ child parent, p.parent? child = some parent → parent.index < child.index)
    (node : NodeId) (steps : Nat) : p.above? (steps + 1) node ≠ some node := by
  have hlt (steps : Nat) (child other : NodeId) (hother : p.above? (steps + 1) child = some other) :
      other.index < child.index := by
    induction steps generalizing child with
    | zero => exact h child other (by simpa [above?] using hother)
    | succ steps ih =>
      obtain ⟨parent, hparent, hother⟩ := Option.bind_eq_some_iff.mp hother
      exact Nat.lt_trans (ih parent hother) (h child parent hparent)
  exact fun habove => Nat.lt_irrefl _ (hlt steps node node habove)

/-- The nodes of `f(x)`: the call, its arguments, the argument, and the identifier that is all of
it. -/
def nestedCall : Program :=
  { files := #[{ name := "a.ts", text := "f(x)" }]
    types := #[.error]
    nodes := #[{ file := ⟨0⟩, form := .other, span := some ⟨0, 4⟩ },
      { file := ⟨0⟩, form := .other, span := some ⟨1, 4⟩, parent := some ⟨0⟩ },
      { file := ⟨0⟩, form := .other, span := some ⟨2, 3⟩, parent := some ⟨1⟩ },
      { file := ⟨0⟩, form := .other, span := some ⟨2, 3⟩, parent := some ⟨2⟩ }] }

theorem nested_nestedCall : nestedCall.Nested := by
  have hparents (child parent : NodeId) (h : nestedCall.parent? child = some parent) :
      child = ⟨1⟩ ∧ parent = ⟨0⟩ ∨ child = ⟨2⟩ ∧ parent = ⟨1⟩ ∨ child = ⟨3⟩ ∧ parent = ⟨2⟩ := by
    obtain ⟨_ | _ | _ | _ | i⟩ := child <;> simp_all [nestedCall, parent?, node?]
  constructor
  case acyclic =>
    refine above?_ne_of_index_lt fun child parent h => ?_
    obtain ⟨rfl, rfl⟩ | ⟨rfl, rfl⟩ | ⟨rfl, rfl⟩ := hparents child parent h <;> decide
  case sameFile =>
    intro child parent file h hfile
    obtain ⟨rfl, rfl⟩ | ⟨rfl, rfl⟩ | ⟨rfl, rfl⟩ := hparents child parent h <;> exact hfile
  case inside =>
    intro child parent inner outer h hinner houter
    obtain ⟨rfl, rfl⟩ | ⟨rfl, rfl⟩ | ⟨rfl, rfl⟩ := hparents child parent h <;>
      · cases hinner
        cases houter
        decide

def ownParent : Program :=
  { types := #[.error], nodes := #[{ file := ⟨0⟩, form := .other, parent := some ⟨0⟩ }] }

/-- At the end of `x` the argument is as long as the identifier, which is deeper; and the arguments
do not touch the start of the call. The depth of a node that is its own parent is the limit. -/
theorem nodeAt?_narrowest_deepest_nestedCall :
    nestedCall.nodeAt? ⟨0⟩ 3 = some ⟨3⟩ ∧ nestedCall.rank ⟨3⟩ ≤ nestedCall.rank ⟨2⟩ ∧
    (∃ top, nestedCall.above? (nestedCall.depthOf ⟨3⟩) ⟨3⟩ = some top ∧
      nestedCall.parent? top = none) ∧
    nestedCall.nodeAt? ⟨0⟩ 0 = some ⟨0⟩ ∧ nestedCall.parent? ⟨1⟩ = some ⟨0⟩ ∧
    (Span.mk 1 4).touches 0 = false ∧
    ¬ ownParent.AcyclicAbove ⟨0⟩ ∧ ownParent.depthOf ⟨0⟩ = 2 := by
  obtain ⟨-, hleast, hdepth, -⟩ := nodeAt?_narrowest_deepest nestedCall ⟨0⟩ 3
  obtain ⟨-, -, -, hchildren⟩ := nodeAt?_narrowest_deepest nestedCall ⟨0⟩ 0
  obtain ⟨-, -, hlimit, -⟩ := nodeAt?_narrowest_deepest ownParent ⟨0⟩ 0
  have hdeepest : nestedCall.nodeAt? ⟨0⟩ 3 = some ⟨3⟩ := by decide +kernel
  have hcall : nestedCall.nodeAt? ⟨0⟩ 0 = some ⟨0⟩ := by decide +kernel
  have hacyclic : nestedCall.AcyclicAbove ⟨3⟩ :=
    fun _ more other _ => nested_nestedCall.acyclic other more
  have hcycle : ¬ ownParent.AcyclicAbove ⟨0⟩ := fun h => h 0 0 ⟨0⟩ rfl rfl
  refine ⟨hdeepest, ?_, ((hdepth ⟨3⟩).1 hacyclic).2, hcall, rfl, ?_, hcycle, (hlimit ⟨0⟩).2 hcycle⟩
  · exact ((hleast ⟨3⟩).mp hdeepest).2 ⟨2⟩ ⟨rfl, ⟨2, 3⟩, rfl, by decide⟩
  · exact hchildren nested_nestedCall ⟨0⟩ ⟨1⟩ ⟨1, 4⟩ hcall rfl rfl

end PortableTypes.Program
