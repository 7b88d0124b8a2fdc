import PortableTypes.Proofs.Store.Key

/-!
# Stores that share a counter

Any number of stores draw their generations from one counter, in any order of making, emptying and
filling them. As long as the counter has not gone round, no two stores are ever of one generation
and no generation comes back, so a key leads to the object it was made for, in its own store, until
that store is emptied, and nowhere else at any time.
-/
namespace PortableTypes

namespace Counter

/-- The generation that is drawn after `a` others. -/
def nth (c : Counter) (a : Nat) : UInt32 := c.next + UInt32.ofNat a

theorem nth_succ (c : Counter) (a : Nat) : c.nth (a + 1) = c.nth a + 1 := by
  simp [nth, UInt32.ofNat_add, UInt32.add_assoc]

theorem nth_inj {c : Counter} {a b : Nat} (ha : a < 2 ^ 32) (hb : b < 2 ^ 32)
    (h : c.nth a = c.nth b) : a = b := by
  have h' : UInt32.ofNat a = UInt32.ofNat b := (UInt32.add_right_inj _).mp h
  have hn := congrArg UInt32.toNat h'
  rwa [UInt32.toNat_ofNat_of_lt' ha, UInt32.toNat_ofNat_of_lt' hb] at hn

/-- A generation does not come back before the counter has gone round. -/
theorem nth_ne_of_lt {c : Counter} {a d : Nat} (h : a < d) (hd : d < 2 ^ 32) :
    c.nth d ≠ c.nth a := by
  intro heq
  have hda := nth_inj hd (Nat.lt_trans h hd) heq
  omega

end Counter

namespace Store

theorem get?_eq_none_of_ne {s : Store} {k : StoreKey} (h : k.generation ≠ s.generation) :
    s.get? k = none := if_neg h

theorem get?_nextKey_intern (s : Store) (object : StoredObject) :
    (s.intern object).2.get? s.nextKey = some object := by
  simp [intern, nextKey, get?]

/-- Objects that are added later change no object that is there. -/
theorem get?_intern {s : Store} {k : StoreKey} {found : StoredObject} (object : StoredObject)
    (h : s.get? k = some found) : (s.intern object).2.get? k = some found := by
  unfold get? at h ⊢
  split at h
  · rename_i hg
    obtain ⟨hlt, heq⟩ := Array.getElem?_eq_some_iff.mp h
    have hne : k.index ≠ s.entries.size := by omega
    simp [intern, hg, Array.getElem?_push, hne, h]
  · contradiction

end Store

namespace Stores

/-- What can be done to stores that share a counter. -/
inductive Operation
  | add
  | reset (i : Nat)
  | intern (i : Nat) (object : StoredObject)
  deriving DecidableEq

def apply (ss : Stores) : Operation → Stores
  | .add => ss.add.2
  | .reset i => ss.reset i
  | .intern i object => (ss.intern i object).2

/-- The stores after operations in order. -/
def run (ss : Stores) (ops : List Operation) : Stores := ops.foldl apply ss

/-- The store to which an operation gives a new generation, if there is one. -/
def renewed? (ss : Stores) : Operation → Option Nat
  | .add => some ss.stores.size
  | .reset i => ss.stores[i]?.map fun _ => i
  | .intern _ _ => none

/-- How many generations operations draw in order. -/
def draws (ss : Stores) : List Operation → Nat
  | [] => 0
  | op :: ops => (ss.renewed? op).toList.length + (ss.apply op).draws ops

@[simp] theorem run_nil (ss : Stores) : ss.run [] = ss := rfl

@[simp] theorem run_cons (ss : Stores) (op : Operation) (ops : List Operation) :
    ss.run (op :: ops) = (ss.apply op).run ops := rfl

theorem run_append (ss : Stores) (ops later : List Operation) :
    ss.run (ops ++ later) = (ss.run ops).run later := List.foldl_append

theorem draws_append (ss : Stores) (ops later : List Operation) :
    ss.draws (ops ++ later) = ss.draws ops + (ss.run ops).draws later := by
  induction ops generalizing ss with
  | nil => simp [draws]
  | cons op ops ih => simp [draws, ih, Nat.add_assoc]

theorem draws_mono {ss : Stores} {ops more : List Operation} (h : ops <+: more) :
    ss.draws ops ≤ ss.draws more := by
  obtain ⟨later, rfl⟩ := h
  rw [draws_append]
  omega

/-- No store yet. -/
def start (c : Counter) : Stores := { counter := c, stores := #[] }

/-- Stores after `d` draws from a counter: each is of a generation drawn by then, no two are of the
same one, and the counter stands at the next. -/
structure Orderly (c : Counter) (d : Nat) (ss : Stores) : Prop where
  counter : ss.counter.next = c.nth d
  drawn : ∀ {i : Nat} {s : Store}, ss.stores[i]? = some s → ∃ a < d, s.generation = c.nth a
  distinct : ∀ {i j : Nat} {s t : Store}, ss.stores[i]? = some s → ss.stores[j]? = some t →
    s.generation = t.generation → i = j

theorem orderly_start (c : Counter) : Orderly c 0 (start c) where
  counter := by simp [start, Counter.nth]
  drawn := by simp [start]
  distinct := by simp [start]

theorem size_le_apply (ss : Stores) (op : Operation) :
    ss.stores.size ≤ (ss.apply op).stores.size := by
  cases op with
  | add => simp [apply, add]
  | reset i => simp only [apply, reset]; split <;> simp
  | intern i object => simp only [apply, intern]; split <;> simp

theorem size_le_run (ss : Stores) (ops : List Operation) :
    ss.stores.size ≤ (ss.run ops).stores.size := by
  induction ops generalizing ss with
  | nil => simp
  | cons op ops ih => exact Nat.le_trans (size_le_apply ss op) (ih _)

/-- The counter moves on exactly if a store takes a new generation. -/
theorem counter_apply (ss : Stores) (op : Operation) :
    (ss.apply op).counter.next =
      if (ss.renewed? op).isSome then ss.counter.next + 1 else ss.counter.next := by
  cases op with
  | add => simp [apply, add, renewed?, Store.fresh, Counter.draw]
  | reset i =>
    cases h : ss.stores[i]? with
    | none => simp [apply, reset, renewed?, h]
    | some s => simp [apply, reset, renewed?, h, Store.reset, Store.fresh, Counter.draw]
  | intern i object => simp only [apply, intern, renewed?]; split <;> simp

/-- A store after an operation has the generation at which the counter stood, if it was renewed, and
else the one it had. -/
theorem generation_apply {ss : Stores} {op : Operation} {j : Nat} {t : Store}
    (h : (ss.apply op).stores[j]? = some t) :
    if ss.renewed? op = some j then t.generation = ss.counter.next
    else ∃ s, ss.stores[j]? = some s ∧ s.generation = t.generation := by
  cases op with
  | add =>
    simp only [apply, add, Store.fresh, Counter.draw, Array.getElem?_push] at h
    simp only [renewed?, Option.some.injEq]
    by_cases hj : j = ss.stores.size
    · rw [if_pos hj, Option.some.injEq] at h
      rw [if_pos hj.symm, ← h]
    · rw [if_neg hj] at h
      rw [if_neg (Ne.symm hj)]
      exact ⟨t, h, rfl⟩
  | reset i =>
    cases hi : ss.stores[i]? with
    | none =>
      simp only [apply, reset, hi] at h
      simpa [renewed?, hi] using ⟨t, h, rfl⟩
    | some s =>
      simp only [apply, reset, hi, Store.reset, Store.fresh, Counter.draw,
        Array.getElem?_modify] at h
      simp only [renewed?, hi, Option.map_some, Option.some.injEq]
      by_cases hj : i = j
      · subst hj
        rw [if_pos rfl, hi, Option.map_some, Option.some.injEq] at h
        rw [if_pos rfl, ← h]
      · rw [if_neg hj] at h ⊢
        exact ⟨t, h, rfl⟩
  | intern i object =>
    cases hi : ss.stores[i]? with
    | none =>
      simp only [apply, intern, hi] at h
      simpa [renewed?] using ⟨t, h, rfl⟩
    | some s =>
      simp only [apply, intern, hi, Store.intern, Array.getElem?_modify] at h
      simp only [renewed?, reduceCtorEq, if_false]
      by_cases hj : i = j
      · subst hj
        rw [if_pos rfl, hi, Option.map_some, Option.some.injEq] at h
        exact ⟨s, hi, by rw [← h]⟩
      · rw [if_neg hj] at h
        exact ⟨t, h, rfl⟩

/-- An operation keeps stores orderly, one draw further if it renews a store. -/
theorem Orderly.apply {c : Counter} {d : Nat} {ss : Stores} (ho : Orderly c d ss) (op : Operation)
    (hd : d + (ss.renewed? op).toList.length < 2 ^ 32) :
    Orderly c (d + (ss.renewed? op).toList.length) (ss.apply op) := by
  have hnew : ∀ {j : Nat} {s : Store}, ss.stores[j]? = some s → s.generation ≠ c.nth d := by
    intro j s hs
    obtain ⟨a, ha, hg⟩ := ho.drawn hs
    rw [hg]
    exact (Counter.nth_ne_of_lt ha (by omega)).symm
  have hstep : ∀ {j : Nat} {t : Store}, (ss.apply op).stores[j]? = some t →
      if ss.renewed? op = some j then t.generation = c.nth d
      else ∃ s, ss.stores[j]? = some s ∧ s.generation = t.generation := by
    intro j t ht
    simpa only [ho.counter] using generation_apply ht
  refine ⟨?_, ?_, ?_⟩
  · rw [counter_apply, ho.counter]
    cases ss.renewed? op with
    | none => simp
    | some r => simp [Counter.nth_succ]
  · intro j t ht
    have hj := hstep ht
    by_cases hr : ss.renewed? op = some j
    · rw [if_pos hr] at hj
      exact ⟨d, by simp [hr], hj⟩
    · rw [if_neg hr] at hj
      obtain ⟨s, hs, hg⟩ := hj
      obtain ⟨a, ha, hga⟩ := ho.drawn hs
      exact ⟨a, by omega, hg ▸ hga⟩
  · intro i j t u ht hu heq
    have hi := hstep ht
    have hj := hstep hu
    by_cases hri : ss.renewed? op = some i <;> by_cases hrj : ss.renewed? op = some j
    · exact Option.some.inj (hri.symm.trans hrj)
    · rw [if_pos hri] at hi
      rw [if_neg hrj] at hj
      obtain ⟨s, hs, hg⟩ := hj
      exact absurd (hg.trans (heq.symm.trans hi)) (hnew hs)
    · rw [if_neg hri] at hi
      rw [if_pos hrj] at hj
      obtain ⟨s, hs, hg⟩ := hi
      exact absurd (hg.trans (heq.trans hj)) (hnew hs)
    · rw [if_neg hri] at hi
      rw [if_neg hrj] at hj
      obtain ⟨s, hs, hg⟩ := hi
      obtain ⟨s', hs', hg'⟩ := hj
      exact ho.distinct hs hs' (by rw [hg, hg', heq])

theorem Orderly.run {c : Counter} {d : Nat} {ss : Stores} (ho : Orderly c d ss)
    (ops : List Operation) (hd : d + ss.draws ops < 2 ^ 32) :
    Orderly c (d + ss.draws ops) (ss.run ops) := by
  induction ops generalizing ss d with
  | nil => exact ho
  | cons op ops ih =>
    simp only [draws, ← Nat.add_assoc] at hd ⊢
    exact ih (ho.apply op (by omega)) hd

/-- The stores of a run from the start are orderly. -/
theorem orderly_run_start (c : Counter) (ops : List Operation)
    (hd : (start c).draws ops < 2 ^ 32) :
    Orderly c ((start c).draws ops) ((start c).run ops) := by
  simpa using (orderly_start c).run ops (by simpa using hd)

/-- A store that is not of a generation drawn before never becomes of that generation. -/
theorem Orderly.generation_ne_run {c : Counter} {d a j : Nat} {ss : Stores} (ho : Orderly c d ss)
    (ha : a < d) (ops : List Operation) (hd : d + ss.draws ops < 2 ^ 32)
    (hne : ∀ s, ss.stores[j]? = some s → s.generation ≠ c.nth a) {t : Store}
    (ht : (ss.run ops).stores[j]? = some t) : t.generation ≠ c.nth a := by
  induction ops generalizing ss d with
  | nil => exact hne t ht
  | cons op ops ih =>
    simp only [draws, ← Nat.add_assoc] at hd
    refine ih (ho.apply op (by omega)) (by omega) hd ?_ ht
    intro s hs
    have hstep := generation_apply hs
    by_cases hr : ss.renewed? op = some j
    · rw [if_pos hr, ho.counter] at hstep
      rw [hstep]
      exact Counter.nth_ne_of_lt ha (by omega)
    · rw [if_neg hr] at hstep
      obtain ⟨s', hs', hg⟩ := hstep
      exact hg ▸ hne s' hs'

/-- An operation that does not empty a store leaves the objects that it has where they are. -/
theorem get?_apply {ss : Stores} {i : Nat} {s : Store} {k : StoreKey} {object : StoredObject}
    (hs : ss.stores[i]? = some s) (hk : s.get? k = some object) {op : Operation}
    (hop : op ≠ .reset i) :
    ∃ t, (ss.apply op).stores[i]? = some t ∧ t.get? k = some object := by
  cases op with
  | add =>
    have hlt := (Array.getElem?_eq_some_iff.mp hs).1
    have hne : i ≠ ss.stores.size := by omega
    exact ⟨s, by simp [apply, add, Array.getElem?_push, hne, hs], hk⟩
  | reset j =>
    have hne : j ≠ i := fun h => hop (h ▸ rfl)
    cases hj : ss.stores[j]? with
    | none => exact ⟨s, by simp [apply, reset, hj, hs], hk⟩
    | some u => exact ⟨s, by simp [apply, reset, hj, Array.getElem?_modify, hne, hs], hk⟩
  | intern j other =>
    cases hj : ss.stores[j]? with
    | none => exact ⟨s, by simp [apply, intern, hj, hs], hk⟩
    | some u =>
      by_cases hne : j = i
      · subst hne
        obtain rfl : s = u := Option.some.inj (hs.symm.trans hj)
        exact ⟨_, by simp [apply, intern, Array.getElem?_modify, hs], Store.get?_intern other hk⟩
      · exact ⟨s, by simp [apply, intern, hj, Array.getElem?_modify, hne, hs], hk⟩

theorem get?_run {ss : Stores} {i : Nat} {s : Store} {k : StoreKey} {object : StoredObject}
    (hs : ss.stores[i]? = some s) (hk : s.get? k = some object) {ops : List Operation}
    (hops : .reset i ∉ ops) :
    ∃ t, (ss.run ops).stores[i]? = some t ∧ t.get? k = some object := by
  induction ops generalizing ss s with
  | nil => exact ⟨s, hs, hk⟩
  | cons op ops ih =>
    simp only [List.mem_cons, not_or] at hops
    obtain ⟨t, ht, hkt⟩ := get?_apply hs hk (Ne.symm hops.1)
    exact ih ht hkt hops.2

/-- A key comes from the store in which the object was put, and leads to the object there. -/
theorem intern_cases {ss : Stores} {i : Nat} {object : StoredObject} {key : StoreKey}
    (h : (ss.intern i object).1 = some key) :
    ∃ s t, ss.stores[i]? = some s ∧ (ss.apply (.intern i object)).stores[i]? = some t ∧
      key.generation = s.generation ∧ t.get? key = some object := by
  cases hs : ss.stores[i]? with
  | none => simp [intern, hs] at h
  | some s =>
    obtain rfl : s.nextKey = key := by simpa [intern, hs, Store.intern] using h
    exact ⟨s, (s.intern object).2, rfl, by simp [apply, intern, Array.getElem?_modify, hs], rfl,
      Store.get?_nextKey_intern s object⟩

/-- A store that is emptied takes a generation that was not drawn before. -/
theorem Orderly.generation_ne_reset {c : Counter} {d a i : Nat} {ss : Stores}
    (ho : Orderly c d ss) (ha : a < d) (hd : d < 2 ^ 32) {t : Store}
    (ht : (ss.apply (.reset i)).stores[i]? = some t) : t.generation ≠ c.nth a := by
  have hstep := generation_apply ht
  cases hs : ss.stores[i]? with
  | none => simp [renewed?, hs] at hstep
  | some s =>
    simp only [renewed?, hs, Option.map_some, if_true, ho.counter] at hstep
    rw [hstep]
    exact Counter.nth_ne_of_lt ha hd

/-- A store that was emptied since a generation was drawn is never of that generation again. -/
theorem Orderly.generation_ne_run_reset {c : Counter} {d a i : Nat} {ss : Stores}
    (ho : Orderly c d ss) (ha : a < d) {ops : List Operation} (hops : .reset i ∈ ops)
    (hd : d + ss.draws ops < 2 ^ 32) {t : Store} (ht : (ss.run ops).stores[i]? = some t) :
    t.generation ≠ c.nth a := by
  obtain ⟨earlier, later, rfl⟩ := List.append_of_mem hops
  simp only [draws_append, draws] at hd
  rw [run_append, run_cons] at ht
  have hbefore := ho.run earlier (by omega)
  refine (hbefore.apply (.reset i) (by omega)).generation_ne_run (by omega) later (by omega) ?_ ht
  intro s hs
  exact hbefore.generation_ne_reset (by omega) (by omega) hs

/-- Two stores are never of one generation, even if one is looked at later than the other. -/
theorem Orderly.generation_ne_of_ne {c : Counter} {d i j : Nat} {ss : Stores} (ho : Orderly c d ss)
    (hij : i ≠ j) {ops : List Operation} (hd : d + ss.draws ops < 2 ^ 32) {s t : Store}
    (hs : ss.stores[i]? = some s) (ht : (ss.run ops).stores[j]? = some t) :
    s.generation ≠ t.generation := by
  obtain ⟨a, ha, hg⟩ := ho.drawn hs
  have hne : t.generation ≠ c.nth a := by
    refine ho.generation_ne_run ha ops hd ?_ ht
    intro u hu heq
    exact hij (ho.distinct hs hu (hg.trans heq.symm))
  exact fun h => hne (h ▸ hg)

/-- Two stores are never of one generation, each looked at some moment of a run. -/
theorem generation_ne_of_moments {c : Counter} {ops before moment : List Operation} {i j : Nat}
    {s t : Store} (hbefore : before <+: ops) (hmoment : moment <+: ops)
    (hd : (start c).draws ops < 2 ^ 32) (hij : i ≠ j)
    (hs : ((start c).run before).stores[i]? = some s)
    (ht : ((start c).run moment).stores[j]? = some t) : s.generation ≠ t.generation := by
  have hdbefore := Nat.lt_of_le_of_lt (draws_mono hbefore) hd
  have hdmoment := Nat.lt_of_le_of_lt (draws_mono hmoment) hd
  obtain ⟨later, rfl⟩ | ⟨later, rfl⟩ := List.prefix_or_prefix_of_prefix hbefore hmoment
  · have ho := orderly_run_start c before hdbefore
    rw [draws_append] at hdmoment
    rw [run_append] at ht
    exact ho.generation_ne_of_ne hij hdmoment hs ht
  · have ho := orderly_run_start c moment hdmoment
    rw [draws_append] at hdbefore
    rw [run_append] at hs
    exact (ho.generation_ne_of_ne hij.symm hdbefore ht hs).symm

/-- In the store that made it, a key leads to its object until the store is emptied. -/
theorem Orderly.get?_own {c : Counter} {d i : Nat} {ss : Stores} (ho : Orderly c d ss)
    {object : StoredObject} {key : StoreKey} (hkey : (ss.intern i object).1 = some key)
    {later : List Operation} (hd : d + ss.draws (.intern i object :: later) < 2 ^ 32) :
    ∃ s, (ss.run (.intern i object :: later)).stores[i]? = some s ∧
      s.get? key = if .reset i ∈ later then none else some object := by
  obtain ⟨own, filled, hown, hfilled, hgeneration, hget⟩ := intern_cases hkey
  by_cases hreset : .reset i ∈ later
  · have hsize : i < (ss.run (.intern i object :: later)).stores.size := by
      have hlt := (Array.getElem?_eq_some_iff.mp hown).1
      have hle := size_le_run ss (.intern i object :: later)
      omega
    refine ⟨_, Array.getElem?_eq_getElem hsize, ?_⟩
    obtain ⟨a, ha, hdrawn⟩ := ho.drawn hown
    have hne := ho.generation_ne_run_reset ha (List.mem_cons_of_mem (.intern i object) hreset) hd
      (Array.getElem?_eq_getElem hsize)
    rw [if_pos hreset]
    exact Store.get?_eq_none_of_ne fun h => hne (h.symm.trans (hgeneration.trans hdrawn))
  · rw [if_neg hreset]
    exact get?_run hfilled hget hreset

/-- Of stores that share a counter, made, emptied and filled in any order with fewer than `2 ^ 32`
generations drawn: a key leads to its object in the store that made it for as long as that store is
not emptied, to nothing there from then on, and to nothing in any other store at any moment of the
run, before the key was made or after. Places are numbers of 64 bits, so that of the key is one. -/
theorem key_resolves_until_reset (c : Counter) (before after : List Operation) (i : Nat)
    (object : StoredObject) (key : StoreKey)
    (hkey : (((start c).run before).intern i object).1 = some key) (hplace : key.index < 2 ^ 64)
    (hdraws : (start c).draws (before ++ .intern i object :: after) < 2 ^ 32) :
    (∀ later, later <+: after →
      ∃ s, ((start c).run (before ++ .intern i object :: later)).stores[i]? = some s ∧
        if .reset i ∈ later then s.get? key = none ∧ s.lookup? key.text = none
        else s.get? key = some object ∧ s.lookup? key.text = some object) ∧
    ∀ moment, moment <+: before ++ .intern i object :: after → ∀ j t, j ≠ i →
      ((start c).run moment).stores[j]? = some t →
        t.get? key = none ∧ t.lookup? key.text = none := by
  have hbefore : before <+: before ++ .intern i object :: after := List.prefix_append before _
  constructor
  · intro later hlater
    have hd := Nat.lt_of_le_of_lt (draws_mono ((List.prefix_append_right_inj before).mpr
      ((List.prefix_cons_inj (.intern i object)).mpr hlater))) hdraws
    have ho := orderly_run_start c before (Nat.lt_of_le_of_lt (draws_mono hbefore) hdraws)
    rw [draws_append] at hd
    obtain ⟨s, hs, hget⟩ := ho.get?_own hkey hd
    refine ⟨s, by rw [run_append]; exact hs, ?_⟩
    split
    · rename_i hreset
      rw [if_pos hreset] at hget
      exact ⟨hget, Store.lookup?_text_eq_none hget⟩
    · rename_i hreset
      rw [if_neg hreset] at hget
      exact ⟨hget, by rw [Store.lookup?_text hplace, hget]⟩
  · intro moment hm j t hj ht
    obtain ⟨own, -, hown, -, hgeneration, -⟩ := intern_cases hkey
    have hne : key.generation ≠ t.generation := by
      rw [hgeneration]
      exact generation_ne_of_moments hbefore hm hdraws hj.symm hown ht
    have hnone := Store.get?_eq_none_of_ne hne
    exact ⟨hnone, Store.lookup?_text_eq_none hnone⟩

/-- The first place of a store is used again after the store is emptied, and the old key of that
place leads nowhere, while the second store had its first place filled all along. -/
theorem key_resolves_until_reset_reused_place :
    (((start .initial).run [.add, .add, .intern 1 ⟨⟨9⟩, []⟩]).intern 0 ⟨⟨7⟩, []⟩).1 =
      some ⟨1, 0⟩ ∧
    (start .initial).draws ([.add, .add, .intern 1 ⟨⟨9⟩, []⟩] ++
      .intern 0 ⟨⟨7⟩, []⟩ :: [.reset 0, .intern 0 ⟨⟨8⟩, []⟩]) < 2 ^ 32 ∧
    ∃ s, ((start .initial).run ([.add, .add, .intern 1 ⟨⟨9⟩, []⟩] ++
        .intern 0 ⟨⟨7⟩, []⟩ :: [.reset 0, .intern 0 ⟨⟨8⟩, []⟩])).stores[0]? = some s ∧
      s.get? ⟨1, 0⟩ = none ∧ s.lookup? (StoreKey.text ⟨1, 0⟩) = none := by
  have hkey : (((start .initial).run [.add, .add, .intern 1 ⟨⟨9⟩, []⟩]).intern 0 ⟨⟨7⟩, []⟩).1 =
      some ⟨1, 0⟩ := by decide
  have hdraws : (start .initial).draws ([.add, .add, .intern 1 ⟨⟨9⟩, []⟩] ++
      .intern 0 ⟨⟨7⟩, []⟩ :: [.reset 0, .intern 0 ⟨⟨8⟩, []⟩]) < 2 ^ 32 := by decide
  obtain ⟨s, hs, hreset⟩ := (key_resolves_until_reset .initial _ _ 0 _ _ hkey (by decide)
    hdraws).1 _ List.prefix_rfl
  rw [if_pos (by decide)] at hreset
  exact ⟨hkey, hdraws, s, hs, hreset⟩

end Stores
end PortableTypes
