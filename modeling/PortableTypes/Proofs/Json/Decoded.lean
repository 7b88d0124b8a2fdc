import PortableTypes.Json.Record

/-!
# What decoders give

A decoder can be known by what holds of everything it gives, whatever the document. What the
decoders of the parts give is what the parts of a list, of an optional value or of a record satisfy.
-/
namespace PortableTypes

/-- If a computation succeeds, its result satisfies `P`. -/
def Ensures {ε α : Type} (x : Except ε α) (P : α → Prop) : Prop :=
  ∀ a, x = .ok a → P a

namespace Ensures

variable {ε α β : Type} {P : α → Prop} {Q : β → Prop}

theorem ok {a : α} (h : P a) : Ensures (.ok a : Except ε α) P := by
  intro b hb
  cases hb
  exact h

theorem error {e : ε} : Ensures (.error e : Except ε α) P := by
  intro b hb
  cases hb

theorem bind {x : Except ε α} {f : α → Except ε β} (hx : Ensures x P)
    (hf : ∀ a, P a → Ensures (f a) Q) : Ensures (x >>= f) Q := by
  cases x with
  | error e => exact error
  | ok a => exact hf a (hx a rfl)

/-- The result of the first step does not matter. -/
theorem after {x : Except ε α} {f : α → Except ε β} (hf : ∀ a, Ensures (f a) Q) :
    Ensures (x >>= f) Q := by
  have hx : Ensures x fun _ => True := fun _ _ => trivial
  exact hx.bind fun a _ => hf a

theorem map {x : Except ε α} {f : α → β} (hx : Ensures x P) (hf : ∀ a, P a → Q (f a)) :
    Ensures (f <$> x) Q := by
  cases x with
  | error e => exact error
  | ok a => exact ok (hf a (hx a rfl))

theorem mapM {f : α → Except ε β} (hf : ∀ a, Ensures (f a) Q) (as : List α) :
    Ensures (as.mapM f) fun bs => ∀ b ∈ bs, Q b := by
  induction as with
  | nil => exact ok (List.forall_mem_nil _)
  | cons a as ih =>
    rw [List.mapM_cons]
    refine (hf a).bind fun b hb => ih.bind fun bs hbs => ?_
    exact ok (List.forall_mem_cons.mpr ⟨hb, hbs⟩)

end Ensures

namespace Decode

/-- Everything that a decoder gives satisfies `P`. -/
def Gives {α : Type} (decode : Decoder α) (P : α → Prop) : Prop := ∀ j, Ensures (decode j) P

section

variable {α : Type} {P : α → Prop} {decode : Decoder α}

theorem gives_anything : Gives decode fun _ => True := fun _ _ _ => trivial

theorem gives_natural32 : Gives natural32 (· < 2 ^ 32) := by
  intro j
  unfold natural32
  split
  · split
    · exact .ok ‹_›
    · exact .error
  · exact .error
  · exact .error

theorem gives_list (h : Gives decode P) : Gives (list decode) fun as => ∀ a ∈ as, P a := by
  intro j
  unfold list
  split
  · exact .mapM h _
  · exact .error

theorem gives_nullable (h : Gives decode P) : Gives (nullable decode) fun o => ∀ a ∈ o, P a := by
  intro j
  unfold nullable
  split
  · exact .ok fun a ha => absurd ha (Option.not_mem_none a)
  · refine (h _).map fun a ha b hb => ?_
    cases hb
    exact ha

theorem ensures_ofText (h : Gives decode P) (text : String) : Ensures (ofText decode text) P := by
  unfold ofText
  generalize Json.read Json.maxDepth text = r
  obtain ⟨j, ended⟩ := r
  refine (h j).bind fun a ha => ?_
  cases ended with
  | true => exact .ok ha
  | false => exact .error

end
end Decode

/-- What stands for an absent field satisfies `P`. -/
def Absent.Satisfies {α : Type} (P : α → Prop) : Absent α → Prop
  | .required => True
  | .inObject a | .default a => P a

namespace Row

/-- What the decoders of the fields give, and what stands for absent fields, holds of the parts of a
record. -/
inductive Gives : {σ ρ : Type} → Row σ ρ → (ρ → Prop) → Prop
  | done : Gives .done fun _ => True
  | field {α σ ρ : Type} {name : String} {decode : Decoder α} {absent : Absent α} {rest : Row σ ρ}
      {P : α → Prop} {Q : ρ → Prop} (here : Decode.Gives decode P) (missing : absent.Satisfies P)
      (there : Gives rest Q) : Gives (.field name decode absent rest) fun r => P r.1 ∧ Q r.2

namespace Gives

variable {σ ρ : Type} {row : Row σ ρ} {Q : ρ → Prop}

/-- What is decoded of an object so far keeps to an invariant, from which the record follows. -/
theorem exists_invariant (h : row.Gives Q) :
    ∃ I : σ → Prop, I row.empty ∧
      (∀ name j s, I s → Ensures (row.put name j s) fun next => ∀ s' ∈ next, I s') ∧
      ∀ s, I s → Ensures (row.finish s) Q := by
  induction h with
  | done =>
    refine ⟨fun _ => True, trivial, fun _ _ _ _ => .ok ?_, fun _ _ => .ok trivial⟩
    exact fun _ _ => trivial
  | @field α σ ρ name decode absent rest P Q here missing there ih =>
    obtain ⟨I, hempty, hput, hfinish⟩ := ih
    refine ⟨fun s => (∀ a ∈ s.1, P a) ∧ I s.2, ⟨(fun _ ha => nomatch ha), hempty⟩, ?_, ?_⟩
    · intro other j s hs
      obtain ⟨slot, slots⟩ := s
      simp only [put]
      split
      · split
        · exact .error
        · refine (here j).bind fun a ha => .ok fun s' hs' => ?_
          cases hs'
          refine ⟨fun b hb => ?_, hs.2⟩
          cases hb
          exact ha
      · refine (hput other j slots hs.2).bind fun next hnext => .ok fun s' hs' => ?_
        obtain ⟨slots', hslots', rfl⟩ := Option.map_eq_some_iff.mp hs'
        exact ⟨hs.1, hnext slots' hslots'⟩
    · intro s hs
      obtain ⟨slot, slots⟩ := s
      have hrest (a : α) (ha : P a) :
          Ensures (do return (a, ← rest.finish slots) : Except DecodeError (α × ρ))
            fun r => P r.1 ∧ Q r.2 :=
        (hfinish slots hs.2).bind fun q hq => .ok ⟨ha, hq⟩
      simp only [finish]
      split
      · exact hrest _ (hs.1 _ rfl)
      · exact hrest _ missing
      · exact hrest _ missing
      · exact .error

theorem putAll {I : σ → Prop}
    (hput : ∀ name j s, I s → Ensures (row.put name j s) fun next => ∀ s' ∈ next, I s')
    (fields : List (String × Json)) {s : σ} (hs : I s) : Ensures (row.putAll fields s) I := by
  induction fields generalizing s with
  | nil => exact .ok hs
  | cons f fields ih =>
    refine (hput f.1 f.2 s hs).bind fun next hnext => ?_
    cases next with
    | some s' => exact ih (hnext s' rfl)
    | none => exact .after fun _ => ih hs

theorem takeAll (h : row.Gives Q) (what : Expected) (i : Nat) (items : List Json) :
    Ensures (row.takeAll what i items) fun r => Q r.1 := by
  induction h generalizing i items with
  | done => exact .ok trivial
  | @field α σ ρ name decode absent rest P Q here missing there ih =>
    cases items with
    | cons j items => exact (here j).bind fun a ha => (ih _ items).bind fun r hr => .ok ⟨ha, hr⟩
    | nil =>
      cases absent with
      | default a => exact (ih _ []).bind fun r hr => .ok ⟨missing, hr⟩
      | required => exact .error
      | inObject a => exact .error

/-- A record has the parts that its decoder gives, whichever way it is written. -/
theorem decode (h : row.Gives Q) (medium : Medium) (what : String) :
    Decode.Gives (row.decode medium what) Q := by
  intro j
  cases j with
  | object fields =>
    obtain ⟨I, hempty, hput, hfinish⟩ := h.exists_invariant
    exact (putAll hput fields hempty).bind hfinish
  | array items =>
    exact (h.takeAll _ 0 items).bind fun r hr => .after fun _ => .ok hr
  | _ => exact .error

/-- What is built from the parts of a record. -/
theorem decode_bind {α : Type} {build : ρ → Except DecodeError α} {P : α → Prop}
    {medium : Medium} {what : String} {j : Json} (h : row.Gives Q)
    (hbuild : ∀ r, Q r → Ensures (build r) P) :
    Ensures (row.decode medium what j >>= build) P :=
  (h.decode medium what j).bind hbuild

end Gives
end Row
end PortableTypes
