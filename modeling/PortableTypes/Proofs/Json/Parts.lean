import PortableTypes.Json.Basic

/-!
# Parts of documents

What is said of every part of a document is proved along its parts: the items of an array and the
values of an object's fields. A document is free of faults when its parts are, and it is deeper
than each of them.
-/
namespace PortableTypes.Json

/-- Induction on documents, with a hypothesis on every item and on the value of every field. -/
@[elab_as_elim, induction_eliminator]
theorem inductionOn {motive : Json → Prop} (null : motive .null)
    (boolean : ∀ b, motive (.boolean b)) (number : ∀ n, motive (.number n))
    (string : ∀ s, motive (.string s))
    (array : ∀ items, (∀ j ∈ items, motive j) → motive (.array items))
    (object : ∀ fields, (∀ f ∈ fields, motive f.2) → motive (.object fields))
    (fault : ∀ f, motive (.fault f)) (j : Json) : motive j :=
  @Json.rec motive (fun items => ∀ j ∈ items, motive j) (fun fields => ∀ f ∈ fields, motive f.2)
    (fun f => motive f.2)
    null boolean number string array object fault
    (List.forall_mem_nil _) (fun _ _ hj hjs => List.forall_mem_cons.mpr ⟨hj, hjs⟩)
    (List.forall_mem_nil _) (fun _ _ hf hfs => List.forall_mem_cons.mpr ⟨hf, hfs⟩)
    (fun _ _ hj => hj) j

/-- Of two checks the second is made only if the first finds nothing. -/
theorem check_then_eq_ok {a b : Except Flaw Unit} :
    (a >>= fun _ => b) = .ok () ↔ a = .ok () ∧ b = .ok () := by
  cases a with
  | error f => simp [bind, Except.bind]
  | ok u => simp [bind, Except.bind]

theorem checkItems_eq_ok {items : List Json} :
    checkItems items = .ok () ↔ ∀ j ∈ items, j.check = .ok () := by
  induction items with
  | nil => simp [checkItems]
  | cons j items ih => rw [checkItems, check_then_eq_ok, ih, List.forall_mem_cons]

theorem checkFields_eq_ok {fields : List (String × Json)} :
    checkFields fields = .ok () ↔ ∀ f ∈ fields, f.2.check = .ok () := by
  induction fields with
  | nil => simp [checkFields]
  | cons f fields ih => rw [checkFields, check_then_eq_ok, ih, List.forall_mem_cons]

theorem check_array_eq_ok {items : List Json} :
    (Json.array items).check = .ok () ↔ ∀ j ∈ items, j.check = .ok () := checkItems_eq_ok

theorem check_object_eq_ok {fields : List (String × Json)} :
    (Json.object fields).check = .ok () ↔ ∀ f ∈ fields, f.2.check = .ok () := checkFields_eq_ok

/-- If all faults of the items are reported alike, the first one is reported so. -/
theorem checkItems_cases {items : List Json} {f : Flaw}
    (h : ∀ j ∈ items, j.check = .ok () ∨ j.check = .error f) :
    checkItems items = .ok () ∨ checkItems items = .error f := by
  induction items with
  | nil => exact .inl rfl
  | cons j items ih =>
    obtain ⟨hj, hitems⟩ := List.forall_mem_cons.mp h
    rw [checkItems]
    obtain hj | hj := hj
    · rw [hj]
      exact ih hitems
    · rw [hj]
      exact .inr rfl

theorem checkFields_cases {fields : List (String × Json)} {f : Flaw}
    (h : ∀ e ∈ fields, e.2.check = .ok () ∨ e.2.check = .error f) :
    checkFields fields = .ok () ∨ checkFields fields = .error f := by
  induction fields with
  | nil => exact .inl rfl
  | cons e fields ih =>
    obtain ⟨he, hfields⟩ := List.forall_mem_cons.mp h
    rw [checkFields]
    obtain he | he := he
    · rw [he]
      exact ih hfields
    · rw [he]
      exact .inr rfl

theorem depthItems_le_iff {items : List Json} {n : Nat} :
    depthItems items ≤ n ↔ ∀ j ∈ items, j.depth ≤ n := by
  induction items with
  | nil => simp [depthItems]
  | cons j items ih => simp only [depthItems, Nat.max_le, ih, List.forall_mem_cons]

theorem depthFields_le_iff {fields : List (String × Json)} {n : Nat} :
    depthFields fields ≤ n ↔ ∀ f ∈ fields, f.2.depth ≤ n := by
  induction fields with
  | nil => simp [depthFields]
  | cons f fields ih => simp only [depthFields, Nat.max_le, ih, List.forall_mem_cons]

theorem depth_lt_array {items : List Json} {j : Json} (hj : j ∈ items) :
    j.depth < (Json.array items).depth :=
  Nat.lt_succ_of_le (depthItems_le_iff.mp Nat.le.refl j hj)

theorem depth_lt_object {fields : List (String × Json)} {f : String × Json} (hf : f ∈ fields) :
    f.2.depth < (Json.object fields).depth :=
  Nat.lt_succ_of_le (depthFields_le_iff.mp Nat.le.refl f hf)

theorem depth_array_le_iff {items : List Json} {n : Nat} :
    (Json.array items).depth ≤ n + 1 ↔ ∀ j ∈ items, j.depth ≤ n := by
  rw [depth, Nat.add_le_add_iff_right, depthItems_le_iff]

theorem depth_object_le_iff {fields : List (String × Json)} {n : Nat} :
    (Json.object fields).depth ≤ n + 1 ↔ ∀ f ∈ fields, f.2.depth ≤ n := by
  rw [depth, Nat.add_le_add_iff_right, depthFields_le_iff]

/-- A document without faults whose numbers all satisfy `p`. -/
inductive Sound (p : Number → Prop) : Json → Prop
  | null : Sound p .null
  | boolean (b : Bool) : Sound p (.boolean b)
  | number {n : Number} (h : p n) : Sound p (.number n)
  | string (s : String) : Sound p (.string s)
  | array {items : List Json} (h : ∀ j ∈ items, Sound p j) : Sound p (.array items)
  | object {fields : List (String × Json)} (h : ∀ f ∈ fields, Sound p f.2) :
    Sound p (.object fields)

attribute [simp] Sound.null Sound.boolean Sound.string

section Sound

variable {p : Number → Prop}

@[simp] theorem sound_number {n : Number} : (Json.number n).Sound p ↔ p n :=
  ⟨fun | .number h => h, .number⟩

@[simp] theorem sound_array {items : List Json} :
    (Json.array items).Sound p ↔ ∀ j ∈ items, j.Sound p :=
  ⟨fun | .array h => h, .array⟩

@[simp] theorem sound_object {fields : List (String × Json)} :
    (Json.object fields).Sound p ↔ ∀ f ∈ fields, f.2.Sound p :=
  ⟨fun | .object h => h, .object⟩

theorem Sound.check_eq {j : Json} (h : j.Sound p) : j.check = .ok () := by
  induction h with
  | null | boolean | number | string => rfl
  | array _ ih => exact check_array_eq_ok.mpr ih
  | object _ ih => exact check_object_eq_ok.mpr ih

/-- A sound document in which at most `n` arrays and objects are open at once. -/
structure SoundTo (p : Number → Prop) (n : Nat) (j : Json) : Prop where
  sound : j.Sound p
  depth : j.depth ≤ n

section SoundTo

variable {n : Nat}

@[simp] theorem soundTo_null : Json.null.SoundTo p n := ⟨.null, Nat.zero_le n⟩

@[simp] theorem soundTo_boolean (b : Bool) : (Json.boolean b).SoundTo p n :=
  ⟨.boolean b, Nat.zero_le n⟩

@[simp] theorem soundTo_string (s : String) : (Json.string s).SoundTo p n :=
  ⟨.string s, Nat.zero_le n⟩

@[simp] theorem soundTo_number {k : Number} : (Json.number k).SoundTo p n ↔ p k :=
  ⟨fun h => sound_number.mp h.sound, fun h => ⟨.number h, Nat.zero_le n⟩⟩

@[simp] theorem soundTo_array {items : List Json} :
    (Json.array items).SoundTo p (n + 1) ↔ ∀ j ∈ items, j.SoundTo p n := by
  constructor
  · intro h j hj
    exact ⟨sound_array.mp h.sound j hj, depth_array_le_iff.mp h.depth j hj⟩
  · intro h
    exact ⟨.array fun j hj => (h j hj).sound, depth_array_le_iff.mpr fun j hj => (h j hj).depth⟩

@[simp] theorem soundTo_object {fields : List (String × Json)} :
    (Json.object fields).SoundTo p (n + 1) ↔ ∀ f ∈ fields, f.2.SoundTo p n := by
  constructor
  · intro h f hf
    exact ⟨sound_object.mp h.sound f hf, depth_object_le_iff.mp h.depth f hf⟩
  · intro h
    exact ⟨.object fun f hf => (h f hf).sound, depth_object_le_iff.mpr fun f hf => (h f hf).depth⟩

@[simp] theorem soundTo_nullable {α : Type} {encode : α → Json} {o : Option α} :
    (nullable encode o).SoundTo p n ↔ ∀ a ∈ o, (encode a).SoundTo p n := by
  cases o with
  | none => simp [nullable]
  | some a => simp [nullable]

theorem SoundTo.mono {m : Nat} {j : Json} (h : j.SoundTo p m) (hm : m ≤ n) : j.SoundTo p n :=
  ⟨h.sound, Nat.le_trans h.depth hm⟩

end SoundTo
end Sound

end PortableTypes.Json
