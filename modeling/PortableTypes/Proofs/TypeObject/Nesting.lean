import PortableTypes.Proofs.Wire.TypeObject

/-!
# How deep type objects are nested

A way down into a type object goes from the type object to one of its children, and on. What is
known of every type object on every way down, and how many there are at most, says which numbers and
locations the type object holds and how many brackets of its document are open at once.
-/
namespace PortableTypes.TypeObject

/-- A way down into a type object, by the type objects that stand on it. -/
inductive Path : TypeObject → List TypeObject → Prop
  | here (t : TypeObject) : Path t [t]
  | down {t c : TypeObject} {path : List TypeObject} (hc : c ∈ t.children) (h : Path c path) :
    Path t (t :: path)

/-- `P` holds of a type object and of all those inside it, and at most `n` stand on any way down. -/
def Throughout (P : TypeObject → Prop) : (n : Nat) → TypeObject → Prop
  | 0, _ => False
  | n + 1, t => P t ∧ ∀ c ∈ t.children, Throughout P n c

instance decidableThroughout (P : TypeObject → Prop) [DecidablePred P] :
    (n : Nat) → (t : TypeObject) → Decidable (t.Throughout P n)
  | 0, _ => inferInstanceAs (Decidable False)
  | n + 1, t =>
    have := decidableThroughout P n
    inferInstanceAs (Decidable (P t ∧ ∀ c ∈ t.children, Throughout P n c))

section

variable {P : TypeObject → Prop} {n : Nat} {t : TypeObject}

theorem Throughout.exists_eq_succ (h : t.Throughout P n) : ∃ m, n = m + 1 := by
  cases n with
  | zero => exact h.elim
  | succ m => exact ⟨m, rfl⟩

/-- What holds throughout a type object holds of it. -/
theorem Throughout.holds (h : t.Throughout P n) : P t := by
  obtain ⟨m, rfl⟩ := h.exists_eq_succ
  exact h.1

theorem Throughout.succ (h : t.Throughout P n) : t.Throughout P (n + 1) := by
  induction n generalizing t with
  | zero => exact h.elim
  | succ n ih => exact ⟨h.1, fun c hc => ih (h.2 c hc)⟩

/-- What holds throughout a type object holds of all that stands on a way down. -/
theorem Throughout.of_mem_path (h : t.Throughout P n) {path : List TypeObject}
    (hpath : t.Path path) {u : TypeObject} (hu : u ∈ path) : P u := by
  induction hpath generalizing n with
  | here t =>
    obtain rfl := List.mem_singleton.mp hu
    exact h.holds
  | @down t c path hc hpath ih =>
    obtain ⟨m, rfl⟩ := h.exists_eq_succ
    obtain rfl | hu := List.mem_cons.mp hu
    · exact h.holds
    · exact ih (h.2 c hc) hu

theorem Throughout.length_le (h : t.Throughout P n) {path : List TypeObject} (hpath : t.Path path) :
    path.length ≤ n := by
  induction hpath generalizing n with
  | here t =>
    obtain ⟨m, rfl⟩ := h.exists_eq_succ
    simp
  | @down t c path hc hpath ih =>
    obtain ⟨m, rfl⟩ := h.exists_eq_succ
    have hrest := ih (h.2 c hc)
    simpa using hrest

/-- A bound on the ways down is all there is to nesting. -/
theorem throughout_of_length_le (h : ∀ path, t.Path path → path.length ≤ n) :
    t.Throughout (fun _ => True) n := by
  induction n generalizing t with
  | zero => exact absurd (h [t] (.here t)) (Nat.not_succ_le_zero _)
  | succ n ih =>
    refine ⟨trivial, fun c hc => ih fun path hpath => ?_⟩
    have hlength := h (t :: path) (.down hc hpath)
    simpa using hlength

end

/-! ## Literals and locations -/

/-- The literals that a type object holds itself, not through its children. -/
def ownLiterals : TypeObject → List Literal
  | .literal value _ => [value]
  | .enum _ members _ => members.map (·.value.value)
  | .primitive .. | .special .. | .array .. | .tuple .. | .union .. | .callable .. | .promise ..
  | .promiseLike .. | .object .. | .unsupported .. => []

/-- The locations that a type object holds itself, those of an enumeration's members included. -/
def ownLocations : TypeObject → List Location
  | .enum _ members locations => locations ++ members.flatMap (·.value.locations)
  | t => t.locations

/-- A number of a type object is a literal of its own or a number of a child. -/
theorem mem_numbers {t : TypeObject} {x : Binary64} (hx : x ∈ t.numbers) :
    (∃ l ∈ t.ownLiterals, x ∈ l.number?) ∨ ∃ c ∈ t.children, x ∈ c.numbers := by
  cases t with
  | literal value locations =>
    exact .inl ⟨value, List.mem_singleton_self _, Option.mem_toList.mp hx⟩
  | enum typeName members locations =>
    obtain ⟨m, hm, hvalue⟩ := List.mem_filterMap.mp hx
    exact .inl ⟨m.value.value, List.mem_map_of_mem hm, hvalue⟩
  | array _ child _ | promise child _ | promiseLike child _ =>
    exact .inr ⟨child, List.mem_singleton_self _, hx⟩
  | tuple typeName items locations =>
    rw [numbers, numbersOfItems_eq] at hx
    exact .inr (List.mem_flatMap.mp hx)
  | union typeName first second rest locations =>
    simp only [numbers, numbersOfItems_eq, List.mem_append, List.mem_flatMap] at hx
    refine .inr ?_
    simpa [children, or_assoc] using hx
  | callable arguments result locations =>
    simp only [numbers, numbersOfArguments_eq, List.mem_append, List.mem_flatMap] at hx
    refine .inr ?_
    obtain ⟨a, ha, hx⟩ | hx := hx
    · exact ⟨a.2, by simpa [children] using .inl ⟨a.1, ha⟩, hx⟩
    · exact ⟨result, by simp [children], hx⟩
  | primitive | special | object | unsupported => exact absurd hx List.not_mem_nil

theorem Throughout.numbers {P : TypeObject → Prop} {Q : Binary64 → Prop}
    (hown : ∀ t, P t → ∀ l ∈ t.ownLiterals, ∀ x ∈ l.number?, Q x) {n : Nat} {t : TypeObject}
    (h : t.Throughout P n) {x : Binary64} (hx : x ∈ t.numbers) : Q x := by
  induction n generalizing t with
  | zero => exact h.elim
  | succ n ih =>
    obtain ⟨l, hl, hx⟩ | ⟨c, hc, hx⟩ := mem_numbers hx
    · exact hown t h.1 l hl x hx
    · exact ih (h.2 c hc) hx

/-! ## Brackets -/

theorem depth_locations_le (ls : List Location) : (Location.encodeAll ls).depth ≤ 4 := by
  have hlocation (l : Location) : l.encode.depth = 3 := rfl
  exact Json.depth_array_le_iff.mpr (List.forall_mem_map.mpr fun l _ => Nat.le_of_eq (hlocation l))

theorem depth_literal_le (l : Literal) : l.encode.depth ≤ 1 := by
  cases l with
  | number x =>
    rw [Literal.encode]
    split <;> exact Nat.zero_le 1
  | bigInteger b => exact Nat.le_refl 1
  | null | boolean | string => exact Nat.zero_le 1

theorem depth_member_le (m : EnumMember) : m.encode.depth ≤ 6 := by
  have hlocations := depth_locations_le m.value.locations
  have hliteral := depth_literal_le m.value.value
  simp only [EnumMember.encode, LocatedLiteral.encode, Json.depth, Json.depthFields]
  omega

theorem depth_tagged (tag : TypeTag) (fields : List (String × Json)) :
    (tagged tag fields).depth = Json.depthFields fields + 1 := by
  simp [tagged, Json.depth, Json.depthFields]

/-- A type object opens at most three brackets around its children, and at most eight if none of
them goes deeper. -/
theorem depth_encode_le {t : TypeObject} {k : Nat} (hk : 5 ≤ k)
    (hchildren : ∀ c ∈ t.children, c.encode.depth ≤ k) : t.encode.depth ≤ k + 3 := by
  have hlocations := depth_locations_le t.locations
  cases t with
  | array typeName child locations | promise child locations | promiseLike child locations =>
    have hchild := hchildren child (List.mem_singleton_self _)
    simp only [encode, depth_tagged, Json.depthFields, Json.depth, TypeObject.locations] at *
    omega
  | tuple typeName items locations =>
    have hitems : Json.depthItems (encodeItems items) ≤ k := by
      rw [encodeItems_eq, Json.depthItems_le_iff, List.forall_mem_map]
      exact hchildren
    simp only [encode, depth_tagged, Json.depthFields, Json.depth, TypeObject.locations] at *
    omega
  | union typeName first second rest locations =>
    have hmembers : Json.depthItems (encode first :: encode second :: encodeItems rest) ≤ k := by
      rw [encodeItems_eq, ← List.map_cons, ← List.map_cons, Json.depthItems_le_iff,
        List.forall_mem_map]
      exact hchildren
    simp only [encode, depth_tagged, Json.depthFields, Json.depth, TypeObject.locations] at *
    omega
  | callable arguments result locations =>
    simp only [children, List.forall_mem_append, List.forall_mem_map,
      List.forall_mem_singleton] at hchildren
    -- an argument is an object of its own, inside the array of the arguments
    have harguments : Json.depthItems (encodeArguments arguments) ≤ k + 1 := by
      rw [encodeArguments_eq, Json.depthItems_le_iff, List.forall_mem_map]
      intro a ha
      have hargument := hchildren.1 a ha
      simp only [encodeArgument, Json.depth, Json.depthFields]
      omega
    have hresult := hchildren.2
    simp only [encode, depth_tagged, Json.depthFields, Json.depth, TypeObject.locations] at *
    omega
  | enum typeName members locations =>
    have hmembers : Json.depthItems (members.map (·.encode)) ≤ 6 := by
      rw [Json.depthItems_le_iff, List.forall_mem_map]
      exact fun m _ => depth_member_le m
    simp only [encode, depth_tagged, Json.depthFields, Json.depth, TypeObject.locations] at *
    omega
  | literal value locations =>
    have hvalue := depth_literal_le value
    simp only [encode, depth_tagged, Json.depthFields, TypeObject.locations] at *
    omega
  | unsupported gap typeText locations =>
    cases typeText <;>
    · simp only [encode, depth_tagged, Json.depthFields, Json.depth, TypeObject.locations] at *
      omega
  | primitive | special | object =>
    simp only [encode, depth_tagged, Json.depthFields, Json.depth, TypeObject.locations] at *
    omega

theorem Throughout.depth_encode_le {P : TypeObject → Prop} {n : Nat} {t : TypeObject}
    (h : t.Throughout P n) : t.encode.depth ≤ 3 * n + 5 := by
  induction n generalizing t with
  | zero => exact h.elim
  | succ n ih => exact TypeObject.depth_encode_le (by omega) fun c hc => ih (h.2 c hc)

end PortableTypes.TypeObject
