import PortableTypes.Proofs.Wire.Snapshot

/-!
# Types of unknown handles

Every type that is asked for and not known is read as the type in the first place of the table. A
program that is read from a text has a type there, and only an edit of this very type changes it. So
unknown types read as errors, now and after any other edits, just if the first type is the error;
and a text may have any type in that place.
-/
namespace PortableTypes

/-- What a type is read off: a node, a symbol as a value, a symbol as a name, or the result of a
signature. -/
inductive TypeSource
  | node (id : NodeId)
  | value (symbol : SymbolId)
  | named (symbol : SymbolId)
  | result (signature : SignatureId)
  deriving DecidableEq, Repr

/-- An edit that leaves the type in the first place alone. -/
def Edit.SparesFirst : Edit → Prop
  | .putType type _ => type ≠ .error
  | _ => True

namespace Program

/-- The type that the tables have for a source, in range or not. -/
def recorded? (p : Program) : TypeSource → Option TypeId
  | .node id => (p.node? id).bind (·.type)
  | .value symbol => (p.symbol? symbol).bind (·.type)
  | .named symbol => (p.symbol? symbol).bind (·.declaredType)
  | .result signature => (p.signature? signature).map (·.result)

/-- The type that is read off a source. -/
def typeFrom (p : Program) : TypeSource → TypeId
  | .node id => p.typeAt id
  | .value symbol => p.typeOfSymbol symbol
  | .named symbol => p.declaredType symbol
  | .result signature => p.resultType signature

/-- There is no record of the source, or none of its type, or the type is not in the table. -/
def Unknown (p : Program) (source : TypeSource) : Prop :=
  ∀ type ∈ p.recorded? source, p.types.size ≤ type.index

instance (p : Program) (source : TypeSource) : Decidable (p.Unknown source) :=
  inferInstanceAs (Decidable (∀ type ∈ p.recorded? source, p.types.size ≤ type.index))

theorem typeFrom_eq (p : Program) (source : TypeSource) :
    p.typeFrom source = p.typeOrError (p.recorded? source) := by
  cases source <;> rfl

section

variable {p : Program} {source : TypeSource} {first : TypeRecord}

theorem Unknown.typeFrom_eq_error (h : p.Unknown source) : p.typeFrom source = .error := by
  have hnone :
      (p.recorded? source).filter (fun type => decide (type.index < p.types.size)) = none := by
    rw [Option.filter_eq_none_iff]
    intro type htype
    simpa using h type htype
  rw [typeFrom_eq, typeOrError, hnone, Option.getD_none]

theorem isErrorType_error_iff (hfirst : p.type? .error = some first) :
    p.isErrorType .error = true ↔ first.kind = .error := by
  simp [isErrorType, hfirst]

theorem Unknown.isErrorType_iff (h : p.Unknown source) (hfirst : p.type? .error = some first) :
    p.isErrorType (p.typeFrom source) = true ↔ first.kind = .error := by
  rw [h.typeFrom_eq_error, isErrorType_error_iff hfirst]

/-! ## The first type -/

theorem type?_error_addType (hfirst : p.type? .error = some first) (record : TypeRecord) :
    (p.addType record).2.type? .error = some first := by
  obtain ⟨hlt, -⟩ := Array.getElem?_eq_some_iff.mp hfirst
  show (p.types.push record)[TypeId.error.index]? = _
  rw [Array.getElem?_push_lt hlt, ← Array.getElem?_eq_getElem hlt]
  exact hfirst

theorem type?_error_apply (hfirst : p.type? .error = some first) {e : Edit} (he : e.SparesFirst) :
    (e.apply p).type? .error = some first := by
  cases e with
  | addType | literal | union | typeParameter | object => exact type?_error_addType hfirst _
  | intrinsic text =>
    simp only [Edit.apply, Program.intrinsic]
    split
    · exact hfirst
    · exact type?_error_addType hfirst _
  | putType type record =>
    have hplace : type.index ≠ TypeId.error.index := by
      obtain ⟨index⟩ := type
      exact fun h => he (congrArg TypeId.mk h)
    show (p.types.modify type.index fun _ => record)[TypeId.error.index]? = _
    rw [Array.getElem?_modify, if_neg hplace]
    exact hfirst
  | _ => exact hfirst

/-- Edits that leave the first type alone keep it. -/
theorem type?_error_edited (hfirst : p.type? .error = some first) {edits : List Edit}
    (hedits : ∀ e ∈ edits, e.SparesFirst) : (p.edited edits).type? .error = some first := by
  induction edits generalizing p with
  | nil => exact hfirst
  | cons e edits ih =>
    obtain ⟨he, hedits⟩ := List.forall_mem_cons.mp hedits
    exact ih (type?_error_apply hfirst he) hedits

end

/-- A program that is read from a text has a first type, and every unknown type reads as it: as an
error just if the first type is one. If it is, this stays so under all edits that leave it alone. -/
theorem unknown_read_as_first (text : String) (p : Program) (h : ofText text = .ok p) :
    ∃ first, p.type? .error = some first ∧
      (∀ source, p.Unknown source → p.typeFrom source = .error ∧
        (p.isErrorType (p.typeFrom source) = true ↔ first.kind = .error)) ∧
      (first.kind = .error → ∀ edits : List Edit, (∀ e ∈ edits, e.SparesFirst) →
        ∀ source, (p.edited edits).Unknown source →
          (p.edited edits).isErrorType ((p.edited edits).typeFrom source) = true) := by
  obtain ⟨-, hsize, -⟩ := Decode.ensures_ofText gives_decode text p h
  have hfirst : p.type? .error = some p.types[0] := Array.getElem?_eq_getElem hsize
  refine ⟨_, hfirst, fun source hsource => ?_, fun herror edits hedits source hsource => ?_⟩
  · exact ⟨hsource.typeFrom_eq_error, hsource.isErrorType_iff hfirst⟩
  · exact (hsource.isErrorType_iff (type?_error_edited hfirst hedits)).mpr herror

/-- A node whose type is not in the table, a symbol without types, and a signature whose result is
not in the table either. -/
def danglingTypes : Program :=
  { types := #[.error, { text := "string", kind := .intrinsic }]
    nodes := #[{ file := ⟨0⟩, form := .other, type := some ⟨9⟩ }]
    symbols := #[{ name := "x" }]
    signatures := #[{ parameters := [], result := ⟨2⟩ }] }

/-- All of them read as errors, and still do when one more type is in the table. -/
theorem unknown_read_as_first_danglingTypes :
    ∃ p, ofText danglingTypes.toText = .ok p ∧
      (∀ source ∈ [TypeSource.node ⟨0⟩, .node ⟨1⟩, .value ⟨0⟩, .named ⟨0⟩, .result ⟨0⟩,
          .result ⟨1⟩],
        p.Unknown source ∧ p.isErrorType (p.typeFrom source) = true) ∧
      ∀ source ∈ [TypeSource.node ⟨0⟩, .value ⟨0⟩],
        (p.edited [.object "T"]).Unknown source ∧
          (p.edited [.object "T"]).isErrorType ((p.edited [.object "T"]).typeFrom source) =
            true := by
  have hread : ofText danglingTypes.toText = .ok danglingTypes.reloaded :=
    ofText_toText (by decide +kernel) (by decide) (by decide +kernel)
  obtain ⟨first, hfirst, hloaded, hedited⟩ := unknown_read_as_first _ _ hread
  have herror : first.kind = .error := by
    cases hfirst
    rfl
  have hunknown : ∀ source ∈ [TypeSource.node ⟨0⟩, .node ⟨1⟩, .value ⟨0⟩, .named ⟨0⟩, .result ⟨0⟩,
      .result ⟨1⟩], danglingTypes.reloaded.Unknown source := by decide +kernel
  have hunknown' : ∀ source ∈ [TypeSource.node ⟨0⟩, .value ⟨0⟩],
      (danglingTypes.reloaded.edited [.object "T"]).Unknown source := by decide +kernel
  refine ⟨_, hread, fun source hsource => ?_, fun source hsource => ?_⟩
  · exact ⟨hunknown source hsource, (hloaded source (hunknown source hsource)).2.mpr herror⟩
  · exact ⟨hunknown' source hsource, hedited herror [.object "T"]
      (List.forall_mem_singleton.mpr trivial) source (hunknown' source hsource)⟩

/-- A text with a type in the first place that is no error. -/
def stringFirst : Program := { types := #[{ text := "string", kind := .intrinsic }] }

/-- It is read, and the type of a node, a symbol or a signature that is not there is this type. -/
theorem unknown_read_as_first_stringFirst :
    ∃ p, ofText stringFirst.toText = .ok p ∧
      ∀ source ∈ [TypeSource.node ⟨0⟩, .value ⟨0⟩, .named ⟨0⟩, .result ⟨0⟩],
        p.recorded? source = none ∧ p.isErrorType (p.typeFrom source) = false := by
  have hread : ofText stringFirst.toText = .ok stringFirst.reloaded :=
    ofText_toText (by decide +kernel) (by decide) (by decide +kernel)
  exact ⟨_, hread, by decide +kernel⟩

end Program
end PortableTypes
