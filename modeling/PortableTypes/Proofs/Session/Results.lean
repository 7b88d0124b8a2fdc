import PortableTypes.Proofs.Projection.Extraction
import PortableTypes.Proofs.Session.LiveKeys
import PortableTypes.Proofs.Wire.Text

/-!
# How deep the answers of a session are nested

Whatever the types, symbols, nodes and signatures of a program refer to, a question is answered with
type objects of at most 65 levels, and the properties behind a key with type objects of at most 66.
A level opens up to three brackets of the document, so the text of an answer may open more brackets
than the reader of texts allows. It is read back if it does not.
-/
namespace PortableTypes

namespace Program

/-- The numbers among the literal types of a program. -/
def numbers (p : Program) : List Binary64 :=
  p.types.toList.filterMap fun t => match t.kind with
    | .literal value => value.number?
    | _ => none

theorem literal?_eq_of_number {p : Program} {type : TypeId} {l : Literal} {x : Binary64}
    (h : p.literalValue? type = some l) (hx : x ∈ l.number?) : p.literal? type = some l := by
  unfold literalValue? at h
  cases hliteral : p.literal? type with
  | some found => simpa [hliteral] using h
  | none =>
    -- what is known by its text is a boolean
    rw [hliteral, Option.none_or] at h
    split at h <;> cases h <;> cases hx

/-- A number that is the value of a literal type is among the numbers of the program. -/
theorem mem_numbers {p : Program} {type : TypeId} {l : Literal} {x : Binary64}
    (h : p.literalValue? type = some l) (hx : x ∈ l.number?) : x ∈ p.numbers := by
  have hliteral := literal?_eq_of_number h hx
  obtain ⟨t, ht, hkind⟩ := Option.bind_eq_some_iff.mp hliteral
  have hmem : t ∈ p.types.toList := by
    rw [Array.mem_toList_iff]
    exact Array.mem_of_getElem? ht
  refine List.mem_filterMap.mpr ⟨t, hmem, ?_⟩
  split at hkind
  · rename_i value hvalue
    cases hkind
    simpa [hvalue] using hx
  · cases hkind

end Program

namespace TypeObject

theorem two_le_length_members {t : TypeObject} {members : List TypeObject}
    (h : members ∈ t.members?) : 2 ≤ members.length := by
  cases t with
  | union typeName first second rest locations =>
    cases h
    simp
  | _ => cases h

end TypeObject

namespace Session

/-- How many type objects stand at most on a way down into what an operation returns. -/
def Operation.levels : Operation → Nat
  | .properties _ => 66
  | .typeOf _ | .declarations .. | .reexports .. | .typeUnder .. | .reset | .turnTo _ => 65

/-- What is classified for a node. -/
theorem mirrors_typeOf (p : Program) (σ : String → String) (node : NodeId) :
    p.YieldsType σ 65 (do
      Projecting.report (.converted node (p.typeAt node))
      p.classify Program.maxNesting (p.typeAt node) (some node)) :=
  Projecting.mirrors_report.bind fun _ _ => Program.mirrors_classify ..

/-- Every operation returns type objects of at most so many levels, with literals of the program. -/
theorem throughout_types_perform (s : Session) (op : Operation) :
    ∀ t ∈ (perform op s).value.types, t.Throughout s.program.Vouches op.levels := by
  cases op with
  | typeOf node =>
    exact List.forall_mem_singleton.mpr ((mirrors_typeOf s.program id node).holds _ _)
  | declarations fileName skipGenerics =>
    exact (Program.mirrors_extractFile (σ := id) skipGenerics _ [] fileName).holds _ _
  | reexports node skipGenerics =>
    exact (Program.mirrors_extractExport (σ := id) skipGenerics node).holds _ _
  | typeUnder fileName position =>
    cases hnode : s.program.nodeUnder fileName position with
    | error e =>
      simp [perform, bind, Asking.bind, pure, Asking.pure, typeUnder_of_error hnode, Reply.types]
    | ok node =>
      simp only [perform, bind, Asking.bind, pure, Asking.pure, typeUnder_of_ok hnode, Reply.types]
      exact List.forall_mem_singleton.mpr ((mirrors_typeOf s.program id node).holds _ _)
  | properties key =>
    show ∀ t ∈ (Session.properties key s).value.map (·.type), _
    cases hkey : s.store.lookup? key with
    | none =>
      rw [properties_of_lookup?_eq_none hkey]
      exact List.forall_mem_singleton.mpr (Program.throughout_unsupported (List.forall_mem_nil _))
    | some object =>
      rw [properties_of_lookup?_eq_some hkey]
      exact List.forall_mem_map.mpr
        ((s.program.mirrors_projectProperties id object.type).holds _ _)
  | reset => exact List.forall_mem_nil _
  | turnTo program => exact List.forall_mem_nil _

/-- Of any program, however its tables refer to each other, a question is answered with at most 65
type objects on a way down, and the properties behind a key with at most 66; and every union on the
way has two members or more. -/
theorem length_path_le_levels (s : Session) (op : Operation) (t : TypeObject)
    (ht : t ∈ (perform op s).value.types) (path : List TypeObject) (hpath : t.Path path) :
    path.length ≤ op.levels ∧ ∀ u ∈ path, ∀ members ∈ u.members?, 2 ≤ members.length := by
  have hthroughout := throughout_types_perform s op t ht
  refine ⟨hthroughout.length_le hpath, fun u _ members hmembers => ?_⟩
  exact TypeObject.two_le_length_members hmembers

/-- A type of functions that return a function of the type, and a type of objects that have one. -/
def endlessCalls : Program :=
  { types := #[.error, { text := "F", kind := .object, callSignatures := [⟨0⟩] },
      { text := "O", kind := .object, properties := [⟨0⟩] }]
    signatures := #[{ parameters := [], result := ⟨1⟩ }]
    symbols := #[{ name := "call", declarations := [⟨2⟩], type := some ⟨1⟩ }]
    nodes := #[{ file := ⟨0⟩, form := .other, type := some ⟨1⟩ },
      { file := ⟨0⟩, form := .other, type := some ⟨2⟩ },
      { file := ⟨0⟩, form := .propertySignature "call" none, declares := some ⟨0⟩ }] }

/-- Both bounds are reached. -/
theorem length_path_le_levels_endlessCalls :
    (∃ t ∈ (perform (.typeOf ⟨0⟩) (start endlessCalls .initial)).value.types,
      (∀ path, t.Path path → path.length ≤ 65) ∧ ¬ ∀ path, t.Path path → path.length ≤ 64) ∧
    ∃ t ∈ (perform (.properties "2-0")
        (typeOf ⟨1⟩ (start endlessCalls .initial)).session).value.types,
      (∀ path, t.Path path → path.length ≤ 66) ∧ ¬ ∀ path, t.Path path → path.length ≤ 65 := by
  have hcall : ∃ t ∈ (perform (.typeOf ⟨0⟩) (start endlessCalls .initial)).value.types,
      ¬ t.Throughout (fun _ => True) 64 := by decide +kernel
  have hproperty : ∃ t ∈ (perform (.properties "2-0")
      (typeOf ⟨1⟩ (start endlessCalls .initial)).session).value.types,
      ¬ t.Throughout (fun _ => True) 65 := by decide +kernel
  obtain ⟨t, ht, hdeep⟩ := hcall
  obtain ⟨u, hu, hdeeper⟩ := hproperty
  refine ⟨⟨t, ht, fun path hpath => (length_path_le_levels _ _ t ht path hpath).1, fun h => ?_⟩,
    ⟨u, hu, fun path hpath => (length_path_le_levels _ _ u hu path hpath).1, fun h => ?_⟩⟩
  · exact hdeep (TypeObject.throughout_of_length_le h)
  · exact hdeeper (TypeObject.throughout_of_length_le h)

/-! ## Texts of answers -/

/-- The numbers of what an operation returns are numbers of the program. -/
theorem numbers_types_perform (s : Session) (op : Operation) :
    ∀ t ∈ (perform op s).value.types, t.numbers ⊆ s.program.numbers := by
  intro t ht x hx
  refine (throughout_types_perform s op t ht).numbers ?_ hx
  intro u hu l hl y hy
  obtain ⟨type, htype⟩ := hu.literals l hl
  exact Program.mem_numbers htype hy

/-- Where the numbers of a program are whole and at most `10 ^ 14` in magnitude, what a session
returns is read back from its text if at most 127 brackets are open at once, and refused otherwise.
With at most 40 type objects on every way down it is read back. -/
theorem ofText_toText_of_returned (s : Session) (op : Operation)
    (hnumbers : ∀ x ∈ s.program.numbers, ∃ n ∈ x.whole?, n ≤ 10 ^ 14) (t : TypeObject)
    (ht : t ∈ (perform op s).value.types) :
    TypeObject.ofText t.toText
      = (if t.encode.depth ≤ 127 then .ok t else .error (.flaw .malformed)) ∧
    ((∀ path, t.Path path → path.length ≤ 40) → TypeObject.ofText t.toText = .ok t) := by
  have htext := TypeObject.ofText_text_of_whole
    (fun x hx => hnumbers x (numbers_types_perform s op t ht hx)) .tight
  refine ⟨htext, fun hpaths => ?_⟩
  have hdepth := (TypeObject.throughout_of_length_le hpaths).depth_encode_le
  rw [if_pos (by omega)] at htext
  exact htext

/-- A type whose values are a number or arrays of values of the type. -/
def numberOrArrays : Program :=
  { types := #[.error, { text := "U", kind := .union [⟨2⟩, ⟨3⟩] },
      { text := "100000000000000", kind := .literal (.number (.ofNat (10 ^ 14))) },
      { text := "U[]", kind := .object, arguments := [⟨1⟩] }]
    nodes := #[{ file := ⟨0⟩, form := .other, type := some ⟨1⟩ }] }

/-- Unions and arrays in turn, up to the last level. -/
theorem ofText_toText_of_returned_numberOrArrays :
    (∀ x ∈ numberOrArrays.numbers, ∃ n ∈ x.whole?, n ≤ 10 ^ 14) ∧
    ∃ t ∈ (perform (.typeOf ⟨0⟩) (start numberOrArrays .initial)).value.types,
      ¬ t.Throughout (fun _ => True) 64 ∧ TypeObject.ofText t.toText = .ok t := by
  have hnumbers : ∀ x ∈ numberOrArrays.numbers, ∃ n ∈ x.whole?, n ≤ 10 ^ 14 := by decide +kernel
  have hdepth : ∃ t ∈ (perform (.typeOf ⟨0⟩) (start numberOrArrays .initial)).value.types,
      ¬ t.Throughout (fun _ => True) 64 ∧ t.encode.depth ≤ 127 := by decide +kernel
  obtain ⟨t, ht, hdeep, hdepth⟩ := hdepth
  have htext := (ofText_toText_of_returned _ _ hnumbers t ht).1
  rw [if_pos hdepth] at htext
  exact ⟨hnumbers, t, ht, hdeep, htext⟩

/-- A tuple type whose only element is of the type itself. -/
def tupleOfItself : Program :=
  { types := #[.error, { text := "T", kind := .object }]
    nodes := #[{ file := ⟨0⟩, form := .tupleType [⟨0⟩], type := some ⟨1⟩ }] }

/-- A tuple that holds itself is returned with 64 tuples inside each other, whose text opens 130
brackets at once and is refused. -/
theorem ofText_toText_tupleOfItself :
    (∀ x ∈ tupleOfItself.numbers, ∃ n ∈ x.whole?, n ≤ 10 ^ 14) ∧
    ∃ t ∈ (perform (.typeOf ⟨0⟩) (start tupleOfItself .initial)).value.types,
      TypeObject.ofText t.toText = .error (.flaw .malformed) := by
  have hnumbers : ∀ x ∈ tupleOfItself.numbers, ∃ n ∈ x.whole?, n ≤ 10 ^ 14 := by decide +kernel
  have hdepth : ∃ t ∈ (perform (.typeOf ⟨0⟩) (start tupleOfItself .initial)).value.types,
      t.encode.depth = 130 := by decide +kernel
  obtain ⟨t, ht, hdepth⟩ := hdepth
  refine ⟨hnumbers, t, ht, ?_⟩
  have htext := TypeObject.ofText_text_of_whole
    (fun x hx => hnumbers x (numbers_types_perform _ _ t ht hx)) .tight
  rw [if_neg (by omega)] at htext
  exact htext

end Session
end PortableTypes
