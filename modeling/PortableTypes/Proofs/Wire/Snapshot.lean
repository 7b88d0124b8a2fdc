import PortableTypes.Program.Query
import PortableTypes.Proofs.Program.Building
import PortableTypes.Proofs.Session.Results
import PortableTypes.Proofs.Wire.Program

/-!
# Snapshots keep everything

Whatever can be asked of a program can be asked of the program that is read back from its snapshot,
with the same answer. Questions do not look at the list of intrinsic types, which is not in the
snapshot; and what is found in that list is the same as well, unless intrinsic types were made or
changed behind its back.
-/
namespace PortableTypes

/-- A question to a program, with the type of its answer. -/
inductive Query : Type → Type
  | sourceFile (name : String) : Query (Option FileId)
  | fileName (file : FileId) : Query (Option String)
  | statements (file : FileId) : Query (List NodeId)
  | module (file : FileId) (specifier : String) : Query ModuleLookup
  | position (file : FileId) (offset : Nat) : Query (Option Position)
  | offset (file : FileId) (position : Position) : Query (Option Nat)
  | nodeAt (file : FileId) (offset : Nat) : Query (Option NodeId)
  | form (node : NodeId) : Query (Option Form)
  | nodeFile (node : NodeId) : Query (Option FileId)
  | span (node : NodeId) : Query (Option Span)
  | declares (node : NodeId) : Query (Option SymbolId)
  | refersTo (node : NodeId) : Query (Option SymbolId)
  | typeAt (node : NodeId) : Query TypeId
  | symbolName (symbol : SymbolId) : Query (Option String)
  | declarations (symbol : SymbolId) : Query (List NodeId)
  | valueDeclaration (symbol : SymbolId) : Query (Option NodeId)
  | exports (symbol : SymbolId) : Query (List SymbolId)
  | isModule (symbol : SymbolId) : Query Bool
  | mappedTemplate (symbol : SymbolId) : Query (Option TypeId)
  | typeOfSymbol (symbol : SymbolId) : Query TypeId
  | declaredType (symbol : SymbolId) : Query TypeId
  | typeText (type : TypeId) : Query String
  | displayText (type : TypeId) : Query String
  | isErrorType (type : TypeId) : Query Bool
  | constituents (type : TypeId) : Query (Option (List TypeId))
  | isTypeParameter (type : TypeId) : Query Bool
  | literal (type : TypeId) : Query (Option Literal)
  | symbolOf (type : TypeId) : Query (Option SymbolId)
  | aliasSymbol (type : TypeId) : Query (Option SymbolId)
  | aliasArguments (type : TypeId) : Query (List TypeId)
  | typeArguments (type : TypeId) : Query (List TypeId)
  | origin (type : TypeId) : Query (Option NodeId)
  | properties (type : TypeId) : Query (List SymbolId)
  | callSignatures (type : TypeId) : Query (List SignatureId)
  | parameters (signature : SignatureId) : Query (List SymbolId)
  | resultType (signature : SignatureId) : Query TypeId

namespace Program

def answer (p : Program) : {α : Type} → Query α → α
  | _, .sourceFile name => p.sourceFile? name
  | _, .fileName file => p.fileName? file
  | _, .statements file => p.statements file
  | _, .module file specifier => p.resolveModule file specifier
  | _, .position file offset => p.position? file offset
  | _, .offset file position => p.offset? file position
  | _, .nodeAt file offset => p.nodeAt? file offset
  | _, .form node => p.form? node
  | _, .nodeFile node => p.nodeFile? node
  | _, .span node => p.span? node
  | _, .declares node => p.declares? node
  | _, .refersTo node => p.refersTo? node
  | _, .typeAt node => p.typeAt node
  | _, .symbolName symbol => p.symbolName? symbol
  | _, .declarations symbol => p.declarations symbol
  | _, .valueDeclaration symbol => p.valueDeclaration? symbol
  | _, .exports symbol => p.exports symbol
  | _, .isModule symbol => p.isModule symbol
  | _, .mappedTemplate symbol => p.mappedTemplate? symbol
  | _, .typeOfSymbol symbol => p.typeOfSymbol symbol
  | _, .declaredType symbol => p.declaredType symbol
  | _, .typeText type => p.typeText type
  | _, .displayText type => p.displayText type
  | _, .isErrorType type => p.isErrorType type
  | _, .constituents type => p.constituents? type
  | _, .isTypeParameter type => p.isTypeParameter type
  | _, .literal type => p.literal? type
  | _, .symbolOf type => p.symbolOf? type
  | _, .aliasSymbol type => p.aliasSymbol? type
  | _, .aliasArguments type => p.aliasArguments type
  | _, .typeArguments type => p.typeArguments type
  | _, .origin type => p.origin? type
  | _, .properties type => p.properties type
  | _, .callSignatures type => p.callSignatures type
  | _, .parameters signature => p.parameters signature
  | _, .resultType signature => p.resultType signature

theorem ancestors_reloaded (p : Program) (fuel : Nat) (node : NodeId) :
    p.reloaded.ancestors fuel node = p.ancestors fuel node := by
  induction fuel generalizing node with
  | zero => rfl
  | succ fuel ih =>
    have hparent : p.reloaded.parent? node = p.parent? node := rfl
    simp only [ancestors, hparent, ih]

/-- No question looks at the list of intrinsic types. -/
theorem answer_reloaded (p : Program) {α : Type} (query : Query α) :
    p.reloaded.answer query = p.answer query := by
  cases query with
  | nodeAt file offset =>
    have hdepth : p.reloaded.depthOf = p.depthOf := by
      funext node
      exact p.ancestors_reloaded _ node
    show p.reloaded.nodeAt? file offset = p.nodeAt? file offset
    simp only [nodeAt?, candidates, hdepth]
    rfl
  | _ => rfl

/-- The types of texts are found, or added, in the same places. -/
theorem Interned.intrinsic_reloaded {p : Program} (h : p.Interned) (text : String) :
    (p.reloaded.intrinsic text).1 = (p.intrinsic text).1 := by
  have hfind : p.reloaded.intrinsics.find? (·.1 == text) = p.intrinsics.find? (·.1 == text) :=
    (h text).symm
  simp only [Program.intrinsic, hfind]
  split <;> rfl

theorem mem_numbers_iff {p : Program} {x : Binary64} :
    x ∈ p.numbers ↔ ∃ t ∈ p.types, x ∈ t.kind.number? := by
  have hnumbers : p.numbers = p.types.toList.filterMap fun t => t.kind.number? := by
    unfold numbers
    congr 1
    funext t
    cases t.kind <;> rfl
  simp only [hnumbers, List.mem_filterMap, Array.mem_toList_iff, Option.mem_def]

/-- The snapshot of a program is read back up to the list of intrinsic types. -/
theorem ofText_toText {p : Program} (h : p.Below .word) (htypes : 0 < p.types.size)
    (hnumbers : ∀ x ∈ p.numbers, ∃ n ∈ x.whole?, n ≤ 10 ^ 14) :
    ofText p.toText = .ok p.reloaded := by
  have hwhole : ∀ t ∈ p.types, ∀ x ∈ t.kind.number?, ∃ n ∈ x.whole?, n ≤ 10 ^ 14 :=
    fun t ht x hx => hnumbers x (mem_numbers_iff.mpr ⟨t, ht, hx⟩)
  have hwritten : p.encode.SoundTo Number.ReadsBack 7 := by
    refine soundTo_encode (fun n hn => Number.natural_readsBack (by omega)) h fun t ht x hx _ => ?_
    obtain ⟨n, hn, hle⟩ := hwhole t ht x hx
    exact Number.real_readsBack hn (by omega)
  have hdepth : p.encode.depth ≤ Json.maxDepth := Nat.le_trans hwritten.depth (by decide)
  have hdecode : decode p.encode = .ok p.reloaded := by
    refine decode_encode h htypes fun t ht x hx => ?_
    obtain ⟨n, hn, -⟩ := hwhole t ht x hx
    exact (Binary64.whole?_eq_some.mp hn).1
  rw [ofText, toText, Json.compact, Decode.ofText_text _ hwritten.sound,
    Json.limited_of_depth_le hdepth, hdecode]

/-- Programs built step by step, from nothing or from a snapshot, whose literal numbers are whole
and at most `10 ^ 14` in magnitude, are read back from their snapshots: every question has the same
answer, the snapshot of what is read back is the same, and so are the handles of intrinsic types if
no step made or changed such types by other means than asking for them. Every handle that a step
stores has 32 bits. -/
theorem ofText_toText_edited {start : Program}
    (hstart : start = empty ∨ ∃ text, ofText text = .ok start) {edits : List Edit}
    (hedits : ∀ e ∈ edits, e.Below .word)
    (hnumbers : ∀ x ∈ (start.edited edits).numbers, ∃ n ∈ x.whole?, n ≤ 10 ^ 14) :
    ∃ q, ofText (start.edited edits).toText = .ok q
      ∧ (∀ {α : Type} (query : Query α), q.answer query = (start.edited edits).answer query)
      ∧ q.toText = (start.edited edits).toText
      ∧ (start.SparesIntrinsics edits →
        ∀ text, (q.intrinsic text).1 = ((start.edited edits).intrinsic text).1) := by
  have hbuilt : start.Below .word ∧ 0 < start.types.size ∧ start.Interned := by
    obtain rfl | ⟨text, htext⟩ := hstart
    · exact ⟨below_empty .word, Nat.zero_lt_one, interned_empty⟩
    · obtain ⟨hbelow, htypes, hintrinsics⟩ := Decode.ensures_ofText gives_decode text start htext
      exact ⟨hbelow, htypes, interned_of_eq hintrinsics⟩
  obtain ⟨hbelow, htypes, hinterned⟩ := hbuilt
  have htypes' : 0 < (start.edited edits).types.size :=
    Nat.lt_of_lt_of_le htypes (start.size_types_le_edited edits)
  refine ⟨_, ofText_toText (hbelow.edited hedits) htypes' hnumbers, ?_, rfl, ?_⟩
  · intro α query
    exact answer_reloaded _ query
  · intro hspares text
    exact (hinterned.edited hspares).intrinsic_reloaded text

/-- Edits of every kind, with a whole number, a type that is asked for twice and handles that lead
nowhere. -/
def everyEdit : List Edit :=
  [.addFile "a.ts" "type A = [\"é\"];\n", .initModules ⟨0⟩, .addModule ⟨0⟩ "./b" "b.ts",
    .addModule ⟨0⟩ "./b" "c.ts",
    .addNode ⟨0⟩ (.typeAlias "A" true (some ⟨1⟩)) (some ⟨0, 15⟩),
    .addNode ⟨0⟩ (.exportDeclaration (some "./b") (some (.named [⟨"x", some "y"⟩]))) none,
    .addStatement ⟨0⟩ ⟨0⟩, .setParent ⟨1⟩ ⟨0⟩, .intrinsic "string", .intrinsic "string",
    .literal (.number (.ofNat 7)), .union "string | 7" [⟨1⟩, ⟨2⟩], .typeParameter "T",
    .object "O", .addType { text := "P", kind := .object, arguments := [⟨4294967295⟩] },
    .putType ⟨5⟩ { text := "O", kind := .object, properties := [⟨0⟩] },
    .setNodeType ⟨0⟩ ⟨3⟩, .addSymbol "A", .declare ⟨0⟩ ⟨0⟩, .refer ⟨1⟩ ⟨0⟩,
    .putSymbol ⟨0⟩ { name := "A", declaredType := some ⟨3⟩ },
    .putNode ⟨1⟩ { file := ⟨0⟩, form := .arrayType ⟨0⟩ }, .addSignature [⟨0⟩] ⟨1⟩]

theorem ofText_toText_edited_everyEdit :
    (∀ e ∈ everyEdit, e.Below .word)
      ∧ (∀ x ∈ (empty.edited everyEdit).numbers, ∃ n ∈ x.whole?, n ≤ 10 ^ 14)
      ∧ empty.SparesIntrinsics everyEdit
      ∧ ∃ q, ofText (empty.edited everyEdit).toText = .ok q
        ∧ (q.intrinsic "string").1 = ⟨1⟩ ∧ (q.intrinsic "number").1 = ⟨7⟩ := by
  have hedits : ∀ e ∈ everyEdit, e.Below .word := by
    decide +kernel
  have hnumbers : ∀ x ∈ (empty.edited everyEdit).numbers, ∃ n ∈ x.whole?, n ≤ 10 ^ 14 := by
    decide +kernel
  have hspares : empty.SparesIntrinsics everyEdit := by
    decide +kernel
  obtain ⟨q, hread, -, -, hintrinsic⟩ := ofText_toText_edited (.inl rfl) hedits hnumbers
  refine ⟨hedits, hnumbers, hspares, q, hread, ?_, ?_⟩
  · rw [hintrinsic hspares]
    decide +kernel
  · rw [hintrinsic hspares]
    decide +kernel

end Program
end PortableTypes
