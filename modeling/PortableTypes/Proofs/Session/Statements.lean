import PortableTypes.Proofs.Projection.Statements
import PortableTypes.Proofs.Session.Reexports

/-!
# Statement by statement

The declarations of a file are those of its statements, one after the other. Each statement gives
what it gives when it is the only one of the file, and an export declaration gives what the question
for its re-exports gives. The statements share a store, so this holds up to keys.
-/
namespace PortableTypes

namespace Program

open Projecting

/-- An extraction gives the same from every start, but for the keys. -/
theorem always_erased_eq {p : Program} {x : Projecting Extracted}
    (hx : ∀ σ, p.YieldsExtracted σ x) (g : UInt32) (n : Nat) :
    Always (Extracted.erased · = Extracted.erased (x g n).value) x := by
  intro g' n'
  exact Session.eq_from_every_start hx Extracted.erased_rekey g' g n' n

/-- So does a statement of the file that is entered first. -/
theorem always_erased_extractStatement (p : Program) (skipGenerics : Bool) (file : FileId)
    (fileName : String) (statement : NodeId) (g : UInt32) (n : Nat) :
    Always
      (Extracted.erased · =
        Extracted.erased (p.extractStatement skipGenerics (p.inner skipGenerics (maxChain - 1)) [file]
          file fileName statement g n).value)
      (p.extractStatement skipGenerics (p.inner skipGenerics (maxChain - 1)) [file] file fileName
        statement) := by
  have hyields (σ : String → String) : p.YieldsExtracted σ
      (p.extractStatement skipGenerics (p.inner skipGenerics (maxChain - 1)) [file] file fileName
        statement) :=
    mirrors_extractStatement skipGenerics fileName fun _ _ _ target id _ =>
      p.sameEntry_inner skipGenerics _ [file] target id
  exact always_erased_eq hyields g n

section

variable {p : Program} {fileName : String} {file : FileId}
  (hfile : p.sourceFile? fileName = some file) (skipGenerics : Bool)
include hfile

/-- A file gives what the files with one of its statements give, wherever each of these starts. -/
theorem erased_extract {alone : NodeId → Extracted}
    (halone : ∀ statement ∈ p.statements file, ∃ g n, alone statement =
      ((p.withStatements file [statement]).extract skipGenerics fileName g n).value) :
    Always
      (Extracted.erased · =
        List.flatten <$> (p.statements file).mapM fun statement => (alone statement).erased)
      (p.extract skipGenerics fileName) := by
  rw [extract, extractFile_of_sourceFile? hfile, List.nil_append]
  refine .after fun _ => erased_extractAll fun statement hstatement => ?_
  obtain ⟨g, n, hgiven⟩ := halone statement hstatement
  rw [hgiven, value_extract_withStatements_singleton hfile]
  exact p.always_erased_extractStatement skipGenerics file fileName statement g n

variable {statement : NodeId} {specifier : Option String} {clause : Option ExportClause}
  (hnode : p.nodeFile? statement = some file)
  (hform : p.form? statement = some (.exportDeclaration specifier clause))
include hnode hform

/-- The way into other files is the same for an export declaration on its own and for one among the
statements of its file. -/
theorem value_extract_withStatements_export (g g' : UInt32) (n : Nat) :
    ((p.withStatements file [statement]).extract skipGenerics fileName g' n).value =
      passedOver (Extracted.rekey (StoreKey.withGeneration g')
        (p.extractExport skipGenerics statement g n).value) := by
  have hsame : p.YieldsExtracted (StoreKey.withGeneration g')
      (p.extractExport skipGenerics statement) := mirrors_extractExport ..
  rw [← hsame.value (Session.carries_withGeneration g g' n),
    value_extract_withStatements_singleton hfile, value_extractStatement_export hform,
    extractExport_of_form hnode (fileName?_of_sourceFile? hfile) hform]

/-- A re-export gives declarations, or leads nowhere, or comes to a fault. -/
theorem outcome_extractExport :
    Always (fun r => (∃ ds, r = .ok ds) ∨ (∃ e, r = .error (.reexport e)) ∨
        ∃ fileName v, r = .error (.violation fileName v))
      (p.extractExport skipGenerics statement) := by
  rw [extractExport_of_form hnode (fileName?_of_sourceFile? hfile) hform]
  intro g n
  obtain hsettled | ⟨-, hnowhere⟩ := settled_extractReexport
    (fun _ _ hid _ => settled_entry_inner skipGenerics (maxChain - 1) [file] hid) specifier clause g n
  · revert hsettled
    cases (p.extractReexport (p.inner skipGenerics (maxChain - 1)) [file] file specifier clause g
      n).value with
    | ok ds => exact fun _ => .inl ⟨ds, rfl⟩
    | error e =>
      cases e with
      | violation fileName v => exact fun _ => .inr (.inr ⟨fileName, v, rfl⟩)
      | _ => exact False.elim
  · exact .inr (.inl hnowhere)

end
end Program

namespace Session

/-- The declarations of a file, without their keys, are those of its statements in order, each given
by the file with that statement alone; and if a statement fails, the first one that does decides.
For an export declaration the file gives what the question for its re-exports gives, but for the
generation of the keys; where that finds no way, the file gives nothing, and where it comes to a
fault, so does the file. -/
theorem declarations_eq_statements (s : Session) (fileName : String) (file : FileId)
    (hfile : s.program.sourceFile? fileName = some file) (skipGenerics : Bool)
    (alone : NodeId → Session)
    (halone : ∀ statement ∈ s.program.statements file,
      (alone statement).program = s.program.withStatements file [statement]) :
    ((declarations fileName skipGenerics s).value.erased =
      List.flatten <$> (s.program.statements file).mapM fun statement =>
        (declarations fileName skipGenerics (alone statement)).value.erased) ∧
    ∀ statement ∈ s.program.statements file, s.program.nodeFile? statement = some file →
      ∀ specifier clause, s.program.form? statement = some (.exportDeclaration specifier clause) →
        match (reexports statement skipGenerics s).value with
        | .ok ds => (declarations fileName skipGenerics (alone statement)).value =
            .ok (ds.map (·.rekey (StoreKey.withGeneration
              (declarations fileName skipGenerics (alone statement)).session.store.generation)))
        | .error (.reexport _) =>
          (declarations fileName skipGenerics (alone statement)).value = .ok []
        | .error (.violation name v) =>
          (declarations fileName skipGenerics (alone statement)).value = .error (.violation name v)
        | .error _ => False := by
  have hvalue (statement : NodeId) (hstatement : statement ∈ s.program.statements file) :
      (declarations fileName skipGenerics (alone statement)).value =
        ((s.program.withStatements file [statement]).extract skipGenerics fileName
          (alone statement).counter.next 0).value := by
    rw [← halone statement hstatement]
    rfl
  constructor
  · exact Program.erased_extract hfile skipGenerics
      (fun statement hstatement => ⟨_, _, hvalue statement hstatement⟩) s.counter.next 0
  · intro statement hstatement hnode specifier clause hform
    have hgiven : (declarations fileName skipGenerics (alone statement)).value =
        Program.passedOver ((reexports statement skipGenerics s).value.rekey
          (StoreKey.withGeneration (alone statement).counter.next)) := by
      rw [hvalue statement hstatement]
      exact Program.value_extract_withStatements_export hfile skipGenerics hnode hform ..
    have houtcome : (∃ ds, (reexports statement skipGenerics s).value = .ok ds) ∨
        (∃ e, (reexports statement skipGenerics s).value = .error (.reexport e)) ∨
        ∃ name v, (reexports statement skipGenerics s).value = .error (.violation name v) :=
      Program.outcome_extractExport hfile skipGenerics hnode hform s.counter.next 0
    obtain ⟨ds, hds⟩ | ⟨e, he⟩ | ⟨name, v, hv⟩ := houtcome
    · rw [hds] at hgiven ⊢
      exact hgiven
    · rw [he] at hgiven ⊢
      exact hgiven
    · rw [hv] at hgiven ⊢
      exact hgiven

/-- A file whose first statement takes from a file that takes from it again, and whose last one
leads nowhere. -/
theorem declarations_eq_statements_exchange :
    let s := start exchange .initial
    let alone := fun statement => start (exchange.withStatements ⟨1⟩ [statement]) s.counter
    exchange.sourceFile? "b.ts" = some ⟨1⟩ ∧
    (declarations "b.ts" true s).value.types.flatMap (·.leaves) =
      [⟨"Z", "2-0", []⟩, ⟨"X", "2-1", []⟩] ∧
    (declarations "b.ts" true (alone ⟨2⟩)).value.types.flatMap (·.leaves) =
      [⟨"X", "3-0", []⟩] ∧
    ((declarations "b.ts" true s).value.erased =
      List.flatten <$> [⟨1⟩, ⟨2⟩, ⟨3⟩].mapM fun statement =>
        (declarations "b.ts" true (alone statement)).value.erased) ∧
    (∃ ds, (reexports ⟨1⟩ true s).value = .ok ds ∧ ds.map (·.name) = [some "Z"] ∧
      (declarations "b.ts" true (alone ⟨1⟩)).value =
        .ok (ds.map (·.rekey (StoreKey.withGeneration 3)))) ∧
    (∃ e, (reexports ⟨3⟩ true s).value = .error (.reexport e) ∧
      (declarations "b.ts" true (alone ⟨3⟩)).value = .ok []) := by
  intro s alone
  have hfile : exchange.sourceFile? "b.ts" = some ⟨1⟩ := by decide +kernel
  obtain ⟨hall, heach⟩ := declarations_eq_statements s "b.ts" ⟨1⟩ hfile true alone fun _ _ => rfl
  have hfirst := heach ⟨1⟩ (by decide) rfl _ _ rfl
  have hlast := heach ⟨3⟩ (by decide) rfl _ _ rfl
  refine ⟨hfile, by decide +kernel, by decide +kernel, hall, ⟨_, rfl, by decide +kernel, hfirst⟩,
    ⟨_, rfl, hlast⟩⟩

end Session
end PortableTypes
