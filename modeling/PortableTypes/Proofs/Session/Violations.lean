import PortableTypes.Proofs.Projection.Extraction
import PortableTypes.Proofs.Session.LiveKeys

/-!
# Violations are reported once

A violation is reported as an error where it is met, and then handed on as the result by every
extraction around the one that met it. No extraction on the way reports it again or gives something
else in its place, and nothing but a violation is reported as an error. So the errors of a question
are one for a violation in the answer, which names the same file and the same fault, and none
otherwise.
-/
namespace PortableTypes

namespace Event

/-- The events that are errors, in order. -/
def errors (es : List Event) : List Event := es.filter (·.level = .error)

/-- The file and the violation that an error is about. -/
def violation? : Event → Option (String × Violation)
  | .emptyStatement fileName => some (fileName, .emptyVariableStatement)
  | .notExportDeclaration fileName node => some (fileName, .notExportDeclaration node.label)
  | _ => none

theorem errors_append (es more : List Event) : errors (es ++ more) = errors es ++ errors more :=
  List.filter_append ..

theorem level_ne_error_of_ofClassification {e : Event} (h : e.OfClassification) :
    e.level ≠ .error := by
  cases e with
  | emptyStatement | notExportDeclaration => cases h
  | _ => exact nofun

end Event

namespace Projecting

open Event

variable {α β : Type} {before : List Event} {R : α → List Event → Prop}
  {R' : β → List Event → Prop}

/-- After the errors `before`, the projection ends with errors that stand in `R` to its result. -/
def Logs (before : List Event) (x : Projecting α) (R : α → List Event → Prop) : Prop :=
  ∀ g n, R (x g n).value (before ++ errors (x g n).events)

/-- The projection reports no errors. -/
def Quiet (x : Projecting α) : Prop := ∀ g n, errors (x g n).events = []

theorem Logs.pure {a : α} (h : R a before) : Logs before (Pure.pure a) R := by
  intro g n
  show R a (before ++ [])
  rwa [List.append_nil]

theorem Logs.bind {x : Projecting α} {f : α → Projecting β} (hx : Logs before x R)
    (hf : ∀ a es, R a es → Logs es (f a) R') : Logs before (x >>= f) R' := by
  intro g n
  have hnext := hf _ _ (hx g n) g (n + (x g n).objects.length)
  rw [List.append_assoc, ← errors_append] at hnext
  exact hnext

/-- What comes first reports no errors. -/
theorem Quiet.andThen {x : Projecting α} {f : α → Projecting β} (hx : Quiet x)
    (hf : ∀ a, Logs before (f a) R') : Logs before (x >>= f) R' := by
  have hlogs : Logs before x fun _ es => es = before := by
    intro g n
    rw [hx g n, List.append_nil]
  refine hlogs.bind fun a es hes => ?_
  rw [hes]
  exact hf a

theorem quiet_report {e : Event} (h : e.level ≠ .error) : Quiet (report e) := by
  intro g n
  exact List.filter_eq_nil_iff.mpr (by simpa [report] using h)

theorem logs_report {e : Event} (h : e.level = .error) :
    Logs before (report e) fun _ es => es = before ++ [e] := by
  intro g n
  simp [report, errors, h]

end Projecting

namespace Program

open Event Projecting

theorem Accounts.quiet {p : Program} {α : Type} {view : α → List ObjectLeaf}
    {held : List ObjectLeaf} {x : Projecting α} (h : p.Accounts OfClassification view held x) :
    Quiet x := by
  intro g n
  refine List.filter_eq_nil_iff.mpr fun e he => ?_
  simpa using level_ne_error_of_ofClassification (h.events g n e he)

/-! ## Extraction -/

/-- The file and the violation for which an extraction gives nothing. -/
def Extracted.violation? : Extracted → Option (String × Violation)
  | .error (.violation fileName v) => some (fileName, v)
  | _ => none

/-- The errors are about the violation in the result, if there is one. -/
def Reported (r : Extracted) (errors : List Event) : Prop :=
  errors.map Event.violation? = (Extracted.violation? r).toList.map some

/-- An extraction reports one error for a violation, and none without. -/
abbrev ReportsViolation (x : Projecting Extracted) : Prop := Logs [] x Reported

/-- A re-export hands on the violation of the file it leads to. -/
theorem violation?_reexported (specifier : String) (clause : Option ExportClause) (r : Extracted) :
    Extracted.violation? (reexported specifier clause r) = Extracted.violation? r := by
  cases r with
  | error e => cases e <;> rfl
  | ok ds =>
    cases clause with
    | none => rfl
    | some clause => cases clause <;> rfl

section

variable {p : Program}

theorem reportsViolation_extractAll {extract : NodeId → Projecting Extracted}
    (hextract : ∀ node, ReportsViolation (extract node)) (statements : List NodeId) :
    ReportsViolation (extractAll extract statements) := by
  induction statements with
  | nil => exact .pure rfl
  | cons statement rest ih =>
    refine (hextract statement).bind fun first es hfirst => ?_
    cases first with
    | error e => exact .pure hfirst
    | ok ds =>
      -- declarations come without errors, so what follows starts with none
      obtain rfl : es = [] := List.map_eq_nil_iff.mp hfirst
      refine ih.bind fun more es hmore => ?_
      cases more <;> exact .pure hmore

variable {enter : Option Extractor} {chain : List FileId} {file : FileId}
  (henter : ∀ target id, ∀ x ∈ entry enter chain target id, ReportsViolation x)
include henter

theorem reportsViolation_extractReexport (specifier : Option String)
    (clause : Option ExportClause) :
    ReportsViolation (p.extractReexport enter chain file specifier clause) := by
  cases specifier with
  | none => exact .pure rfl
  | some specifier =>
    cases htarget : p.moduleTarget file (unquoted specifier) with
    | error reason =>
      rw [extractReexport_of_error htarget]
      exact .pure rfl
    | ok found =>
      obtain ⟨target, id⟩ := found
      rw [extractReexport_of_ok htarget]
      cases hentry : entry enter chain target id with
      | none => exact (quiet_report (by nofun)).andThen fun _ => .pure rfl
      | some x =>
        refine (henter target id x hentry).bind fun r es hr => .pure ?_
        rwa [Reported, violation?_reexported]

theorem reportsViolation_extractForm (fileName : String) (statement : NodeId) (form : Form) :
    ReportsViolation (p.extractForm enter chain file fileName statement form) := by
  unfold extractForm
  split
  · refine (reportsViolation_extractReexport henter _ _).bind fun r es hr => ?_
    split
    · obtain rfl : es = [] := List.map_eq_nil_iff.mp hr
      exact (quiet_report (by nofun)).andThen fun _ => .pure rfl
    · exact .pure hr
  · exact (logs_report rfl).bind fun _ es hes => .pure (by rw [hes]; rfl)
  · exact (accounts_each (p := p) accounts_extractVariable _).quiet.andThen fun _ => .pure rfl
  · exact (accounts_extractVariable (p := p) _).quiet.andThen fun _ => .pure rfl
  · exact (accounts_extractDeclaration (p := p) _ _).quiet.andThen fun _ => .pure rfl

theorem reportsViolation_extractStatement (skipGenerics : Bool) (fileName : String)
    (statement : NodeId) :
    ReportsViolation
      (p.extractStatement skipGenerics enter chain file fileName statement) := by
  unfold extractStatement
  split
  · exact .pure rfl
  · split
    · exact .pure rfl
    · split
      · exact (quiet_report (by nofun)).andThen fun _ => .pure rfl
      · exact reportsViolation_extractForm henter fileName statement _

end

theorem reportsViolation_extractNamed {p : Program} {enter : Option Extractor}
    {chain : List FileId}
    (henter : ∀ file target id, ∀ x ∈ entry enter (chain ++ [file]) target id, ReportsViolation x)
    (skipGenerics : Bool) (fileName : String) :
    ReportsViolation (p.extractNamed skipGenerics enter chain fileName) := by
  unfold extractNamed
  split
  · exact .pure rfl
  · rename_i file _
    refine (quiet_report (by nofun)).andThen fun _ =>
      reportsViolation_extractAll (fun statement => ?_) _
    exact reportsViolation_extractStatement (henter file) skipGenerics fileName statement

theorem reportsViolation_extractFile (p : Program) (skipGenerics : Bool) (room : Nat)
    (chain : List FileId) (fileName : String) :
    ReportsViolation (p.extractFile skipGenerics room chain fileName) := by
  induction room using Nat.strongRecOn generalizing chain fileName with
  | ind room ih =>
    rw [extractFile_eq]
    refine reportsViolation_extractNamed (fun file target id x hx => ?_) skipGenerics fileName
    obtain ⟨-, smaller, rfl, rfl⟩ := mem_entry_inner.mp hx
    exact ih smaller (Nat.lt_succ_self _) _ _

theorem reportsViolation_extractExport (p : Program) (skipGenerics : Bool) (node : NodeId) :
    ReportsViolation (p.extractExport skipGenerics node) := by
  unfold extractExport
  split
  · split
    · refine reportsViolation_extractReexport (fun target id x hx => ?_) _ _
      have hinner : x ∈ entry (p.inner skipGenerics (maxChain - 1)) _ target id := hx
      obtain ⟨-, smaller, -, rfl⟩ := mem_entry_inner.mp hinner
      exact p.reportsViolation_extractFile skipGenerics smaller _ target
    · exact (logs_report rfl).bind fun _ es hes => .pure (by rw [hes]; rfl)
  · exact .pure rfl

end Program

/-! ## Answers -/

namespace Session

open Event

/-- An answer with a violation has one error on the way to it, about the same file and violation;
any other answer has none. -/
def ReportsOnce (a : Answer Program.Extracted) : Prop :=
  (∀ fileName v, a.value = .error (.violation fileName v) →
    ∃ e, errors a.events = [e] ∧ e.violation? = some (fileName, v)) ∧
  ((∀ fileName v, a.value ≠ .error (.violation fileName v)) → errors a.events = [])

theorem reportsOnce_of_reported {a : Answer Program.Extracted}
    (h : Program.Reported a.value (errors a.events)) : ReportsOnce a := by
  constructor
  · intro fileName v hv
    rw [hv] at h
    exact List.map_eq_singleton_iff.mp h
  · intro hnone
    have hviolation : Program.Extracted.violation? a.value = none := by
      unfold Program.Extracted.violation?
      split
      · rename_i fileName v hv
        exact absurd hv (hnone fileName v)
      · rfl
    rw [Program.Reported, hviolation] at h
    exact List.map_eq_nil_iff.mp h

theorem errors_typeOf (s : Session) (node : NodeId) : errors (typeOf node s).events = [] := by
  have hclassify := (s.program.accounts_classify Program.maxNesting (s.program.typeAt node)
    (some node)).quiet
  exact hclassify _ _

theorem errors_typeUnder (s : Session) (fileName : String) (position : Position) :
    errors (typeUnder fileName position s).events = [] := by
  cases hnode : s.program.nodeUnder fileName position with
  | error e =>
    rw [typeUnder_of_error hnode]
    rfl
  | ok node =>
    rw [typeUnder_of_ok hnode]
    exact errors_typeOf s node

theorem errors_properties (s : Session) (key : String) :
    errors (Session.properties key s).events = [] := by
  cases hkey : s.store.lookup? key with
  | none =>
    rw [properties_of_lookup?_eq_none hkey]
    rfl
  | some object =>
    rw [properties_of_lookup?_eq_some hkey]
    exact (s.program.accounts_projectProperties object.type).quiet _ _

/-- Whatever the program and the state of a session, a question for declarations or for what an
export declaration takes reports one error if the answer is a violation, however many files were
entered on the way to it, and none otherwise; no other operation of the session reports an error. -/
theorem violations_reported_once (s : Session) :
    (∀ fileName skipGenerics, ReportsOnce (declarations fileName skipGenerics s)) ∧
    (∀ node skipGenerics, ReportsOnce (reexports node skipGenerics s)) ∧
    (∀ node, errors (typeOf node s).events = []) ∧
    (∀ fileName position, errors (typeUnder fileName position s).events = []) ∧
    (∀ key, errors (Session.properties key s).events = []) ∧
    (∀ key, errors (lookup? key s).events = []) ∧
    errors (reset s).events = [] ∧ ∀ program, errors (turnTo program s).events = [] := by
  refine ⟨fun fileName skipGenerics => ?_, fun node skipGenerics => ?_, errors_typeOf s,
    errors_typeUnder s, errors_properties s, fun _ => rfl, rfl, fun _ => rfl⟩
  · exact reportsOnce_of_reported (s.program.reportsViolation_extractFile skipGenerics _ [] fileName
      _ _)
  · exact reportsOnce_of_reported (s.program.reportsViolation_extractExport skipGenerics node _ _)

/-- A file that takes a name from a second one, which takes all from a third one, where a variable
statement is empty. -/
def faultBehindTwo : Program :=
  { files := #[
      { name := "a.ts", text := "", statements := [⟨0⟩],
        modules := some (.ofList [("./b", "b.ts")]) },
      { name := "b.ts", text := "", statements := [⟨1⟩],
        modules := some (.ofList [("./c", "c.ts")]) },
      { name := "c.ts", text := "", statements := [⟨2⟩] }]
    types := #[.error]
    nodes := #[
      { file := ⟨0⟩, form := .exportDeclaration (some "./b") (some (.named [⟨"x", none⟩])) },
      { file := ⟨1⟩, form := .exportDeclaration (some "./c") (some (.everything none)) },
      { file := ⟨2⟩, form := .variableStatement false [] }] }

/-- The declarations of the first file come to the empty statement, and the empty statement is no
export declaration. -/
theorem violations_reported_once_faultBehindTwo :
    let s := start faultBehindTwo .initial
    (declarations "a.ts" true s).value = .error (.violation "c.ts" .emptyVariableStatement) ∧
    (∃ e, errors (declarations "a.ts" true s).events = [e] ∧
      e.violation? = some ("c.ts", .emptyVariableStatement)) ∧
    (reexports ⟨2⟩ true s).value = .error (.violation "c.ts" (.notExportDeclaration "node#2")) ∧
    ∃ e, errors (reexports ⟨2⟩ true s).events = [e] ∧
      e.violation? = some ("c.ts", .notExportDeclaration "node#2") := by
  intro s
  obtain ⟨hdeclarations, hreexports, -⟩ := violations_reported_once s
  have hdeep : (declarations "a.ts" true s).value =
      .error (.violation "c.ts" .emptyVariableStatement) := rfl
  have hother : (reexports ⟨2⟩ true s).value =
      .error (.violation "c.ts" (.notExportDeclaration "node#2")) := rfl
  exact ⟨hdeep, (hdeclarations "a.ts" true).1 _ _ hdeep, hother, (hreexports ⟨2⟩ true).1 _ _ hother⟩

end Session
end PortableTypes
