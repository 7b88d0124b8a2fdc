import PortableTypes.Proofs.Session.Statements

/-!
# Export declarations without a list of names

An export declaration that takes everything from a module, or that does not say what it takes, gives
no declarations. Its module is entered before this is found out. So it can be left out of a file
without changing what the file gives, unless it is the first statement of the file that comes to a
fault.
-/
namespace PortableTypes

/-- An export declaration that does not list the names it takes. -/
def Form.isWholesale : Form → Bool
  | .exportDeclaration _ none | .exportDeclaration _ (some (.everything _)) => true
  | _ => false

namespace Program

open Projecting

def isWholesale (p : Program) (statement : NodeId) : Bool :=
  match p.form? statement with
  | some form => form.isWholesale
  | none => false

theorem exists_form?_of_isWholesale {p : Program} {statement : NodeId}
    (h : p.isWholesale statement = true) :
    ∃ specifier clause, p.form? statement = some (.exportDeclaration specifier clause) ∧
      ∀ items, clause ≠ some (.named items) := by
  unfold isWholesale at h
  split at h
  · rename_i form hform
    unfold Form.isWholesale at h
    split at h
    · exact ⟨_, _, hform, fun items => by simp⟩
    · exact ⟨_, _, hform, fun items => by simp⟩
    · cases h
  · cases h

/-- What there is to take is not taken without a list of names. -/
theorem error_extractReexport {p : Program} {clause : Option ExportClause}
    (hclause : ∀ items, clause ≠ some (.named items)) (enter : Option Extractor)
    (chain : List FileId) (file : FileId) (specifier : Option String) :
    Always (fun r => ∃ e, r = .error e) (p.extractReexport enter chain file specifier clause) := by
  cases specifier with
  | none => exact .pure ⟨_, rfl⟩
  | some specifier =>
    cases htarget : p.moduleTarget file (unquoted specifier) with
    | error reason =>
      rw [extractReexport_of_error htarget]
      exact .pure ⟨_, rfl⟩
    | ok found =>
      rw [extractReexport_of_ok htarget]
      cases entry enter chain found.1 found.2 with
      | none => exact .after fun _ => .pure ⟨_, rfl⟩
      | some x =>
        intro g n
        show ∃ e, reexported (unquoted specifier) clause (x g n).value = .error e
        unfold reexported
        split
        · exact ⟨_, rfl⟩
        · exact ⟨_, rfl⟩
        · split
          · exact ⟨_, rfl⟩
          · exact ⟨_, rfl⟩
          · exact absurd rfl (hclause _)

/-! ## What the statements of a file give -/

/-- What a statement gives in a file that is entered first, without keys. -/
def given (p : Program) (skipGenerics : Bool) (file : FileId) (fileName : String)
    (statement : NodeId) : Extracted :=
  (p.extractStatement skipGenerics (p.inner skipGenerics (maxChain - 1)) [file] file fileName
    statement 0 0).value.erased

theorem erased_extractAll_given (p : Program) (skipGenerics : Bool) (file : FileId)
    (fileName : String) (statements : List NodeId) :
    Always
      (Extracted.erased · =
        List.flatten <$> statements.mapM (p.given skipGenerics file fileName))
      (extractAll (p.extractStatement skipGenerics (p.inner skipGenerics (maxChain - 1)) [file] file
        fileName) statements) := by
  refine erased_extractAll fun statement _ => ?_
  exact p.always_erased_extractStatement skipGenerics file fileName statement 0 0

section

variable {p : Program} {fileName : String} {file : FileId}
  (hfile : p.sourceFile? fileName = some file) (skipGenerics : Bool)
include hfile

theorem erased_extract_given :
    Always
      (Extracted.erased · =
        List.flatten <$> (p.statements file).mapM (p.given skipGenerics file fileName))
      (p.extract skipGenerics fileName) := by
  rw [extract, extractFile_of_sourceFile? hfile, List.nil_append]
  exact .after fun _ => p.erased_extractAll_given skipGenerics file fileName _

/-- With other statements in a file, each gives what it would give there anyway. -/
theorem erased_extract_withStatements (statements : List NodeId) :
    Always
      (Extracted.erased · =
        List.flatten <$> statements.mapM (p.given skipGenerics file fileName))
      ((p.withStatements file statements).extract skipGenerics fileName) := by
  have hfile' : (p.withStatements file statements).sourceFile? fileName = some file := by
    rw [sourceFile?_withStatements, hfile]
  have hsame : (p.withStatements file statements).extractStatement skipGenerics
        ((p.withStatements file statements).inner skipGenerics (maxChain - 1)) [file] file fileName =
      p.extractStatement skipGenerics (p.inner skipGenerics (maxChain - 1)) [file] file fileName := by
    funext statement
    exact p.extractStatement_inner_withStatements (List.mem_singleton_self file) ..
  rw [extract, extractFile_of_sourceFile? hfile', statements_withStatements _ _ _ hfile,
    List.nil_append, hsame]
  exact .after fun _ => p.erased_extractAll_given skipGenerics file fileName _

end

/-- Without a list of names there is a failure or nothing. -/
theorem given_of_isWholesale {p : Program} {statement : NodeId}
    (h : p.isWholesale statement = true) (skipGenerics : Bool) (file : FileId) (fileName : String) :
    p.given skipGenerics file fileName statement = .ok [] ∨
      ∃ e, p.given skipGenerics file fileName statement = .error e := by
  obtain ⟨specifier, clause, hform, hclause⟩ := exists_form?_of_isWholesale h
  obtain ⟨e, he⟩ := error_extractReexport hclause (p.inner skipGenerics (maxChain - 1)) [file] file
    specifier 0 0
  rw [given, value_extractStatement_export hform, he]
  cases e with
  | reexport e => exact .inl rfl
  | fileNotFound | nodeNotFound | violation => exact .inr ⟨_, rfl⟩

/-! ## Faults in reach of a statement -/

/-- A statement of a file is a variable statement without variables, which is not left out; or it is
an export declaration, and a way from the file it leads to, of at most 32 different files with its
own, comes to such a statement. -/
def ComesToFault (p : Program) (skipGenerics : Bool) (file : FileId) (statement : NodeId) : Prop :=
  p.IsEmptyStatement skipGenerics statement ∨
    ∃ specifier clause target next rest,
      p.form? statement = some (.exportDeclaration (some specifier) clause) ∧
      p.resolveModule file (unquoted specifier) = .resolved target ∧
      p.sourceFile? target = some next ∧ (next :: rest).IsChain p.TakesFrom ∧
      (file :: next :: rest).Nodup ∧ (file :: next :: rest).length ≤ 32 ∧
      ∃ last ∈ (next :: rest).getLast?, p.HasEmptyStatement skipGenerics last

/-- The first statement of a file that comes to a fault is an export declaration without a list of
names. -/
def FailsWholesale (p : Program) (skipGenerics : Bool) (file : FileId) : Prop :=
  ∃ before statement after, p.statements file = before ++ statement :: after ∧
    (∀ earlier ∈ before, ¬ p.ComesToFault skipGenerics file earlier) ∧
    p.isWholesale statement = true ∧ p.ComesToFault skipGenerics file statement

theorem comesToFault_iff {p : Program} {skipGenerics : Bool} {file : FileId} {statement : NodeId} :
    p.ComesToFault skipGenerics file statement ↔
      p.IsEmptyStatement skipGenerics statement ∨
        ∃ specifier clause, p.form? statement = some (.exportDeclaration (some specifier) clause) ∧
          p.EntersFault (p.MeetsFault skipGenerics (maxChain - 2) [file])
            (p.inner skipGenerics (maxChain - 1)) [file] file specifier := by
  refine or_congr_right ?_
  constructor
  · rintro ⟨specifier, clause, target, next, rest, hform, hresolve, hnext, hlinked, hnodup, hlength,
      hlast⟩
    obtain ⟨hfile, hnodup⟩ := List.nodup_cons.mp hnodup
    have hnew : next ∉ [file] := by
      intro h
      exact hfile (List.mem_singleton.mp h ▸ List.mem_cons_self)
    have hroute : p.Route [file] (next :: rest) := by
      refine ⟨hlinked, hnodup, fun other hother hmem => ?_⟩
      exact hfile (List.mem_singleton.mp hmem ▸ hother)
    have hroom : rest.length ≤ maxChain - 2 := by
      simp only [List.length_cons] at hlength
      simp only [maxChain]
      omega
    exact ⟨specifier, clause, hform, target, next, moduleTarget_eq_ok.mpr ⟨hresolve, hnext⟩,
      isSome_entry_inner.mpr ⟨hnew, by decide⟩, rest, hroute, hroom, hlast⟩
  · rintro ⟨specifier, clause, hform, target, next, htarget, -, rest, hroute, hroom, hlast⟩
    obtain ⟨hresolve, hnext⟩ := moduleTarget_eq_ok.mp htarget
    have hfile : file ∉ next :: rest := fun h => hroute.fresh file h (List.mem_singleton_self file)
    refine ⟨specifier, clause, target, next, rest, hform, hresolve, hnext, hroute.linked,
      List.nodup_cons.mpr ⟨hfile, hroute.nodup⟩, ?_, hlast⟩
    simp only [maxChain] at hroom
    simp only [List.length_cons]
    omega

theorem settled_erased {fault : Prop} {r : Extracted} (h : Settled fault r) :
    Settled fault r.erased := by
  cases r with
  | ok ds => exact h
  | error e => exact h

theorem settled_given (p : Program) (skipGenerics : Bool) (file : FileId) (fileName : String)
    (statement : NodeId) :
    Settled (p.ComesToFault skipGenerics file statement)
      (p.given skipGenerics file fileName statement) := by
  rw [comesToFault_iff]
  exact settled_erased (settled_extractStatement
    (fun _ _ hid _ => settled_entry_inner skipGenerics (maxChain - 1) [file] hid) skipGenerics
    fileName statement 0 0)

/-! ## Statements that are left out -/

section

variable {alone : NodeId → Extracted}

/-- The first failure among the statements decides. -/
theorem flatten_mapM_of_error {before after : List NodeId} {statement : NodeId}
    {e : ProjectionError} (hbefore : ∀ earlier ∈ before, ∃ ds, alone earlier = .ok ds)
    (hstatement : alone statement = .error e) :
    List.flatten <$> (before ++ statement :: after).mapM alone = .error e := by
  induction before with
  | nil =>
    rw [List.nil_append, flatten_mapM_cons, hstatement]
    rfl
  | cons earlier before ih =>
    obtain ⟨⟨ds, hds⟩, hrest⟩ := List.forall_mem_cons.mp hbefore
    rw [List.cons_append, flatten_mapM_cons, hds, ih hrest]
    rfl

/-- Statements that give nothing can be left out, also such as would fail behind another failure. -/
theorem flatten_mapM_filter {keep : NodeId → Bool} {statements : List NodeId}
    (hleft : ∀ statement ∈ statements, keep statement = false →
      alone statement = .ok [] ∨ ∃ e, alone statement = .error e)
    (hfirst : ∀ before statement after, statements = before ++ statement :: after →
      (∀ earlier ∈ before, ∃ ds, alone earlier = .ok ds) → keep statement = false →
      ∃ ds, alone statement = .ok ds) :
    List.flatten <$> (statements.filter keep).mapM alone =
      List.flatten <$> statements.mapM alone := by
  induction statements with
  | nil => rfl
  | cons statement rest ih =>
    obtain ⟨hstatement, hrest⟩ := List.forall_mem_cons.mp hleft
    -- behind a statement that does not fail, the first failure is the same
    have hbehind {ds : List Declaration} (hds : alone statement = .ok ds) :
        List.flatten <$> (rest.filter keep).mapM alone = List.flatten <$> rest.mapM alone := by
      refine ih hrest fun before other after hsplit hbefore => ?_
      refine hfirst (statement :: before) other after (congrArg (statement :: ·) hsplit) ?_
      exact List.forall_mem_cons.mpr ⟨⟨ds, hds⟩, hbefore⟩
    rw [flatten_mapM_cons]
    cases hkeep : keep statement with
    | true =>
      rw [List.filter_cons_of_pos hkeep, flatten_mapM_cons]
      cases halone : alone statement with
      | error e => rfl
      | ok ds => rw [hbehind halone]
    | false =>
      have hne : ¬ keep statement = true := by simp [hkeep]
      have hnothing : alone statement = .ok [] := by
        obtain ⟨ds, hds⟩ := hfirst [] statement rest rfl (List.forall_mem_nil _) hkeep
        obtain hnothing | ⟨e, he⟩ := hstatement hkeep
        · exact hnothing
        · rw [hds] at he
          cases he
      rw [List.filter_cons_of_neg hne, hbehind hnothing, hnothing]
      cases List.flatten <$> rest.mapM alone with
      | error e => rfl
      | ok more => rfl

end

/-- A file that is not the first of its name is never entered, and its statements do not matter. -/
theorem extractFile_withStatements_of_shadowed {p : Program} {file : FileId}
    (hshadowed : ∀ name, p.sourceFile? name ≠ some file) (statements : List NodeId)
    (skipGenerics : Bool) (room : Nat) :
    (p.withStatements file statements).extractFile skipGenerics room =
      p.extractFile skipGenerics room := by
  have hnamed (enter : Option Extractor) :
      (p.withStatements file statements).extractNamed skipGenerics enter =
        p.extractNamed skipGenerics enter := by
    funext chain name
    simp only [extractNamed, sourceFile?_withStatements]
    cases hname : p.sourceFile? name with
    | none => rfl
    | some other =>
      have hne : other ≠ file := fun h => hshadowed name (h ▸ hname)
      have hstatement : (p.withStatements file statements).extractStatement skipGenerics enter
            (chain ++ [other]) other name =
          p.extractStatement skipGenerics enter (chain ++ [other]) other name := by
        funext statement
        exact extractStatement_withStatements ..
      simp only [statements_withStatements_of_ne p file statements hne, hstatement]
  induction room with
  | zero => exact hnamed none
  | succ room ih =>
    show (p.withStatements file statements).extractNamed skipGenerics _ = _
    rw [hnamed, ih]
    rfl

/-- The program without the export declarations of a file that do not list the names they take. -/
def withoutWholesale (p : Program) (file : FileId) : Program :=
  p.withStatements file ((p.statements file).filter fun statement => !p.isWholesale statement)

section

variable {p : Program} {fileName : String} {file : FileId} {skipGenerics : Bool}
  (hfile : p.sourceFile? fileName = some file)
include hfile

theorem erased_extract_withoutWholesale (hsound : ¬ p.FailsWholesale skipGenerics file)
    (g g' : UInt32) (n n' : Nat) :
    ((p.withoutWholesale file).extract skipGenerics fileName g' n').value.erased =
      (p.extract skipGenerics fileName g n).value.erased := by
  rw [withoutWholesale, erased_extract_withStatements hfile skipGenerics _ g' n',
    erased_extract_given hfile skipGenerics g n]
  refine flatten_mapM_filter (fun statement _ hkeep => ?_) fun before statement after hsplit hbefore
    hkeep => ?_
  · exact given_of_isWholesale (by simpa using hkeep) skipGenerics file fileName
  · obtain ⟨-, hds⟩ | ⟨hfault, -⟩ :=
      (p.settled_given skipGenerics file fileName statement).cases
    · exact hds
    · refine absurd ⟨before, statement, after, hsplit, fun earlier hearlier hcomes => ?_,
        by simpa using hkeep, hfault⟩ hsound
      obtain ⟨ds, hds⟩ := hbefore earlier hearlier
      have hsettled := p.settled_given skipGenerics file fileName earlier
      rw [hds] at hsettled
      exact hsettled hcomes

theorem violation_of_failsWholesale (hfails : p.FailsWholesale skipGenerics file) :
    Always (fun r => ∃ name, r = .error (.violation name .emptyVariableStatement))
      (p.extract skipGenerics fileName) := by
  obtain ⟨before, statement, after, hsplit, hbefore, -, hcomes⟩ := hfails
  have hok (earlier : NodeId) (hearlier : earlier ∈ before) :
      ∃ ds, p.given skipGenerics file fileName earlier = .ok ds := by
    obtain ⟨-, hds⟩ | ⟨hfault, -⟩ := (p.settled_given skipGenerics file fileName earlier).cases
    · exact hds
    · exact absurd hfault (hbefore earlier hearlier)
  obtain ⟨hsound, -⟩ | ⟨-, name, hviolation⟩ :=
    (p.settled_given skipGenerics file fileName statement).cases
  · exact absurd hcomes hsound
  · intro g n
    have herased := erased_extract_given hfile skipGenerics g n
    rw [hsplit, flatten_mapM_of_error hok hviolation] at herased
    refine ⟨name, ?_⟩
    cases hvalue : (p.extract skipGenerics fileName g n).value with
    | ok ds =>
      rw [hvalue] at herased
      cases herased
    | error e =>
      rw [hvalue] at herased
      exact herased

end

end Program

namespace Session

/-- The export declarations of a file that do not list the names they take can be left out: the file
fails as before, or gives the same declarations but for their keys. This is so unless the first
statement of the file that comes to a fault is one of them, and then the file fails. -/
theorem declarations_withoutWholesale (s t : Session) (file : FileId) (fileName : String)
    (hname : s.program.fileName? file = some fileName) (skipGenerics : Bool)
    (hprogram : t.program = s.program.withoutWholesale file) :
    (¬ (s.program.sourceFile? fileName = some file ∧
        s.program.FailsWholesale skipGenerics file) →
      (declarations fileName skipGenerics t).value.erased =
        (declarations fileName skipGenerics s).value.erased) ∧
    (s.program.sourceFile? fileName = some file → s.program.FailsWholesale skipGenerics file →
      ∃ name, (declarations fileName skipGenerics s).value =
        .error (.violation name .emptyVariableStatement)) := by
  have hnew : (declarations fileName skipGenerics t).value =
      ((s.program.withoutWholesale file).extract skipGenerics fileName t.counter.next 0).value := by
    rw [← hprogram]
    rfl
  refine ⟨fun hsound => ?_, fun hfile hfails => ?_⟩
  · rw [hnew]
    by_cases hfile : s.program.sourceFile? fileName = some file
    · exact Program.erased_extract_withoutWholesale hfile (fun h => hsound ⟨hfile, h⟩) ..
    · -- another file of the name is entered, and this one nowhere
      have hshadowed (name : String) : s.program.sourceFile? name ≠ some file := by
        intro h
        obtain rfl := Option.some.inj ((Program.fileName?_of_sourceFile? h).symm.trans hname)
        exact hfile h
      rw [Program.extract, Program.withoutWholesale,
        Program.extractFile_withStatements_of_shadowed hshadowed]
      exact Program.always_erased_eq (fun _ => Program.mirrors_extractFile ..) s.counter.next 0
        t.counter.next 0
  · exact Program.violation_of_failsWholesale hfile hfails s.counter.next 0

/-- A file that takes everything from another and does not say what it takes from a third, which is
not there. -/
def takingAll : Program :=
  { files := #[
      { name := "a.ts", text := "", statements := [⟨0⟩, ⟨1⟩, ⟨2⟩],
        modules := some (.ofList [("./b", "b.ts")]) },
      { name := "b.ts", text := "", statements := [⟨3⟩] }]
    nodes := #[
      { file := ⟨0⟩, form := .exportDeclaration (some "'./b'") (some (.everything none)) },
      { file := ⟨0⟩, form := .interface "A" true, declares := some ⟨0⟩, type := some ⟨1⟩ },
      { file := ⟨0⟩, form := .exportDeclaration (some "'./c'") none },
      { file := ⟨1⟩, form := .interface "B" true, declares := some ⟨1⟩, type := some ⟨2⟩ }]
    symbols := #[{ name := "A" }, { name := "B" }, { name := "size" }]
    types := #[.error, { text := "A", kind := .object, properties := [⟨2⟩] },
      { text := "B", kind := .object, properties := [⟨2⟩] }] }

/-- The objects of the other file are stored before it is found out that none of them is taken, so
without these export declarations the keys are others. -/
theorem declarations_withoutWholesale_takingAll :
    let s := start takingAll .initial
    let t := start (takingAll.withoutWholesale ⟨0⟩) s.counter
    takingAll.fileName? ⟨0⟩ = some "a.ts" ∧
    (takingAll.withoutWholesale ⟨0⟩).statements ⟨0⟩ = [⟨1⟩] ∧
    ¬ (takingAll.sourceFile? "a.ts" = some ⟨0⟩ ∧ takingAll.FailsWholesale true ⟨0⟩) ∧
    (declarations "a.ts" true s).value.types.flatMap (·.leaves) = [⟨"A", "2-1", []⟩] ∧
    (declarations "a.ts" true t).value.types.flatMap (·.leaves) = [⟨"A", "3-0", []⟩] ∧
    (declarations "a.ts" true t).value.erased = (declarations "a.ts" true s).value.erased := by
  intro s t
  have hname : takingAll.fileName? ⟨0⟩ = some "a.ts" := rfl
  obtain ⟨hsame, hfails⟩ := declarations_withoutWholesale s t ⟨0⟩ "a.ts" hname true rfl
  have hsound : ¬ (takingAll.sourceFile? "a.ts" = some ⟨0⟩ ∧ takingAll.FailsWholesale true ⟨0⟩) := by
    rintro ⟨hfile, hwholesale⟩
    obtain ⟨name, hviolation⟩ := hfails hfile hwholesale
    cases hviolation
  exact ⟨hname, by decide +kernel, hsound, by decide +kernel, by decide +kernel, hsame hsound⟩

/-- A file that takes everything from another, in which there is a variable statement without
variables. -/
def faultBehindAll : Program :=
  { files := #[
      { name := "a.ts", text := "", statements := [⟨0⟩, ⟨1⟩],
        modules := some (.ofList [("./b", "b.ts")]) },
      { name := "b.ts", text := "", statements := [⟨2⟩] }]
    nodes := #[
      { file := ⟨0⟩, form := .exportDeclaration (some "'./b'") (some (.everything none)) },
      { file := ⟨0⟩, form := .typeAlias "A" true none, declares := some ⟨0⟩, type := some ⟨1⟩ },
      { file := ⟨1⟩, form := .variableStatement false [] }]
    symbols := #[{ name := "A" }]
    types := #[.error, { text := "string", kind := .intrinsic }] }

/-- The export declaration gives nothing, and yet the file fails with it and not without it. -/
theorem declarations_withoutWholesale_faultBehindAll :
    let s := start faultBehindAll .initial
    let t := start (faultBehindAll.withoutWholesale ⟨0⟩) .initial
    faultBehindAll.sourceFile? "a.ts" = some ⟨0⟩ ∧
    ¬ ((declarations "a.ts" true t).value.erased = (declarations "a.ts" true s).value.erased) := by
  intro s t
  have hfails : (declarations "a.ts" true s).value =
    .error (.violation "b.ts" .emptyVariableStatement) := by rfl
  have hgiven : (declarations "a.ts" true t).value.erased.types.length = 1 := by decide +kernel
  refine ⟨by decide +kernel, fun hsame => ?_⟩
  rw [hsame, hfails] at hgiven
  cases hgiven

end Session
end PortableTypes
