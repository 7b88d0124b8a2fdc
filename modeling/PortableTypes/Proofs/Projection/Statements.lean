import PortableTypes.Program.Build
import PortableTypes.Proofs.Projection.Failures

/-!
# Statements of a file on their own

The statements of a file are read when the file is entered, and by nothing else. While a file is
being extracted it is not entered again, so what one of its statements gives does not depend on the
others.
-/
namespace PortableTypes.Program

open Projecting

/-- The program with other statements in one file. -/
def withStatements (p : Program) (file : FileId) (statements : List NodeId) : Program :=
  p.modifyFile file fun f => { f with statements }

section

variable (p : Program) (file : FileId) (statements : List NodeId)

theorem file?_withStatements (id : FileId) :
    (p.withStatements file statements).file? id =
      (p.file? id).map fun f => if id = file then { f with statements } else f := by
  have hplace : file.index = id.index ↔ id = file := by
    constructor
    · intro h
      cases id
      cases file
      exact congrArg FileId.mk h.symm
    · rintro rfl
      rfl
  simp only [withStatements, modifyFile, file?, Array.getElem?_modify, hplace]
  split
  · rfl
  · simp

theorem statements_withStatements {name : String} (hfile : p.sourceFile? name = some file) :
    (p.withStatements file statements).statements file = statements := by
  obtain ⟨f, hplace, -⟩ := Option.map_eq_some_iff.mp (fileName?_of_sourceFile? hfile)
  simp [Program.statements, file?_withStatements, hplace]

theorem statements_withStatements_of_ne {id : FileId} (h : id ≠ file) :
    (p.withStatements file statements).statements id = p.statements id := by
  simp [Program.statements, file?_withStatements, h]

/-! ## Questions that do not read statements -/

theorem bind_file?_withStatements {α : Type} {read : SourceFile → Option α}
    (hread : ∀ f : SourceFile, read { f with statements } = read f) (id : FileId) :
    ((p.withStatements file statements).file? id).bind read = (p.file? id).bind read := by
  rw [file?_withStatements]
  cases p.file? id with
  | none => rfl
  | some f =>
    simp only [Option.map_some, Option.bind_some]
    split
    · exact hread f
    · rfl

theorem map_file?_withStatements {α : Type} {read : SourceFile → α}
    (hread : ∀ f : SourceFile, read { f with statements } = read f) (id : FileId) :
    ((p.withStatements file statements).file? id).map read = (p.file? id).map read := by
  rw [Option.map_eq_bind, Option.map_eq_bind]
  apply bind_file?_withStatements
  intro f
  simp only [Function.comp_apply, hread]

theorem fileName?_withStatements (id : FileId) :
    (p.withStatements file statements).fileName? id = p.fileName? id :=
  p.map_file?_withStatements file statements (fun _ => rfl) id

theorem position?_withStatements (id : FileId) (offset : Nat) :
    (p.withStatements file statements).position? id offset = p.position? id offset :=
  p.map_file?_withStatements file statements (fun _ => rfl) id

theorem offset?_withStatements (id : FileId) (position : Position) :
    (p.withStatements file statements).offset? id position = p.offset? id position :=
  p.bind_file?_withStatements file statements (fun _ => rfl) id

theorem sourceFile?_withStatements (name : String) :
    (p.withStatements file statements).sourceFile? name = p.sourceFile? name := by
  have hnames : (p.withStatements file statements).files.toList.map (·.name) =
      p.files.toList.map (·.name) := by
    apply List.ext_getElem?
    intro i
    have hname := p.fileName?_withStatements file statements ⟨i⟩
    simpa [fileName?, file?] using hname
  have hplace (files : List SourceFile) :
      files.findIdx? (·.name == name) = (files.map (·.name)).findIdx? (· == name) := by
    rw [List.findIdx?_map]
    rfl
  rw [sourceFile?, sourceFile?, hplace, hplace, hnames]

theorem resolveModule_withStatements (id : FileId) (specifier : String) :
    (p.withStatements file statements).resolveModule id specifier =
      p.resolveModule id specifier := by
  have hmodules : ((p.withStatements file statements).file? id).bind (·.modules) =
      (p.file? id).bind (·.modules) :=
    p.bind_file?_withStatements file statements (fun _ => rfl) id
  simp only [resolveModule, hmodules]

theorem moduleTarget_withStatements (id : FileId) (specifier : String) :
    (p.withStatements file statements).moduleTarget id specifier =
      p.moduleTarget id specifier := by
  simp only [moduleTarget, resolveModule_withStatements, sourceFile?_withStatements]

theorem location?_withStatements (node : NodeId) :
    (p.withStatements file statements).location? node = p.location? node := by
  simp only [location?, fileName?_withStatements, position?_withStatements]
  rfl

theorem ancestors_withStatements (fuel : Nat) (node : NodeId) :
    (p.withStatements file statements).ancestors fuel node = p.ancestors fuel node := by
  induction fuel generalizing node with
  | zero => rfl
  | succ fuel ih =>
    simp only [ancestors, ih]
    rfl

theorem nodeAt?_withStatements (id : FileId) (offset : Nat) :
    (p.withStatements file statements).nodeAt? id offset = p.nodeAt? id offset := by
  simp only [nodeAt?, candidates, depthOf, ancestors_withStatements]
  rfl

theorem leadsTo_withStatements (symbol : SymbolId) :
    (p.withStatements file statements).leadsTo symbol = p.leadsTo symbol := by
  funext l
  simp only [leadsTo, locatedNode?, sourceFile?_withStatements, offset?_withStatements,
    nodeAt?_withStatements]
  rfl

theorem locationsOf_withStatements (symbol : Option SymbolId) :
    (p.withStatements file statements).locationsOf symbol = p.locationsOf symbol := by
  have hdeclared (symbol : SymbolId) :
      (p.withStatements file statements).declaredLocations symbol = p.declaredLocations symbol := by
    unfold declaredLocations
    congr 1
    funext node
    exact location?_withStatements ..
  cases symbol with
  | none => rfl
  | some symbol =>
    simp only [locationsOf, locations, hdeclared, leadsTo_withStatements]

theorem classify_withStatements (room : Nat) :
    (p.withStatements file statements).classify room = p.classify room := by
  induction room with
  | zero => rfl
  | succ room ih =>
    funext type anchor
    simp only [classify, ih, locationsOf_withStatements]
    rfl

/-! ## Extraction -/

theorem extractDeclaration_withStatements (name : Option String) (node : NodeId) :
    (p.withStatements file statements).extractDeclaration name node =
      p.extractDeclaration name node := by
  simp only [extractDeclaration, classify_withStatements]
  rfl

theorem extractVariable_withStatements :
    (p.withStatements file statements).extractVariable = p.extractVariable := by
  funext node
  simp only [extractVariable, extractDeclaration_withStatements]
  rfl

theorem extractForm_withStatements (enter : Option Extractor) (chain : List FileId) (id : FileId)
    (fileName : String) (node : NodeId) (form : Form) :
    (p.withStatements file statements).extractForm enter chain id fileName node form =
      p.extractForm enter chain id fileName node form := by
  have hreexport (specifier : Option String) (clause : Option ExportClause) :
      (p.withStatements file statements).extractReexport enter chain id specifier clause =
        p.extractReexport enter chain id specifier clause := by
    simp only [extractReexport, moduleTarget_withStatements]
  unfold extractForm
  simp only [hreexport, extractVariable_withStatements, extractDeclaration_withStatements]
  rfl

/-- With the same way into files, a statement gives the same. -/
theorem extractStatement_withStatements (skipGenerics : Bool) (enter : Option Extractor)
    (chain : List FileId) (id : FileId) (fileName : String) (node : NodeId) :
    (p.withStatements file statements).extractStatement skipGenerics enter chain id fileName node =
      p.extractStatement skipGenerics enter chain id fileName node := by
  simp only [extractStatement, extractForm_withStatements]
  rfl

end

section

variable {p : Program} {enter enter' : Option Extractor} {chain : List FileId} {file : FileId}
  (henter : ∀ target id, p.sourceFile? target = some id →
    entry enter chain target id = entry enter' chain target id)
include henter

/-- An export declaration sees of the way into files only where it leads. -/
theorem extractReexport_congr (specifier : Option String) (clause : Option ExportClause) :
    p.extractReexport enter chain file specifier clause =
      p.extractReexport enter' chain file specifier clause := by
  cases specifier with
  | none => rfl
  | some specifier =>
    cases htarget : p.moduleTarget file (unquoted specifier) with
    | error reason => rw [extractReexport_of_error htarget, extractReexport_of_error htarget]
    | ok found =>
      rw [extractReexport_of_ok htarget, extractReexport_of_ok htarget,
        henter _ _ (moduleTarget_eq_ok.mp htarget).2]

theorem extractStatement_congr (skipGenerics : Bool) (fileName : String) (statement : NodeId) :
    p.extractStatement skipGenerics enter chain file fileName statement =
      p.extractStatement skipGenerics enter' chain file fileName statement := by
  simp only [extractStatement, extractForm, extractReexport_congr henter]

end

/-- A file that was entered is not entered again, so its statements do not matter any more. -/
theorem extractStatement_inner_withStatements (p : Program) {file : FileId} {chain : List FileId}
    (hentered : file ∈ chain) (statements : List NodeId) (skipGenerics : Bool) (room : Nat)
    (id : FileId) (fileName : String) (node : NodeId) :
    (p.withStatements file statements).extractStatement skipGenerics
        ((p.withStatements file statements).inner skipGenerics room) chain id fileName node =
      p.extractStatement skipGenerics (p.inner skipGenerics room) chain id fileName node := by
  rw [extractStatement_withStatements]
  induction room generalizing chain id fileName node with
  | zero => rfl
  | succ room ih =>
    refine extractStatement_congr (fun target other hother => ?_) skipGenerics fileName node
    by_cases hmem : other ∈ chain
    · rw [entry_of_mem hmem, entry_of_mem hmem]
    · -- the file that is entered is another one, and in it the changed file counts as entered still
      have hne : other ≠ file := fun h => hmem (h ▸ hentered)
      have hother' : (p.withStatements file statements).sourceFile? target = some other := by
        rw [sourceFile?_withStatements, hother]
      rw [entry_of_not_mem hmem, entry_of_not_mem hmem]
      refine congrArg some ?_
      show (p.withStatements file statements).extractFile skipGenerics room chain target =
        p.extractFile skipGenerics room chain target
      have hsame : (p.withStatements file statements).extractStatement skipGenerics
            ((p.withStatements file statements).inner skipGenerics room) (chain ++ [other]) other
            target =
          p.extractStatement skipGenerics (p.inner skipGenerics room) (chain ++ [other]) other
            target := by
        funext node
        rw [extractStatement_withStatements, ih (List.mem_append_left [other] hentered)]
      rw [extractFile_of_sourceFile? hother, extractFile_of_sourceFile? hother',
        statements_withStatements_of_ne p file statements hne, hsame]

theorem value_extractAll_singleton (extract : NodeId → Projecting Extracted) (statement : NodeId)
    (g : UInt32) (n : Nat) :
    (extractAll extract [statement] g n).value = (extract statement g n).value := by
  cases hvalue : (extract statement g n).value with
  | error e =>
    simp only [extractAll, Bind.bind, Projecting.bind, hvalue]
    rfl
  | ok ds =>
    simp only [extractAll, Bind.bind, Projecting.bind, hvalue]
    exact congrArg Except.ok (List.append_nil ds)

/-- A file with one statement has the declarations of that statement in the file as it is. -/
theorem value_extract_withStatements_singleton {p : Program} {fileName : String} {file : FileId}
    (hfile : p.sourceFile? fileName = some file) (skipGenerics : Bool) (statement : NodeId)
    (g : UInt32) (n : Nat) :
    ((p.withStatements file [statement]).extract skipGenerics fileName g n).value =
      (p.extractStatement skipGenerics (p.inner skipGenerics (maxChain - 1)) [file] file fileName
        statement g n).value := by
  have hfile' : (p.withStatements file [statement]).sourceFile? fileName = some file := by
    rw [sourceFile?_withStatements, hfile]
  rw [extract, extractFile_of_sourceFile? hfile', statements_withStatements _ _ _ hfile]
  show (extractAll _ [statement] g n).value = _
  rw [value_extractAll_singleton, List.nil_append,
    p.extractStatement_inner_withStatements (List.mem_singleton_self file)]

/-! ## Export declarations among the statements of a file -/

/-- What is left of a re-export among the statements of a file: one that leads nowhere gives
nothing. -/
def passedOver : Extracted → Extracted
  | .error (.reexport _) => .ok []
  | r => r

theorem value_extractStatement_export {p : Program} {statement : NodeId} {specifier : Option String}
    {clause : Option ExportClause}
    (hform : p.form? statement = some (.exportDeclaration specifier clause)) (skipGenerics : Bool)
    (enter : Option Extractor) (chain : List FileId) (file : FileId) (fileName : String) (g : UInt32)
    (n : Nat) :
    (p.extractStatement skipGenerics enter chain file fileName statement g n).value =
      passedOver (p.extractReexport enter chain file specifier clause g n).value := by
  simp only [extractStatement, hform, Form.isExtractable, Form.isExport, Bool.not_true,
    Bool.and_false, Bool.false_and, Bool.false_eq_true, if_false]
  cases hvalue : (p.extractReexport enter chain file specifier clause g n).value with
  | ok ds =>
    simp only [extractForm, Bind.bind, Projecting.bind, hvalue]
    rfl
  | error e => cases e <;> simp only [extractForm, Bind.bind, Projecting.bind, hvalue] <;> rfl

/-- A statement that is no export declaration does not look into other files. -/
theorem extractStatement_of_not_export {p : Program} {statement : NodeId}
    (h : ∀ specifier clause, p.form? statement ≠ some (.exportDeclaration specifier clause))
    (skipGenerics : Bool) (enter enter' : Option Extractor) (chain chain' : List FileId)
    (file : FileId) (fileName : String) :
    p.extractStatement skipGenerics enter chain file fileName statement =
      p.extractStatement skipGenerics enter' chain' file fileName statement := by
  unfold extractStatement
  cases hform : p.form? statement with
  | none => rfl
  | some form =>
    have hsame : p.extractForm enter chain file fileName statement form =
        p.extractForm enter' chain' file fileName statement form := by
      cases form with
      | exportDeclaration specifier clause => exact absurd hform (h specifier clause)
      | variableStatement exported nodes => cases nodes <;> rfl
      | _ => rfl
    simp only [hsame]

/-! ## All statements of a file -/

theorem extractAll_congr {f g : NodeId → Projecting Extracted} {statements : List NodeId}
    (h : ∀ statement ∈ statements, f statement = g statement) :
    extractAll f statements = extractAll g statements := by
  induction statements with
  | nil => rfl
  | cons statement rest ih =>
    obtain ⟨hfirst, hrest⟩ := List.forall_mem_cons.mp h
    simp only [extractAll, hfirst, ih hrest]

theorem flatten_mapM_cons (alone : NodeId → Extracted) (statement : NodeId) (rest : List NodeId) :
    List.flatten <$> (statement :: rest).mapM alone = (do
      let ds ← alone statement
      let more ← List.flatten <$> rest.mapM alone
      return ds ++ more) := by
  simp [List.mapM_cons]

theorem flatten_mapM_of_ok {alone : NodeId → Extracted} {parts : NodeId → List Declaration}
    {statements : List NodeId}
    (h : ∀ statement ∈ statements, alone statement = .ok (parts statement)) :
    List.flatten <$> statements.mapM alone = .ok (statements.flatMap parts) := by
  induction statements with
  | nil => rfl
  | cons statement rest ih =>
    obtain ⟨hstatement, hrest⟩ := List.forall_mem_cons.mp h
    rw [flatten_mapM_cons, hstatement, ih hrest]
    rfl

/-- What a list of statements gives is what each gives, one after the other. -/
theorem erased_extractAll {extract : NodeId → Projecting Extracted} {alone : NodeId → Extracted}
    {statements : List NodeId}
    (h : ∀ statement ∈ statements,
      Always (Extracted.erased · = alone statement) (extract statement)) :
    Always (Extracted.erased · = List.flatten <$> statements.mapM alone)
      (extractAll extract statements) := by
  induction statements with
  | nil => exact .pure rfl
  | cons statement rest ih =>
    obtain ⟨hstatement, hrest⟩ := List.forall_mem_cons.mp h
    rw [flatten_mapM_cons]
    refine hstatement.bind fun first hfirst => ?_
    rw [← hfirst]
    cases first with
    | error e => exact .pure rfl
    | ok ds =>
      refine (ih hrest).bind fun more hmore => ?_
      rw [← hmore]
      cases more with
      | error e => exact .pure rfl
      | ok more => exact .pure (congrArg Except.ok List.map_append)

end PortableTypes.Program
