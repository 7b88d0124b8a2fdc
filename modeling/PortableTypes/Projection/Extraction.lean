import PortableTypes.Projection.Classify

/-!
# Extraction

The declarations at the top of a file, with their types. An export declaration that names another
module takes the declarations of that module's file, which is extracted in turn. No file is entered
inside itself, and no more than 32 files are entered inside each other.
-/
namespace PortableTypes

/-- Whether a statement with this form is a declaration to extract. -/
def Form.isExtractable : Form → Bool
  | .variableStatement .. | .variableDeclaration .. | .exportDeclaration .. | .enumeration .. =>
    true
  | .typeAlias _ exported _ | .interface _ exported => exported
  | _ => false

def Form.isExport : Form → Bool
  | .exportDeclaration .. => true
  | _ => false

/-- A module specifier without the quotes around it. -/
def unquoted (specifier : String) : String :=
  String.ofList (Text.trim (fun c => c == '"' || c == '\'') specifier.toList)

/-- The declarations that a list of names picks out, under the exported names. A name picks the
first declaration of its source name. -/
def ExportItem.pick (items : List ExportItem) (declarations : List Declaration) :
    List Declaration :=
  items.filterMap fun item =>
    (declarations.find? (·.name == some item.sourceName)).map fun d => { d with name := some item.name }

namespace Program

/-- How many files are entered inside each other. -/
def maxChain : Nat := 32

/-- What extraction gives: declarations, or the reason why there are none. -/
abbrev Extracted := Except ProjectionError (List Declaration)

/-- A way to extract the file with a name, inside the files that were entered before. -/
abbrev Extractor := (chain : List FileId) → (fileName : String) → Projecting Extracted

/-- The name of the symbol that a node declares. -/
def declaredName? (p : Program) (node : NodeId) : Option String :=
  (p.declares? node).bind p.symbolName?

def extractDeclaration (p : Program) (name : Option String) (node : NodeId) :
    Projecting Declaration := do
  let type ← p.classify maxNesting (p.typeAt node) (some node)
  return { name, type }

/-- A variable is named by its own form, or else by the symbol that it declares. -/
def extractVariable (p : Program) (node : NodeId) : Projecting Declaration :=
  match p.form? node with
  | some (.variableDeclaration name _) => p.extractDeclaration (some name) node
  | _ => p.extractDeclaration (p.declaredName? node) node

/-- Whether the type of a statement is an alias with a bare type parameter among its arguments. -/
def isGeneric (p : Program) (statement : NodeId) : Bool :=
  (p.aliasArguments (p.typeAt statement)).any p.isTypeParameter

/-- The file that a module specifier leads to, with its name. -/
def moduleTarget (p : Program) (file : FileId) (specifier : String) :
    Except ExportReason (String × FileId) :=
  match p.resolveModule file specifier with
  | .tableMissing => .error .tableMissing
  | .notFound => .error .moduleNotFound
  | .resolved target =>
    match p.sourceFile? target with
    | none => .error .fileNotFound
    | some id => .ok (target, id)

/-- The declarations that an export declaration takes from a module. There is no way into the
module's file if it was entered before or if there is no room. -/
def extractReexport (p : Program) (enter : Option Extractor) (chain : List FileId) (file : FileId)
    (specifier : Option String) (clause : Option ExportClause) : Projecting Extracted :=
  match specifier.map unquoted with
  | none => return .error (.reexport ⟨.missingSpecifier, none⟩)
  | some specifier =>
    let failure (reason : ExportReason) : Extracted := .error (.reexport ⟨reason, some specifier⟩)
    match p.moduleTarget file specifier with
    | .error reason => return failure reason
    | .ok (target, id) =>
      match if chain.contains id then none else enter with
      | none => do
        Projecting.report (.reexportCycle specifier target)
        return failure .unknown
      | some enter => do
        match ← enter chain target with
        | .error (.fileNotFound _) => return failure .fileNotFound
        | .error e => return .error e
        | .ok declarations =>
          match clause with
          | none => return failure .unknown
          | some (.everything _) => return failure .notNamed
          | some (.named items) => return .ok (ExportItem.pick items declarations)

/-- The declarations of a statement. A re-export that leads nowhere is reported and gives none. -/
def extractForm (p : Program) (enter : Option Extractor) (chain : List FileId) (file : FileId)
    (fileName : String) (statement : NodeId) : Form → Projecting Extracted
  | .exportDeclaration specifier clause => do
    match ← p.extractReexport enter chain file specifier clause with
    | .error (.reexport e) =>
      Projecting.report (.reexportSkipped fileName e)
      return .ok []
    | other => return other
  | .variableStatement _ [] => do
    Projecting.report (.emptyStatement fileName)
    return .error (.violation fileName .emptyVariableStatement)
  | .variableStatement _ nodes => do
    return .ok (← Projecting.each p.extractVariable nodes)
  | .variableDeclaration .. => do
    return .ok [← p.extractVariable statement]
  | _ => do
    return .ok [← p.extractDeclaration (p.declaredName? statement) statement]

/-- The declarations of a statement, if it is one to extract. -/
def extractStatement (p : Program) (skipGenerics : Bool) (enter : Option Extractor)
    (chain : List FileId) (file : FileId) (fileName : String) (statement : NodeId) :
    Projecting Extracted :=
  match p.form? statement with
  | none => return .ok []
  | some form =>
    if !form.isExtractable then
      return .ok []
    else if skipGenerics && !form.isExport && p.isGeneric statement then do
      Projecting.report (.genericSkipped fileName form.kind.title)
      return .ok []
    else
      p.extractForm enter chain file fileName statement form

/-- The results of a list in order, up to the first failure. -/
def extractAll (extract : NodeId → Projecting Extracted) : List NodeId → Projecting Extracted
  | [] => return .ok []
  | statement :: rest => do
    match ← extract statement with
    | .error e => return .error e
    | .ok declarations =>
      match ← extractAll extract rest with
      | .error e => return .error e
      | .ok more => return .ok (declarations ++ more)

/-- The declarations of the file with a name, with other files entered as given. -/
def extractNamed (p : Program) (skipGenerics : Bool) (enter : Option Extractor) : Extractor :=
  fun chain fileName =>
    match p.sourceFile? fileName with
    | none => return .error (.fileNotFound fileName)
    | some file => do
      Projecting.report (.fileEntered fileName chain.length)
      extractAll (p.extractStatement skipGenerics enter (chain ++ [file]) file fileName)
        (p.statements file)

/-- The declarations of the file with a name, with room for so many files inside it. -/
def extractFile (p : Program) (skipGenerics : Bool) : (room : Nat) → Extractor
  | 0 => p.extractNamed skipGenerics none
  | room + 1 => p.extractNamed skipGenerics (some (p.extractFile skipGenerics room))

/-- The declarations of a file that is entered first. -/
def extract (p : Program) (skipGenerics : Bool) (fileName : String) : Projecting Extracted :=
  p.extractFile skipGenerics (maxChain - 1) [] fileName

/-- The declarations that an export declaration takes from a module, under the exported names. -/
def extractExport (p : Program) (skipGenerics : Bool) (node : NodeId) : Projecting Extracted :=
  match p.nodeFile? node, (p.nodeFile? node).bind p.fileName? with
  | some file, some fileName =>
    match p.form? node with
    | some (.exportDeclaration specifier clause) =>
      p.extractReexport (some (p.extractFile skipGenerics (maxChain - 2))) [file] file specifier
        clause
    | _ => do
      Projecting.report (.notExportDeclaration fileName node)
      return .error (.violation fileName (.notExportDeclaration node.label))
  | _, _ => return .error (.fileNotFound ("<file of " ++ node.label ++ ">"))

end Program
end PortableTypes
