import PortableTypes.Source.Position

/-!
# Why a question about a program has no answer

Failures are causes; their wording is in the `message` functions.
-/
namespace PortableTypes

/-- Why a re-export leads nowhere. -/
inductive ExportReason
  | missingSpecifier
  | tableMissing
  | moduleNotFound
  | fileNotFound
  | notNamed
  | unknown
  deriving DecidableEq, Repr

def ExportReason.wire : ExportReason → String
  | .missingSpecifier => "missingModuleSpecifier"
  | .tableMissing => "resolvedModulesNotFound"
  | .moduleNotFound => "moduleNotFound"
  | .fileNotFound => "moduleFileNotFound"
  | .notNamed => "notNamedExport"
  | .unknown => "unknown"

structure ExportError where
  reason : ExportReason
  specifier : Option String
  deriving DecidableEq, Repr

def ExportError.message (e : ExportError) : String :=
  match e.specifier with
  | some s => "re-export from '" ++ s ++ "' failed: " ++ e.reason.wire
  | none => "re-export failed: " ++ e.reason.wire

/-- A statement or node that cannot be what the question takes it for. -/
inductive Violation
  | emptyVariableStatement
  /-- The node with this name is no export declaration. -/
  | notExportDeclaration (node : String)
  deriving DecidableEq, Repr

namespace Violation

/-- The kind of declaration that was expected. -/
def kindName : Violation → String
  | .emptyVariableStatement => "VariableStatement"
  | .notExportDeclaration _ => "ExportDeclaration"

def message : Violation → String
  | .emptyVariableStatement => "variable statement has no declarations"
  | .notExportDeclaration node => node ++ " is not an export declaration"

end Violation

inductive ProjectionError
  | fileNotFound (fileName : String)
  | nodeNotFound (fileName : String) (position : Position)
  | reexport (e : ExportError)
  | violation (fileName : String) (v : Violation)
  deriving DecidableEq, Repr

def ProjectionError.message : ProjectionError → String
  | .fileNotFound fileName => "file not found: " ++ fileName
  | .nodeNotFound fileName position =>
    "no node at " ++ fileName ++ s!":{position.line}:{position.character}"
  | .reexport e => e.message
  | .violation fileName v =>
    "invariant violated in " ++ fileName ++ " (" ++ v.kindName ++ "): " ++ v.message

end PortableTypes
