import PortableTypes.Proofs.Projection.Outline
import PortableTypes.Proofs.Projection.Statements

/-!
# What a file has to offer

The statements of a file tell which declarations it may give: its own ones, and those that it takes
from other files, by the names they have there. Each offer comes to one declaration or to none. So
without keys, and where it does not come to a fault, the extraction of a file is a plain recursion
on the room for the files inside it.
-/
namespace PortableTypes

/-- A declaration that a file may give: one of its own, which may be generic, or one that it takes
from another file by the name it has there. -/
inductive Offer
  | own (declaration : Declaration) (generic : Bool)
  | taken (name source : String) (file : FileId)

namespace Offer

/-- The name under which a declaration is offered. -/
def name : Offer → Option String
  | .own d _ => d.name
  | .taken name _ _ => some name

/-- What an offer comes to, if the declarations of other files are as listed. -/
def declaration? (skipGenerics : Bool) (listed : FileId → List Declaration) :
    Offer → Option Declaration
  | .own d generic => if skipGenerics && generic then none else some d
  | .taken name source file =>
    ((listed file).find? (·.name == some source)).map fun d => { d with name := some name }

end Offer

namespace Program

open Projecting

/-- A variable is named by its own form, or else by the symbol that it declares. -/
def variableName? (p : Program) (node : NodeId) : Option String :=
  match p.form? node with
  | some (.variableDeclaration name _) => some name
  | _ => p.declaredName? node

/-- The declaration of a node, without keys. -/
def outlineDeclaration (p : Program) (name : Option String) (node : NodeId) : Declaration :=
  { name, type := p.outline maxNesting (p.typeAt node) (some node) }

/-- What an export declaration of a file offers: nothing without a list of names, or if it leads to
no file. -/
def offersOfExport (p : Program) (file : FileId) :
    (specifier : Option String) → (clause : Option ExportClause) → List Offer
  | some specifier, some (.named items) =>
    match p.moduleTarget file (unquoted specifier) with
    | .ok (_, other) => items.map fun item => .taken item.name item.sourceName other
    | .error _ => []
  | _, _ => []

/-- The declarations that a statement makes itself, without keys. -/
def ownDeclarations (p : Program) (statement : NodeId) : Form → List Declaration
  | .exportDeclaration .. => []
  | .variableStatement _ nodes =>
    nodes.map fun node => p.outlineDeclaration (p.variableName? node) node
  | .variableDeclaration .. => [p.outlineDeclaration (p.variableName? statement) statement]
  | form =>
    if form.isExtractable then [p.outlineDeclaration (p.declaredName? statement) statement] else []

/-- What a statement of a file offers. -/
def offersOfForm (p : Program) (file : FileId) (statement : NodeId) : Form → List Offer
  | .exportDeclaration specifier clause => p.offersOfExport file specifier clause
  | form => (p.ownDeclarations statement form).map (.own · (p.isGeneric statement))

def offersOf (p : Program) (file : FileId) (statement : NodeId) : List Offer :=
  match p.form? statement with
  | some form => p.offersOfForm file statement form
  | none => []

/-- What a file offers, in order. -/
def offers (p : Program) (file : FileId) : List Offer :=
  (p.statements file).flatMap (p.offersOf file)

/-- The declarations of a file that come of its offers, with room for so many files inside it. A
file that was entered before lists nothing, nor does any file without room. -/
def listing (p : Program) (skipGenerics : Bool) :
    (room : Nat) → (chain : List FileId) → (file : FileId) → List Declaration
  | 0, _, file => (p.offers file).filterMap (Offer.declaration? skipGenerics fun _ => [])
  | room + 1, chain, file =>
    (p.offers file).filterMap (Offer.declaration? skipGenerics fun other =>
      if other ∈ chain ++ [file] then [] else p.listing skipGenerics room (chain ++ [file]) other)

/-- The declarations of a file that is entered from another, as far as it can be entered. -/
def listed (p : Program) (skipGenerics : Bool) (room : Nat) (chain : List FileId) (file : FileId) :
    List Declaration :=
  match room with
  | 0 => []
  | room + 1 => if file ∈ chain then [] else p.listing skipGenerics room chain file

section

variable {p : Program} {skipGenerics : Bool} {enter : Option Extractor} {chain : List FileId}
  {file : FileId} {listed : FileId → List Declaration}

end

end Program
end PortableTypes
