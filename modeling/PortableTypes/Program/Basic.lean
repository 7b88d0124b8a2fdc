import PortableTypes.Checker.Form
import PortableTypes.Checker.Literal
import PortableTypes.Program.ModuleTable
import PortableTypes.Source.Position

/-!
# Programs

A program is what a checker knows, set down in tables: its files, syntax nodes, symbols, types and
signatures, which refer to each other by handles. Nothing keeps a handle in range.
-/
namespace PortableTypes

structure SourceFile where
  name : String
  /-- Taken to be below `2 ^ 32` bytes, since spans are offsets of 32 bits. -/
  text : String
  statements : List NodeId := []
  /-- Where the modules of the file were found; nothing if nobody looked. -/
  modules : Option ModuleTable := none

structure Node where
  file : FileId
  span : Option Span := none
  parent : Option NodeId := none
  form : Form
  /-- The symbol the node declares. -/
  declares : Option SymbolId := none
  /-- The symbol the node refers to. -/
  refersTo : Option SymbolId := none
  type : Option TypeId := none
  deriving DecidableEq, Repr

structure Symbol where
  name : String
  declarations : List NodeId := []
  valueDeclaration : Option NodeId := none
  exports : List SymbolId := []
  isModule : Bool := false
  /-- The type of the property in the mapped type it belongs to. -/
  mappedTemplate : Option TypeId := none
  /-- The type of the symbol as a value. -/
  type : Option TypeId := none
  /-- The type the symbol names. -/
  declaredType : Option TypeId := none
  deriving DecidableEq, Repr

inductive TypeKind
  | error
  /-- Types known by their text alone. -/
  | intrinsic
  | literal (value : Literal)
  | union (members : List TypeId)
  | typeParameter
  | object
  deriving DecidableEq, Repr

structure TypeRecord where
  text : String
  kind : TypeKind
  symbol : Option SymbolId := none
  aliasSymbol : Option SymbolId := none
  aliasArguments : List TypeId := []
  arguments : List TypeId := []
  origin : Option NodeId := none
  properties : List SymbolId := []
  callSignatures : List SignatureId := []
  deriving DecidableEq, Repr

structure Signature where
  parameters : List SymbolId
  result : TypeId
  deriving DecidableEq, Repr

structure Program where
  files : Array SourceFile := #[]
  nodes : Array Node := #[]
  symbols : Array Symbol := #[]
  types : Array TypeRecord
  signatures : Array Signature := #[]
  /-- The intrinsic types that are found again by their text, the latest first. -/
  intrinsics : List (String × TypeId) := []

/-- The type in the first place of every program. -/
def TypeRecord.error : TypeRecord := { text := "error", kind := .error }

namespace Program

/-- The program with no more than the type of unknown types. -/
def empty : Program := { types := #[.error] }

def file? (p : Program) (id : FileId) : Option SourceFile := p.files[id.index]?
def node? (p : Program) (id : NodeId) : Option Node := p.nodes[id.index]?
def symbol? (p : Program) (id : SymbolId) : Option Symbol := p.symbols[id.index]?
def type? (p : Program) (id : TypeId) : Option TypeRecord := p.types[id.index]?
def signature? (p : Program) (id : SignatureId) : Option Signature := p.signatures[id.index]?

end Program
end PortableTypes
