import PortableTypes.Program.Basic
import PortableTypes.Source.LineMap

/-!
# Questions to a program

Every question has an answer for every handle. A type that is not recorded, or recorded under a
handle that is not in range, is the type in the first place.
-/
namespace PortableTypes

/-- What a file knows about a module specifier. -/
inductive ModuleLookup
  | tableMissing
  | notFound
  | resolved (target : String)
  deriving DecidableEq, Repr

namespace Program

/-- The first file with a name. -/
def sourceFile? (p : Program) (name : String) : Option FileId :=
  (p.files.toList.findIdx? (·.name == name)).map FileId.mk

def fileName? (p : Program) (file : FileId) : Option String := (p.file? file).map (·.name)

def statements (p : Program) (file : FileId) : List NodeId :=
  ((p.file? file).map (·.statements)).getD []

def resolveModule (p : Program) (file : FileId) (specifier : String) : ModuleLookup :=
  match (p.file? file).bind (·.modules) with
  | none => .tableMissing
  | some table =>
    match table.get? specifier with
    | some target => .resolved target
    | none => .notFound

def position? (p : Program) (file : FileId) (offset : Nat) : Option Position :=
  (p.file? file).map fun f => (LineMap.ofText f.text).position offset

def offset? (p : Program) (file : FileId) (position : Position) : Option Nat :=
  (p.file? file).bind fun f => (LineMap.ofText f.text).offset? position

def parent? (p : Program) (node : NodeId) : Option NodeId := (p.node? node).bind (·.parent)

/-- Parents above a node, as far as `fuel` goes. -/
def ancestors (p : Program) : (fuel : Nat) → NodeId → Nat
  | 0, _ => 0
  | fuel + 1, node =>
    match p.parent? node with
    | some parent => p.ancestors fuel parent + 1
    | none => 0

/-- The number of parents above a node. Without a cycle there are fewer than nodes. -/
def depthOf (p : Program) (node : NodeId) : Nat := p.ancestors (p.nodes.size + 1) node

/-- A node that touches an offset, with what decides between such nodes. -/
structure Candidate where
  node : NodeId
  length : Nat
  depth : Nat
  deriving DecidableEq, Repr

/-- A shorter span is better, then a deeper node. -/
def Candidate.better (a b : Candidate) : Bool :=
  a.length < b.length || (a.length == b.length && b.depth < a.depth)

/-- The first candidate that no other is better than. -/
def Candidate.best : List Candidate → Option Candidate :=
  List.foldl (fun best c => match best with
    | none => some c
    | some b => if c.better b then some c else some b) none

/-- The nodes of a file that touch an offset, in the order of the table. -/
def candidates (p : Program) (file : FileId) (offset : Nat) : List Candidate :=
  p.nodes.toList.zipIdx.filterMap fun (n, i) =>
    match n.span with
    | some span =>
      if n.file = file && span.touches offset then
        some { node := ⟨i⟩, length := span.length, depth := p.depthOf ⟨i⟩ }
      else none
    | none => none

/-- The node at an offset: the narrowest that touches it, the deepest of those. -/
def nodeAt? (p : Program) (file : FileId) (offset : Nat) : Option NodeId :=
  (Candidate.best (p.candidates file offset)).map (·.node)

def form? (p : Program) (node : NodeId) : Option Form := (p.node? node).map (·.form)
def nodeFile? (p : Program) (node : NodeId) : Option FileId := (p.node? node).map (·.file)
def span? (p : Program) (node : NodeId) : Option Span := (p.node? node).bind (·.span)
def declares? (p : Program) (node : NodeId) : Option SymbolId := (p.node? node).bind (·.declares)
def refersTo? (p : Program) (node : NodeId) : Option SymbolId := (p.node? node).bind (·.refersTo)

/-- The type, if it is in range, and else the type in the first place. -/
def typeOrError (p : Program) (type : Option TypeId) : TypeId :=
  (type.filter fun t => t.index < p.types.size).getD .error

/-- The type at a node; for a type expression, the type it denotes. -/
def typeAt (p : Program) (node : NodeId) : TypeId :=
  p.typeOrError ((p.node? node).bind (·.type))

def symbolName? (p : Program) (symbol : SymbolId) : Option String :=
  (p.symbol? symbol).map (·.name)

def declarations (p : Program) (symbol : SymbolId) : List NodeId :=
  ((p.symbol? symbol).map (·.declarations)).getD []

def valueDeclaration? (p : Program) (symbol : SymbolId) : Option NodeId :=
  (p.symbol? symbol).bind (·.valueDeclaration)

def exports (p : Program) (symbol : SymbolId) : List SymbolId :=
  ((p.symbol? symbol).map (·.exports)).getD []

def isModule (p : Program) (symbol : SymbolId) : Bool :=
  ((p.symbol? symbol).map (·.isModule)).getD false

def mappedTemplate? (p : Program) (symbol : SymbolId) : Option TypeId :=
  (p.symbol? symbol).bind (·.mappedTemplate)

/-- The type of a symbol as a value. -/
def typeOfSymbol (p : Program) (symbol : SymbolId) : TypeId :=
  p.typeOrError ((p.symbol? symbol).bind (·.type))

/-- The type a symbol names. -/
def declaredType (p : Program) (symbol : SymbolId) : TypeId :=
  p.typeOrError ((p.symbol? symbol).bind (·.declaredType))

def typeText (p : Program) (type : TypeId) : String :=
  ((p.type? type).map (·.text)).getD TypeRecord.error.text

/-- The text of a type without its first `typeof`. -/
def displayText (p : Program) (type : TypeId) : String :=
  String.ofList (Text.eraseFirst "typeof ".toList (p.typeText type).toList)

def isErrorType (p : Program) (type : TypeId) : Bool :=
  ((p.type? type).map fun t => t.kind == .error).getD true

def constituents? (p : Program) (type : TypeId) : Option (List TypeId) :=
  (p.type? type).bind fun t => match t.kind with
    | .union members => some members
    | _ => none

def isTypeParameter (p : Program) (type : TypeId) : Bool :=
  ((p.type? type).map fun t => t.kind == .typeParameter).getD false

def literal? (p : Program) (type : TypeId) : Option Literal :=
  (p.type? type).bind fun t => match t.kind with
    | .literal value => some value
    | _ => none

def symbolOf? (p : Program) (type : TypeId) : Option SymbolId := (p.type? type).bind (·.symbol)

def aliasSymbol? (p : Program) (type : TypeId) : Option SymbolId :=
  (p.type? type).bind (·.aliasSymbol)

def aliasArguments (p : Program) (type : TypeId) : List TypeId :=
  ((p.type? type).map (·.aliasArguments)).getD []

def typeArguments (p : Program) (type : TypeId) : List TypeId :=
  ((p.type? type).map (·.arguments)).getD []

def origin? (p : Program) (type : TypeId) : Option NodeId := (p.type? type).bind (·.origin)

def properties (p : Program) (type : TypeId) : List SymbolId :=
  ((p.type? type).map (·.properties)).getD []

def callSignatures (p : Program) (type : TypeId) : List SignatureId :=
  ((p.type? type).map (·.callSignatures)).getD []

def parameters (p : Program) (signature : SignatureId) : List SymbolId :=
  ((p.signature? signature).map (·.parameters)).getD []

def resultType (p : Program) (signature : SignatureId) : TypeId :=
  p.typeOrError ((p.signature? signature).map (·.result))

end Program
end PortableTypes
