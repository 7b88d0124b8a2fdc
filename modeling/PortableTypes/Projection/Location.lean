import PortableTypes.Program.Query
import PortableTypes.Projection.Projecting

/-!
# Locations of symbols

The places that declare a symbol are reported only if they lead back to it: the node at the start of
the place, looked up by file name, line and column, has to declare the symbol or refer to it.
-/
namespace PortableTypes.Program

/-- Where a node stands. -/
def location? (p : Program) (node : NodeId) : Option Location := do
  let span ← p.span? node
  let file ← p.nodeFile? node
  let fileName ← p.fileName? file
  let start ← p.position? file span.start.toNat
  let stop ← p.position? file span.stop.toNat
  return { fileName, range := { start, stop } }

/-- The symbol a node declares, or else the one it refers to. -/
def nodeSymbol? (p : Program) (node : NodeId) : Option SymbolId :=
  (p.declares? node).or (p.refersTo? node)

/-- The node at the start of a location. -/
def locatedNode? (p : Program) (l : Location) : Option NodeId := do
  let file ← p.sourceFile? l.fileName
  let offset ← p.offset? file l.range.start
  p.nodeAt? file offset

/-- Whether a location leads back to a symbol. -/
def leadsTo (p : Program) (symbol : SymbolId) (l : Location) : Bool :=
  (p.locatedNode? l).bind p.nodeSymbol? == some symbol

/-- Where the declarations of a symbol stand, whether they lead back to it or not. -/
def declaredLocations (p : Program) (symbol : SymbolId) : List Location :=
  (p.declarations symbol).filterMap p.location?

/-- The locations of a symbol, in the order of its declarations. -/
def locations (p : Program) (symbol : SymbolId) : List Location :=
  (p.declaredLocations symbol).filter (p.leadsTo symbol)

/-- The locations of a symbol; those that do not lead back to it are reported. -/
def locationsOf (p : Program) : Option SymbolId → Projecting (List Location)
  | none => return []
  | some symbol => do
    Projecting.reportAll (((p.declaredLocations symbol).filter (!p.leadsTo symbol ·)).map fun l =>
      .locationDropped l.fileName l.range.start.line.toNat symbol)
    return p.locations symbol

/-- Whether a symbol has a type, as a value or by its name. -/
def symbolHasType (p : Program) (symbol : SymbolId) : Bool :=
  !p.isErrorType (p.typeOfSymbol symbol) || !p.isErrorType (p.declaredType symbol)

/-- The symbol whose declarations locate a type that was read off a node. The node has to stand in
a text, and the symbol has to have a type or be a module. -/
def anchorSymbol? (p : Program) (anchor : Option NodeId) : Option SymbolId := do
  let node ← anchor
  discard <| p.span? node
  let symbol ← (p.refersTo? node).or (p.declares? node)
  if p.symbolHasType symbol || p.isModule symbol then some symbol else none

end PortableTypes.Program
