import PortableTypes.Projection.Classify

/-!
# Properties of object types

The properties of a stored object type, one level deep. Object types met on the way get keys of
their own, so that a type which contains itself can be walked level by level.
-/
namespace PortableTypes.Program

/-- A property that is annotated with an array type, by its annotation and the element's node. -/
def annotatedArray? (p : Program) (property : SymbolId) : Option (NodeId × NodeId) := do
  let declaration ← p.valueDeclaration? property
  let typeNode ← p.typeNode? declaration
  match ← p.form? typeNode with
  | .arrayType element => some (typeNode, element)
  | _ => none

/-- The type of a property: what a mapped type says, or the array type it is annotated with, or the
type it has where it is first declared. -/
def projectProperty (p : Program) (property : SymbolId) : Projecting TypeObject :=
  match p.mappedTemplate? property, p.annotatedArray? property,
    (p.declarations property).head? with
  | some template, _, _ => p.classify maxNesting template none
  | none, some (typeNode, element), _ => do
    let locations ← p.locationsOf (p.nodeSymbol? typeNode)
    let child ← p.classify maxNesting (p.typeAt element) (some element)
    return .array (p.displayText (p.typeAt typeNode)) child locations
  | none, none, none => return .unsupported .property none []
  | none, none, some declaration => do
    let type := p.typeOfSymbol property
    match (p.callSignatures type).head? with
    | some signature =>
      let locations ← p.locationsOf (p.symbolOf? type)
      p.projectCallable (p.classify maxNesting) signature locations
    | none => p.classify maxNesting type (some declaration)

/-- The properties of an object type, in the order in which it has them. -/
def projectProperties (p : Program) (type : TypeId) : Projecting (List Property) :=
  Projecting.each (fun property => do
    let t ← p.projectProperty property
    return { name := (p.symbolName? property).getD "unknown", type := t }) (p.properties type)

end PortableTypes.Program
