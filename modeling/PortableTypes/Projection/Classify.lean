import PortableTypes.Projection.Location
import PortableTypes.Projection.Shape

/-!
# Classification

Classification turns a type of a program into a type object. The parts of a type are classified in
the same way with one level less of room, so that a type which contains itself comes to an end;
object types are not entered but stored under a key.
-/
namespace PortableTypes.Program

/-- How many types are entered inside each other. -/
def maxNesting : Nat := 64

/-- A way to project a type that was read off a node. -/
abbrev Projector := TypeId → Option NodeId → Projecting TypeObject

/-- A member of an enumeration whose value is a literal; another is reported. -/
def projectMember (p : Program) (project : Projector) (member : SymbolId) :
    Projecting (Option EnumMember) :=
  match p.symbolName? member, p.valueDeclaration? member with
  | some name, some declaration => do
    match ← project (p.typeAt declaration) (some declaration) with
    | .literal value locations => return some { name, value := { value, locations } }
    | other =>
      Projecting.report (.memberSkipped name other.tag.wire)
      return none
  | _, _ => return none

/-- A parameter with its name; one that is not declared has no place in the type. -/
def projectParameter (p : Program) (project : Projector) (parameter : SymbolId) :
    Projecting (Option (String × TypeObject)) :=
  match (p.declarations parameter).head? with
  | none => return none
  | some declaration => do
    let type ← project (p.typeOfSymbol parameter) (some declaration)
    return some ((p.symbolName? parameter).getD "", type)

def projectCallable (p : Program) (project : Projector) (signature : SignatureId)
    (locations : List Location) : Projecting TypeObject := do
  let arguments ← Projecting.eachSome (p.projectParameter project) (p.parameters signature)
  let result ← project (p.resultType signature) none
  return .callable arguments result locations

/-- Whether a form is written as an array type. -/
def isArrayForm : Form → Bool
  | .arrayType _ => true
  | .typeReference name _ => name == "Array" || name == "ReadonlyArray"
  | _ => false

/-- The array type at a node, or in its annotation. -/
def arrayForm? (p : Program) (anchor : NodeId) : Option Form := do
  let form ← p.form? anchor
  if isArrayForm form then
    return form
  let annotated ← form.typeNode?.bind p.form?
  if isArrayForm annotated then some annotated else none

/-- The first argument of a form that refers to a type. -/
def firstArgument? : Form → Option NodeId
  | .typeReference _ arguments => arguments.head?
  | _ => none

/-- Where the element of an array type is found: its first argument, or what the form of the
anchor says. -/
def elementSource? (p : Program) (type : TypeId) (anchor : Option NodeId) :
    Option (TypeId × Option NodeId) :=
  match (p.typeArguments type).head? with
  | some argument => some (argument, none)
  | none => do
    let node ← match ← anchor.bind p.arrayForm? with
      | .arrayType element => some element
      | form => firstArgument? form
    return (p.typeAt node, some node)

/-- Where the result of a promise is found: its first argument, or the first argument of what its
alias is declared as. -/
def promiseSource? (p : Program) (type : TypeId) : Option (TypeId × Option NodeId) :=
  match (p.typeArguments type).head? with
  | some argument => some (argument, none)
  | none => do
    let symbol ← p.aliasSymbol? type
    let declaration ← (p.declarations symbol).head?
    let typeNode ← p.typeNode? declaration
    let form ← p.form? typeNode
    let node ← firstArgument? form
    return (p.typeAt node, some node)

/-- The child of an array. Without one, the gap has no locations. -/
def projectElement (p : Program) (project : Projector) (type : TypeId) (anchor : Option NodeId) :
    Projecting TypeObject :=
  match p.elementSource? type anchor with
  | some (child, node) => project child node
  | none => do
    Projecting.report (.elementUnresolved type (p.displayText type))
    return .unsupported .arrayElement none []

/-- The child of a promise. Without one, the gap has the locations of the promise. -/
def projectPromised (p : Program) (project : Projector) (type : TypeId)
    (locations : List Location) : Projecting TypeObject :=
  match p.promiseSource? type with
  | some (child, node) => project child node
  | none => return .unsupported .promiseArgument none locations

/-- The type object of a shape, with the parts projected as given. -/
def projectShape (p : Program) (project : Projector) (type : TypeId) (anchor : Option NodeId)
    (locations : List Location) : Shape → Projecting TypeObject
  | .enum members => do
    let members ← Projecting.eachSome (p.projectMember project) members
    return .enum (p.displayText type) members locations
  | .union first second rest => do
    let first ← project first none
    let second ← project second none
    let rest ← Projecting.each (project · none) rest
    return .union (p.displayText type) first second rest locations
  | .constituent member => project member anchor
  | .typeParameter => return .unsupported .typeParameter (some (p.displayText type)) locations
  | .tuple elements => do
    let items ← Projecting.each (fun e => project (p.typeAt e) (some e)) elements
    return .tuple (p.displayText type) items locations
  | .literal value => return .literal value locations
  | .primitive kind => return .primitive kind locations
  | .special kind => return .special kind locations
  | .array => do
    let child ← p.projectElement project type anchor
    return .array (p.displayText type) child locations
  | .callable signature => p.projectCallable project signature locations
  | .promise => do
    let child ← p.projectPromised project type locations
    return .promise child locations
  | .promiseLike => do
    let child ← p.projectPromised project type locations
    return .promiseLike child locations
  | .object => do
    let key ← Projecting.intern { type, locations }
    return .object (p.displayText type) key.text locations
  | .unknown => do
    Projecting.report (.noRule type (p.displayText type))
    return .unsupported .conversion (some (p.displayText type)) locations

/-- The type object of a type that was read off the anchor, with room for so many types inside each
other. -/
def classify (p : Program) : (room : Nat) → Projector
  | 0, type, _ => do
    Projecting.report (.depthLimit type (p.displayText type))
    return .unsupported .recursionLimit (some (p.displayText type)) []
  | room + 1, type, anchor => do
    let locations ← p.locationsOf (p.anchorSymbol? anchor)
    let shape := p.shape type anchor
    Projecting.report (.classified type (p.displayText type) shape.name (maxNesting - room))
    p.projectShape (p.classify room) type anchor locations shape

end PortableTypes.Program
