import PortableTypes.Program.Query
import PortableTypes.TypeObject.Basic

/-!
# Shapes of types

Which form a type object takes is decided by rules that are tried in order. A shape is the rule that
a type falls under, with the parts of the program that the rule has found.
-/
namespace PortableTypes

inductive Shape
  /-- A union whose symbol exports members. -/
  | enum (members : List SymbolId)
  | union (first second : TypeId) (rest : List TypeId)
  /-- A union of one member, which stands for that member. -/
  | constituent (member : TypeId)
  | typeParameter
  | tuple (elements : List NodeId)
  | literal (value : Literal)
  | primitive (kind : Primitive)
  | special (kind : Special)
  | array
  | callable (signature : SignatureId)
  | promise
  | promiseLike
  | object
  | unknown
  deriving DecidableEq, Repr

namespace Shape

def name : Shape → String
  | .enum _ => "enum"
  | .union .. => "union"
  | .constituent _ => "constituent"
  | .typeParameter => "type-parameter"
  | .tuple _ => "tuple"
  | .literal _ => "literal"
  | .primitive _ => "primitive"
  | .special _ => "special"
  | .array => "array"
  | .callable _ => "callable"
  | .promise | .promiseLike => "promise"
  | .object => "object"
  | .unknown => "unknown"

end Shape

namespace Program

/-- The annotation of a node. -/
def typeNode? (p : Program) (node : NodeId) : Option NodeId := (p.form? node).bind (·.typeNode?)

/-- The name of the symbol of a type. -/
def typeSymbolName? (p : Program) (type : TypeId) : Option String :=
  (p.symbolOf? type).bind p.symbolName?

/-- The members that the symbol of a type exports. -/
def exportsOfType (p : Program) (type : TypeId) : List SymbolId :=
  ((p.symbolOf? type).map p.exports).getD []

/-- The elements of a node that is a tuple type. -/
def tupleElements? (p : Program) (node : NodeId) : Option (List NodeId) :=
  match p.form? node with
  | some (.tupleType elements) => some elements
  | _ => none

/-- The elements of the tuple type that a type comes from: its origin, or the anchor, or the
annotation of the anchor. -/
def tupleSource? (p : Program) (type : TypeId) (anchor : Option NodeId) : Option (List NodeId) :=
  ((p.origin? type).toList ++ anchor.toList ++ (anchor.bind p.typeNode?).toList).findSome?
    p.tupleElements?

/-- The value of a literal type. The booleans are known by their texts too. -/
def literalValue? (p : Program) (type : TypeId) : Option Literal :=
  (p.literal? type).or <|
    match p.typeText type with
    | "true" => some (.boolean true)
    | "false" => some (.boolean false)
    | _ => none

/-- Whether a type is an array, by its text or its symbol. -/
def isArray (p : Program) (type : TypeId) : Bool :=
  "[]".toList.isSuffixOf (p.displayText type).toList || p.typeSymbolName? type == some "Array"

/-- The shape of a type by the members it is a union of. -/
def unionShape? (p : Program) (type : TypeId) : Option Shape :=
  match p.constituents? type, p.exportsOfType type with
  | some (_ :: _), e :: es => some (.enum (e :: es))
  | some [single], [] => some (.constituent single)
  | some (first :: second :: rest), [] => some (.union first second rest)
  | _, _ => none

def typeParameterShape? (p : Program) (type : TypeId) : Option Shape :=
  if p.isTypeParameter type then some .typeParameter else none

def tupleShape? (p : Program) (type : TypeId) (anchor : Option NodeId) : Option Shape :=
  (p.tupleSource? type anchor).map .tuple

def literalShape? (p : Program) (type : TypeId) : Option Shape := (p.literalValue? type).map .literal

def primitiveShape? (p : Program) (type : TypeId) : Option Shape :=
  (Primitive.ofText? (p.displayText type)).map .primitive

def specialShape? (p : Program) (type : TypeId) : Option Shape :=
  (Special.ofText? (p.displayText type)).map .special

def arrayShape? (p : Program) (type : TypeId) : Option Shape :=
  if p.isArray type then some .array else none

def callableShape? (p : Program) (type : TypeId) : Option Shape :=
  (p.callSignatures type).head?.map .callable

def promiseShape? (p : Program) (type : TypeId) : Option Shape :=
  match p.typeSymbolName? type with
  | some "Promise" => some .promise
  | some "PromiseLike" => some .promiseLike
  | _ => none

def objectShape? (p : Program) (type : TypeId) : Option Shape :=
  if (p.properties type).isEmpty then none else some .object

/-- What each rule says about a type, in the order in which the rules are tried. -/
def shapeRules (p : Program) (type : TypeId) (anchor : Option NodeId) : List (Option Shape) :=
  [p.unionShape? type, p.typeParameterShape? type, p.tupleShape? type anchor, p.literalShape? type,
    p.primitiveShape? type, p.specialShape? type, p.arrayShape? type, p.callableShape? type,
    p.promiseShape? type, p.objectShape? type]

/-- The shape of a type that was read off the anchor: the one of the first rule that applies. -/
def shape (p : Program) (type : TypeId) (anchor : Option NodeId) : Shape :=
  ((p.shapeRules type anchor).findSome? id).getD .unknown

end Program
end PortableTypes
