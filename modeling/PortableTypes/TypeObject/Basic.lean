import PortableTypes.Checker.Literal
import PortableTypes.Source.Position

/-!
# Type objects

A type object is a type taken out of its program: a tree that holds the type's structure, its names
and where it is declared. Object types are leaves with a key under which their properties can be
asked for. A union has at least two members by construction.
-/
namespace PortableTypes

/-- A stretch of a source file. -/
structure Location where
  fileName : String
  range : Range
  deriving DecidableEq, Repr

inductive Primitive
  | string
  | number
  | bigint
  | boolean
  deriving DecidableEq, Repr

namespace Primitive

def all : List Primitive := [.string, .number, .bigint, .boolean]

def wire : Primitive → String
  | .string => "string"
  | .number => "number"
  | .bigint => "bigint"
  | .boolean => "boolean"

/-- The primitive type with a text. -/
def ofText? (text : String) : Option Primitive := all.find? (·.wire == text)

end Primitive

/-- Types known by their text that are not primitive. -/
inductive Special
  | null
  | undefined
  | any
  | unknown
  | never
  | void
  | date
  | uniqueSymbol
  | symbol
  deriving DecidableEq, Repr

namespace Special

def all : List Special :=
  [.null, .undefined, .any, .unknown, .never, .void, .date, .uniqueSymbol, .symbol]

def wire : Special → String
  | .null => "null"
  | .undefined => "undefined"
  | .any => "any"
  | .unknown => "unknown"
  | .never => "never"
  | .void => "void"
  | .date => "Date"
  | .uniqueSymbol => "unique symbol"
  | .symbol => "Symbol"

/-- The special type with a text. The symbol type has two. -/
def ofText? (text : String) : Option Special :=
  if text = "symbol" then some .symbol else all.find? (·.wire == text)

end Special

/-- Why a type has no other form. -/
inductive Gap
  | arrayElement
  | property
  | conversion
  | typeParameter
  | promiseArgument
  | recursionLimit
  deriving DecidableEq, Repr

namespace Gap

def all : List Gap :=
  [.arrayElement, .property, .conversion, .typeParameter, .promiseArgument, .recursionLimit]

def wire : Gap → String
  | .arrayElement => "arrayT"
  | .property => "prop"
  | .conversion => "convert"
  | .typeParameter => "unresolvedTypeParameter"
  | .promiseArgument => "promiseNoArgument"
  | .recursionLimit => "recursionLimit"

end Gap

/-- A literal with the places that declare it. -/
structure LocatedLiteral where
  value : Literal
  locations : List Location
  deriving DecidableEq, Repr

structure EnumMember where
  name : String
  value : LocatedLiteral
  deriving DecidableEq, Repr

inductive TypeObject
  | primitive (kind : Primitive) (locations : List Location)
  | special (kind : Special) (locations : List Location)
  | literal (value : Literal) (locations : List Location)
  | array (typeName : String) (child : TypeObject) (locations : List Location)
  | tuple (typeName : String) (items : List TypeObject) (locations : List Location)
  | union (typeName : String) (first second : TypeObject) (rest : List TypeObject)
      (locations : List Location)
  | enum (typeName : String) (members : List EnumMember) (locations : List Location)
  | callable (arguments : List (String × TypeObject)) (result : TypeObject)
      (locations : List Location)
  | promise (child : TypeObject) (locations : List Location)
  | promiseLike (child : TypeObject) (locations : List Location)
  | object (typeName : String) (storeKey : String) (locations : List Location)
  | unsupported (gap : Gap) (typeText : Option String) (locations : List Location)
  deriving Repr

/-- The twelve forms of type objects. -/
inductive TypeTag
  | primitive
  | special
  | literal
  | array
  | tuple
  | union
  | enum
  | callable
  | promise
  | promiseLike
  | object
  | unsupported
  deriving DecidableEq, Repr

namespace TypeTag

/-- Every tag, in declared order. -/
def all : List TypeTag :=
  [.primitive, .special, .literal, .array, .tuple, .union, .enum, .callable, .promise,
    .promiseLike, .object, .unsupported]

def wire : TypeTag → String
  | .primitive => "PrimitiveTO"
  | .special => "SpecialTO"
  | .literal => "LiteralTO"
  | .array => "ArrayTO"
  | .tuple => "TupleTO"
  | .union => "UnionTO"
  | .enum => "EnumTO"
  | .callable => "CallableTO"
  | .promise => "PromiseTO"
  | .promiseLike => "PromiseLikeTO"
  | .object => "ObjectTO"
  | .unsupported => "UnsupportedTO"

end TypeTag

namespace TypeObject

def tag : TypeObject → TypeTag
  | .primitive .. => .primitive
  | .special .. => .special
  | .literal .. => .literal
  | .array .. => .array
  | .tuple .. => .tuple
  | .union .. => .union
  | .enum .. => .enum
  | .callable .. => .callable
  | .promise .. => .promise
  | .promiseLike .. => .promiseLike
  | .object .. => .object
  | .unsupported .. => .unsupported

def locations : TypeObject → List Location
  | .primitive _ l | .special _ l | .literal _ l | .array _ _ l | .tuple _ _ l | .union _ _ _ _ l
  | .enum _ _ l | .callable _ _ l | .promise _ l | .promiseLike _ l | .object _ _ l
  | .unsupported _ _ l => l

def typeName? : TypeObject → Option String
  | .array n _ _ | .tuple n _ _ | .union n _ _ _ _ | .enum n _ _ | .object n _ _ => some n
  | _ => none

def storeKey? : TypeObject → Option String
  | .object _ k _ => some k
  | _ => none

def gap? : TypeObject → Option Gap
  | .unsupported g _ _ => some g
  | _ => none

def literal? : TypeObject → Option LocatedLiteral
  | .literal v l => some ⟨v, l⟩
  | _ => none

/-- The members of a union. -/
def members? : TypeObject → Option (List TypeObject)
  | .union _ a b rest _ => some (a :: b :: rest)
  | _ => none

/-- The union of a list of members, which has to have two. -/
def union? (typeName : String) (members : List TypeObject) (locations : List Location) :
    Except Nat TypeObject :=
  match members with
  | a :: b :: rest => .ok (.union typeName a b rest locations)
  | ms => .error ms.length

end TypeObject

/-- A declaration with its type. -/
structure Declaration where
  name : Option String
  type : TypeObject
  deriving Repr

/-- A property of an object type. -/
structure Property where
  name : String
  type : TypeObject
  deriving Repr

end PortableTypes
