import PortableTypes.Session
import PortableTypes.Wire.TypeObject

/-!
# Expansion

Type objects together with the properties of the object types in them, some levels deep. Arrays and
promises are looked through to what they hold.
-/
namespace PortableTypes

/-- A property with the properties below it. -/
inductive ExpandedProperty
  | mk (name : String) (type : TypeObject) (properties : List ExpandedProperty)

/-- A declaration with the properties below it. -/
structure ExpandedDeclaration where
  name : Option String
  type : TypeObject
  properties : List ExpandedProperty

/-- The store key of an object type, or of the object type that an array or promise holds. -/
def TypeObject.expandableKey? : TypeObject → Option String
  | .object _ key _ => some key
  | .array _ child _ | .promise child _ | .promiseLike child _ => child.expandableKey?
  | _ => none

namespace Session

/-- The properties below a type, so many levels deep. -/
def expand : (levels : Nat) → TypeObject → Asking (List ExpandedProperty)
  | 0, _ => return []
  | levels + 1, type =>
    match type.expandableKey? with
    | none => return []
    | some key => do
      Asking.report (.objectExpanded key (levels + 1))
      let properties ← properties key
      Asking.each (fun property => do
        return .mk property.name property.type (← expand levels property.type)) properties

end Session

namespace ExpandedProperty

/-- Properties are written only where there are some. -/
def withProperties (fields : List (String × Json)) (properties : List Json) : Json :=
  .object (fields ++ if properties.isEmpty then [] else [("props", .array properties)])

mutual

def encode : ExpandedProperty → Json
  | .mk name type properties =>
    withProperties [("propName", .string name), ("type", type.encode)] (encodeAll properties)

def encodeAll : List ExpandedProperty → List Json
  | [] => []
  | p :: ps => p.encode :: encodeAll ps

end

end ExpandedProperty

def ExpandedDeclaration.encode (d : ExpandedDeclaration) : Json :=
  ExpandedProperty.withProperties
    [("declaredName", Json.nullable .string d.name), ("type", d.type.encode)]
    (ExpandedProperty.encodeAll d.properties)

end PortableTypes
