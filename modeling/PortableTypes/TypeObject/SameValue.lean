import PortableTypes.TypeObject.Basic

/-!
# Equality of type objects

Two type objects agree when they have the same form and their literals have the same values.
-/
namespace PortableTypes

def EnumMember.sameValue (a b : EnumMember) : Bool :=
  a.name == b.name && a.value.value.sameValue b.value.value
    && a.value.locations == b.value.locations

/-- Whether the members of two enumerations agree. -/
def EnumMember.sameValues : List EnumMember → List EnumMember → Bool
  | [], [] => true
  | a :: as, b :: bs => a.sameValue b && sameValues as bs
  | _, _ => false

namespace TypeObject

mutual

def sameValue : TypeObject → TypeObject → Bool
  | .primitive k l, .primitive k' l' => k == k' && l == l'
  | .special k l, .special k' l' => k == k' && l == l'
  | .literal v l, .literal v' l' => v.sameValue v' && l == l'
  | .array n c l, .array n' c' l' => n == n' && sameValue c c' && l == l'
  | .tuple n is l, .tuple n' is' l' => n == n' && sameValues is is' && l == l'
  | .union n a b r l, .union n' a' b' r' l' =>
    n == n' && sameValue a a' && sameValue b b' && sameValues r r' && l == l'
  | .enum n ms l, .enum n' ms' l' => n == n' && EnumMember.sameValues ms ms' && l == l'
  | .callable as r l, .callable as' r' l' => sameArguments as as' && sameValue r r' && l == l'
  | .promise c l, .promise c' l' => sameValue c c' && l == l'
  | .promiseLike c l, .promiseLike c' l' => sameValue c c' && l == l'
  | .object n k l, .object n' k' l' => n == n' && k == k' && l == l'
  | .unsupported g t l, .unsupported g' t' l' => g == g' && t == t' && l == l'
  | _, _ => false
termination_by structural t => t

def sameValues : List TypeObject → List TypeObject → Bool
  | [], [] => true
  | a :: as, b :: bs => sameValue a b && sameValues as bs
  | _, _ => false
termination_by structural ts => ts

def sameArguments : List (String × TypeObject) → List (String × TypeObject) → Bool
  | [], [] => true
  | (m, a) :: as, (n, b) :: bs => m == n && sameValue a b && sameArguments as bs
  | _, _ => false
termination_by structural as => as

end

end TypeObject
end PortableTypes
