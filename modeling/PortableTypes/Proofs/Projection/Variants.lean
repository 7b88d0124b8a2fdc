import PortableTypes.Proofs.Projection.Mirrors

/-!
# Which form a type object takes

The form of a classified type is that of the rule it falls under, and room decides only whether the
rules are tried at all. A property takes its form from the rules too, unless it is annotated with an
array type or has a call signature: then its form is known before any rule is tried.
-/
namespace PortableTypes

namespace TypeObject

end TypeObject

namespace Program

/-! ## Classification -/

section

variable {p : Program} {property : SymbolId} (hmapped : p.mappedTemplate? property = none)
include hmapped

variable {d : NodeId} (hd : (p.declarations property).head? = some d)
include hd

end

end Program
end PortableTypes
