import PortableTypes.Proofs.Projection.Variants
import PortableTypes.Proofs.Session.History

/-!
# Properties and the classification of their types

The type object of a property is the one that classification gives for the property's type at its
first declaration, unless the form of the property is known before: an array it is annotated with,
or a callable. An array that was read off the annotation has the same kind of element as the
classified one if both take it from the same type, in the same shape.
-/
namespace PortableTypes

namespace Session

end Session
end PortableTypes
