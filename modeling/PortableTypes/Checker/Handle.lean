/-!
# Handles

Files, syntax nodes, symbols, types and signatures of a program are known by their places in its
tables. A handle need not be in range; what an unknown handle reads as is up to each query.
-/
namespace PortableTypes

structure FileId where
  index : Nat
  deriving DecidableEq, Repr

structure NodeId where
  index : Nat
  deriving DecidableEq, Repr

structure SymbolId where
  index : Nat
  deriving DecidableEq, Repr

structure TypeId where
  index : Nat
  deriving DecidableEq, Repr

structure SignatureId where
  index : Nat
  deriving DecidableEq, Repr

/-- The type that stands for every type that is not known. -/
def TypeId.error : TypeId := ⟨0⟩

def FileId.label (id : FileId) : String := s!"file#{id.index}"
def NodeId.label (id : NodeId) : String := s!"node#{id.index}"
def SymbolId.label (id : SymbolId) : String := s!"symbol#{id.index}"
def TypeId.label (id : TypeId) : String := s!"type#{id.index}"
def SignatureId.label (id : SignatureId) : String := s!"signature#{id.index}"

end PortableTypes
