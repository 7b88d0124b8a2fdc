/-!
# Positions and spans

A span counts UTF-8 bytes of a text; a position is a line with a column in UTF-16 code units.
-/
namespace PortableTypes

/-- A place in a text: zero-based line, and UTF-16 code units before it on that line. -/
structure Position where
  line : UInt32
  character : UInt32
  deriving DecidableEq, Repr

/-- Positions are ordered by line, then by column. -/
instance : LE Position where
  le a b := a.line < b.line ∨ (a.line = b.line ∧ a.character ≤ b.character)

instance (a b : Position) : Decidable (a ≤ b) :=
  inferInstanceAs (Decidable (a.line < b.line ∨ (a.line = b.line ∧ a.character ≤ b.character)))

structure Range where
  start : Position
  stop : Position
  deriving DecidableEq, Repr

/-- A stretch of a text in UTF-8 bytes. Nothing keeps the end from lying before the start. -/
structure Span where
  start : UInt32
  stop : UInt32
  deriving DecidableEq, Repr

namespace Span

/-- The span of `length` bytes at `start`. -/
def ofLength (start length : UInt32) : Span := ⟨start, start + length⟩

def length (s : Span) : Nat := s.stop.toNat - s.start.toNat

def isEmpty (s : Span) : Bool := s.stop ≤ s.start

/-- Both ends of a span count as touched. -/
def touches (s : Span) (offset : Nat) : Bool := s.start.toNat ≤ offset && offset ≤ s.stop.toNat

end Span
end PortableTypes
