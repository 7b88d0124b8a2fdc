import PortableTypes.Projection.Event

/-!
# Projecting

Projection adds objects to a store and reports events, and sees of the store no more than its
generation and its size. What it adds and reports is kept in order beside its result.
-/
namespace PortableTypes

/-- A result with the objects that were added and the events that were reported for it. -/
structure Outcome (α : Type) where
  value : α
  objects : List StoredObject
  events : List Event

/-- A projection of an `α` over a store of a generation and size. -/
def Projecting (α : Type) : Type := UInt32 → Nat → Outcome α

namespace Projecting

def pure {α : Type} (a : α) : Projecting α := fun _ _ => ⟨a, [], []⟩

def bind {α β : Type} (x : Projecting α) (f : α → Projecting β) : Projecting β := fun g n =>
  let o := x g n
  let o' := f o.value g (n + o.objects.length)
  ⟨o'.value, o.objects ++ o'.objects, o.events ++ o'.events⟩

instance : Monad Projecting where
  pure := Projecting.pure
  bind := Projecting.bind

/-- Reports an event. -/
def report (e : Event) : Projecting Unit := fun _ _ => ⟨(), [], [e]⟩

/-- Reports events in order. -/
def reportAll (es : List Event) : Projecting Unit := fun _ _ => ⟨(), [], es⟩

/-- Adds an object and gives its key. -/
def intern (object : StoredObject) : Projecting StoreKey := fun g n =>
  ⟨⟨g, n⟩, [object], [.interned ⟨g, n⟩ object.type]⟩

/-- The projections of a list of things, in order. -/
def each {α β : Type} (f : α → Projecting β) : List α → Projecting (List β)
  | [] => return []
  | a :: as => do
    let b ← f a
    let bs ← each f as
    return b :: bs

/-- The projections of a list of things that have one, in order. -/
def eachSome {α β : Type} (f : α → Projecting (Option β)) : List α → Projecting (List β)
  | [] => return []
  | a :: as => do
    let b ← f a
    let bs ← eachSome f as
    return b.toList ++ bs

end Projecting
end PortableTypes
