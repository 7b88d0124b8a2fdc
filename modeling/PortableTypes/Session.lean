import PortableTypes.Projection.Extraction
import PortableTypes.Projection.Property

/-!
# Sessions

A session holds a program, the store behind the keys it hands out, and the counter that generations
come from. A question about the program empties the store first, so a key is good until the next
question; asking for the properties behind a key keeps the store.
-/
namespace PortableTypes

structure Session where
  program : Program
  store : Store
  counter : Counter

/-- An answer, with the events on the way to it and the session behind it. -/
structure Answer (α : Type) where
  value : α
  events : List Event
  session : Session

/-- A question to a session. -/
def Asking (α : Type) : Type := Session → Answer α

namespace Asking

def pure {α : Type} (a : α) : Asking α := fun s => ⟨a, [], s⟩

def bind {α β : Type} (x : Asking α) (f : α → Asking β) : Asking β := fun s =>
  let a := x s
  let b := f a.value a.session
  ⟨b.value, a.events ++ b.events, b.session⟩

instance : Monad Asking where
  pure := Asking.pure
  bind := Asking.bind

/-- The session as it is. -/
def session : Asking Session := fun s => ⟨s, [], s⟩

def report (e : Event) : Asking Unit := fun s => ⟨(), [e], s⟩

/-- Runs a projection over the session's program, and keeps the objects it adds. -/
def project {α : Type} (x : Program → Projecting α) : Asking α := fun s =>
  let o := x s.program s.store.generation s.store.size
  ⟨o.value, o.events, { s with store := s.store.append o.objects }⟩

/-- The answers to a list of questions, in order. -/
def each {α β : Type} (f : α → Asking β) : List α → Asking (List β)
  | [] => return []
  | a :: as => do
    let b ← f a
    let bs ← each f as
    return b :: bs

end Asking

/-- The node under a cursor. -/
def Program.nodeUnder (p : Program) (fileName : String) (position : Position) :
    Except ProjectionError NodeId :=
  match p.sourceFile? fileName with
  | none => .error (.fileNotFound fileName)
  | some file =>
    match (p.offset? file position).bind (p.nodeAt? file) with
    | none => .error (.nodeNotFound fileName position)
    | some node => .ok node

namespace Session

/-- A session over a program, with a store of its own. -/
def start (program : Program) (counter : Counter) : Session :=
  let (store, counter) := Store.fresh counter
  { program, store, counter }

/-- Empties the store. -/
def reset : Asking Unit := fun s =>
  let (store, counter) := s.store.reset s.counter
  ⟨(), [], { s with store, counter }⟩

/-- Goes on with another program and an empty store. -/
def turnTo (program : Program) : Asking Unit := fun s => reset { s with program }

/-- The stored object of a key. -/
def lookup? (key : String) : Asking (Option StoredObject) := do
  return (← Asking.session).store.lookup? key

/-- The type at a node. -/
def typeOf (node : NodeId) : Asking TypeObject := do
  reset
  Asking.project fun p => do
    Projecting.report (.converted node (p.typeAt node))
    p.classify Program.maxNesting (p.typeAt node) (some node)

/-- The declarations of a file. -/
def declarations (fileName : String) (skipGenerics : Bool) : Asking Program.Extracted := do
  reset
  Asking.project fun p => p.extract skipGenerics fileName

/-- The declarations that an export declaration takes from a module. -/
def reexports (node : NodeId) (skipGenerics : Bool) : Asking Program.Extracted := do
  reset
  Asking.project fun p => p.extractExport skipGenerics node

/-- The name of the symbol under a cursor and the type there. A cursor over nothing leaves the
session as it is. -/
def typeUnder (fileName : String) (position : Position) :
    Asking (Except ProjectionError (Option String × TypeObject)) := do
  let p := (← Asking.session).program
  match p.nodeUnder fileName position with
  | .error e => return .error e
  | .ok node =>
    let name := ((p.refersTo? node).or (p.declares? node)).bind p.symbolName?
    let type ← typeOf node
    return .ok (name, type)

/-- The properties of the object type behind a key. A key that is unknown gives one property of that
name. -/
def properties (key : String) : Asking (List Property) := do
  match ← lookup? key with
  | none =>
    Asking.report (.unknownKey key)
    return [{ name := "unknown", type := .unsupported .property none [] }]
  | some object =>
    Asking.report (.propertiesRead key object.type)
    Asking.project fun p => p.projectProperties object.type

end Session
end PortableTypes
