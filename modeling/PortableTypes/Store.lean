import PortableTypes.Checker.Handle
import PortableTypes.Text.Basic
import PortableTypes.TypeObject.Basic

/-!
# Object stores

A store keeps the object types that were handed out as keys. A key names its place in the store and
the store's generation; generations come from a counter that stores share, and a store takes a new
one whenever it is emptied, so a key of another store or of an earlier time is not taken for a live
one.
-/
namespace PortableTypes

structure StoreKey where
  generation : UInt32
  index : Nat
  deriving DecidableEq, Repr

namespace StoreKey

def text (k : StoreKey) : String :=
  String.ofList (Nat.toDigits 10 k.generation.toNat ++ '-' :: Nat.toDigits 10 k.index)

/-- Reads two numbers around the first dash, of at most 32 and 64 bits. -/
def parse? (text : String) : Option StoreKey :=
  let cs := text.toList
  match cs.dropWhile (· != '-') with
  | [] => none
  | _ :: right => do
    let generation ← Text.parseNat? (cs.takeWhile (· != '-'))
    let index ← Text.parseNat? right
    if generation < 2 ^ 32 && index < 2 ^ 64 then some ⟨UInt32.ofNat generation, index⟩ else none

end StoreKey

/-- Where generations come from. -/
structure Counter where
  next : UInt32
  deriving DecidableEq, Repr

namespace Counter

/-- The counter before any store is made. -/
def initial : Counter := ⟨1⟩

/-- A generation, and the counter behind it. -/
def draw (c : Counter) : UInt32 × Counter := (c.next, ⟨c.next + 1⟩)

end Counter

/-- An object type with the places that declare it. -/
structure StoredObject where
  type : TypeId
  locations : List Location
  deriving DecidableEq, Repr

structure Store where
  generation : UInt32
  entries : Array StoredObject
  deriving Repr

namespace Store

/-- A store without entries, of a generation of its own. -/
def fresh (c : Counter) : Store × Counter :=
  let (generation, c) := c.draw
  ({ generation, entries := #[] }, c)

/-- The store emptied, in a new generation. -/
def reset (_ : Store) (c : Counter) : Store × Counter := fresh c

def size (s : Store) : Nat := s.entries.size

def isEmpty (s : Store) : Bool := s.entries.isEmpty

/-- The key of the next object. -/
def nextKey (s : Store) : StoreKey := ⟨s.generation, s.entries.size⟩

def intern (s : Store) (object : StoredObject) : StoreKey × Store :=
  (s.nextKey, { s with entries := s.entries.push object })

def get? (s : Store) (key : StoreKey) : Option StoredObject :=
  if key.generation = s.generation then s.entries[key.index]? else none

/-- The object of a key in its written form. -/
def lookup? (s : Store) (key : String) : Option StoredObject := (StoreKey.parse? key).bind s.get?

/-- The store with more objects behind the ones it has. -/
def append (s : Store) (objects : List StoredObject) : Store :=
  { s with entries := s.entries ++ objects }

end Store

/-- Several stores that share a counter. -/
structure Stores where
  counter : Counter := .initial
  stores : Array Store := #[]

namespace Stores

def add (ss : Stores) : Nat × Stores :=
  let (store, counter) := Store.fresh ss.counter
  (ss.stores.size, { counter, stores := ss.stores.push store })

def reset (ss : Stores) (i : Nat) : Stores :=
  match ss.stores[i]? with
  | none => ss
  | some store =>
    let (store, counter) := store.reset ss.counter
    { counter, stores := ss.stores.modify i fun _ => store }

def intern (ss : Stores) (i : Nat) (object : StoredObject) : Option StoreKey × Stores :=
  match ss.stores[i]? with
  | none => (none, ss)
  | some store =>
    let (key, store) := store.intern object
    (some key, { ss with stores := ss.stores.modify i fun _ => store })

end Stores
end PortableTypes
