import PortableTypes.Json.Decode

/-!
# Records

A record is written as an object, or as an array of its fields in their declared order. The fields
of an object are decoded in the order of the document; fields without a place in the record are
passed over. What is absent is looked at when the object is read to its end, in declared order.
-/
namespace PortableTypes

/-- What stands for an absent field. -/
inductive Absent (α : Type)
  /-- Nothing does. -/
  | required
  /-- A value, in objects only. -/
  | inObject (a : α)
  | default (a : α)

/-- The declared fields of a record of type `ρ`; `σ` holds what is decoded of it so far. -/
inductive Row : Type → Type → Type 1
  | done : Row Unit Unit
  | field {α σ ρ : Type} (name : String) (decode : Decoder α) (absent : Absent α)
      (rest : Row σ ρ) : Row (Option α × σ) (α × ρ)

namespace Row

def size : {σ ρ : Type} → Row σ ρ → Nat
  | _, _, .done => 0
  | _, _, .field _ _ _ rest => rest.size + 1

/-- Nothing decoded yet. -/
def empty : {σ ρ : Type} → Row σ ρ → σ
  | _, _, .done => ()
  | _, _, .field _ _ _ rest => (none, rest.empty)

/-- Decodes the field `name`, if the record has it. -/
def put : {σ ρ : Type} → Row σ ρ → String → Json → σ → Except DecodeError (Option σ)
  | _, _, .done, _, _, _ => .ok none
  | _, _, .field own decode _ rest, name, j, (slot, slots) =>
    if name = own then
      match slot with
      | some _ => Decode.fail (.duplicateField name)
      | none => do return some (some (← decode j), slots)
    else do return (← rest.put name j slots).map (slot, ·)

/-- The record, with what stands for its absent fields. -/
def finish : {σ ρ : Type} → Row σ ρ → σ → Except DecodeError ρ
  | _, _, .done, _ => .ok ()
  | _, _, .field name _ absent rest, (slot, slots) => do
    let a ← match slot, absent with
      | some a, _ => .ok a
      | none, .inObject a => .ok a
      | none, .default a => .ok a
      | none, .required => Decode.fail (.missingField name)
    return (a, ← rest.finish slots)

/-- Passes over a field that the record does not have. Its name has to be readable. -/
def passOver : Json → Except DecodeError Unit
  | .fault (.name f) => .error (.flaw (Fault.name f).needed)
  | j => Decode.flawed j.skim

/-- Decodes the fields of an object in the order of the document. -/
def putAll {σ ρ : Type} (row : Row σ ρ) : List (String × Json) → σ → Except DecodeError σ
  | [], s => .ok s
  | (name, j) :: fields, s => do
    match ← row.put name j s with
    | some s => row.putAll fields s
    | none => do
      passOver j
      row.putAll fields s

/-- Decodes items as the fields from the `i`-th on; gives also the items that are left. -/
def takeAll (what : Expected) : {σ ρ : Type} → Row σ ρ → (i : Nat) → List Json →
    Except DecodeError (ρ × List Json)
  | _, _, .done, _, items => .ok ((), items)
  | _, _, .field _ decode _ rest, i, j :: items => do
    let a ← decode j
    let (r, left) ← rest.takeAll what (i + 1) items
    return ((a, r), left)
  | _, _, .field _ _ absent rest, i, [] =>
    match absent with
    | .default a => do
      let (r, left) ← rest.takeAll what (i + 1) []
      return ((a, r), left)
    | .required | .inObject _ => Decode.fail (.invalidLength i what)

/-- Decodes a record called `what`. -/
def decode {σ ρ : Type} (row : Row σ ρ) (medium : Medium) (what : String) : Decoder ρ
  | .object fields => do row.finish (← row.putAll fields row.empty)
  | .array items => do
    let (r, left) ← row.takeAll (.fields what row.size) 0 items
    Decode.surplus medium row.size items.length left
    return r
  | j => .error (Decode.wrongType (.named what) j)

end Row
end PortableTypes
