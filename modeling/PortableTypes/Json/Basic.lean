import PortableTypes.Number.Layout

/-!
# JSON documents

A document keeps the order of its fields, also of repeated ones. A document read from a text that
is not JSON is still a document: where the text goes wrong it holds a fault, and what stands before
the fault can be used. A fault stops whoever needs the value at its place, and matters less to
whoever only passes over it.
-/
namespace PortableTypes

/-- A number of a document. Whole numbers that fit into 64 bits are kept as they are. -/
inductive Number
  | natural (n : Nat)
  /-- The number `-n`. -/
  | negative (n : Nat)
  | real (x : Binary64)
  deriving DecidableEq, Repr

namespace Number

def text : Number → List Char
  | .natural n => Nat.toDigits 10 n
  | .negative n => '-' :: Nat.toDigits 10 n
  | .real x => Layout.json.text x

/-- The double nearest to a number. -/
def toBinary64 : Number → Binary64
  | .natural n => Binary64.ofNat n
  | .negative n => (Binary64.ofNat n).neg
  | .real x => x

end Number

/-- What is reported of a text that is not JSON. -/
inductive Flaw
  | malformed
  | ended
  deriving DecidableEq, Repr

/-- The kind of value at a place, as named in messages. -/
inductive Found
  | null
  | boolean (b : Bool)
  | number (n : Number)
  | string (s : String)
  | sequence
  | map
  deriving DecidableEq, Repr

/-- Why a place of a text holds no value. -/
inductive Fault
  /-- The text breaks the grammar here. -/
  | malformed
  /-- The text ends where a value is due, or inside a string. -/
  | ended
  /-- The text ends where a comma or a closing bracket is due. -/
  | unclosed
  /-- The text ends inside a word. -/
  | cutWord
  /-- The text ends inside a number. -/
  | cutNumber
  /-- The number is too large. -/
  | outOfRange
  /-- An escape is half of a surrogate pair; `rest` is what is wrong with the string after it. -/
  | loneSurrogate (rest : Option Flaw)
  /-- The bracket here is one too many. -/
  | tooDeep
  /-- The fault stands where the name of a field is due. -/
  | name (f : Fault)
  /-- A value that is not a string stands where the name of a field is due. -/
  | noName (found : Found)
  deriving DecidableEq, Repr

namespace Fault

/-- The fault to a reader that takes nothing but a string and does not look into other values. -/
def ofString : Fault → Fault
  | .cutWord | .cutNumber | .outOfRange => .malformed
  | f => f

/-- The report to a reader that needs the value. Where a name is due, it looks only into strings. -/
def needed : Fault → Flaw
  | .ended | .unclosed | .cutWord | .cutNumber => .ended
  | .malformed | .outOfRange | .loneSurrogate _ | .tooDeep | .noName _ => .malformed
  | .name .cutWord | .name .cutNumber => .malformed
  | .name f => f.needed

/-- The report to a reader that passes over the value, if anything is wrong for it. -/
def skipped : Fault → Option Flaw
  | .ended | .unclosed | .cutWord => some .ended
  | .malformed | .cutNumber | .noName _ => some .malformed
  | .loneSurrogate rest => rest
  | .outOfRange | .tooDeep => none
  | .name .cutWord | .name .outOfRange => some .malformed
  | .name f => f.skipped

/-- The report to a reader that expects a closing bracket here. -/
def surplus : Fault → Flaw
  | .unclosed => .ended
  | _ => .malformed

end Fault

inductive Json
  | null
  | boolean (b : Bool)
  | number (n : Number)
  | string (s : String)
  | array (items : List Json)
  | object (fields : List (String × Json))
  | fault (f : Fault)
  deriving Repr

namespace Json

/-- The characters that may stand between the parts of a text. -/
def isSpace (c : Char) : Bool := c = ' ' || c = '\n' || c = '\t' || c = '\r'

/-- What a document is, or the fault in its place. -/
def found : Json → Except Fault Found
  | .null => .ok .null
  | .boolean b => .ok (.boolean b)
  | .number n => .ok (.number n)
  | .string s => .ok (.string s)
  | .array _ => .ok .sequence
  | .object _ => .ok .map
  | .fault f => .error f

/-- A natural number as a document. -/
def nat (n : Nat) : Json := .number (.natural n)

/-- A value or null. -/
def nullable {α : Type} (encode : α → Json) : Option α → Json
  | none => .null
  | some a => encode a

/-- The value of the first field with a name. -/
def get? (name : String) : Json → Option Json
  | .object fields => (fields.find? (·.1 == name)).map Prod.snd
  | _ => none

mutual

/-- Whether every value of a document is there, in the order of the text. -/
def check : Json → Except Flaw Unit
  | .array items => checkItems items
  | .object fields => checkFields fields
  | .fault f => .error f.needed
  | .null | .boolean _ | .number _ | .string _ => .ok ()
termination_by structural j => j

def checkItems : List Json → Except Flaw Unit
  | [] => .ok ()
  | j :: js => do
    check j
    checkItems js
termination_by structural js => js

def checkFields : List (String × Json) → Except Flaw Unit
  | [] => .ok ()
  | (_, j) :: fs => do
    check j
    checkFields fs
termination_by structural fs => fs

end

mutual

/-- Whether a document can be passed over. -/
def skim : Json → Except Flaw Unit
  | .array items => skimItems items
  | .object fields => skimFields fields
  | .fault f => match f.skipped with
    | some flaw => .error flaw
    | none => .ok ()
  | .null | .boolean _ | .number _ | .string _ => .ok ()
termination_by structural j => j

def skimItems : List Json → Except Flaw Unit
  | [] => .ok ()
  | j :: js => do
    skim j
    skimItems js
termination_by structural js => js

def skimFields : List (String × Json) → Except Flaw Unit
  | [] => .ok ()
  | (_, j) :: fs => do
    skim j
    skimFields fs
termination_by structural fs => fs

end

mutual

/-- The number of arrays and objects open at once. -/
def depth : Json → Nat
  | .array items => depthItems items + 1
  | .object fields => depthFields fields + 1
  | .null | .boolean _ | .number _ | .string _ | .fault _ => 0
termination_by structural j => j

def depthItems : List Json → Nat
  | [] => 0
  | j :: js => max (depth j) (depthItems js)
termination_by structural js => js

def depthFields : List (String × Json) → Nat
  | [] => 0
  | (_, j) :: fs => max (depth j) (depthFields fs)
termination_by structural fs => fs

end

end Json
end PortableTypes
