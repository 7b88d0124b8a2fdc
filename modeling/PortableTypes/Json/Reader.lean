import PortableTypes.Json.Numeral

/-!
# Reading documents

Reading never fails: it gives a document with a fault in the place where the text stops being JSON,
and the text behind the document if there was no such place. Faults that leave the extent of a
value clear (a number too large, half a surrogate pair, too many open brackets) do not stop it.
-/
namespace PortableTypes.Json

def skipSpace (cs : List Char) : List Char := cs.dropWhile isSpace

/-- The value of a hexadecimal digit. -/
def hexValue? (c : Char) : Option Nat :=
  if c.isDigit then some (c.toNat - '0'.toNat)
  else if 'a' ≤ c && c ≤ 'f' then some (c.toNat - 'a'.toNat + 10)
  else if 'A' ≤ c && c ≤ 'F' then some (c.toNat - 'A'.toNat + 10)
  else none

/-- The code unit of four hexadecimal digits. -/
def codeUnit? (a b c d : Char) : Option Nat := do
  return (((← hexValue? a) * 16 + (← hexValue? b)) * 16 + (← hexValue? c)) * 16 + (← hexValue? d)

/-- The character behind a backslash. -/
def unescape? (c : Char) : Option Char :=
  if c = '"' then some '"'
  else if c = '\\' then some '\\'
  else if c = '/' then some '/'
  else if c = 'b' then some (Char.ofNat 0x08)
  else if c = 'f' then some (Char.ofNat 0x0C)
  else if c = 'n' then some '\n'
  else if c = 'r' then some '\r'
  else if c = 't' then some '\t'
  else none

/-- A string while it is read: its characters from the last to the first, the first half of a
surrogate pair that waits for the second, and whether a half was found alone. -/
structure Scan where
  chars : List Char := []
  pending : Option Nat := none
  lone : Bool := false

namespace Scan

def push (s : Scan) (c : Char) : Scan :=
  { chars := c :: s.chars, pending := none, lone := s.lone || s.pending.isSome }

/-- Adds a UTF-16 code unit. -/
def pushUnit (s : Scan) (n : Nat) : Scan :=
  if 0xDC00 ≤ n && n ≤ 0xDFFF then
    match s.pending with
    | some high =>
      { s with
        chars := Char.ofNat (0x10000 + (high - 0xD800) * 0x400 + (n - 0xDC00)) :: s.chars
        pending := none }
    | none => { s with lone := true }
  else if 0xD800 ≤ n && n ≤ 0xDBFF then
    { s with pending := some n, lone := s.lone || s.pending.isSome }
  else s.push (Char.ofNat n)

/-- The fault of a string that breaks off. -/
def broken (s : Scan) (flaw : Flaw) : Fault :=
  if s.lone then .loneSurrogate (some flaw)
  else match flaw with
    | .malformed => .malformed
    | .ended => .ended

end Scan

/-- What stands behind an opening quote. -/
inductive StringReading
  | text (s : String) (rest : List Char)
  /-- A string whose extent is clear and whose characters are not. -/
  | faulty (f : Fault) (rest : List Char)
  | broken (f : Fault)

/-- The string of a scan, once its closing quote is read. -/
def Scan.close (s : Scan) (rest : List Char) : StringReading :=
  if s.lone || s.pending.isSome then .faulty (.loneSurrogate none) rest
  else .text (String.ofList s.chars.reverse) rest

/-- Reads a string behind its opening quote. An escape needs four bytes behind its `u`. -/
def readString (s : Scan) : List Char → StringReading
  | [] => .broken (s.broken .ended)
  | '"' :: cs => s.close cs
  | ['\\'] => .broken (s.broken .ended)
  | '\\' :: 'u' :: a :: b :: c :: d :: cs =>
    match codeUnit? a b c d with
    | some n => readString (s.pushUnit n) cs
    | none => .broken (s.broken .malformed)
  | '\\' :: 'u' :: cs => .broken (s.broken (if Text.bytes cs < 4 then .ended else .malformed))
  | '\\' :: e :: cs =>
    match unescape? e with
    | some c => readString (s.push c) cs
    | none => .broken (s.broken .malformed)
  | c :: cs => if c.toNat < 0x20 then .broken (s.broken .malformed) else readString (s.push c) cs

/-- A word of the grammar: the value it stands for, once its letters are read. -/
def readWord (value : Json) : (letters : List Char) → List Char → Json × Option (List Char)
  | [], cs => (value, some cs)
  | _ :: _, [] => (.fault .cutWord, none)
  | l :: ls, c :: cs => if c = l then readWord value ls cs else (.fault .malformed, none)

/-- A number behind its sign. -/
def readNumber (negative : Bool) (cs : List Char) : Json × Option (List Char) :=
  match readNumeral negative cs with
  | .error f => (.fault f, none)
  | .ok (n, rest) =>
    match n.value with
    | some v => (.number v, some rest)
    | none => (.fault .outOfRange, some rest)

/-- A word, or a number, that starts with the character `c`. -/
def readScalar (c : Char) (cs : List Char) : Json × Option (List Char) :=
  if c = 'n' then readWord .null ['u', 'l', 'l'] cs
  else if c = 't' then readWord (.boolean true) ['r', 'u', 'e'] cs
  else if c = 'f' then readWord (.boolean false) ['a', 'l', 's', 'e'] cs
  else if c = '-' then readNumber true cs
  else if c.isDigit then readNumber false (c :: cs)
  else (.fault .malformed, none)

/-- What is wrong where a name is due and no quote stands. -/
def nameFault (c : Char) (cs : List Char) : Fault :=
  if c = '[' then .noName .sequence
  else if c = '\x7b' then .noName .map
  else match (readScalar c cs).1.found with
    | .ok found => .noName found
    | .error f => .name f

/-- The place of a field whose name cannot be read. -/
def nameless (f : Fault) : String × Json := ("", .fault f)

mutual

/-- The value at the start of a text. `room` brackets may still be opened. -/
def readValue : (fuel room : Nat) → List Char → Json × Option (List Char)
  | 0, _, _ => (.fault .malformed, none)
  | fuel + 1, room, cs =>
    match skipSpace cs with
    | [] => (.fault .ended, none)
    | c :: cs =>
      if c = '"' then
        match readString {} cs with
        | .text s rest => (.string s, some rest)
        | .faulty f rest => (.fault f, some rest)
        | .broken f => (.fault f, none)
      else if c = '[' then
        let (items, rest) := readItems fuel (room - 1) true cs
        (.array (if room = 0 then .fault .tooDeep :: items else items), rest)
      else if c = '\x7b' then
        let (fields, rest) := readFields fuel (room - 1) true cs
        (.object (if room = 0 then nameless (.name .tooDeep) :: fields else fields), rest)
      else readScalar c cs
termination_by structural fuel => fuel

/-- The items of an array up to its closing bracket. -/
def readItems : (fuel room : Nat) → (first : Bool) → List Char → List Json × Option (List Char)
  | 0, _, _, _ => ([.fault .malformed], none)
  | fuel + 1, room, first, cs =>
    let item (cs : List Char) : List Json × Option (List Char) :=
      match readValue fuel room cs with
      | (j, none) => ([j], none)
      | (j, some cs) =>
        let (js, rest) := readItems fuel room false cs
        (j :: js, rest)
    match skipSpace cs with
    | [] => ([.fault .unclosed], none)
    | c :: cs =>
      if c = ']' then ([], some cs)
      else if first then item (c :: cs)
      else if c = ',' then
        match skipSpace cs with
        | [] => ([.fault .ended], none)
        | c :: cs => if c = ']' then ([.fault .malformed], none) else item (c :: cs)
      else ([.fault .malformed], none)
termination_by structural fuel => fuel

/-- The fields of an object up to its closing bracket. -/
def readFields : (fuel room : Nat) → (first : Bool) → List Char →
    List (String × Json) × Option (List Char)
  | 0, _, _, _ => ([nameless (.name .malformed)], none)
  | fuel + 1, room, first, cs =>
    let value (name : String) (cs : List Char) : List (String × Json) × Option (List Char) :=
      match skipSpace cs with
      | [] => ([(name, .fault .unclosed)], none)
      | c :: cs =>
        if c = ':' then
          match readValue fuel room cs with
          | (j, none) => ([(name, j)], none)
          | (j, some cs) =>
            let (fs, rest) := readFields fuel room false cs
            ((name, j) :: fs, rest)
        else ([(name, .fault .malformed)], none)
    let field (cs : List Char) : List (String × Json) × Option (List Char) :=
      match readString {} cs with
      | .text name cs => value name cs
      | .faulty f cs =>
        let (fs, rest) := value "" cs
        (nameless (.name f) :: fs, rest)
      | .broken f => ([nameless (.name f)], none)
    match skipSpace cs with
    | [] => ([nameless (.name .unclosed)], none)
    | c :: cs =>
      if c = '\x7d' then ([], some cs)
      else if first then
        if c = '"' then field cs else ([nameless (nameFault c cs)], none)
      else if c = ',' then
        match skipSpace cs with
        | [] => ([nameless (.name .ended)], none)
        | c :: cs => if c = '"' then field cs else ([nameless (nameFault c cs)], none)
      else ([nameless (.name .malformed)], none)
termination_by structural fuel => fuel

end

/-- Brackets that may be open at once. -/
def maxDepth : Nat := 127

/-- The document of a text with at most `room` open brackets, and whether the text ends with it.
A step of the reader takes at least half a character. -/
def read (room : Nat) (text : String) : Json × Bool :=
  let cs := text.toList
  match readValue (2 * cs.length + 2) room cs with
  | (j, none) => (j, true)
  | (j, some rest) => (j, (skipSpace rest).isEmpty)

end PortableTypes.Json
