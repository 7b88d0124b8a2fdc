import PortableTypes.Source.Position
import PortableTypes.Text.Basic

/-!
# Lines of a text

A line ends after a line feed, after a carriage return with a line feed, or after a carriage return
alone. The map of a text lists where its lines start and carries byte offsets to positions and back.

Texts are taken to be below `2 ^ 32` bytes. Their offsets, and with them the starts of their lines,
are then numbers of 32 bits, and the map keeps them as they are.
-/
namespace PortableTypes

/-- A text with the byte offsets at which its lines start. -/
structure LineMap where
  text : List Char
  starts : List Nat
  deriving DecidableEq, Repr

namespace LineMap

/-- Offsets just behind the line terminators of a text that begins at `offset`. -/
def startsAfter : (offset : Nat) → List Char → List Nat
  | _, [] => []
  | offset, c :: cs =>
    let next := offset + c.utf8Size
    if c = '\n' || (c = '\r' && cs.head? != some '\n') then next :: startsAfter next cs
    else startsAfter next cs

def ofText (text : String) : LineMap :=
  { text := text.toList, starts := 0 :: startsAfter 0 text.toList }

def lineCount (m : LineMap) : Nat := m.starts.length

def lineStart? (m : LineMap) (line : Nat) : Option Nat := m.starts[line]?

/-- The line that holds a byte offset: the last one that does not start behind it. -/
def lineAt (m : LineMap) (offset : Nat) : Nat := (m.starts.takeWhile (· ≤ offset)).length - 1

/-- The position of a byte offset. An offset inside a character counts as the start of the
character, one behind the text as its end. -/
def position (m : LineMap) (offset : Nat) : Position :=
  let line := m.lineAt offset
  let start := m.starts.getD line 0
  let before := Text.takeBytes (offset - start) (Text.dropBytes start m.text)
  { line := .ofNat line, character := .ofNat (Text.units before) }

/-- Bytes of the leading characters that fit into `columns` code units and stand before the line's
terminator. -/
def columnBytes : (columns : Nat) → List Char → Nat
  | _, [] => 0
  | columns, c :: cs =>
    if c = '\n' || c = '\r' || columns < Text.unitsOf c then 0
    else c.utf8Size + columnBytes (columns - Text.unitsOf c) cs

/-- The byte offset of a position, if its line exists. A column behind the line's content counts as
its end, one inside a character as the start of the character. -/
def offset? (m : LineMap) (p : Position) : Option Nat :=
  (m.lineStart? p.line.toNat).map fun start =>
    start + columnBytes p.character.toNat (Text.dropBytes start m.text)

end LineMap
end PortableTypes
