/-!
# Characters and their sizes

Texts are lists of characters here. A text has a size in bytes (UTF-8) and in code units (UTF-16);
cuts at a byte offset never split a character.
-/
namespace PortableTypes.Text

/-- The number of UTF-16 code units of a character. -/
def unitsOf (c : Char) : Nat := if c.toNat < 0x10000 then 1 else 2

/-- The number of UTF-16 code units of a text. -/
def units (cs : List Char) : Nat := (cs.map unitsOf).foldr (· + ·) 0

/-- The number of UTF-8 bytes of a text. -/
def bytes (cs : List Char) : Nat := (cs.map Char.utf8Size).foldr (· + ·) 0

/-- The leading characters that fit into `n` bytes. -/
def takeBytes : Nat → List Char → List Char
  | _, [] => []
  | n, c :: cs => if c.utf8Size ≤ n then c :: takeBytes (n - c.utf8Size) cs else []

/-- What follows the leading characters that fit into `n` bytes. -/
def dropBytes : Nat → List Char → List Char
  | _, [] => []
  | n, c :: cs => if c.utf8Size ≤ n then dropBytes (n - c.utf8Size) cs else c :: cs

/-- Unicode white space. -/
def isBlank (c : Char) : Bool :=
  let n := c.toNat
  (0x09 ≤ n && n ≤ 0x0D) || n == 0x20 || n == 0x85 || n == 0xA0 || n == 0x1680
    || (0x2000 ≤ n && n ≤ 0x200A) || n == 0x2028 || n == 0x2029 || n == 0x202F || n == 0x205F
    || n == 0x3000

/-- The text without the characters satisfying `p` at either end. -/
def trim (p : Char → Bool) (cs : List Char) : List Char :=
  ((cs.dropWhile p).reverse.dropWhile p).reverse

/-- The text without the first occurrence of a nonempty `needle`. -/
def eraseFirst (needle : List Char) : List Char → List Char
  | [] => []
  | c :: cs =>
    if needle.isPrefixOf (c :: cs) then (c :: cs).drop needle.length
    else c :: eraseFirst needle cs

/-- Byte offsets of the occurrences of `needle` that do not overlap an earlier one, when `skip`
characters still belong to the last occurrence found. An empty needle occurs between any two
characters and at both ends. -/
def occurrences (needle : List Char) : (skip offset : Nat) → List Char → List Nat
  | skip, offset, [] => if skip = 0 && needle.isEmpty then [offset] else []
  | skip + 1, offset, c :: cs => occurrences needle skip (offset + c.utf8Size) cs
  | 0, offset, c :: cs =>
    if needle.isPrefixOf (c :: cs) then
      offset :: occurrences needle (needle.length - 1) (offset + c.utf8Size) cs
    else occurrences needle 0 (offset + c.utf8Size) cs

/-- The value of a decimal digit. -/
def digitValue (c : Char) : Nat := c.toNat - '0'.toNat

/-- The value of a list of decimal digits. -/
def digitsValue (cs : List Char) : Nat := cs.foldl (fun n c => 10 * n + digitValue c) 0

/-- A natural number written with one or more decimal digits after at most one plus sign. -/
def parseNat? (cs : List Char) : Option Nat :=
  let digits := match cs with
    | '+' :: rest => rest
    | _ => cs
  if digits.isEmpty || !digits.all Char.isDigit then none else some (digitsValue digits)

end PortableTypes.Text
