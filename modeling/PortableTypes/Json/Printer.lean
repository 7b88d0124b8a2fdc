import PortableTypes.Json.Basic

/-!
# Texts of documents

Writers put a text in front of what follows it. Two texts are in use, the compact and the pretty
one, which differ only in their blanks.
-/
namespace PortableTypes.Json

/-- A digit of a code point escape, in lower case. -/
def hexDigit (n : Nat) : Char := (Nat.toDigits 16 (n % 16)).headD '0'

/-- A character of a string. Only quotes, backslashes and control characters are escaped. -/
def writeChar (c : Char) (rest : List Char) : List Char :=
  if c = '"' then '\\' :: '"' :: rest
  else if c = '\\' then '\\' :: '\\' :: rest
  else if c.toNat < 0x20 then
    if c = '\n' then '\\' :: 'n' :: rest
    else if c = '\r' then '\\' :: 'r' :: rest
    else if c = '\t' then '\\' :: 't' :: rest
    else if c.toNat = 0x08 then '\\' :: 'b' :: rest
    else if c.toNat = 0x0C then '\\' :: 'f' :: rest
    else '\\' :: 'u' :: '0' :: '0' :: hexDigit (c.toNat / 16) :: hexDigit c.toNat :: rest
  else c :: rest

/-- A string with its quotes. -/
def writeString (s : String) (rest : List Char) : List Char :=
  '"' :: s.toList.foldr writeChar ('"' :: rest)

/-- The blanks of a text. -/
structure Spacing where
  /-- What stands in front of items, fields and closing brackets at a nesting level. -/
  line : (level : Nat) → List Char
  /-- What stands behind a colon. -/
  gap : List Char
  line_blank : ∀ level, ∀ c ∈ line level, isSpace c = true
  gap_blank : ∀ c ∈ gap, isSpace c = true

namespace Spacing

/-- No blanks at all. -/
def tight : Spacing where
  line _ := []
  gap := []
  line_blank _ _ hc := nomatch hc
  gap_blank _ hc := nomatch hc

/-- Every item and field on a line of its own, two blanks deeper than its container. -/
def onLines : Spacing where
  line level := '\n' :: List.replicate (2 * level) ' '
  gap := [' ']
  line_blank level c hc := by
    obtain rfl | hc := List.mem_cons.mp hc
    · rfl
    · rw [List.eq_of_mem_replicate hc]
      rfl
  gap_blank c hc := by
    rw [List.mem_singleton.mp hc]
    rfl

end Spacing

mutual

/-- The text of a document at a nesting level, before `rest`. A fault has no text. -/
def write (s : Spacing) (level : Nat) : Json → List Char → List Char
  | .null, rest => 'n' :: 'u' :: 'l' :: 'l' :: rest
  | .boolean true, rest => 't' :: 'r' :: 'u' :: 'e' :: rest
  | .boolean false, rest => 'f' :: 'a' :: 'l' :: 's' :: 'e' :: rest
  | .number n, rest => n.text ++ rest
  | .string text, rest => writeString text rest
  | .array [], rest => '[' :: ']' :: rest
  | .array (j :: js), rest =>
    '[' :: (s.line (level + 1) ++ write s (level + 1) j
      (writeItems s (level + 1) js (s.line level ++ ']' :: rest)))
  | .object [], rest => '\x7b' :: '\x7d' :: rest
  | .object ((k, j) :: fs), rest =>
    '\x7b' :: (s.line (level + 1) ++ writeString k (':' :: (s.gap ++ write s (level + 1) j
      (writeFields s (level + 1) fs (s.line level ++ '\x7d' :: rest)))))
  | .fault _, rest => rest
termination_by structural j => j

/-- Items behind the first one, each after a comma. -/
def writeItems (s : Spacing) (level : Nat) : List Json → List Char → List Char
  | [], rest => rest
  | j :: js, rest => ',' :: (s.line level ++ write s level j (writeItems s level js rest))
termination_by structural js => js

/-- Fields behind the first one, each after a comma. -/
def writeFields (s : Spacing) (level : Nat) : List (String × Json) → List Char → List Char
  | [], rest => rest
  | (k, j) :: fs, rest =>
    ',' :: (s.line level ++ writeString k (':' :: (s.gap ++ write s level j
      (writeFields s level fs rest))))
termination_by structural fs => fs

end

/-- The text of a document with given blanks. -/
def text (s : Spacing) (j : Json) : String := String.ofList (j.write s 0 [])

/-- The text of a document without blanks. -/
def compact (j : Json) : String := j.text .tight

/-- The text of a document over several lines. -/
def pretty (j : Json) : String := j.text .onLines

/-- The compact or the pretty text. -/
def render (onLines : Bool) (j : Json) : String := if onLines then j.pretty else j.compact

end PortableTypes.Json
