import PortableTypes.Source.Position
import PortableTypes.Text.Basic

/-!
# Arguments of the command line

The words of a command line are read from the left. A word that is a value is held back and checked
when the next value or known option is met, or at the end: a word that is not known at all is thus
reported before a bad value in front of it.
-/
namespace PortableTypes.CommandLine

/-- Why the words are not a command, or what is to be shown instead of running one. -/
inductive UsageError
  | noCommand
  | help
  | version
  | unknownCommand
  | missingArgument
  | unknownArgument
  /-- An option without a value, or an empty path. -/
  | noValue
  | notNumber
  | repeated
  /-- A value for an option that takes none. -/
  | unexpectedValue
  deriving DecidableEq, Repr

/-- What every command takes. -/
structure Options where
  /-- Levels of properties to expand. -/
  expandDepth : Nat := 0
  /-- Whether the output is laid out on lines. -/
  onLines : Bool := false
  deriving DecidableEq, Repr

inductive Command
  /-- The declarations of a file. -/
  | extract (snapshot file : String) (keepGenerics : Bool) (options : Options)
  /-- The type under a cursor. -/
  | lookUp (snapshot file : String) (position : Position) (options : Options)
  deriving DecidableEq, Repr

/-- The names of commands. -/
inductive CommandName
  | extract
  | lookUp
  deriving DecidableEq, Repr

/-- The places that take a value. -/
inductive Slot
  | snapshot
  | file
  | line
  | character
  | expandDepth
  deriving DecidableEq, Repr

/-- The options without a value. -/
inductive Flag
  | keepGenerics
  | pretty
  deriving DecidableEq, Repr

namespace CommandName

def ofWord? : String → Option CommandName
  | "extract" => some .extract
  | "at" => some .lookUp
  | _ => none

/-- The values that a command takes in order. -/
def slots : CommandName → List Slot
  | .extract => [.snapshot, .file]
  | .lookUp => [.snapshot, .file, .line, .character]

end CommandName

/-- A number below 2^32, with an optional sign. -/
def number? (text : String) : Option Nat :=
  let value := match text.toList with
    | '-' :: '+' :: _ => none
    | '-' :: digits => (Text.parseNat? digits).filter (· == 0)
    | cs => Text.parseNat? cs
  value.filter (· < UInt32.size)

def readNumber (text : String) : Except UsageError Nat :=
  match number? text with
  | some n => .ok n
  | none => .error .notNumber

/-- The values of a command as far as they are read. -/
structure Draft where
  snapshot : Option String := none
  file : Option String := none
  line : Option Nat := none
  character : Option Nat := none
  expandDepth : Option Nat := none
  keepGenerics : Bool := false
  pretty : Bool := false
  deriving DecidableEq, Repr

namespace Draft

/-- Reads a value into its place. A place that is filled already is found out first. -/
def put (d : Draft) (slot : Slot) (text : String) : Except UsageError Draft :=
  match slot with
  | .snapshot => if text.isEmpty then .error .noValue else .ok { d with snapshot := some text }
  | .file => .ok { d with file := some text }
  | .line => do return { d with line := some (← readNumber text) }
  | .character => do return { d with character := some (← readNumber text) }
  | .expandDepth => do
    if d.expandDepth.isSome then
      throw .repeated
    return { d with expandDepth := some (← readNumber text) }

def raise (d : Draft) : Flag → Except UsageError Draft
  | .keepGenerics => if d.keepGenerics then .error .repeated else .ok { d with keepGenerics := true }
  | .pretty => if d.pretty then .error .repeated else .ok { d with pretty := true }

def options (d : Draft) : Options := { expandDepth := d.expandDepth.getD 0, onLines := d.pretty }

/-- The command of a draft, if nothing is missing. -/
def command (d : Draft) (name : CommandName) : Except UsageError Command :=
  match name, d.snapshot, d.file, d.line, d.character with
  | .extract, some snapshot, some file, _, _ =>
    .ok (.extract snapshot file d.keepGenerics d.options)
  | .lookUp, some snapshot, some file, some line, some character =>
    .ok (.lookUp snapshot file ⟨.ofNat line, .ofNat character⟩ d.options)
  | _, _, _, _, _ => .error .missingArgument

end Draft

/-- A word as the reader of a command sees it. -/
inductive Word
  /-- The mark after which no word is an option. -/
  | divider
  | value (text : String)
  | help
  | flag (f : Flag)
  /-- The option that takes a value, with the value behind an equals sign if there is one. -/
  | depth (value : Option String)
  /-- An option without a value that is given one. -/
  | overfull
  | unknown
  deriving DecidableEq, Repr

namespace Word

/-- The option with a name. -/
def ofOption (command : CommandName) (name : String) : Word :=
  match name, command with
  | "help", _ => .help
  | "pretty", _ => .flag .pretty
  | "keep-unresolved-generics", .extract => .flag .keepGenerics
  | "expand-depth", _ => .depth none
  | _, _ => .unknown

/-- The option with a name and the value behind its equals sign. -/
def ofAssignment (command : CommandName) (name assigned : String) : Word :=
  match ofOption command name with
  | .depth _ => .depth (some assigned)
  | .help | .flag _ => .overfull
  | other => other

/-- Reads a word. A single dash is a value, and of a word with one dash in front the first letter
counts. -/
def ofText (command : CommandName) (text : String) : Word :=
  match text.toList with
  | ['-', '-'] => .divider
  | '-' :: '-' :: cs =>
    let name := String.ofList (cs.takeWhile (· != '='))
    match cs.dropWhile (· != '=') with
    | [] => ofOption command name
    | _ :: assigned => ofAssignment command name (String.ofList assigned)
  | '-' :: 'h' :: _ => .help
  | '-' :: _ :: _ => .unknown
  | _ => .value text

end Word

/-- A value that is held back, or an option that still waits for its value. -/
structure Held where
  slot : Slot
  text : Option String
  deriving DecidableEq, Repr

/-- How far the words of a command are read. -/
structure Reading where
  /-- The places still to be filled in order. -/
  slots : List Slot
  draft : Draft := {}
  held : Option Held := none
  deriving DecidableEq, Repr

namespace Reading

/-- Checks the value that is held back. -/
def settle (r : Reading) : Except UsageError Reading :=
  match r.held with
  | none => .ok r
  | some { slot, text := some text } => do return { r with draft := ← r.draft.put slot text, held := none }
  | some { text := none, .. } => .error .noValue

/-- Takes a value into the next place. -/
def take (r : Reading) (text : String) : Except UsageError Reading :=
  match r.slots with
  | [] => .error .unknownArgument
  | slot :: slots => do
    return { ← r.settle with slots, held := some { slot, text := some text } }

/-- Takes a word that is not behind the divider. -/
def step (r : Reading) : Word → Except UsageError Reading
  | .value text =>
    match r.held with
    | some { slot, text := none } => .ok { r with held := some { slot, text := some text } }
    | _ => r.take text
  | .help => do
    discard r.settle
    throw .help
  | .flag f => do
    let r ← r.settle
    return { r with draft := ← r.draft.raise f }
  | .depth none => do
    return { ← r.settle with held := some { slot := .expandDepth, text := none } }
  | .depth (some text) => do
    let r ← r.settle
    return { r with draft := ← r.draft.put .expandDepth text }
  | .overfull => .error .unexpectedValue
  | .divider | .unknown => .error .unknownArgument

/-- The command that a draft has become at the end of the words. -/
def finish (r : Reading) (command : CommandName) : Except UsageError Command := do
  (← r.settle).draft.command command

/-- Reads words behind the divider. -/
def readValues (command : CommandName) (r : Reading) : List String → Except UsageError Command
  | [] => r.finish command
  | text :: rest => do readValues command (← r.take text) rest

/-- Reads the words of a command. -/
def readWords (command : CommandName) (r : Reading) : List String → Except UsageError Command
  | [] => r.finish command
  | text :: rest =>
    match Word.ofText command text with
    | .divider => readValues command r rest
    | word => do readWords command (← r.step word) rest

end Reading

/-- What follows the word `help`: at most one word, which has to be a command. -/
def helpOn : List String → UsageError
  | [] => .help
  | [word] => if word = "help" || (CommandName.ofWord? word).isSome then .help else .unknownCommand
  | _ => .unknownCommand

/-- What an option means that stands in front of any command. -/
def leadingOption (text : String) : UsageError :=
  if text = "--help" then .help
  else if text = "--version" then .version
  else match text.toList.takeWhile (· != '=') with
    | ['-', '-', 'h', 'e', 'l', 'p'] | ['-', '-', 'v', 'e', 'r', 's', 'i', 'o', 'n'] =>
      .unexpectedValue
    | '-' :: 'h' :: _ => .help
    | '-' :: 'V' :: _ => .version
    | _ => .unknownArgument

/-- Reads the words of a command line. -/
def parse : List String → Except UsageError Command
  | [] | ["--"] => .error .noCommand
  | "--" :: word :: _ =>
    .error (if word = "help" || (CommandName.ofWord? word).isSome then .unknownArgument
      else .unknownCommand)
  | "help" :: rest => .error (helpOn rest)
  | word :: rest =>
    match CommandName.ofWord? word with
    | some command => Reading.readWords command { slots := command.slots } rest
    | none =>
      if word.toList.head? = some '-' && word != "-" then .error (leadingOption word)
      else .error .unknownCommand

end PortableTypes.CommandLine
