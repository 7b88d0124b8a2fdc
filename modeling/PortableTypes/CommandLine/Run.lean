import PortableTypes.CommandLine.Arguments
import PortableTypes.Expansion
import PortableTypes.Wire.Program

/-!
# Running commands

A command reads a snapshot, asks a session about it and lays out the answer as JSON.
-/
namespace PortableTypes.CommandLine

/-- Why a command has no output. -/
inductive Failure
  | unreadable (path : String)
  | malformed (path : String) (error : DecodeError)
  | extraction (file : String) (error : ProjectionError)
  | noType (file : String) (position : Position) (error : ProjectionError)
  deriving DecidableEq, Repr

namespace Failure

def message : Failure → String
  | .unreadable path => "failed to read snapshot " ++ path
  | .malformed path error =>
    "failed to parse snapshot " ++ path ++ ((error.message?.map (": " ++ ·)).getD "")
  | .extraction file error => "failed to extract types from " ++ file ++ ": " ++ error.message
  | .noType file position error =>
    "no type at " ++ file ++ s!":{position.line}:{position.character}: " ++ error.message

end Failure

/-- What a run gives, with the events on the way. -/
structure Report where
  result : Except Failure String
  events : List Event

def Command.snapshot : Command → String
  | .extract snapshot _ _ _ | .lookUp snapshot _ _ _ => snapshot

/-- The declarations of a file with the properties below them. -/
def extract (file : String) (keepGenerics : Bool) (levels : Nat) :
    Asking (Except Failure (List ExpandedDeclaration)) := do
  match ← Session.declarations file (!keepGenerics) with
  | .error e => return .error (.extraction file e)
  | .ok declarations =>
    let expanded ← Asking.each (fun (d : Declaration) => do
      return { name := d.name, type := d.type, properties := ← Session.expand levels d.type })
      declarations
    return .ok expanded

/-- The type under a cursor with the properties below it. -/
def lookUp (file : String) (position : Position) (levels : Nat) :
    Asking (Except Failure ExpandedDeclaration) := do
  match ← Session.typeUnder file position with
  | .error e => return .error (.noType file position e)
  | .ok (name, type) =>
    return .ok { name, type, properties := ← Session.expand levels type }

/-- The output of a command for a session. -/
def Command.answer : Command → Asking (Except Failure String)
  | .extract _ file keepGenerics options => do
    match ← CommandLine.extract file keepGenerics options.expandDepth with
    | .error e => return .error e
    | .ok declarations =>
      Asking.report (.declarationsExtracted file declarations.length)
      return .ok ((Json.array (declarations.map (·.encode))).render options.onLines)
  | .lookUp _ file position options => do
    match ← CommandLine.lookUp file position options.expandDepth with
    | .error e => return .error e
    | .ok declaration => return .ok (declaration.encode.render options.onLines)

/-- Runs a command on the text of its snapshot, if that could be read. -/
def Command.run (c : Command) (text : Option String) : Report :=
  match text with
  | none => { result := .error (.unreadable c.snapshot), events := [] }
  | some text =>
    match Program.ofText text with
    | .error e => { result := .error (.malformed c.snapshot e), events := [] }
    | .ok program =>
      let answer := c.answer (Session.start program .initial)
      { result := answer.value, events := answer.events }

end PortableTypes.CommandLine
