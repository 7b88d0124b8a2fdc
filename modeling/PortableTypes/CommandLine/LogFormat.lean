/-!
# Formats of logs
-/
namespace PortableTypes

/-- How events are shown to a user. -/
inductive LogFormat
  | text
  | tree
  | json
  deriving DecidableEq, Repr

/-- The format with a name, in letters of either case. A format without a known name is text. -/
def LogFormat.ofName (name : String) : LogFormat :=
  match String.ofList (name.toList.map Char.toLower) with
  | "tree" => .tree
  | "json" => .json
  | _ => .text

end PortableTypes
