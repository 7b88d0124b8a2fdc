import PortableTypes.Json.Basic
import PortableTypes.Projection.Error
import PortableTypes.Store

/-!
# Events

What projection reports while it works. Every event has a level, a message and named fields.
-/
namespace PortableTypes

/-- How much an event matters, from most to least. -/
inductive Level
  | error
  | warn
  | info
  | debug
  | trace
  deriving DecidableEq, Repr

namespace Level

/-- Levels in the order of their weight; an event is shown if it is not above the level asked for.
-/
def rank : Level → Nat
  | .error => 0
  | .warn => 1
  | .info => 2
  | .debug => 3
  | .trace => 4

def name : Level → String
  | .error => "ERROR"
  | .warn => "WARN"
  | .info => "INFO"
  | .debug => "DEBUG"
  | .trace => "TRACE"

end Level

inductive Event
  | depthLimit (type : TypeId) (text : String)
  | classified (type : TypeId) (text shape : String) (depth : Nat)
  | noRule (type : TypeId) (text : String)
  | elementUnresolved (type : TypeId) (text : String)
  | memberSkipped (member tag : String)
  | interned (key : StoreKey) (type : TypeId)
  | locationDropped (fileName : String) (line : Nat) (symbol : SymbolId)
  | unknownKey (key : String)
  | propertiesRead (key : String) (type : TypeId)
  | converted (node : NodeId) (type : TypeId)
  | fileEntered (fileName : String) (depth : Nat)
  | genericSkipped (fileName kind : String)
  | reexportSkipped (fileName : String) (error : ExportError)
  | reexportCycle (specifier target : String)
  | emptyStatement (fileName : String)
  | notExportDeclaration (fileName : String) (node : NodeId)
  | objectExpanded (key : String) (depth : Nat)
  | declarationsExtracted (fileName : String) (count : Nat)
  deriving DecidableEq, Repr

namespace Event

def level : Event → Level
  | .emptyStatement _ | .notExportDeclaration .. => .error
  | .unknownKey _ | .reexportSkipped .. | .reexportCycle .. => .warn
  | .declarationsExtracted .. => .info
  | .depthLimit .. | .noRule .. | .elementUnresolved .. | .propertiesRead .. | .converted ..
  | .fileEntered .. | .genericSkipped .. | .objectExpanded .. => .debug
  | .classified .. | .memberSkipped .. | .interned .. | .locationDropped .. => .trace

def message : Event → String
  | .depthLimit .. => "classification depth limit reached"
  | .classified .. => "classify"
  | .noRule .. => "no classification rule matched"
  | .elementUnresolved .. => "array element unresolved"
  | .memberSkipped .. => "skipping non-literal enum member"
  | .interned .. => "interned object type"
  | .locationDropped .. => "dropping unverified location"
  | .unknownKey _ => "unknown store key"
  | .propertiesRead .. => "get_object_props"
  | .converted .. => "convert_type"
  | .fileEntered .. => "extract_types"
  | .genericSkipped .. => "skipping unresolved generic"
  | .reexportSkipped _ e => "skipping re-export: " ++ e.message
  | .reexportCycle .. => "re-export cycle"
  | .emptyStatement _ => "variable statement without declarations"
  | .notExportDeclaration .. => "re-export target is not an export declaration"
  | .objectExpanded .. => "expanding object"
  | .declarationsExtracted .. => "extracted declarations"

def fields : Event → List (String × Json)
  | .depthLimit type text | .noRule type text | .elementUnresolved type text =>
    [("ty", .string type.label), ("text", .string text)]
  | .classified type text shape depth =>
    [("ty", .string type.label), ("text", .string text), ("shape", .string shape),
      ("depth", .nat depth)]
  | .memberSkipped member tag => [("member", .string member), ("tag", .string tag)]
  | .interned key type => [("key", .string key.text), ("ty", .string type.label)]
  | .locationDropped fileName line symbol =>
    [("file", .string fileName), ("line", .nat line), ("symbol", .string symbol.label)]
  | .unknownKey key => [("store_key", .string key)]
  | .propertiesRead key type => [("store_key", .string key), ("ty", .string type.label)]
  | .converted node type => [("node", .string node.label), ("ty", .string type.label)]
  | .fileEntered fileName depth => [("file", .string fileName), ("depth", .nat depth)]
  | .genericSkipped fileName kind => [("file", .string fileName), ("kind", .string kind)]
  | .reexportSkipped fileName e =>
    [("file", .string fileName), ("reason", .string e.reason.wire)]
  | .reexportCycle specifier target =>
    [("module", .string specifier), ("target", .string target)]
  | .emptyStatement fileName => [("file", .string fileName)]
  | .notExportDeclaration fileName node =>
    [("file", .string fileName), ("kind", .string "ExportDeclaration"),
      ("node", .string node.label)]
  | .objectExpanded key depth => [("key", .string key), ("depth", .nat depth)]
  | .declarationsExtracted fileName count => [("file", .string fileName), ("count", .nat count)]

def encode (e : Event) : Json :=
  .object [("level", .string e.level.name), ("message", .string e.message),
    ("fields", .object e.fields)]

/-- The events that matter at least as much as a level, in order. -/
def upTo (level : Level) (es : List Event) : List Event :=
  es.filter fun e => e.level.rank ≤ level.rank

end Event
end PortableTypes
