import PortableTypes.Session
import PortableTypes.Proofs.TypeObject.Leaves
import PortableTypes.Proofs.TypeObject.Rekey

/-!
# Runs of a session

What can be asked of a session, in any order and any number of times, and what was answered since
the store of the session took its generation.
-/
namespace PortableTypes.Session

/-- What can be asked of a session. -/
inductive Operation
  | typeOf (node : NodeId)
  | declarations (fileName : String) (skipGenerics : Bool)
  | reexports (node : NodeId) (skipGenerics : Bool)
  | typeUnder (fileName : String) (position : Position)
  | properties (key : String)
  | reset
  | turnTo (program : Program)

/-- What an operation returns. -/
inductive Reply
  | type (t : TypeObject)
  | declarations (r : Program.Extracted)
  | named (r : Except ProjectionError (Option String × TypeObject))
  | properties (ps : List Property)
  | done

namespace Reply

/-- The object types at any depth of the type objects that are returned. -/
def leaves : Reply → List ObjectLeaf
  | .type t => t.leaves
  | .declarations r => leavesOfExtracted r
  | .named (.ok (_, t)) => t.leaves
  | .named (.error _) => []
  | .properties ps => ps.flatMap fun p => p.type.leaves
  | .done => []

/-- The type objects that are returned. -/
def types : Reply → List TypeObject
  | .type t => [t]
  | .declarations r => r.types
  | .named (.ok (_, t)) => [t]
  | .named (.error _) => []
  | .properties ps => ps.map (·.type)
  | .done => []

/-- The reply with every store key replaced. -/
def rekey (σ : String → String) : Reply → Reply
  | .type t => .type (t.rekey σ)
  | .declarations r => .declarations (r.rekey σ)
  | .named (.ok (name, t)) => .named (.ok (name, t.rekey σ))
  | .named (.error e) => .named (.error e)
  | .properties ps => .properties (ps.map (·.rekey σ))
  | .done => .done

end Reply

def perform : Operation → Asking Reply
  | .typeOf node => do return .type (← typeOf node)
  | .declarations fileName skipGenerics => do
    return .declarations (← declarations fileName skipGenerics)
  | .reexports node skipGenerics => do return .declarations (← reexports node skipGenerics)
  | .typeUnder fileName position => do return .named (← typeUnder fileName position)
  | .properties key => do return .properties (← properties key)
  | .reset => do
    reset
    return .done
  | .turnTo program => do
    turnTo program
    return .done

/-- A session with the replies that it gave since its store took the generation it has. -/
structure Transcript where
  session : Session
  replies : List Reply

namespace Transcript

/-- An operation that gives the store another generation starts the replies anew, with its own. -/
def step (t : Transcript) (op : Operation) : Transcript :=
  let a := perform op t.session
  if a.session.store.generation = t.session.store.generation then
    { session := a.session, replies := t.replies ++ [a.value] }
  else
    { session := a.session, replies := [a.value] }

/-- A session from its start through operations in order. -/
def run (program : Program) (counter : Counter) (ops : List Operation) : Transcript :=
  ops.foldl step { session := start program counter, replies := [] }

/-- The object types that were returned since the store took its generation. -/
def leaves (t : Transcript) : List ObjectLeaf := t.replies.flatMap Reply.leaves

end Transcript
end PortableTypes.Session
