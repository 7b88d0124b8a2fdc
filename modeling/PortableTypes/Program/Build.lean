import PortableTypes.Program.Basic
import PortableTypes.Text.Basic

/-!
# Building programs

Records are added at the end of their tables and completed in place. A change of a record that is
not there changes nothing.
-/
namespace PortableTypes.Program

def modifyFile (p : Program) (id : FileId) (f : SourceFile → SourceFile) : Program :=
  { p with files := p.files.modify id.index f }

def modifyNode (p : Program) (id : NodeId) (f : Node → Node) : Program :=
  { p with nodes := p.nodes.modify id.index f }

def modifySymbol (p : Program) (id : SymbolId) (f : Symbol → Symbol) : Program :=
  { p with symbols := p.symbols.modify id.index f }

def modifyType (p : Program) (id : TypeId) (f : TypeRecord → TypeRecord) : Program :=
  { p with types := p.types.modify id.index f }

def addFile (p : Program) (name text : String) : FileId × Program :=
  (⟨p.files.size⟩, { p with files := p.files.push { name, text } })

def addStatement (p : Program) (file : FileId) (node : NodeId) : Program :=
  p.modifyFile file fun f => { f with statements := f.statements ++ [node] }

/-- Gives the file an empty module table, if it has none. -/
def initModules (p : Program) (file : FileId) : Program :=
  p.modifyFile file fun f => { f with modules := some (f.modules.getD .empty) }

def addModule (p : Program) (file : FileId) (specifier target : String) : Program :=
  p.modifyFile file fun f =>
    { f with modules := some ((f.modules.getD .empty).insert specifier target) }

def addNode (p : Program) (file : FileId) (form : Form) (span : Option Span) : NodeId × Program :=
  (⟨p.nodes.size⟩, { p with nodes := p.nodes.push { file, form, span } })

def setParent (p : Program) (node parent : NodeId) : Program :=
  p.modifyNode node fun n => { n with parent := some parent }

def setNodeType (p : Program) (node : NodeId) (type : TypeId) : Program :=
  p.modifyNode node fun n => { n with type := some type }

def addSymbol (p : Program) (name : String) : SymbolId × Program :=
  (⟨p.symbols.size⟩, { p with symbols := p.symbols.push { name } })

/-- Makes a node a declaration of a symbol, and its value declaration if it is the first. -/
def declare (p : Program) (symbol : SymbolId) (node : NodeId) : Program :=
  (p.modifyNode node fun n => { n with declares := some symbol }).modifySymbol symbol fun s =>
    { s with
      declarations := s.declarations ++ [node]
      valueDeclaration := some (s.valueDeclaration.getD node) }

/-- Makes a node refer to a symbol. -/
def refer (p : Program) (node : NodeId) (symbol : SymbolId) : Program :=
  p.modifyNode node fun n => { n with refersTo := some symbol }

def addType (p : Program) (record : TypeRecord) : TypeId × Program :=
  (⟨p.types.size⟩, { p with types := p.types.push record })

/-- The intrinsic type with a text, added if it was not asked for before. -/
def intrinsic (p : Program) (text : String) : TypeId × Program :=
  match p.intrinsics.find? (·.1 == text) with
  | some (_, id) => (id, p)
  | none =>
    let (id, p) := p.addType { text, kind := .intrinsic }
    (id, { p with intrinsics := (text, id) :: p.intrinsics })

def literal (p : Program) (value : Literal) : TypeId × Program :=
  p.addType { text := value.display, kind := .literal value }

def union (p : Program) (text : String) (members : List TypeId) : TypeId × Program :=
  p.addType { text, kind := .union members }

def typeParameter (p : Program) (text : String) : TypeId × Program :=
  p.addType { text, kind := .typeParameter }

def object (p : Program) (text : String) : TypeId × Program :=
  p.addType { text, kind := .object }

def addSignature (p : Program) (parameters : List SymbolId) (result : TypeId) :
    SignatureId × Program :=
  (⟨p.signatures.size⟩, { p with signatures := p.signatures.push { parameters, result } })

/-- The intrinsic types of a table, the latest first. -/
def intrinsicsOf (types : Array TypeRecord) : List (String × TypeId) :=
  (types.toList.zipIdx.filterMap fun (t, i) =>
    if t.kind = .intrinsic then some (t.text, TypeId.mk i) else none).reverse

/-- The program of given tables. A table without types gets the type of unknown types. -/
def ofTables (files : List SourceFile) (nodes : List Node) (symbols : List Symbol)
    (types : List TypeRecord) (signatures : List Signature) : Program :=
  let types := if types.isEmpty then #[.error] else types.toArray
  { files := files.toArray, nodes := nodes.toArray, symbols := symbols.toArray, types,
    signatures := signatures.toArray, intrinsics := intrinsicsOf types }

/-- The `nth` stretch of a file's text that reads `needle`. -/
def findSpan? (p : Program) (file : FileId) (needle : String) (nth : Nat) : Option Span := do
  let f ← p.file? file
  let start ← (Text.occurrences needle.toList 0 0 f.text.toList)[nth]?
  return .ofLength (.ofNat start) (.ofNat needle.utf8ByteSize)

end PortableTypes.Program
