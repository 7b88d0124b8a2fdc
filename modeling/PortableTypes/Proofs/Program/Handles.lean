import PortableTypes.Program.Build

/-!
# Handles below bounds

The handles that the records of a program hold, and when all of them stay below a bound for each
table. With the sizes of the tables as bounds every handle leads to a record; with `2 ^ 32` every
handle can be written into a document and read back.
-/
namespace PortableTypes

theorem forall_mem_some {α : Type} {P : α → Prop} {a : α} (ha : P a) : ∀ b ∈ some a, P b := by
  intro b hb
  cases hb
  exact ha

/-- Bounds for the handles of files, nodes, symbols, types and signatures. -/
structure Bounds where
  files : Nat
  nodes : Nat
  symbols : Nat
  types : Nat
  signatures : Nat

/-- The bounds of handles of 32 bits. -/
def Bounds.word : Bounds := ⟨2 ^ 32, 2 ^ 32, 2 ^ 32, 2 ^ 32, 2 ^ 32⟩

abbrev FileId.Below (b : Bounds) (id : FileId) : Prop := id.index < b.files
abbrev NodeId.Below (b : Bounds) (id : NodeId) : Prop := id.index < b.nodes
abbrev SymbolId.Below (b : Bounds) (id : SymbolId) : Prop := id.index < b.symbols
abbrev TypeId.Below (b : Bounds) (id : TypeId) : Prop := id.index < b.types
abbrev SignatureId.Below (b : Bounds) (id : SignatureId) : Prop := id.index < b.signatures

/-- The nodes that a form refers to. -/
def Form.nodes : Form → List NodeId
  | .typeAlias _ _ typeNode | .variableDeclaration _ typeNode | .propertySignature _ typeNode
  | .parameter _ typeNode => typeNode.toList
  | .variableStatement _ nodes | .tupleType nodes | .typeReference _ nodes => nodes
  | .arrayType element => [element]
  | .interface .. | .enumeration .. | .enumMember _ | .exportDeclaration .. | .identifier _
  | .otherType | .other => []

/-- The types that a kind refers to. -/
def TypeKind.members : TypeKind → List TypeId
  | .union members => members
  | .error | .intrinsic | .literal _ | .typeParameter | .object => []

structure SourceFile.Below (b : Bounds) (f : SourceFile) : Prop where
  statements : ∀ id ∈ f.statements, id.Below b

instance (b : Bounds) (f : SourceFile) : Decidable (f.Below b) :=
  decidable_of_decidable_of_iff (p := ∀ id ∈ f.statements, id.Below b) ⟨fun h => ⟨h⟩, fun h => h.1⟩

structure Node.Below (b : Bounds) (n : Node) : Prop where
  file : n.file.Below b
  parent : ∀ id ∈ n.parent, id.Below b
  form : ∀ id ∈ n.form.nodes, id.Below b
  declares : ∀ id ∈ n.declares, id.Below b
  refersTo : ∀ id ∈ n.refersTo, id.Below b
  type : ∀ id ∈ n.type, id.Below b

instance (b : Bounds) (n : Node) : Decidable (n.Below b) :=
  decidable_of_decidable_of_iff
    (p := n.file.Below b ∧ (∀ id ∈ n.parent, id.Below b) ∧ (∀ id ∈ n.form.nodes, id.Below b) ∧
      (∀ id ∈ n.declares, id.Below b) ∧ (∀ id ∈ n.refersTo, id.Below b) ∧
      ∀ id ∈ n.type, id.Below b)
    ⟨fun ⟨h₁, h₂, h₃, h₄, h₅, h₆⟩ => ⟨h₁, h₂, h₃, h₄, h₅, h₆⟩,
      fun ⟨h₁, h₂, h₃, h₄, h₅, h₆⟩ => ⟨h₁, h₂, h₃, h₄, h₅, h₆⟩⟩

structure Symbol.Below (b : Bounds) (s : Symbol) : Prop where
  declarations : ∀ id ∈ s.declarations, id.Below b
  valueDeclaration : ∀ id ∈ s.valueDeclaration, id.Below b
  exports : ∀ id ∈ s.exports, id.Below b
  mappedTemplate : ∀ id ∈ s.mappedTemplate, id.Below b
  type : ∀ id ∈ s.type, id.Below b
  declaredType : ∀ id ∈ s.declaredType, id.Below b

instance (b : Bounds) (s : Symbol) : Decidable (s.Below b) :=
  decidable_of_decidable_of_iff
    (p := (∀ id ∈ s.declarations, id.Below b) ∧ (∀ id ∈ s.valueDeclaration, id.Below b) ∧
      (∀ id ∈ s.exports, id.Below b) ∧ (∀ id ∈ s.mappedTemplate, id.Below b) ∧
      (∀ id ∈ s.type, id.Below b) ∧ ∀ id ∈ s.declaredType, id.Below b)
    ⟨fun ⟨h₁, h₂, h₃, h₄, h₅, h₆⟩ => ⟨h₁, h₂, h₃, h₄, h₅, h₆⟩,
      fun ⟨h₁, h₂, h₃, h₄, h₅, h₆⟩ => ⟨h₁, h₂, h₃, h₄, h₅, h₆⟩⟩

structure TypeRecord.Below (b : Bounds) (t : TypeRecord) : Prop where
  members : ∀ id ∈ t.kind.members, id.Below b
  symbol : ∀ id ∈ t.symbol, id.Below b
  aliasSymbol : ∀ id ∈ t.aliasSymbol, id.Below b
  aliasArguments : ∀ id ∈ t.aliasArguments, id.Below b
  arguments : ∀ id ∈ t.arguments, id.Below b
  origin : ∀ id ∈ t.origin, id.Below b
  properties : ∀ id ∈ t.properties, id.Below b
  callSignatures : ∀ id ∈ t.callSignatures, id.Below b

instance (b : Bounds) (t : TypeRecord) : Decidable (t.Below b) :=
  decidable_of_decidable_of_iff
    (p := (∀ id ∈ t.kind.members, id.Below b) ∧ (∀ id ∈ t.symbol, id.Below b) ∧
      (∀ id ∈ t.aliasSymbol, id.Below b) ∧ (∀ id ∈ t.aliasArguments, id.Below b) ∧
      (∀ id ∈ t.arguments, id.Below b) ∧ (∀ id ∈ t.origin, id.Below b) ∧
      (∀ id ∈ t.properties, id.Below b) ∧ ∀ id ∈ t.callSignatures, id.Below b)
    ⟨fun ⟨h₁, h₂, h₃, h₄, h₅, h₆, h₇, h₈⟩ => ⟨h₁, h₂, h₃, h₄, h₅, h₆, h₇, h₈⟩,
      fun ⟨h₁, h₂, h₃, h₄, h₅, h₆, h₇, h₈⟩ => ⟨h₁, h₂, h₃, h₄, h₅, h₆, h₇, h₈⟩⟩

/-- The type of unknown types refers to nothing. -/
theorem TypeRecord.below_error (b : Bounds) : TypeRecord.error.Below b := by
  constructor <;> simp [TypeRecord.error, TypeKind.members]

structure Signature.Below (b : Bounds) (s : Signature) : Prop where
  parameters : ∀ id ∈ s.parameters, id.Below b
  result : s.result.Below b

instance (b : Bounds) (s : Signature) : Decidable (s.Below b) :=
  decidable_of_decidable_of_iff (p := (∀ id ∈ s.parameters, id.Below b) ∧ s.result.Below b)
    ⟨fun h => ⟨h.1, h.2⟩, fun h => ⟨h.1, h.2⟩⟩

/-- Every handle in the tables of a program is below the bounds. -/
structure Program.Below (b : Bounds) (p : Program) : Prop where
  files : ∀ f ∈ p.files, f.Below b
  nodes : ∀ n ∈ p.nodes, n.Below b
  symbols : ∀ s ∈ p.symbols, s.Below b
  types : ∀ t ∈ p.types, t.Below b
  signatures : ∀ s ∈ p.signatures, s.Below b

instance (b : Bounds) (p : Program) : Decidable (p.Below b) :=
  decidable_of_decidable_of_iff
    (p := (∀ f ∈ p.files, f.Below b) ∧ (∀ n ∈ p.nodes, n.Below b) ∧
      (∀ s ∈ p.symbols, s.Below b) ∧ (∀ t ∈ p.types, t.Below b) ∧ ∀ s ∈ p.signatures, s.Below b)
    ⟨fun ⟨h₁, h₂, h₃, h₄, h₅⟩ => ⟨h₁, h₂, h₃, h₄, h₅⟩,
      fun ⟨h₁, h₂, h₃, h₄, h₅⟩ => ⟨h₁, h₂, h₃, h₄, h₅⟩⟩

/-- The sizes of the tables. -/
def Program.bounds (p : Program) : Bounds :=
  ⟨p.files.size, p.nodes.size, p.symbols.size, p.types.size, p.signatures.size⟩

end PortableTypes
