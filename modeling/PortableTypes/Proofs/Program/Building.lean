import PortableTypes.Proofs.Program.Handles

/-!
# How programs are built

A program is built by one edit after the other. What an edit stores decides about the handles in the
tables; and as long as intrinsic types come and go only with their entries, the list of intrinsic
types says what the table of types says.
-/
namespace PortableTypes

/-- One step in which a program is built. The record of a node, a symbol or a type may be changed
into any other. -/
inductive Edit
  | addFile (name text : String)
  | addStatement (file : FileId) (node : NodeId)
  | initModules (file : FileId)
  | addModule (file : FileId) (specifier target : String)
  | addNode (file : FileId) (form : Form) (span : Option Span)
  | setParent (node parent : NodeId)
  | setNodeType (node : NodeId) (type : TypeId)
  | putNode (node : NodeId) (record : Node)
  | addSymbol (name : String)
  | declare (symbol : SymbolId) (node : NodeId)
  | refer (node : NodeId) (symbol : SymbolId)
  | putSymbol (symbol : SymbolId) (record : Symbol)
  | addType (record : TypeRecord)
  | intrinsic (text : String)
  | literal (value : Literal)
  | union (text : String) (members : List TypeId)
  | typeParameter (text : String)
  | object (text : String)
  | putType (type : TypeId) (record : TypeRecord)
  | addSignature (parameters : List SymbolId) (result : TypeId)
  deriving Repr

namespace Edit

def apply (p : Program) : Edit → Program
  | .addFile name text => (p.addFile name text).2
  | .addStatement file node => p.addStatement file node
  | .initModules file => p.initModules file
  | .addModule file specifier target => p.addModule file specifier target
  | .addNode file form span => (p.addNode file form span).2
  | .setParent node parent => p.setParent node parent
  | .setNodeType node type => p.setNodeType node type
  | .putNode node record => p.modifyNode node fun _ => record
  | .addSymbol name => (p.addSymbol name).2
  | .declare symbol node => p.declare symbol node
  | .refer node symbol => p.refer node symbol
  | .putSymbol symbol record => p.modifySymbol symbol fun _ => record
  | .addType record => (p.addType record).2
  | .intrinsic text => (p.intrinsic text).2
  | .literal value => (p.literal value).2
  | .union text members => (p.union text members).2
  | .typeParameter text => (p.typeParameter text).2
  | .object text => (p.object text).2
  | .putType type record => p.modifyType type fun _ => record
  | .addSignature parameters result => (p.addSignature parameters result).2

/-- The handles that an edit stores are below the bounds. -/
def Below (b : Bounds) : Edit → Prop
  | .addStatement _ node => node.Below b
  | .addNode file form _ => file.Below b ∧ ∀ id ∈ form.nodes, id.Below b
  | .setParent _ parent => parent.Below b
  | .setNodeType _ type => type.Below b
  | .putNode _ record => record.Below b
  | .declare symbol node => symbol.Below b ∧ node.Below b
  | .refer _ symbol => symbol.Below b
  | .putSymbol _ record => record.Below b
  | .addType record | .putType _ record => record.Below b
  | .union _ members => ∀ id ∈ members, id.Below b
  | .addSignature parameters result => (∀ id ∈ parameters, id.Below b) ∧ result.Below b
  | .addFile .. | .initModules _ | .addModule .. | .addSymbol _ | .intrinsic _ | .literal _
  | .typeParameter _ | .object _ => True

instance (b : Bounds) : (e : Edit) → Decidable (e.Below b)
  | .addStatement _ node => inferInstanceAs (Decidable (node.Below b))
  | .addNode file form _ =>
    inferInstanceAs (Decidable (file.Below b ∧ ∀ id ∈ form.nodes, id.Below b))
  | .setParent _ parent => inferInstanceAs (Decidable (parent.Below b))
  | .setNodeType _ type => inferInstanceAs (Decidable (type.Below b))
  | .putNode _ record => inferInstanceAs (Decidable (record.Below b))
  | .declare symbol node => inferInstanceAs (Decidable (symbol.Below b ∧ node.Below b))
  | .refer _ symbol => inferInstanceAs (Decidable (symbol.Below b))
  | .putSymbol _ record => inferInstanceAs (Decidable (record.Below b))
  | .addType record => inferInstanceAs (Decidable (record.Below b))
  | .putType _ record => inferInstanceAs (Decidable (record.Below b))
  | .union _ members => inferInstanceAs (Decidable (∀ id ∈ members, id.Below b))
  | .addSignature parameters result =>
    inferInstanceAs (Decidable ((∀ id ∈ parameters, id.Below b) ∧ result.Below b))
  | .addFile .. | .initModules _ | .addModule .. | .addSymbol _ | .intrinsic _ | .literal _
  | .typeParameter _ | .object _ => inferInstanceAs (Decidable True)

/-- The edit neither makes an intrinsic type by other means than asking for it nor changes one. -/
def SparesIntrinsics (p : Program) : Edit → Prop
  | .addType record => record.kind ≠ .intrinsic
  | .putType type record => record.kind ≠ .intrinsic ∧ ∀ t ∈ p.type? type, t.kind ≠ .intrinsic
  | .addFile .. | .addStatement .. | .initModules _ | .addModule .. | .addNode .. | .setParent ..
  | .setNodeType .. | .putNode .. | .addSymbol _ | .declare .. | .refer .. | .putSymbol ..
  | .intrinsic _ | .literal _ | .union .. | .typeParameter _ | .object _ | .addSignature .. => True

instance (p : Program) : (e : Edit) → Decidable (e.SparesIntrinsics p)
  | .addType record => inferInstanceAs (Decidable (record.kind ≠ .intrinsic))
  | .putType type record => inferInstanceAs
    (Decidable (record.kind ≠ .intrinsic ∧ ∀ t ∈ p.type? type, t.kind ≠ .intrinsic))
  | .addFile .. | .addStatement .. | .initModules _ | .addModule .. | .addNode .. | .setParent ..
  | .setNodeType .. | .putNode .. | .addSymbol _ | .declare .. | .refer .. | .putSymbol ..
  | .intrinsic _ | .literal _ | .union .. | .typeParameter _ | .object _ | .addSignature .. =>
    inferInstanceAs (Decidable True)

end Edit

namespace Program

/-- The program after edits. -/
def edited (p : Program) (edits : List Edit) : Program := edits.foldl Edit.apply p

/-- None of the edits makes or changes an intrinsic type by other means than asking for it. -/
def SparesIntrinsics : Program → List Edit → Prop
  | _, [] => True
  | p, e :: es => e.SparesIntrinsics p ∧ (e.apply p).SparesIntrinsics es

instance decidableSparesIntrinsics : (p : Program) → (edits : List Edit) →
    Decidable (p.SparesIntrinsics edits)
  | _, [] => inferInstanceAs (Decidable True)
  | p, e :: es =>
    have := decidableSparesIntrinsics (e.apply p) es
    inferInstanceAs (Decidable (e.SparesIntrinsics p ∧ (e.apply p).SparesIntrinsics es))

end Program

/-! ## Handles -/

/-- What a change keeps holds of every record after it. -/
theorem forall_mem_modify {α : Type} {as : Array α} {P : α → Prop} {f : α → α} (i : Nat)
    (h : ∀ a ∈ as, P a) (hf : ∀ a, P a → P (f a)) : ∀ a ∈ as.modify i f, P a := by
  intro a ha
  obtain ⟨j, hj, rfl⟩ := Array.mem_iff_getElem.mp ha
  have hj' : j < as.size := by simpa using hj
  rw [Array.getElem_modify]
  split
  · exact hf _ (h _ (Array.getElem_mem hj'))
  · exact h _ (Array.getElem_mem hj')

theorem forall_mem_push {α : Type} {as : Array α} {P : α → Prop} {b : α} (h : ∀ a ∈ as, P a)
    (hb : P b) : ∀ a ∈ as.push b, P a := by
  intro a ha
  obtain ha | rfl := Array.mem_push.mp ha
  · exact h a ha
  · exact hb

namespace Program.Below

variable {b : Bounds} {p : Program}

theorem modifyFile (h : p.Below b) (id : FileId) {f : SourceFile → SourceFile}
    (hf : ∀ r, r.Below b → (f r).Below b) : (p.modifyFile id f).Below b :=
  { h with files := forall_mem_modify id.index h.files hf }

theorem modifyNode (h : p.Below b) (id : NodeId) {f : Node → Node}
    (hf : ∀ r, r.Below b → (f r).Below b) : (p.modifyNode id f).Below b :=
  { h with nodes := forall_mem_modify id.index h.nodes hf }

theorem modifySymbol (h : p.Below b) (id : SymbolId) {f : Symbol → Symbol}
    (hf : ∀ r, r.Below b → (f r).Below b) : (p.modifySymbol id f).Below b :=
  { h with symbols := forall_mem_modify id.index h.symbols hf }

theorem modifyType (h : p.Below b) (id : TypeId) {f : TypeRecord → TypeRecord}
    (hf : ∀ r, r.Below b → (f r).Below b) : (p.modifyType id f).Below b :=
  { h with types := forall_mem_modify id.index h.types hf }

theorem addType (h : p.Below b) {record : TypeRecord} (hrecord : record.Below b) :
    (p.addType record).2.Below b :=
  { h with types := forall_mem_push h.types hrecord }

/-- A type without more than a text and a kind has the handles of its kind. -/
theorem addKind (h : p.Below b) (text : String) {kind : TypeKind}
    (hkind : ∀ id ∈ kind.members, id.Below b) : (p.addType { text, kind }).2.Below b := by
  refine h.addType ⟨hkind, ?_, ?_, ?_, ?_, ?_, ?_, ?_⟩ <;> simp

theorem declare (h : p.Below b) {symbol : SymbolId} {node : NodeId} (hsymbol : symbol.Below b)
    (hnode : node.Below b) : (p.declare symbol node).Below b := by
  have hdeclares : ∀ r : Node, r.Below b → ({ r with declares := some symbol } : Node).Below b :=
    fun r hr => { hr with declares := forall_mem_some hsymbol }
  refine (h.modifyNode node hdeclares).modifySymbol symbol fun r hr => ?_
  have hdeclarations : ∀ id ∈ r.declarations ++ [node], id.Below b :=
    List.forall_mem_append.mpr ⟨hr.declarations, List.forall_mem_singleton.mpr hnode⟩
  have hvalue : (r.valueDeclaration.getD node).Below b := by
    cases hvalue : r.valueDeclaration with
    | none => exact hnode
    | some id => exact hr.valueDeclaration id hvalue
  exact { hr with declarations := hdeclarations, valueDeclaration := forall_mem_some hvalue }

theorem intrinsic (h : p.Below b) (text : String) : (p.intrinsic text).2.Below b := by
  unfold Program.intrinsic
  split
  · exact h
  · have hadd : (p.addType { text, kind := .intrinsic }).2.Below b :=
      h.addKind text (List.forall_mem_nil _)
    exact { hadd with }

/-- An edit keeps the handles of a program below bounds if it stores no others. -/
theorem edit (h : p.Below b) {e : Edit} (he : e.Below b) : (e.apply p).Below b := by
  cases e with
  | addFile name text =>
    have hfile : ({ name, text } : SourceFile).Below b := ⟨List.forall_mem_nil _⟩
    exact { h with files := forall_mem_push h.files hfile }
  | addStatement file node =>
    refine h.modifyFile file fun r hr => ⟨?_⟩
    exact List.forall_mem_append.mpr ⟨hr.statements, List.forall_mem_singleton.mpr he⟩
  | initModules file => exact h.modifyFile file fun r hr => ⟨hr.statements⟩
  | addModule file specifier target => exact h.modifyFile file fun r hr => ⟨hr.statements⟩
  | addNode file form span =>
    have hnode : ({ file, form, span } : Node).Below b := by
      refine ⟨he.1, ?_, he.2, ?_, ?_, ?_⟩ <;> simp
    exact { h with nodes := forall_mem_push h.nodes hnode }
  | setParent node parent =>
    exact h.modifyNode node fun r hr => { hr with parent := forall_mem_some he }
  | setNodeType node type =>
    exact h.modifyNode node fun r hr => { hr with type := forall_mem_some he }
  | putNode node record => exact h.modifyNode node fun _ _ => he
  | addSymbol name =>
    have hsymbol : ({ name } : Symbol).Below b := by constructor <;> simp
    exact { h with symbols := forall_mem_push h.symbols hsymbol }
  | declare symbol node => exact h.declare he.1 he.2
  | refer node symbol =>
    exact h.modifyNode node fun r hr => { hr with refersTo := forall_mem_some he }
  | putSymbol symbol record => exact h.modifySymbol symbol fun _ _ => he
  | addType record => exact h.addType he
  | intrinsic text => exact h.intrinsic text
  | literal value => exact h.addKind _ (List.forall_mem_nil _)
  | union text members => exact h.addKind text he
  | typeParameter text => exact h.addKind text (List.forall_mem_nil _)
  | object text => exact h.addKind text (List.forall_mem_nil _)
  | putType type record => exact h.modifyType type fun _ _ => he
  | addSignature parameters result =>
    exact { h with signatures := forall_mem_push h.signatures ⟨he.1, he.2⟩ }

theorem edited (h : p.Below b) {edits : List Edit} (hedits : ∀ e ∈ edits, e.Below b) :
    (p.edited edits).Below b := by
  induction edits generalizing p with
  | nil => exact h
  | cons e edits ih =>
    obtain ⟨he, hedits⟩ := List.forall_mem_cons.mp hedits
    exact ih (h.edit he) hedits

end Program.Below

theorem Program.below_empty (b : Bounds) : Program.empty.Below b := by
  have htypes : ∀ t ∈ Program.empty.types, t.Below b := by
    intro t ht
    rw [List.mem_singleton.mp (List.mem_toArray.mp ht)]
    exact TypeRecord.below_error b
  constructor
  case types => exact htypes
  all_goals simp [Program.empty]

/-! ## Intrinsic types -/

namespace Program

/-- No edit takes types away. -/
theorem size_types_le_apply (p : Program) (e : Edit) : p.types.size ≤ (e.apply p).types.size := by
  cases e with
  | intrinsic text =>
    simp only [Edit.apply, Program.intrinsic]
    split <;> simp [addType]
  | _ => simp [Edit.apply, addFile, addStatement, initModules, addModule, modifyFile, addNode,
      setParent, setNodeType, modifyNode, addSymbol, declare, refer, modifySymbol, addType, literal,
      union, typeParameter, object, modifyType, addSignature]

theorem size_types_le_edited (p : Program) (edits : List Edit) :
    p.types.size ≤ (p.edited edits).types.size := by
  induction edits generalizing p with
  | nil => exact Nat.le_refl _
  | cons e edits ih => exact Nat.le_trans (p.size_types_le_apply e) (ih (e.apply p))

/-- The entry of a type in the list of intrinsic types. -/
def asIntrinsic? (t : TypeRecord) (i : Nat) : Option (String × TypeId) :=
  if t.kind = .intrinsic then some (t.text, ⟨i⟩) else none

theorem intrinsicsOf_push (types : Array TypeRecord) (t : TypeRecord) :
    intrinsicsOf (types.push t) = (asIntrinsic? t types.size).toList ++ intrinsicsOf types := by
  unfold intrinsicsOf asIntrinsic?
  rw [Array.toList_push, List.zipIdx_append, List.filterMap_append, List.reverse_append]
  split <;> simp_all

/-- A change between types that are not intrinsic does not show. -/
theorem filterMap_zipIdx_modify {types : List TypeRecord} {record : TypeRecord} {i : Nat}
    (hrecord : record.kind ≠ .intrinsic) (hi : ∀ t ∈ types[i]?, t.kind ≠ .intrinsic) (k : Nat) :
    ((types.modify i fun _ => record).zipIdx k).filterMap (fun e => asIntrinsic? e.1 e.2)
      = (types.zipIdx k).filterMap fun e => asIntrinsic? e.1 e.2 := by
  induction types generalizing i k with
  | nil => simp
  | cons t types ih =>
    cases i with
    | zero =>
      have ht : t.kind ≠ .intrinsic := hi t rfl
      simp [asIntrinsic?, hrecord, ht]
    | succ i => simp [List.filterMap_cons, ih (i := i) hi (k + 1)]

theorem intrinsicsOf_modify {types : Array TypeRecord} {record : TypeRecord} {i : Nat}
    (hrecord : record.kind ≠ .intrinsic) (hi : ∀ t ∈ types[i]?, t.kind ≠ .intrinsic) :
    intrinsicsOf (types.modify i fun _ => record) = intrinsicsOf types := by
  rw [← Array.getElem?_toList] at hi
  have hsame := filterMap_zipIdx_modify hrecord hi 0
  rw [← Array.toList_modify] at hsame
  exact congrArg List.reverse hsame

/-- The list of intrinsic types finds under every text what the table of types has under it. -/
def Interned (p : Program) : Prop :=
  ∀ text, p.intrinsics.find? (·.1 == text) = (intrinsicsOf p.types).find? (·.1 == text)

theorem interned_of_eq {p : Program} (h : p.intrinsics = intrinsicsOf p.types) : p.Interned := by
  intro text
  rw [h]

theorem interned_empty : empty.Interned := interned_of_eq rfl

namespace Interned

variable {p : Program}

theorem addType (h : p.Interned) {record : TypeRecord} (hrecord : record.kind ≠ .intrinsic) :
    (p.addType record).2.Interned := by
  intro text
  have hentry : asIntrinsic? record p.types.size = none := if_neg hrecord
  show p.intrinsics.find? _ = (intrinsicsOf (p.types.push record)).find? _
  rw [intrinsicsOf_push, hentry]
  exact h text

theorem intrinsic (h : p.Interned) (text : String) : (p.intrinsic text).2.Interned := by
  unfold Program.intrinsic
  split
  · exact h
  · intro other
    show List.find? _ ((text, ⟨p.types.size⟩) :: p.intrinsics)
      = List.find? _ (intrinsicsOf (p.types.push { text, kind := .intrinsic }))
    rw [intrinsicsOf_push]
    simp only [asIntrinsic?, if_true, Option.toList_some, List.singleton_append,
      List.find?_cons, h other]

/-- An edit keeps the list of intrinsic types right if it leaves these alone. -/
theorem edit (h : p.Interned) {e : Edit} (he : e.SparesIntrinsics p) : (e.apply p).Interned := by
  cases e with
  | addType record => exact h.addType he
  | literal value => exact h.addType nofun
  | union text members => exact h.addType nofun
  | typeParameter text => exact h.addType nofun
  | object text => exact h.addType nofun
  | intrinsic text => exact h.intrinsic text
  | putType type record =>
    intro text
    show p.intrinsics.find? _
      = (intrinsicsOf (p.types.modify type.index fun _ => record)).find? _
    rw [intrinsicsOf_modify he.1 he.2]
    exact h text
  | _ => exact h

theorem edited (h : p.Interned) {edits : List Edit} (hedits : p.SparesIntrinsics edits) :
    (p.edited edits).Interned := by
  induction edits generalizing p with
  | nil => exact h
  | cons e edits ih => exact ih (h.edit hedits.1) hedits.2

end Interned
end Program
end PortableTypes
