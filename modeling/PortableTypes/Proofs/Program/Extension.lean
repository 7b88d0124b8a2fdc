import PortableTypes.Proofs.Program.Handles
import PortableTypes.Proofs.Program.NodeAt

/-!
# Programs with more in their tables

A program whose handles all lead to records can have records added behind those it has, in files of
their own. A question about one of its own handles, names or offsets is answered as before: what is
looked up is found in the same place, and what is searched for is not found among the new records.
-/
namespace PortableTypes

/-! ## Parts of a record -/

section

variable {α β : Type} {P : β → Prop} {o : Option α}

theorem forall_mem_bind {f : α → Option β} (h : ∀ a, o = some a → ∀ b ∈ f a, P b) :
    ∀ b ∈ o.bind f, P b := by
  intro b hb
  obtain ⟨a, ha, hb⟩ := Option.bind_eq_some_iff.mp hb
  exact h a ha b hb

theorem forall_mem_getD_map {f : α → List β} (h : ∀ a, o = some a → ∀ b ∈ f a, P b) :
    ∀ b ∈ (o.map f).getD [], P b := by
  cases ho : o with
  | none => exact List.forall_mem_nil _
  | some a => exact h a ho

end

theorem Form.mem_nodes_of_mem_typeNode? {form : Form} {node : NodeId}
    (h : node ∈ form.typeNode?) : node ∈ form.nodes := by
  cases form <;> simp_all [Form.typeNode?, Form.nodes]

namespace Program

/-- Every handle in the tables leads to a record, and so does the handle that stands for every type
that is not known. -/
structure Closed (p : Program) : Prop where
  below : p.Below p.bounds
  error : TypeId.error.Below p.bounds

namespace Closed

variable {p : Program} (hp : p.Closed)
include hp

theorem file {id : FileId} {f : SourceFile} (h : p.file? id = some f) : f.Below p.bounds :=
  hp.below.files f (Array.mem_of_getElem? h)

theorem node {id : NodeId} {n : Node} (h : p.node? id = some n) : n.Below p.bounds :=
  hp.below.nodes n (Array.mem_of_getElem? h)

theorem symbol {id : SymbolId} {s : Symbol} (h : p.symbol? id = some s) : s.Below p.bounds :=
  hp.below.symbols s (Array.mem_of_getElem? h)

theorem type {id : TypeId} {t : TypeRecord} (h : p.type? id = some t) : t.Below p.bounds :=
  hp.below.types t (Array.mem_of_getElem? h)

theorem signature {id : SignatureId} {s : Signature} (h : p.signature? id = some s) :
    s.Below p.bounds :=
  hp.below.signatures s (Array.mem_of_getElem? h)

theorem typeOrError (type : Option TypeId) : (p.typeOrError type).Below p.bounds := by
  unfold Program.typeOrError
  cases hfilter : type.filter fun t => t.index < p.types.size with
  | none => exact hp.error
  | some t =>
    obtain ⟨-, hlt⟩ := Option.filter_eq_some_iff.mp hfilter
    exact of_decide_eq_true hlt

theorem typeAt (node : NodeId) : (p.typeAt node).Below p.bounds := hp.typeOrError _

theorem typeOfSymbol (symbol : SymbolId) : (p.typeOfSymbol symbol).Below p.bounds :=
  hp.typeOrError _

theorem declaredType (symbol : SymbolId) : (p.declaredType symbol).Below p.bounds :=
  hp.typeOrError _

theorem resultType (signature : SignatureId) : (p.resultType signature).Below p.bounds :=
  hp.typeOrError _

theorem statements (file : FileId) : ∀ n ∈ p.statements file, n.Below p.bounds :=
  forall_mem_getD_map fun _ h => (hp.file h).statements

theorem nodeFile? (node : NodeId) : ∀ file ∈ p.nodeFile? node, file.Below p.bounds := by
  intro file hfile
  obtain ⟨n, hn, rfl⟩ := Option.map_eq_some_iff.mp hfile
  exact (hp.node hn).file

theorem parent? (node : NodeId) : ∀ n ∈ p.parent? node, n.Below p.bounds :=
  forall_mem_bind fun _ h => (hp.node h).parent

theorem declares? (node : NodeId) : ∀ s ∈ p.declares? node, s.Below p.bounds :=
  forall_mem_bind fun _ h => (hp.node h).declares

theorem refersTo? (node : NodeId) : ∀ s ∈ p.refersTo? node, s.Below p.bounds :=
  forall_mem_bind fun _ h => (hp.node h).refersTo

theorem form? {node : NodeId} {form : Form} (h : p.form? node = some form) :
    ∀ n ∈ form.nodes, n.Below p.bounds := by
  obtain ⟨n, hn, rfl⟩ := Option.map_eq_some_iff.mp h
  exact (hp.node hn).form

theorem declarations (symbol : SymbolId) : ∀ n ∈ p.declarations symbol, n.Below p.bounds :=
  forall_mem_getD_map fun _ h => (hp.symbol h).declarations

theorem valueDeclaration? (symbol : SymbolId) :
    ∀ n ∈ p.valueDeclaration? symbol, n.Below p.bounds :=
  forall_mem_bind fun _ h => (hp.symbol h).valueDeclaration

theorem exports (symbol : SymbolId) : ∀ s ∈ p.exports symbol, s.Below p.bounds :=
  forall_mem_getD_map fun _ h => (hp.symbol h).exports

theorem mappedTemplate? (symbol : SymbolId) : ∀ t ∈ p.mappedTemplate? symbol, t.Below p.bounds :=
  forall_mem_bind fun _ h => (hp.symbol h).mappedTemplate

theorem constituents? {type : TypeId} {members : List TypeId}
    (h : p.constituents? type = some members) : ∀ t ∈ members, t.Below p.bounds := by
  obtain ⟨t, ht, hkind⟩ := Option.bind_eq_some_iff.mp h
  have hmembers := (hp.type ht).members
  cases hunion : t.kind <;> simp only [hunion, reduceCtorEq, Option.some.injEq] at hkind
  rw [hunion] at hmembers
  exact hkind ▸ hmembers

theorem symbolOf? (type : TypeId) : ∀ s ∈ p.symbolOf? type, s.Below p.bounds :=
  forall_mem_bind fun _ h => (hp.type h).symbol

theorem aliasSymbol? (type : TypeId) : ∀ s ∈ p.aliasSymbol? type, s.Below p.bounds :=
  forall_mem_bind fun _ h => (hp.type h).aliasSymbol

theorem aliasArguments (type : TypeId) : ∀ t ∈ p.aliasArguments type, t.Below p.bounds :=
  forall_mem_getD_map fun _ h => (hp.type h).aliasArguments

theorem typeArguments (type : TypeId) : ∀ t ∈ p.typeArguments type, t.Below p.bounds :=
  forall_mem_getD_map fun _ h => (hp.type h).arguments

theorem origin? (type : TypeId) : ∀ n ∈ p.origin? type, n.Below p.bounds :=
  forall_mem_bind fun _ h => (hp.type h).origin

theorem properties (type : TypeId) : ∀ s ∈ p.properties type, s.Below p.bounds :=
  forall_mem_getD_map fun _ h => (hp.type h).properties

theorem callSignatures (type : TypeId) : ∀ s ∈ p.callSignatures type, s.Below p.bounds :=
  forall_mem_getD_map fun _ h => (hp.type h).callSignatures

theorem parameters (signature : SignatureId) : ∀ s ∈ p.parameters signature, s.Below p.bounds :=
  forall_mem_getD_map fun _ h => (hp.signature h).parameters

end Closed

theorem below_of_properties_ne_nil {p : Program} {type : TypeId}
    (h : p.properties type ≠ []) : type.Below p.bounds := by
  apply Nat.lt_of_not_le
  intro hle
  have hnone : p.type? type = none := Array.getElem?_eq_none hle
  exact h (by simp [Program.properties, hnone])

theorem below_of_sourceFile? {p : Program} {name : String} {file : FileId}
    (h : p.sourceFile? name = some file) : file.Below p.bounds := by
  obtain ⟨i, hi, rfl⟩ := Option.map_eq_some_iff.mp h
  have hlt := (List.findIdx?_eq_some_iff_findIdx_eq.mp hi).1
  show i < p.files.size
  simpa using hlt

theorem below_of_mem_candidates {p : Program} {file : FileId} {offset : Nat} {c : Candidate}
    (h : c ∈ p.candidates file offset) :
    c.node.Below p.bounds ∧ c.depth = p.depthOf c.node := by
  rw [candidates_eq_filterMap] at h
  obtain ⟨x, hmem, hc⟩ := List.mem_filterMap.mp h
  have hi : x.2 < p.nodes.size := by simpa using (List.mem_zipIdx' hmem).1
  obtain ⟨_, -, -, -, rfl⟩ := candidate?_eq_some_iff.mp hc
  exact ⟨hi, rfl⟩

theorem below_of_nodeAt? {p : Program} {file : FileId} {offset : Nat} {node : NodeId}
    (h : p.nodeAt? file offset = some node) : node.Below p.bounds := by
  obtain ⟨c, hc, rfl⟩ := Option.map_eq_some_iff.mp h
  exact (below_of_mem_candidates (Candidate.mem_of_mem_best hc)).1

/-! ## Names -/

/-- A name of a file, or of what a module specifier leads to. -/
def Mentions (p : Program) (name : String) : Prop :=
  ∃ f ∈ p.files, f.name = name ∨ ∃ table ∈ f.modules, ∃ entry ∈ table.entries, entry.2 = name

instance (p : Program) (name : String) : Decidable (p.Mentions name) :=
  inferInstanceAs (Decidable (∃ f ∈ p.files, f.name = name ∨
    ∃ table ∈ f.modules, ∃ entry ∈ table.entries, entry.2 = name))

theorem mentions_of_fileName? {p : Program} {file : FileId} {name : String}
    (h : p.fileName? file = some name) : p.Mentions name := by
  obtain ⟨f, hf, hname⟩ := Option.map_eq_some_iff.mp h
  exact ⟨f, Array.mem_of_getElem? hf, .inl hname⟩

theorem mentions_of_resolveModule {p : Program} {file : FileId} {specifier target : String}
    (h : p.resolveModule file specifier = .resolved target) : p.Mentions target := by
  unfold resolveModule at h
  split at h
  · cases h
  · rename_i table htable
    obtain ⟨f, hf, htable⟩ := Option.bind_eq_some_iff.mp htable
    split at h <;> cases h
    rename_i htarget
    obtain ⟨entry, hentry, hname⟩ := Option.map_eq_some_iff.mp htarget
    exact ⟨f, Array.mem_of_getElem? hf, .inr ⟨table, htable, entry, List.mem_of_find?_eq_some hentry,
      hname⟩⟩

/-! ## Extension -/

/-- The program `q` has the records of `p` and behind them more: files under names that `p` does not
mention, nodes of such files, and any symbols, types and signatures. -/
structure Extends (q p : Program) : Prop where
  files : p.files.toList <+: q.files.toList
  nodes : p.nodes.toList <+: q.nodes.toList
  symbols : p.symbols.toList <+: q.symbols.toList
  types : p.types.toList <+: q.types.toList
  signatures : p.signatures.toList <+: q.signatures.toList
  names : ∀ f ∈ q.files.toList.drop p.files.size, ¬p.Mentions f.name
  homes : ∀ n ∈ q.nodes.toList.drop p.nodes.size, p.files.size ≤ n.file.index

theorem getElem?_of_prefix {α : Type} {xs ys : Array α} (h : xs.toList <+: ys.toList) {i : Nat}
    (hi : i < xs.size) : ys[i]? = xs[i]? := by
  obtain ⟨more, hmore⟩ := h
  rw [← Array.getElem?_toList, ← hmore, List.getElem?_append_left (by simpa using hi),
    Array.getElem?_toList]

namespace Extends

variable {p q : Program} (h : q.Extends p)
include h

theorem file?_eq {id : FileId} (hid : id.Below p.bounds) : q.file? id = p.file? id :=
  getElem?_of_prefix h.files hid

theorem node?_eq {id : NodeId} (hid : id.Below p.bounds) : q.node? id = p.node? id :=
  getElem?_of_prefix h.nodes hid

theorem symbol?_eq {id : SymbolId} (hid : id.Below p.bounds) : q.symbol? id = p.symbol? id :=
  getElem?_of_prefix h.symbols hid

theorem type?_eq {id : TypeId} (hid : id.Below p.bounds) : q.type? id = p.type? id :=
  getElem?_of_prefix h.types hid

theorem signature?_eq {id : SignatureId} (hid : id.Below p.bounds) :
    q.signature? id = p.signature? id :=
  getElem?_of_prefix h.signatures hid

theorem types_size_le : p.types.size ≤ q.types.size := by
  simpa using h.types.length_le

theorem nodes_size_le : p.nodes.size ≤ q.nodes.size := by
  simpa using h.nodes.length_le

/-- A name that the program mentions leads to the same file, or to none. -/
theorem sourceFile?_eq {name : String} (hname : p.Mentions name) :
    q.sourceFile? name = p.sourceFile? name := by
  obtain ⟨more, hmore⟩ := h.files
  have hnew : more = q.files.toList.drop p.files.size := by simp [← hmore]
  have hnone : more.findIdx? (·.name == name) = none := by
    rw [List.findIdx?_eq_none_iff]
    intro f hf
    have hne : f.name ≠ name := fun heq => h.names f (hnew ▸ hf) (heq ▸ hname)
    simpa using hne
  rw [sourceFile?, sourceFile?, ← hmore, List.findIdx?_append, hnone, Option.map_none, Option.or_none]

theorem resolveModule_eq {file : FileId} (hfile : file.Below p.bounds) (specifier : String) :
    q.resolveModule file specifier = p.resolveModule file specifier := by
  simp only [resolveModule, h.file?_eq hfile]

/-- The nodes of a file at an offset are the same, and only their depths may be others. -/
theorem candidates_eq {file : FileId} (hfile : file.Below p.bounds) (offset : Nat) :
    q.candidates file offset =
      (p.candidates file offset).map fun c => { c with depth := q.depthOf c.node } := by
  obtain ⟨more, hmore⟩ := h.nodes
  have hnew : more = q.nodes.toList.drop p.nodes.size := by simp [← hmore]
  have hnone (k : Nat) : (more.zipIdx k).filterMap (q.candidate? file offset) = [] := by
    rw [List.filterMap_eq_nil_iff]
    rintro ⟨n, i⟩ hn
    have hhome := h.homes n (hnew ▸ List.fst_mem_of_mem_zipIdx hn)
    have hne : n.file ≠ file := by
      rintro rfl
      exact Nat.not_lt.mpr hhome hfile
    simp only [candidate?, hne, decide_false, Bool.false_and]
    split <;> rfl
  have hsame (x : Node × Nat) : q.candidate? file offset x =
      (p.candidate? file offset x).map fun c => { c with depth := q.depthOf c.node } := by
    unfold candidate?
    split
    · split <;> rfl
    · rfl
  rw [candidates_eq_filterMap, ← hmore, List.zipIdx_append, List.filterMap_append, hnone,
    List.append_nil, candidates_eq_filterMap, List.map_filterMap]
  exact List.filterMap_congr fun x _ => hsame x

theorem typeOrError_eq {type : Option TypeId} (ht : ∀ t ∈ type, t.Below p.bounds) :
    q.typeOrError type = p.typeOrError type := by
  cases type with
  | none => rfl
  | some t =>
    have hlt : t.index < p.types.size := ht t rfl
    have hlt' := Nat.lt_of_lt_of_le hlt h.types_size_le
    simp [typeOrError, Option.filter, hlt, hlt']

/-! ### Closed programs -/

variable (hp : p.Closed)
include hp

theorem typeAt_eq {node : NodeId} (hnode : node.Below p.bounds) : q.typeAt node = p.typeAt node := by
  rw [typeAt, h.node?_eq hnode]
  exact h.typeOrError_eq (forall_mem_bind fun _ hn => (hp.node hn).type)

theorem typeOfSymbol_eq {symbol : SymbolId} (hsymbol : symbol.Below p.bounds) :
    q.typeOfSymbol symbol = p.typeOfSymbol symbol := by
  rw [typeOfSymbol, h.symbol?_eq hsymbol]
  exact h.typeOrError_eq (forall_mem_bind fun _ hs => (hp.symbol hs).type)

theorem declaredType_eq {symbol : SymbolId} (hsymbol : symbol.Below p.bounds) :
    q.declaredType symbol = p.declaredType symbol := by
  rw [declaredType, h.symbol?_eq hsymbol]
  exact h.typeOrError_eq (forall_mem_bind fun _ hs => (hp.symbol hs).declaredType)

theorem resultType_eq {signature : SignatureId} (hsignature : signature.Below p.bounds) :
    q.resultType signature = p.resultType signature := by
  rw [resultType, h.signature?_eq hsignature]
  refine h.typeOrError_eq fun t ht => ?_
  obtain ⟨s, hs, rfl⟩ := Option.map_eq_some_iff.mp ht
  exact (hp.signature hs).result

theorem ancestors_eq (limit : Nat) {node : NodeId} (hnode : node.Below p.bounds) :
    q.ancestors limit node = p.ancestors limit node := by
  induction limit generalizing node with
  | zero => rfl
  | succ limit ih =>
    have hparent : q.parent? node = p.parent? node := by rw [parent?, h.node?_eq hnode, parent?]
    simp only [ancestors, hparent]
    split
    · rename_i parent heq
      rw [ih (hp.parent? node parent heq)]
    · rfl

theorem nodeAt?_eq {file : FileId} (hfile : file.Below p.bounds) (offset : Nat) :
    q.nodeAt? file offset = p.nodeAt? file offset := by
  have hbetter : ∀ a ∈ p.candidates file offset, ∀ b ∈ p.candidates file offset,
      Candidate.better { a with depth := q.depthOf a.node } { b with depth := q.depthOf b.node } =
        a.better b := by
    intro a ha b hb
    obtain ⟨hbelow, hdepth⟩ := below_of_mem_candidates ha
    obtain ⟨hbelow', hdepth'⟩ := below_of_mem_candidates hb
    have hlt := ancestors_lt_ancestors_iff (p := p) (a := b.node) (b := a.node)
      (Nat.lt_succ_of_le h.nodes_size_le)
    rw [← h.ancestors_eq hp _ hbelow, ← h.ancestors_eq hp _ hbelow', ← hdepth, ← hdepth'] at hlt
    simp only [Candidate.better, depthOf, hlt]
  rw [nodeAt?, h.candidates_eq hfile, Candidate.best_map hbetter, Option.map_map, nodeAt?]
  rfl

end Extends
end Program
end PortableTypes
