import PortableTypes.Proofs.Projection.Extension
import PortableTypes.Proofs.Session.History

/-!
# Answers and records that are added

What a session answers about the nodes and files of a program does not change when the program is
extended by other files, their nodes, and any symbols, types and signatures; and the keys in the
answer lead to the same properties.
-/
namespace PortableTypes

namespace Session

/-- The written key of a place in the store of a session. -/
def keyAt (s : Session) (place : Nat) : String := (StoreKey.mk s.store.generation place).text

/-- Two sessions over a closed program and one that extends it, with the same objects in their
stores. -/
structure Twins (s t : Session) : Prop where
  closed : s.program.Closed
  extension : t.program.Extends s.program
  entries : t.store.entries = s.store.entries
  objects : ∀ o ∈ s.store.entries.toList, s.program.properties o.type ≠ []

namespace Twins

variable {s t : Session}

theorem reset {s t : Session} (hclosed : s.program.Closed)
    (hextends : t.program.Extends s.program) :
    Twins (Session.reset s).session (Session.reset t).session where
  closed := hclosed
  extension := hextends
  entries := rfl
  objects := (honours_reset s).objects

/-- A projection that is the same in both programs gives the same but for the generation of the
keys. -/
theorem project (h : Twins s t) {α : Type} {P : α → Prop} {view : α → α}
    {x : Program → Projecting α} (hx : x t.program = x s.program)
    (hmirrors : Projecting.Mirrors (StoreKey.withGeneration t.store.generation) P view
      (x s.program) (x s.program))
    (hobjects : ∀ g n, ∀ o ∈ (x s.program g n).objects, s.program.properties o.type ≠ []) :
    (Asking.project x t).value = view (Asking.project x s).value ∧
      Twins (Asking.project x s).session (Asking.project x t).session := by
  have hsize : t.store.size = s.store.size := congrArg Array.size h.entries
  have hkeys := carries_withGeneration s.store.generation t.store.generation s.store.size
  have hobjects' : (x t.program t.store.generation t.store.size).objects =
      (x s.program s.store.generation s.store.size).objects := by
    rw [hx, hsize]
    exact hmirrors.objects hkeys
  refine ⟨?_, h.closed, h.extension, ?_, ?_⟩
  · show (x t.program t.store.generation t.store.size).value = _
    rw [hx, hsize]
    exact hmirrors.value hkeys
  · show t.store.entries ++ (x t.program t.store.generation t.store.size).objects =
      s.store.entries ++ (x s.program s.store.generation s.store.size).objects
    rw [h.entries, hobjects']
  · intro o ho
    simp only [Asking.project, Store.toList_entries_append, List.mem_append] at ho
    obtain ho | ho := ho
    · exact h.objects o ho
    · exact hobjects _ _ o ho

theorem lookup?_keyAt (h : Twins s t) (place : Nat) :
    t.store.lookup? (t.keyAt place) = s.store.lookup? (s.keyAt place) := by
  rw [keyAt, keyAt, Store.lookup?_own, Store.lookup?_own, h.entries]

/-- The properties behind the key of a place, live or not, are the same. -/
theorem properties (h : Twins s t) (place : Nat) :
    (Session.properties (t.keyAt place) t).value =
        (Session.properties (s.keyAt place) s).value.map
          (·.rekey (StoreKey.withGeneration t.store.generation)) ∧
      Twins (Session.properties (s.keyAt place) s).session
        (Session.properties (t.keyAt place) t).session := by
  have hlookup := h.lookup?_keyAt place
  cases hkey : s.store.lookup? (s.keyAt place) with
  | none =>
    rw [hkey] at hlookup
    rw [properties_of_lookup?_eq_none hkey, properties_of_lookup?_eq_none hlookup]
    exact ⟨rfl, h⟩
  | some object =>
    rw [hkey] at hlookup
    have hmem : object ∈ s.store.entries.toList := by
      rw [keyAt, Store.lookup?_own] at hkey
      split at hkey
      · exact Array.mem_toList_iff.mpr (Array.mem_of_getElem? hkey)
      · cases hkey
    have hbelow := Program.below_of_properties_ne_nil (h.objects object hmem)
    rw [properties_of_lookup?_eq_some hkey, properties_of_lookup?_eq_some hlookup]
    exact h.project (x := fun p => p.projectProperties object.type)
      (h.extension.projectProperties_eq h.closed hbelow)
      (s.program.mirrors_projectProperties _ object.type)
      (s.program.accounts_projectProperties object.type).objects

/-- The properties behind the keys of any places, asked for in order. -/
theorem each (h : Twins s t) (places : List Nat) :
    (Asking.each Session.properties (places.map t.keyAt) t).value =
      (Asking.each Session.properties (places.map s.keyAt) s).value.map
        (·.map (·.rekey (StoreKey.withGeneration t.store.generation))) := by
  induction places generalizing s t with
  | nil => rfl
  | cons place places ih =>
    obtain ⟨hvalue, hnext⟩ := h.properties place
    have hkeys (s : Session) (key : String) : (Session.properties key s).session.keyAt = s.keyAt := by
      funext i
      rw [keyAt, generation_properties, keyAt]
    have hrest := ih hnext
    rw [hkeys, hkeys, generation_properties] at hrest
    exact List.cons_eq_cons.mpr ⟨hvalue, hrest⟩

end Twins

/-! ## Questions -/

section

variable {s t : Session} (hclosed : s.program.Closed) (hextends : t.program.Extends s.program)
include hclosed hextends

theorem twins_typeOf {node : NodeId} (hnode : node.Below s.program.bounds) :
    (typeOf node t).value =
        (typeOf node s).value.rekey (StoreKey.withGeneration t.counter.next) ∧
      Twins (typeOf node s).session (typeOf node t).session := by
  have hsame : typeProjection node t.program = typeProjection node s.program := by
    simp only [typeProjection, hextends.typeAt_eq hclosed hnode,
      hextends.classify_eq hclosed _ (hclosed.typeAt node) (forall_mem_some hnode)]
  exact (Twins.reset hclosed hextends).project hsame (mirrors_typeOf ..)
    (accounts_typeOf s.program node).objects

theorem twins_declarations {fileName : String} (hname : s.program.Mentions fileName)
    (skipGenerics : Bool) :
    (declarations fileName skipGenerics t).value =
        (declarations fileName skipGenerics s).value.rekey
          (StoreKey.withGeneration t.counter.next) ∧
      Twins (declarations fileName skipGenerics s).session
        (declarations fileName skipGenerics t).session := by
  have haccounts : s.program.AccountsFor ⟨"", "", []⟩ (s.program.extract skipGenerics fileName) :=
    Program.accounts_extractFile ..
  exact (Twins.reset hclosed hextends).project (x := fun p => p.extract skipGenerics fileName)
    (hextends.extract_eq hclosed skipGenerics hname) (Program.mirrors_extractFile ..)
    haccounts.objects

theorem twins_reexports {node : NodeId} (hnode : node.Below s.program.bounds)
    (skipGenerics : Bool) :
    (reexports node skipGenerics t).value =
        (reexports node skipGenerics s).value.rekey (StoreKey.withGeneration t.counter.next) ∧
      Twins (reexports node skipGenerics s).session (reexports node skipGenerics t).session := by
  have haccounts : s.program.AccountsFor ⟨"", "", []⟩
      (s.program.extractExport skipGenerics node) :=
    Program.accounts_extractExport ..
  exact (Twins.reset hclosed hextends).project (x := fun p => p.extractExport skipGenerics node)
    (hextends.extractExport_eq hclosed skipGenerics hnode) (Program.mirrors_extractExport ..)
    haccounts.objects

end

theorem Honours.exists_keyAt {s : Session} {held : List ObjectLeaf} (h : s.Honours held) :
    ∀ leaf ∈ held, ∃ place, leaf.storeKey = s.keyAt place := by
  intro leaf hleaf
  obtain ⟨i, o, -, rfl⟩ := Program.mem_ledger (h.held hleaf)
  exact ⟨0 + i, rfl⟩

/-- A question about a node or a file of a program. -/
def Operation.IsAbout (p : Program) : Operation → Prop
  | .typeOf node | .reexports node _ => node.Below p.bounds
  | .declarations fileName _ | .typeUnder fileName _ => ∃ f ∈ p.files, f.name = fileName
  | .properties _ | .reset | .turnTo _ => False

/-- One session has a program whose handles all lead to records, the other a program that extends
it. Whatever was asked of each before, they answer a question about a node or a file of the first
program alike, but for the generation of the keys. All keys in the answer are keys of places in the
store; and unless the cursor was over nothing, the properties behind the keys of any places, asked
for in any order and any number of times, are the same in both sessions, but for the generation of
the keys. -/
theorem answer_unaffected_by_extension (s t : Session) (hclosed : s.program.Closed)
    (hextends : t.program.Extends s.program) (op : Operation) (hop : op.IsAbout s.program) :
    let a := perform op s
    let b := perform op t
    b.value = a.value.rekey (StoreKey.withGeneration b.session.store.generation) ∧
    (∀ leaf ∈ a.value.leaves, ∃ place, leaf.storeKey = a.session.keyAt place) ∧
    ((∀ e, a.value ≠ .named (.error e)) → ∀ places : List Nat,
      (Asking.each Session.properties (places.map b.session.keyAt) b.session).value =
        (Asking.each Session.properties (places.map a.session.keyAt) a.session).value.map
          (·.map (·.rekey (StoreKey.withGeneration b.session.store.generation)))) := by
  cases op with
  | typeOf node =>
    obtain ⟨hvalue, htwins⟩ := twins_typeOf hclosed hextends hop
    exact ⟨congrArg Reply.type hvalue, (honours_typeOf s node).exists_keyAt, fun _ => htwins.each⟩
  | declarations fileName skipGenerics =>
    obtain ⟨f, hf, hname⟩ := hop
    obtain ⟨hvalue, htwins⟩ :=
      twins_declarations hclosed hextends ⟨f, hf, .inl hname⟩ skipGenerics
    exact ⟨congrArg Reply.declarations hvalue,
      (honours_declarations s fileName skipGenerics).exists_keyAt, fun _ => htwins.each⟩
  | reexports node skipGenerics =>
    obtain ⟨hvalue, htwins⟩ := twins_reexports hclosed hextends hop skipGenerics
    exact ⟨congrArg Reply.declarations hvalue,
      (honours_reexports s node skipGenerics).exists_keyAt, fun _ => htwins.each⟩
  | typeUnder fileName position =>
    obtain ⟨f, hf, hname⟩ := hop
    have hsame := hextends.nodeUnder_eq hclosed ⟨f, hf, .inl hname⟩ position
    simp only [perform, bind, Asking.bind, pure, Asking.pure]
    cases hnode : s.program.nodeUnder fileName position with
    | error e =>
      rw [hnode] at hsame
      rw [typeUnder_of_error hnode, typeUnder_of_error hsame]
      exact ⟨rfl, List.forall_mem_nil _, fun hne => absurd rfl (hne e)⟩
    | ok node =>
      rw [hnode] at hsame
      have hbelow := Program.below_of_nodeUnder hnode
      obtain ⟨hvalue, htwins⟩ := twins_typeOf hclosed hextends hbelow
      rw [typeUnder_of_ok hnode, typeUnder_of_ok hsame, hextends.cursorName_eq hclosed hbelow,
        hvalue]
      exact ⟨rfl, (honours_typeOf s node).exists_keyAt, fun _ => htwins.each⟩
  | properties key => cases hop
  | reset => cases hop
  | turnTo program => cases hop

/-- A value of a type that contains itself; its name stands under two nodes, the deeper of which is
found. -/
def declared : Program :=
  { endless with
    files := #[{
      name := "a.ts", text := "let a: Node\n", statements := [⟨2⟩]
      modules := some (.ofList [("./c", "c.ts")]) }]
    nodes := endless.nodes ++ #[
      { file := ⟨0⟩, form := .variableDeclaration "a" none, span := some ⟨4, 5⟩, type := some ⟨0⟩ },
      { file := ⟨0⟩, form := .identifier "a", span := some ⟨4, 5⟩, parent := some ⟨2⟩,
        type := some ⟨1⟩ }] }

/-- The program with another file, whose node stands at the same place below the deeper node, and
with a symbol, a type and a signature more. -/
def declaredBeside : Program :=
  { declared with
    files := declared.files.push { name := "b.ts", text := "let b: Node\n", statements := [⟨4⟩, ⟨0⟩] }
    nodes := declared.nodes.push
      { file := ⟨1⟩, form := .identifier "b", span := some ⟨4, 5⟩, parent := some ⟨3⟩ }
    symbols := declared.symbols.push { name := "next", type := some ⟨2⟩ }
    types := declared.types.push { text := "string", kind := .intrinsic }
    signatures := #[{ parameters := [⟨1⟩], result := ⟨2⟩ }] }

theorem extends_declaredBeside : declaredBeside.Extends declared where
  files := ⟨_, rfl⟩
  nodes := ⟨_, rfl⟩
  symbols := ⟨_, rfl⟩
  types := ⟨_, rfl⟩
  signatures := ⟨_, rfl⟩
  names := by decide +kernel
  homes := by decide +kernel

/-- The other session has answered before, and its generations are others. -/
theorem answer_unaffected_by_extension_declared :
    let s := start declared .initial
    let t := (typeOf ⟨0⟩ (start declaredBeside ⟨7⟩)).session
    let op := Operation.typeUnder "a.ts" ⟨0, 4⟩
    s.program.Closed ∧ t.program.Extends s.program ∧ op.IsAbout s.program ∧
    (perform op s).value.leaves = [⟨"Node", "2-0", []⟩] ∧
    (perform op t).value = (perform op s).value.rekey (StoreKey.withGeneration 9) ∧
    (Asking.each Session.properties ["9-0", "9-1"] (perform op t).session).value =
      (Asking.each Session.properties ["2-0", "2-1"] (perform op s).session).value.map
        (·.map (·.rekey (StoreKey.withGeneration 9))) := by
  intro s t op
  have hclosed : s.program.Closed := ⟨by decide +kernel, by decide⟩
  have hextends : t.program.Extends s.program := extends_declaredBeside
  have hop : op.IsAbout s.program := by
    show ∃ f ∈ declared.files, f.name = "a.ts"
    decide
  have hleaves : (perform op s).value.leaves = [⟨"Node", "2-0", []⟩] := by decide +kernel
  obtain ⟨hvalue, -, hproperties⟩ := answer_unaffected_by_extension s t hclosed hextends op hop
  have hgeneration : (perform op t).session.store.generation = 9 := by decide +kernel
  have hfound (e : ProjectionError) : (perform op s).value ≠ .named (.error e) := by
    intro he
    rw [he] at hleaves
    cases hleaves
  have hkeys : [0, 1].map (perform op s).session.keyAt = ["2-0", "2-1"] := by decide +kernel
  have hkeys' : [0, 1].map (perform op t).session.keyAt = ["9-0", "9-1"] := by decide +kernel
  have hboth := hproperties hfound [0, 1]
  rw [hgeneration] at hvalue
  rw [hgeneration, hkeys, hkeys'] at hboth
  exact ⟨hclosed, hextends, hop, hleaves, hvalue, hboth⟩

end Session
end PortableTypes
