import PortableTypes.Proofs.Projection.Statements
import PortableTypes.Proofs.Session.History

/-!
# Declarations passed on from file to file

A file whose only statement takes one declaration from another file passes it on under a name of its
own. Along a row of such files a declaration comes from the last one to the first one, if there are
no more than 32 files; a longer row passes nothing on.
-/
namespace PortableTypes

theorem ExportItem.pick_singleton (item : ExportItem) (ds : List Declaration) :
    ExportItem.pick [item] ds = ((ds.find? (·.name == some item.sourceName)).map
      fun d => { d with name := some item.name }).toList := by
  cases h : ds.find? (·.name == some item.sourceName) with
  | none => simp [ExportItem.pick, h]
  | some d => simp [ExportItem.pick, h]

/-- What a row of export items makes of declarations, each taking from what the next one makes. -/
def ExportItem.passOn (item : Nat → ExportItem) : (hops : Nat) → List Declaration → List Declaration
  | 0, ds => ds
  | hops + 1, ds => ExportItem.pick [item 0] (passOn (fun i => item (i + 1)) hops ds)

/-- If each item takes the name that the next one gives, the last one finds the declaration and the
first one names it. -/
theorem ExportItem.passOn_succ {item : Nat → ExportItem} {hops : Nat}
    (hnames : ∀ i < hops, (item i).sourceName = (item (i + 1)).name) (ds : List Declaration) :
    passOn item (hops + 1) ds = ((ds.find? (·.name == some (item hops).sourceName)).map
      fun d => { d with name := some (item 0).name }).toList := by
  induction hops generalizing item with
  | zero => exact pick_singleton (item 0) ds
  | succ hops ih =>
    have hrest : ∀ i < hops, (item (i + 1)).sourceName = (item (i + 1 + 1)).name :=
      fun i hi => hnames (i + 1) (Nat.succ_lt_succ hi)
    rw [passOn, ih hrest, pick_singleton]
    cases ds.find? (·.name == some (item (hops + 1)).sourceName) with
    | none => rfl
    | some d => simp [hnames 0 (Nat.succ_pos hops)]

namespace Program

open Projecting

/-- The only statement of a file takes one declaration from another file. -/
def Relays (p : Program) (file : FileId) (item : ExportItem) (next : FileId) : Prop :=
  ∃ statement specifier target, p.statements file = [statement] ∧
    p.form? statement = some (.exportDeclaration (some specifier) (some (.named [item]))) ∧
    p.resolveModule file (unquoted specifier) = .resolved target ∧
    p.sourceFile? target = some next

section

variable {p : Program} {fileName : String} {file next : FileId} {item : ExportItem}

/-- A file that relays gives what can be picked from the next file, and nothing without room. -/
theorem value_extractFile_of_relays (hrelays : p.Relays file item next)
    (hfile : p.sourceFile? fileName = some file) {chain : List FileId}
    (hnew : next ∉ chain ++ [file]) (skipGenerics : Bool) (g : UInt32) (n : Nat) :
    ∃ target, p.sourceFile? target = some next ∧
      (p.extractFile skipGenerics 0 chain fileName g n).value = .ok [] ∧
      ∀ room ds, (p.extractFile skipGenerics room (chain ++ [file]) target g n).value = .ok ds →
        (p.extractFile skipGenerics (room + 1) chain fileName g n).value =
          .ok (ExportItem.pick [item] ds) := by
  obtain ⟨statement, specifier, target, hstatements, hform, hresolve, hnext⟩ := hrelays
  have hmodule := moduleTarget_eq_ok.mpr ⟨hresolve, hnext⟩
  have hvalue (room : Nat) : (p.extractFile skipGenerics room chain fileName g n).value =
      passedOver (p.extractReexport (p.inner skipGenerics room) (chain ++ [file]) file
        (some specifier) (some (.named [item])) g n).value := by
    rw [extractFile_of_sourceFile? hfile, hstatements]
    show (extractAll _ [statement] g n).value = _
    rw [value_extractAll_singleton, value_extractStatement_export hform]
  refine ⟨target, hnext, ?_, fun room ds hds => ?_⟩
  · rw [hvalue, extractReexport_of_ok hmodule, entry_of_not_mem hnew]
    rfl
  · have hentry : entry (p.inner skipGenerics (room + 1)) (chain ++ [file]) target next =
        some (p.extractFile skipGenerics room (chain ++ [file]) target) := entry_of_not_mem hnew
    rw [hvalue, extractReexport_of_ok hmodule, hentry]
    show passedOver (reexported (unquoted specifier) (some (.named [item]))
      (p.extractFile skipGenerics room (chain ++ [file]) target g n).value) = _
    rw [hds]
    rfl

/-- A file without export declarations gives the same wherever it is entered. -/
theorem value_extractFile_of_plain (hfile : p.sourceFile? fileName = some file)
    (hplain : ∀ statement ∈ p.statements file, ∀ specifier clause,
      p.form? statement ≠ some (.exportDeclaration specifier clause))
    (skipGenerics : Bool) (room room' : Nat) (chain chain' : List FileId) (g : UInt32) (n : Nat) :
    (p.extractFile skipGenerics room chain fileName g n).value =
      (p.extractFile skipGenerics room' chain' fileName g n).value := by
  rw [extractFile_of_sourceFile? hfile, extractFile_of_sourceFile? hfile]
  show (extractAll _ _ g n).value = (extractAll _ _ g n).value
  rw [extractAll_congr fun statement hstatement =>
    extractStatement_of_not_export (hplain statement hstatement) ..]

/-- Along a row of files that relay, the last file's declarations are passed on if there is room for
the files behind the first one. -/
theorem value_extractFile_of_row {lastName : String} {last : FileId}
    (hlast : p.sourceFile? lastName = some last)
    (hplain : ∀ statement ∈ p.statements last, ∀ specifier clause,
      p.form? statement ≠ some (.exportDeclaration specifier clause))
    {skipGenerics : Bool} {g : UInt32} {n : Nat} {ds : List Declaration}
    (hds : (p.extract skipGenerics lastName g n).value = .ok ds) {hops : Nat} {file : Nat → FileId}
    {item : Nat → ExportItem} (hend : file hops = last)
    (hrelays : ∀ i < hops, p.Relays (file i) (item i) (file (i + 1)))
    (hdistinct : ∀ i ≤ hops, ∀ j ≤ hops, file i = file j → i = j) {chain : List FileId}
    (hfresh : ∀ i ≤ hops, file i ∉ chain) (hfile : p.sourceFile? fileName = some (file 0))
    (room : Nat) :
    (p.extractFile skipGenerics room chain fileName g n).value =
      .ok (if hops ≤ room then ExportItem.passOn item hops ds else []) := by
  -- on the number of files behind the first; the row from the second file on has one less
  induction hops generalizing file item chain fileName room with
  | zero =>
    subst hend
    have hname : fileName = lastName :=
      Option.some.inj ((fileName?_of_sourceFile? hfile).symm.trans (fileName?_of_sourceFile? hlast))
    subst hname
    rw [if_pos (Nat.zero_le room)]
    exact (value_extractFile_of_plain hfile hplain ..).trans hds
  | succ hops ih =>
    have hnew (i : Nat) (hi : i ≤ hops) : file (i + 1) ∉ chain ++ [file 0] := by
      intro hmem
      obtain hmem | hmem := List.mem_append.mp hmem
      · exact hfresh (i + 1) (Nat.succ_le_succ hi) hmem
      · have hsame := hdistinct (i + 1) (Nat.succ_le_succ hi) 0 (Nat.zero_le _)
          (List.mem_singleton.mp hmem)
        omega
    obtain ⟨target, htarget, hnoRoom, hroom⟩ := value_extractFile_of_relays
      (hrelays 0 (Nat.succ_pos hops)) hfile (hnew 0 (Nat.zero_le hops)) skipGenerics g n
    cases room with
    | zero => simpa using hnoRoom
    | succ room =>
      have hbehind : (p.extractFile skipGenerics room (chain ++ [file 0]) target g n).value =
          .ok (if hops ≤ room then ExportItem.passOn (fun i => item (i + 1)) hops ds else []) := by
        refine ih hend (fun i hi => hrelays (i + 1) (Nat.succ_lt_succ hi)) ?_ hnew htarget room
        intro i hi j hj hsame
        exact Nat.succ.inj
          (hdistinct (i + 1) (Nat.succ_le_succ hi) (j + 1) (Nat.succ_le_succ hj) hsame)
      rw [hroom room _ hbehind]
      by_cases hle : hops ≤ room
      · rw [if_pos hle, if_pos (Nat.succ_le_succ hle)]
        rfl
      · rw [if_neg hle, if_neg (fun h => hle (Nat.le_of_succ_le_succ h))]
        rfl

end
end Program

namespace Session

/-- In a row of at least two different files, each but the last one only takes one declaration from
the next, by the name that the next one gives it, and the last one has no export declarations. Then
the first file gives, under the name of the first export declaration, what the question for the last
file's declarations gives first by the name that the one before it takes, with the same type under
the same key but for the generation. If there is no such declaration, or if there are more than 32
files, it gives nothing. -/
theorem declarations_relayed (s t : Session) (hprogram : s.program = t.program) (skipGenerics : Bool)
    (k : Nat) (hk : 2 ≤ k) (file : Nat → FileId) (item : Nat → ExportItem)
    (hdistinct : ∀ i < k, ∀ j < k, file i = file j → i = j)
    (hrelays : ∀ i, i + 1 < k → s.program.Relays (file i) (item i) (file (i + 1)))
    (hnames : ∀ i, i + 2 < k → (item i).sourceName = (item (i + 1)).name) (first last : String)
    (hfirst : s.program.sourceFile? first = some (file 0))
    (hlast : s.program.sourceFile? last = some (file (k - 1)))
    (hplain : ∀ statement ∈ s.program.statements (file (k - 1)), ∀ specifier clause,
      s.program.form? statement ≠ some (.exportDeclaration specifier clause))
    (ds : List Declaration) (hds : (declarations last skipGenerics s).value = .ok ds) :
    (declarations first skipGenerics t).value = .ok (if k ≤ 32 then
      ((ds.find? fun d => d.name == some (item (k - 2)).sourceName).map fun d =>
        { name := some (item 0).name
          type := d.type.rekey (StoreKey.withGeneration
            (declarations first skipGenerics t).session.store.generation) }).toList
      else []) := by
  obtain ⟨hops, rfl⟩ := Nat.exists_eq_add_of_le' hk
  have hrow : (declarations first skipGenerics s).value =
      .ok (if hops + 1 ≤ Program.maxChain - 1 then ExportItem.passOn item (hops + 1) ds else []) :=
    Program.value_extractFile_of_row hlast hplain hds rfl
      (fun i hi => hrelays i (Nat.succ_lt_succ hi))
      (fun i hi j hj => hdistinct i (Nat.lt_succ_of_le hi) j (Nat.lt_succ_of_le hj))
      (fun _ _ => List.not_mem_nil) hfirst (Program.maxChain - 1)
  rw [ExportItem.passOn_succ fun i hi => hnames i (Nat.add_lt_add_right hi 2)] at hrow
  rw [value_declarations hprogram, hrow]
  by_cases hle : hops + 2 ≤ 32
  · have hroom : hops + 1 ≤ Program.maxChain - 1 := Nat.le_of_succ_le_succ hle
    rw [if_pos hroom, if_pos hle]
    rw [Nat.add_sub_cancel]
    cases ds.find? fun d => d.name == some (item hops).sourceName with
    | none => rfl
    | some d => rfl
  · have hroom : ¬ hops + 1 ≤ Program.maxChain - 1 := fun h => hle (Nat.succ_le_succ h)
    rw [if_neg hroom, if_neg hle]
    rfl

/-- The export declaration of a file in a row takes what the next file gives by its number. -/
def rowItem (i : Nat) : ExportItem := ⟨toString i, some (toString (i + 1))⟩

/-- Files 0 to 32, each but the last one passing on what the next one gives. -/
def row : Program :=
  { files := ((List.range 33).map fun i =>
      { name := toString i, text := "", statements := [⟨i⟩],
        modules := some (.ofList [("./next", toString (i + 1))]) }).toArray
    nodes := ((List.range 32).map fun i =>
      { file := ⟨i⟩
        form := .exportDeclaration (some "'./next'") (some (.named [rowItem i])) : Node }).toArray.push
      { file := ⟨32⟩, form := .interface "32" true, declares := some ⟨0⟩, type := some ⟨1⟩ }
    symbols := #[{ name := "32" }, { name := "size" }]
    types := #[.error, { text := "X", kind := .object, properties := [⟨1⟩] }] }

/-- From the second file on there are 32 files, which is not too many; from the first one on there
is one more. -/
theorem declarations_relayed_row :
    let s := start row .initial
    (∀ i < 32, row.Relays ⟨i⟩ (rowItem i) ⟨i + 1⟩) ∧
    (∃ ds, (declarations "32" true s).value = .ok ds ∧ ds.map (·.name) = [some "32"] ∧
      (declarations "1" true s).value = .ok ((ds.find? fun d => d.name == some "32").map fun d =>
        { name := some "1", type := d.type.rekey (StoreKey.withGeneration 2) }).toList) ∧
    (declarations "1" true s).value.types.flatMap (·.leaves) = [⟨"X", "2-0", []⟩] ∧
    (declarations "0" true s).value = .ok [] := by
  intro s
  have hrow : ∀ i < 32, row.statements ⟨i⟩ = [⟨i⟩] ∧
      row.form? ⟨i⟩ =
        some (.exportDeclaration (some "'./next'") (some (.named [rowItem i]))) ∧
      row.resolveModule ⟨i⟩ (unquoted "'./next'") = .resolved (toString (i + 1)) ∧
      row.sourceFile? (toString (i + 1)) = some ⟨i + 1⟩ := by
    decide +kernel
  have hrelays (i : Nat) (hi : i < 32) : row.Relays ⟨i⟩ (rowItem i) ⟨i + 1⟩ :=
    ⟨⟨i⟩, "'./next'", toString (i + 1), hrow i hi⟩
  have hlast : row.sourceFile? "32" = some ⟨32⟩ := by decide +kernel
  have hplain : ∀ statement ∈ row.statements ⟨32⟩, ∀ specifier clause,
      row.form? statement ≠ some (.exportDeclaration specifier clause) := by
    have hstatements : row.statements ⟨32⟩ = [⟨32⟩] := by decide +kernel
    have hform : row.form? ⟨32⟩ = some (.interface "32" true) := by decide +kernel
    intro statement hstatement specifier clause
    rw [hstatements, List.mem_singleton] at hstatement
    rw [hstatement, hform]
    exact nofun
  have hsecond (ds : List Declaration) (hds : (declarations "32" true s).value = .ok ds) :=
    declarations_relayed s s rfl true 32 (by decide) (fun i => ⟨i + 1⟩) (fun i => rowItem (i + 1))
      (fun i _ j _ h => Nat.succ.inj (congrArg FileId.index h))
      (fun i hi => hrelays (i + 1) hi) (fun _ _ => rfl) "1" "32" (by decide +kernel) hlast hplain ds
      hds
  have hfirst (ds : List Declaration) (hds : (declarations "32" true s).value = .ok ds) :=
    declarations_relayed s s rfl true 33 (by decide) FileId.mk rowItem
      (fun i _ j _ h => congrArg FileId.index h)
      (fun i hi => hrelays i (Nat.lt_of_succ_lt_succ hi)) (fun _ _ => rfl) "0" "32"
      (by decide +kernel) hlast hplain ds hds
  have hgeneration : (declarations "1" true s).session.store.generation = 2 := by decide +kernel
  rw [hgeneration] at hsecond
  exact ⟨hrelays, ⟨_, rfl, by decide +kernel, hsecond _ rfl⟩, by decide +kernel, hfirst _ rfl⟩

end Session
end PortableTypes
