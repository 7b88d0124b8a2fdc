import Mathlib.Data.List.Perm.Subperm
import PortableTypes.Proofs.Projection.Failures
import PortableTypes.Proofs.Session.History

/-!
# Asking for declarations and re-exports

A question for the declarations of a file is answered, unless there is no such file, or a variable
statement without variables lies on a route of at most 32 files from it. A re-export gives what the
question for the module's own declarations gives, under the exported names.
-/
namespace PortableTypes

namespace Program

theorem sourceFile?_eq_none {p : Program} {fileName : String} :
    p.sourceFile? fileName = none ↔ ∀ file ∈ p.files, file.name ≠ fileName := by
  simp [sourceFile?]

theorem extract_of_none {p : Program} {skipGenerics : Bool} {fileName : String}
    (h : p.sourceFile? fileName = none) :
    p.extract skipGenerics fileName = Pure.pure (.error (.fileNotFound fileName)) := by
  unfold extract
  rw [extractFile_eq, extractNamed, h]

/-- From the first file of a name, a way of at most 32 different files, each taking from the next,
comes to a variable statement without variables. -/
def FaultInReach (p : Program) (skipGenerics : Bool) (fileName : String) : Prop :=
  ∃ file rest, p.sourceFile? fileName = some file ∧ (file :: rest).IsChain p.TakesFrom ∧
    (file :: rest).Nodup ∧ (file :: rest).length ≤ 32 ∧
    ∃ last ∈ (file :: rest).getLast?, p.HasEmptyStatement skipGenerics last

theorem faultInReach_iff {p : Program} {skipGenerics : Bool} {fileName : String} {file : FileId}
    (hfile : p.sourceFile? fileName = some file) :
    p.FaultInReach skipGenerics fileName ↔ p.MeetsFault skipGenerics (maxChain - 1) [] file := by
  constructor
  · rintro ⟨first, rest, hfirst, hlinked, hnodup, hlength, hlast⟩
    obtain rfl : first = file := Option.some.inj (hfirst.symm.trans hfile)
    exact ⟨rest, ⟨hlinked, hnodup, fun _ _ => List.not_mem_nil⟩, Nat.le_of_succ_le_succ hlength,
      hlast⟩
  · rintro ⟨rest, hroute, hlength, hlast⟩
    exact ⟨file, rest, hfile, hroute.linked, hroute.nodup, Nat.succ_le_succ hlength, hlast⟩

/-- A file that no route leads back to is no obstacle on the routes of another, and with at most 31
files on each there is room for them after it. -/
theorem openAlike_of_apart {p : Program} {file other : FileId} (hne : file ≠ other)
    (hapart : ∀ rest, (file :: rest).IsChain p.TakesFrom → other ∉ rest)
    (hshort : ∀ rest, (file :: rest).IsChain p.TakesFrom → (file :: rest).Nodup →
      (file :: rest).length ≤ 31) :
    p.OpenAlike file [] [other] (maxChain - 1) (maxChain - 2) where
  fresh := List.not_mem_nil
  routes rest := by
    constructor
    · intro h
      refine ⟨h.linked, h.nodup, fun f hf hmem => ?_⟩
      obtain rfl := List.mem_singleton.mp hmem
      obtain rfl | hf := List.mem_cons.mp hf
      · exact hne rfl
      · exact hapart rest h.linked hf
    · intro h
      exact ⟨h.linked, h.nodup, fun _ _ => List.not_mem_nil⟩
  room rest h := by
    have hlength := hshort rest h.linked h.nodup
    simp only [List.length_cons, maxChain] at hlength ⊢
    omega

/-- An export declaration that leads to a file other than its own enters that file. -/
theorem extractExport_of_resolved {p : Program} {node : NodeId} {file other : FileId}
    {specifier target : String} {clause : Option ExportClause} (hnode : p.nodeFile? node = some file)
    (hform : p.form? node = some (.exportDeclaration (some specifier) clause))
    (hresolve : p.resolveModule file (unquoted specifier) = .resolved target)
    (htarget : p.sourceFile? target = some other) (hne : other ≠ file) (skipGenerics : Bool) :
    p.extractExport skipGenerics node =
      reexported (unquoted specifier) clause <$>
        p.extractFile skipGenerics (maxChain - 2) [file] target := by
  have hname : ∃ fileName, p.fileName? file = some fileName := by
    unfold resolveModule at hresolve
    cases hfile : p.file? file with
    | none => simp [hfile] at hresolve
    | some f => exact ⟨f.name, by simp [fileName?, hfile]⟩
  obtain ⟨fileName, hname⟩ := hname
  have hmodule := moduleTarget_eq_ok.mpr ⟨hresolve, htarget⟩
  rw [extractExport_of_form hnode hname hform, extractReexport_of_ok hmodule,
    entry_of_not_mem (by simpa using hne)]
  rfl

end Program

namespace Session

/-- Whatever the modules of a program take from each other, the question for the declarations of a
file comes to an end: there is no file of that name, or a fault is in reach, or there are
declarations. No re-export and no missing node makes it fail. -/
theorem declarations_outcome (s : Session) (fileName : String) (skipGenerics : Bool) :
    ((∃ name, (declarations fileName skipGenerics s).value = .error (.fileNotFound name)) ↔
      ∀ file ∈ s.program.files, file.name ≠ fileName) ∧
    ((∃ name v, (declarations fileName skipGenerics s).value = .error (.violation name v)) ↔
      s.program.FaultInReach skipGenerics fileName) ∧
    ((∃ ds, (declarations fileName skipGenerics s).value = .ok ds) ↔
      ¬ (∀ file ∈ s.program.files, file.name ≠ fileName) ∧
        ¬ s.program.FaultInReach skipGenerics fileName) ∧
    (∀ e, (declarations fileName skipGenerics s).value ≠ .error (.reexport e)) ∧
    ∀ name position,
      (declarations fileName skipGenerics s).value ≠ .error (.nodeNotFound name position) := by
  rw [← Program.sourceFile?_eq_none]
  have hvalue : (declarations fileName skipGenerics s).value =
    (s.program.extract skipGenerics fileName s.counter.next 0).value := rfl
  cases hfile : s.program.sourceFile? fileName with
  | none =>
    have hreach : ¬ s.program.FaultInReach skipGenerics fileName := by
      rintro ⟨file, rest, hsome, -⟩
      rw [hfile] at hsome
      contradiction
    rw [Program.extract_of_none hfile] at hvalue
    have herror : (declarations fileName skipGenerics s).value = .error (.fileNotFound fileName) :=
      hvalue
    simp [herror, hreach]
  | some file =>
    have hsettled : Program.Settled (s.program.FaultInReach skipGenerics fileName)
        (declarations fileName skipGenerics s).value := by
      rw [hvalue, Program.faultInReach_iff hfile]
      exact Program.settled_extractFile skipGenerics hfile List.not_mem_nil _ _
    cases hresult : (declarations fileName skipGenerics s).value with
    | ok ds =>
      rw [hresult] at hsettled
      have hreach : ¬ s.program.FaultInReach skipGenerics fileName := hsettled
      simp [hreach]
    | error e =>
      rw [hresult] at hsettled
      cases e with
      | violation name v =>
        have hreach := hsettled.1
        simp [hreach]
      | fileNotFound | nodeNotFound | reexport => exact hsettled.elim

/-- Two files of one name, of which only the second has a variable statement without variables. -/
def shadowed : Program :=
  { types := #[.error]
    files := #[
      { name := "a.ts", text := "", statements := [⟨0⟩],
        modules := some (.ofList [("./b", "b.ts")]) },
      { name := "b.ts", text := "" },
      { name := "b.ts", text := "", statements := [⟨1⟩] }]
    nodes := #[
      { file := ⟨0⟩, form := .exportDeclaration (some "./b") (some (.named [])) },
      { file := ⟨2⟩, form := .variableStatement false [] }] }

/-- A way that goes by the names of files may come to a file that is never entered, because another
of its name stands before it. -/
theorem declarations_outcome_shadowed :
    ¬ ((∃ name v, (declarations "a.ts" true (start shadowed .initial)).value =
        .error (.violation name v)) ↔
      ∃ file rest, shadowed.fileName? file = some "a.ts" ∧
        (file :: rest).IsChain (fun f g => ∃ target, shadowed.Reexports f target ∧
          shadowed.fileName? g = some target) ∧
        (file :: rest).Nodup ∧ (file :: rest).length ≤ 32 ∧
        ∃ last ∈ (file :: rest).getLast?, shadowed.HasEmptyStatement true last) := by
  intro hiff
  have hempty : shadowed.HasEmptyStatement true ⟨2⟩ :=
    ⟨⟨1⟩, by decide, ⟨false, rfl⟩, by decide⟩
  have hreexports : shadowed.Reexports ⟨0⟩ "b.ts" :=
    ⟨⟨0⟩, by decide, "./b", some (.named []), rfl, by decide +kernel⟩
  obtain ⟨name, v, hviolation⟩ := hiff.mpr ⟨⟨0⟩, [⟨2⟩], rfl,
    .cons_cons ⟨"b.ts", hreexports, rfl⟩ (.singleton _), by decide, by decide, ⟨2⟩, rfl, hempty⟩
  have hgiven : (declarations "a.ts" true (start shadowed .initial)).value = .ok [] := by rfl
  rw [hgiven] at hviolation
  contradiction

/-! ## Re-exports -/

/-- An export declaration of a file takes from another file what the question for that file's own
declarations gives: for each exported name the first declaration of the source name, renamed, with
the same type under the same key but for the generation; and if that question fails, so does this
one, for the same reason. This is so if no way leads back to the file of the export declaration, and
no way from the other file through different files has more than 31. -/
theorem reexports_eq_declarations (s t : Session) (hprogram : s.program = t.program) (node : NodeId)
    (file other : FileId) (specifier target : String) (items : List ExportItem)
    (skipGenerics : Bool) (hnode : s.program.nodeFile? node = some file)
    (hform : s.program.form? node =
      some (.exportDeclaration (some specifier) (some (.named items))))
    (hresolve : s.program.resolveModule file (unquoted specifier) = .resolved target)
    (htarget : s.program.sourceFile? target = some other) (hne : other ≠ file)
    (hapart : ∀ rest, (other :: rest).IsChain s.program.TakesFrom → file ∉ rest)
    (hshort : ∀ rest, (other :: rest).IsChain s.program.TakesFrom → (other :: rest).Nodup →
      (other :: rest).length ≤ 31) :
    (reexports node skipGenerics t).value =
      match (declarations target skipGenerics s).value with
      | .error e => .error e
      | .ok ds => .ok (items.filterMap fun item =>
          (ds.find? fun d => d.name == some item.sourceName).map fun d =>
            { name := some item.name
              type := d.type.rekey (StoreKey.withGeneration
                (reexports node skipGenerics t).session.store.generation) }) := by
  let p := s.program
  have hfiles (σ : String → String) : p.SameExtracted σ (p.extract skipGenerics target)
      (p.extractFile skipGenerics (Program.maxChain - 2) [file] target) := by
    refine Program.mirrors_extractFile_of_openAlike skipGenerics fun f hf => ?_
    rw [Option.some.inj (hf.symm.trans htarget)]
    exact Program.openAlike_of_apart hne hapart hshort
  have hsame (σ : String → String) : p.SameExtracted σ
      (Program.reexported (unquoted specifier) (some (.named items)) <$>
        p.extract skipGenerics target) (p.extractExport skipGenerics node) := by
    rw [Program.extractExport_of_resolved hnode hform hresolve htarget hne]
    exact Program.mirrors_reexported (hfiles σ) _ _
  have hvalue : (reexports node skipGenerics t).value =
      (Program.reexported (unquoted specifier) (some (.named items))
        (declarations target skipGenerics s).value).rekey
          (StoreKey.withGeneration t.counter.next) := by
    have hkeys := carries_withGeneration s.counter.next t.counter.next 0
    obtain ⟨program, store, counter⟩ := t
    subst hprogram
    exact (hsame _).value hkeys
  have hsettled : Program.Settled (p.MeetsFault skipGenerics (Program.maxChain - 1) [] other)
      (declarations target skipGenerics s).value :=
    Program.settled_extractFile skipGenerics htarget List.not_mem_nil s.counter.next 0
  rw [hvalue]
  cases hresult : (declarations target skipGenerics s).value with
  | error e =>
    rw [hresult] at hsettled
    cases e with
    | violation fileName v => rfl
    | _ => exact hsettled.elim
  | ok ds =>
    simp only [Program.reexported, Program.Extracted.rekey, ExportItem.pick, List.map_filterMap,
      Option.map_map]
    rfl

/-- A file that takes from the first of two files that take from each other. -/
def exchange : Program :=
  { files := #[
      { name := "a.ts", text := "", statements := [⟨0⟩],
        modules := some (.ofList [("./b", "b.ts")]) },
      { name := "b.ts", text := "", statements := [⟨1⟩, ⟨2⟩, ⟨3⟩],
        modules := some (.ofList [("./c", "c.ts")]) },
      { name := "c.ts", text := "", statements := [⟨4⟩, ⟨5⟩],
        modules := some (.ofList [("./b", "b.ts")]) }]
    nodes := #[
      { file := ⟨0⟩
        form := .exportDeclaration (some "'./b'")
          (some (.named [⟨"Y", some "X"⟩, ⟨"Z", none⟩, ⟨"W", none⟩])) },
      { file := ⟨1⟩, form := .exportDeclaration (some "'./c'") (some (.named [⟨"Z", none⟩])) },
      { file := ⟨1⟩, form := .interface "X" true, declares := some ⟨0⟩, type := some ⟨1⟩ },
      { file := ⟨1⟩, form := .exportDeclaration (some "'./d'") (some (.named [⟨"W", none⟩])) },
      { file := ⟨2⟩, form := .interface "Z" true, declares := some ⟨1⟩, type := some ⟨2⟩ },
      { file := ⟨2⟩, form := .exportDeclaration (some "'./b'") (some (.named [⟨"X", none⟩])) }]
    symbols := #[{ name := "X" }, { name := "Z" }, { name := "size" }]
    types := #[.error, { text := "X", kind := .object, properties := [⟨2⟩] },
      { text := "Z", kind := .object, properties := [⟨2⟩] }] }

/-- The two files lead to each other and to no other file; of the three exported names two are
found. -/
theorem reexports_eq_declarations_exchange :
    let s := start exchange .initial
    let t := (declarations "b.ts" true s).session
    let items : List ExportItem := [⟨"Y", some "X"⟩, ⟨"Z", none⟩, ⟨"W", none⟩]
    (exchange.TakesFrom ⟨0⟩ ⟨1⟩ ∧ exchange.TakesFrom ⟨1⟩ ⟨2⟩ ∧ exchange.TakesFrom ⟨2⟩ ⟨1⟩) ∧
    (declarations "b.ts" true s).value.types.flatMap (·.leaves) =
      [⟨"Z", "2-0", []⟩, ⟨"X", "2-1", []⟩] ∧
    (reexports ⟨0⟩ true t).value.types.flatMap (·.leaves) =
      [⟨"X", "3-1", []⟩, ⟨"Z", "3-0", []⟩] ∧
    (reexports ⟨0⟩ true t).value =
      match (declarations "b.ts" true s).value with
      | .error e => .error e
      | .ok ds => .ok (items.filterMap fun item =>
          (ds.find? fun d => d.name == some item.sourceName).map fun d =>
            { name := some item.name
              type := d.type.rekey (StoreKey.withGeneration 3) }) := by
  intro s t items
  have hclosed : ∀ f ∈ [FileId.mk 1, ⟨2⟩], ∀ g ∈ exchange.targets f, g ∈ [FileId.mk 1, ⟨2⟩] := by
    decide +kernel
  have hreached (rest : List FileId) (hlinked : (⟨1⟩ :: rest).IsChain exchange.TakesFrom) :
      ∀ f ∈ rest, f ∈ [FileId.mk 1, ⟨2⟩] :=
    hlinked.cons_induction (· ∈ [FileId.mk 1, ⟨2⟩]) rest
      (fun f g htakes hf => hclosed f hf g (Program.takesFrom_iff.mp htakes)) (by simp)
  have hapart (rest : List FileId) (hlinked : (⟨1⟩ :: rest).IsChain exchange.TakesFrom) :
      ⟨0⟩ ∉ rest :=
    fun hmem => absurd (hreached rest hlinked _ hmem) (by decide)
  have hshort (rest : List FileId) (hlinked : (⟨1⟩ :: rest).IsChain exchange.TakesFrom)
      (hnodup : (FileId.mk 1 :: rest).Nodup) : (FileId.mk 1 :: rest).length ≤ 31 := by
    have hsubset : FileId.mk 1 :: rest ⊆ [⟨1⟩, ⟨2⟩] :=
      List.cons_subset.mpr ⟨by simp, hreached rest hlinked⟩
    have hlength := (List.subperm_of_subset hnodup hsubset).length_le
    exact hlength.trans (by decide)
  have hgeneration : (reexports ⟨0⟩ true t).session.store.generation = 3 := by decide +kernel
  have hsame := reexports_eq_declarations s t rfl ⟨0⟩ ⟨0⟩ ⟨1⟩ "'./b'" "b.ts" items true rfl rfl
    (by decide +kernel) (by decide +kernel) (by decide) hapart hshort
  rw [hgeneration] at hsame
  exact ⟨by decide +kernel, by decide +kernel, by decide +kernel, hsame⟩

end Session
end PortableTypes
