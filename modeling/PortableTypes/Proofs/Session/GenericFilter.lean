import Mathlib.Logic.Relation
import PortableTypes.Proofs.Projection.Offers
import PortableTypes.Proofs.Session.Statements

/-!
# Leaving out generic declarations

Generic declarations can be left out of what a file gives. Of a file without export declarations
this leaves the declarations of the other statements. A file that takes from others gives no name
that it did not give before; but where a declaration that is left out stood before another of its
name, that other one is taken in its place.
-/
namespace PortableTypes

namespace Program

open Projecting

/-! ## Statements that are not export declarations -/

/-- A statement that is no export declaration is left out as a whole if it is generic, and is not
touched otherwise. -/
theorem value_extractStatement_filtered {p : Program} {statement : NodeId}
    (hplain : ∀ specifier clause, p.form? statement ≠ some (.exportDeclaration specifier clause))
    (enter enter' : Option Extractor) (chain chain' : List FileId) (file : FileId)
    (fileName : String) (g : UInt32) (n : Nat) :
    (p.extractStatement true enter chain file fileName statement g n).value =
      if p.isGeneric statement then .ok []
      else (p.extractStatement false enter' chain' file fileName statement g n).value := by
  rw [extractStatement_of_not_export hplain true enter enter' chain chain']
  cases hform : p.form? statement with
  | none =>
    simp only [extractStatement, hform]
    split <;> rfl
  | some form =>
    have hexport : form.isExport = false := by
      cases form with
      | exportDeclaration specifier clause => exact absurd hform (hplain specifier clause)
      | _ => rfl
    simp only [extractStatement, hform, hexport]
    cases p.isGeneric statement with
    | true => cases form.isExtractable <;> rfl
    | false => cases form.isExtractable <;> rfl

/-- A file without export declarations gives what the files with one of its statements that is not
generic give, wherever each of these starts. -/
theorem erased_extract_filtered {p : Program} {fileName : String} {file : FileId}
    (hfile : p.sourceFile? fileName = some file)
    (hplain : ∀ statement ∈ p.statements file, ∀ specifier clause,
      p.form? statement ≠ some (.exportDeclaration specifier clause)) {alone : NodeId → Extracted}
    (halone : ∀ statement ∈ p.statements file, ∃ g n, alone statement =
      ((p.withStatements file [statement]).extract false fileName g n).value) :
    Always
      (Extracted.erased · = List.flatten <$> (p.statements file).mapM fun statement =>
        if p.isGeneric statement then .ok [] else (alone statement).erased)
      (p.extract true fileName) := by
  have herased :
      (fun statement => if p.isGeneric statement then .ok [] else (alone statement).erased) =
        fun statement =>
          Extracted.erased (if p.isGeneric statement then .ok [] else alone statement) := by
    funext statement
    split <;> rfl
  rw [herased]
  refine erased_extract hfile true fun statement hstatement => ?_
  obtain ⟨g, n, hgiven⟩ := halone statement hstatement
  refine ⟨g, n, ?_⟩
  rw [hgiven, value_extract_withStatements_singleton hfile,
    value_extract_withStatements_singleton hfile]
  exact (value_extractStatement_filtered (hplain statement hstatement) ..).symm

section

variable {alone : NodeId → Extracted} {statements : List NodeId}

/-- If statements give declarations together, each one does. -/
theorem exists_eq_ok_of_flatten_mapM {ds : List Declaration}
    (h : List.flatten <$> statements.mapM alone = .ok ds) :
    ∀ statement ∈ statements, ∃ part, alone statement = .ok part := by
  induction statements generalizing ds with
  | nil => exact List.forall_mem_nil _
  | cons statement rest ih =>
    rw [flatten_mapM_cons] at h
    cases hstatement : alone statement with
    | error e =>
      rw [hstatement] at h
      cases h
    | ok part =>
      rw [hstatement] at h
      cases hrest : List.flatten <$> rest.mapM alone with
      | error e =>
        rw [hrest] at h
        cases h
      | ok more => exact List.forall_mem_cons.mpr ⟨⟨part, hstatement⟩, ih hrest⟩

/-- Of statements that give declarations together, some give nothing when they are left out, and the
others give what they gave. -/
theorem flatten_mapM_filtered {ds : List Declaration}
    (h : List.flatten <$> statements.mapM alone = .ok ds) (left : NodeId → Bool) :
    ∃ parts : NodeId → List Declaration,
      (∀ statement ∈ statements, alone statement = .ok (parts statement)) ∧
      ds = statements.flatMap parts ∧
      List.flatten <$> statements.mapM
          (fun statement => if left statement then .ok [] else alone statement) =
        .ok ((statements.filter fun statement => !left statement).flatMap parts) := by
  let parts (statement : NodeId) : List Declaration := (alone statement).toOption.getD []
  have hparts (statement : NodeId) (hmem : statement ∈ statements) :
      alone statement = .ok (parts statement) := by
    obtain ⟨part, hpart⟩ := exists_eq_ok_of_flatten_mapM h statement hmem
    simp only [parts, hpart]
    rfl
  have hleft : List.flatten <$> statements.mapM
        (fun statement => if left statement then .ok [] else alone statement) =
      .ok (statements.flatMap fun statement => if left statement then [] else parts statement) := by
    refine flatten_mapM_of_ok fun statement hmem => ?_
    rw [hparts statement hmem]
    split <;> rfl
  have hfilter :
      (statements.flatMap fun statement => if left statement then [] else parts statement) =
        (statements.filter fun statement => !left statement).flatMap parts := by
    clear h hparts hleft
    induction statements with
    | nil => rfl
    | cons statement rest ih => cases hstatement : left statement <;> simp [hstatement, ih]
  refine ⟨parts, hparts, ?_, hfilter ▸ hleft⟩
  rw [flatten_mapM_of_ok hparts] at h
  exact (Except.ok.inj h).symm

end

/-! ## Declarations that are taken from other files -/

end Program

namespace Session

/-- Of a file without export declarations, the declarations that are left without the generic ones
are those of the statements whose type is no alias with a bare type parameter among its arguments,
in order and but for their keys. What comes of a statement is what the file gives with that
statement alone. -/
theorem declarations_filtered_by_statement (s t : Session) (hprogram : s.program = t.program)
    (fileName : String) (file : FileId) (hfile : s.program.sourceFile? fileName = some file)
    (hplain : ∀ statement ∈ s.program.statements file, ∀ specifier clause,
      s.program.form? statement ≠ some (.exportDeclaration specifier clause))
    (alone : NodeId → Session)
    (halone : ∀ statement ∈ s.program.statements file,
      (alone statement).program = s.program.withStatements file [statement])
    (ds : List Declaration) (hds : (declarations fileName false s).value = .ok ds) :
    ∃ kept parts, (declarations fileName true t).value = .ok kept ∧
      (∀ statement ∈ s.program.statements file,
        (declarations fileName false (alone statement)).value.erased = .ok (parts statement)) ∧
      ds.map Declaration.erased = (s.program.statements file).flatMap parts ∧
      kept.map Declaration.erased = ((s.program.statements file).filter fun statement =>
        !(s.program.aliasArguments (s.program.typeAt statement)).any
          s.program.isTypeParameter).flatMap parts := by
  have halone (statement : NodeId) (hstatement : statement ∈ s.program.statements file) :
      ∃ g n, (declarations fileName false (alone statement)).value =
        ((s.program.withStatements file [statement]).extract false fileName g n).value := by
    rw [← halone statement hstatement]
    exact ⟨_, _, rfl⟩
  have hall : List.flatten <$> (s.program.statements file).mapM (fun statement =>
      (declarations fileName false (alone statement)).value.erased) =
        .ok (ds.map Declaration.erased) :=
    (Program.erased_extract hfile false halone s.counter.next 0).symm.trans
      (congrArg Program.Extracted.erased hds)
  obtain ⟨parts, hparts, hds, hleft⟩ := Program.flatten_mapM_filtered hall s.program.isGeneric
  have hfiltered := Program.erased_extract_filtered hfile hplain halone t.counter.next 0
  rw [hleft] at hfiltered
  obtain ⟨kept, hkept, hmap⟩ := Program.Extracted.exists_of_erased_eq_ok hfiltered
  rw [hprogram] at hkept
  exact ⟨kept, parts, hkept, hparts, hds, hmap⟩

/-- A file that takes two of the three declarations of another, of which the first is generic. -/
def boxes : Program :=
  { files := #[
      { name := "a.ts", text := "", statements := [⟨0⟩],
        modules := some (.ofList [("./b", "b.ts")]) },
      { name := "b.ts", text := "", statements := [⟨1⟩, ⟨2⟩] }]
    nodes := #[
      { file := ⟨0⟩
        form := .exportDeclaration (some "'./b'")
          (some (.named [⟨"Box", none⟩, ⟨"chest", some "crate"⟩])) },
      { file := ⟨1⟩, form := .typeAlias "Box" true none, declares := some ⟨0⟩, type := some ⟨2⟩ },
      { file := ⟨1⟩, form := .variableStatement true [⟨3⟩, ⟨4⟩] },
      { file := ⟨1⟩, form := .variableDeclaration "label" none, type := some ⟨3⟩ },
      { file := ⟨1⟩, form := .variableDeclaration "crate" none, type := some ⟨4⟩ }]
    symbols := #[{ name := "Box" }, { name := "size" }]
    types := #[.error, { text := "T", kind := .typeParameter },
      { text := "Box<T>", kind := .object, aliasArguments := [⟨1⟩], properties := [⟨1⟩] },
      { text := "string", kind := .intrinsic },
      { text := "Box<string>", kind := .object, aliasArguments := [⟨3⟩], properties := [⟨1⟩] }] }

/-- The second of the two variables has another key without the statement before them. -/
theorem declarations_filtered_by_statement_boxes :
    let s := start boxes .initial
    let t := (declarations "b.ts" false s).session
    let alone := fun statement => start (boxes.withStatements ⟨1⟩ [statement]) s.counter
    boxes.sourceFile? "b.ts" = some ⟨1⟩ ∧ boxes.statements ⟨1⟩ = [⟨1⟩, ⟨2⟩] ∧
    (declarations "b.ts" false s).value.types.flatMap (·.leaves) =
      [⟨"Box<T>", "2-0", []⟩, ⟨"Box<string>", "2-1", []⟩] ∧
    (declarations "b.ts" true t).value.types.flatMap (·.leaves) = [⟨"Box<string>", "3-0", []⟩] ∧
    ∃ ds kept, (declarations "b.ts" false s).value = .ok ds ∧
      ds.map (·.name) = [some "Box", some "label", some "crate"] ∧
      (declarations "b.ts" true t).value = .ok kept ∧
      (declarations "b.ts" false (alone ⟨2⟩)).value.erased = .ok (kept.map Declaration.erased) := by
  intro s t alone
  have hfile : boxes.sourceFile? "b.ts" = some ⟨1⟩ := by decide +kernel
  have hplain : ∀ statement ∈ boxes.statements ⟨1⟩, ∀ specifier clause,
      boxes.form? statement ≠ some (.exportDeclaration specifier clause) := by
    have hnone : ∀ statement ∈ boxes.statements ⟨1⟩,
        (boxes.form? statement).map Form.isExport ≠ some true := by decide +kernel
    intro statement hstatement specifier clause hform
    exact hnone statement hstatement (by rw [hform]; rfl)
  obtain ⟨kept, parts, hkept, hparts, -, hmap⟩ := declarations_filtered_by_statement s t rfl "b.ts"
    ⟨1⟩ hfile hplain alone (fun _ _ => rfl) _ rfl
  have hfilter : ((boxes.statements ⟨1⟩).filter fun statement =>
      !(boxes.aliasArguments (boxes.typeAt statement)).any boxes.isTypeParameter) = [⟨2⟩] := by
    decide +kernel
  have hlast : kept.map Declaration.erased = parts ⟨2⟩ :=
    hmap.trans ((congrArg (List.flatMap parts) hfilter).trans (List.flatMap_singleton ..))
  refine ⟨hfile, rfl, by decide +kernel, by decide +kernel, _, kept, rfl, by decide +kernel, hkept,
    ?_⟩
  rw [hlast]
  exact hparts ⟨2⟩ (by decide)

end Session
end PortableTypes
