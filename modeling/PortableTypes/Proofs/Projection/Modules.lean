import Mathlib.Data.List.Chain
import PortableTypes.Projection.Extraction

/-!
# Ways from file to file

Export declarations lead from file to file. Extraction follows them along routes: each file takes
from the next, no file comes twice, and none is entered that was entered before the route began.
-/
namespace PortableTypes.Program

/-- Among the statements of a file is an export declaration whose module was found under a file
name. -/
def Reexports (p : Program) (file : FileId) (target : String) : Prop :=
  ∃ statement ∈ p.statements file, ∃ specifier clause,
    p.form? statement = some (.exportDeclaration (some specifier) clause) ∧
      p.resolveModule file (unquoted specifier) = .resolved target

/-- A file has an export declaration that leads to another file, the first one of a name. -/
def TakesFrom (p : Program) (file other : FileId) : Prop :=
  ∃ target, p.Reexports file target ∧ p.sourceFile? target = some other

/-- A way through files that takes from one to the next, comes to no file twice and to none that was
entered before. -/
structure Route (p : Program) (entered path : List FileId) : Prop where
  linked : path.IsChain p.TakesFrom
  nodup : path.Nodup
  fresh : ∀ file ∈ path, file ∉ entered

section

variable {p : Program} {entered rest : List FileId} {file next : FileId}

theorem route_singleton : p.Route entered [file] ↔ file ∉ entered := by
  constructor
  · intro h
    exact h.fresh file (List.mem_singleton_self _)
  · intro h
    exact ⟨.singleton file, List.pairwise_singleton _ file, List.forall_mem_singleton.mpr h⟩

/-- What follows the first file of a route is a route once the first file is entered. -/
theorem route_cons_cons :
    p.Route entered (file :: next :: rest) ↔
      file ∉ entered ∧ p.TakesFrom file next ∧ p.Route (entered ++ [file]) (next :: rest) := by
  constructor
  · intro h
    obtain ⟨htakes, hlinked⟩ := List.isChain_cons_cons.mp h.linked
    obtain ⟨hfile, hnodup⟩ := List.nodup_cons.mp h.nodup
    obtain ⟨hfresh, hrest⟩ := List.forall_mem_cons.mp h.fresh
    refine ⟨hfresh, htakes, hlinked, hnodup, fun other hother hmem => ?_⟩
    rcases List.mem_append.mp hmem with hentered | hsame
    · exact hrest other hother hentered
    · rw [List.mem_singleton.mp hsame] at hother
      exact hfile hother
  · rintro ⟨hfresh, htakes, h⟩
    have hapart (other : FileId) (hother : other ∈ next :: rest) :
        other ∉ entered ∧ other ≠ file := by
      have hnot := h.fresh other hother
      simpa using hnot
    refine ⟨.cons_cons htakes h.linked, List.nodup_cons.mpr ⟨fun hmem => ?_, h.nodup⟩, ?_⟩
    · exact (hapart file hmem).2 rfl
    · exact List.forall_mem_cons.mpr ⟨hfresh, fun other hother => (hapart other hother).1⟩

end

theorem moduleTarget_eq_ok {p : Program} {file id : FileId} {specifier target : String} :
    p.moduleTarget file specifier = .ok (target, id) ↔
      p.resolveModule file specifier = .resolved target ∧ p.sourceFile? target = some id := by
  unfold moduleTarget
  cases p.resolveModule file specifier with
  | tableMissing => simp
  | notFound => simp
  | resolved found =>
    dsimp only
    cases hfile : p.sourceFile? found with
    | none =>
      simp only [reduceCtorEq, ModuleLookup.resolved.injEq, false_iff, not_and]
      rintro rfl
      simp [hfile]
    | some other =>
      simp only [Except.ok.injEq, Prod.mk.injEq, ModuleLookup.resolved.injEq]
      constructor
      · rintro ⟨rfl, rfl⟩
        exact ⟨rfl, hfile⟩
      · rintro ⟨rfl, hid⟩
        exact ⟨rfl, Option.some.inj (hfile ▸ hid)⟩

theorem fileName?_of_sourceFile? {p : Program} {fileName : String} {file : FileId}
    (h : p.sourceFile? fileName = some file) : p.fileName? file = some fileName := by
  obtain ⟨i, hi, rfl⟩ := Option.map_eq_some_iff.mp h
  obtain ⟨hlt, hname, -⟩ := List.findIdx?_eq_some_iff_getElem.mp hi
  have hplace : p.file? ⟨i⟩ = some p.files[i] := Array.getElem?_eq_getElem hlt
  simpa [fileName?, hplace] using hname

/-- The files that the export declarations of a file lead to. -/
def targets (p : Program) (file : FileId) : List FileId :=
  (p.statements file).filterMap fun statement =>
    match p.form? statement with
    | some (.exportDeclaration (some specifier) _) =>
      (p.moduleTarget file (unquoted specifier)).toOption.map Prod.snd
    | _ => none

theorem takesFrom_iff {p : Program} {file other : FileId} :
    p.TakesFrom file other ↔ other ∈ p.targets file := by
  simp only [targets, List.mem_filterMap]
  constructor
  · rintro ⟨target, ⟨statement, hmem, specifier, clause, hform, hresolve⟩, hid⟩
    refine ⟨statement, hmem, ?_⟩
    simp only [hform, moduleTarget_eq_ok.mpr ⟨hresolve, hid⟩]
    rfl
  · rintro ⟨statement, hmem, hother⟩
    split at hother
    · rename_i specifier clause hform
      obtain ⟨⟨target, id⟩, hfound, rfl⟩ := Option.map_eq_some_iff.mp hother
      cases htarget : p.moduleTarget file (unquoted specifier) with
      | error reason =>
        rw [htarget] at hfound
        cases hfound
      | ok found =>
        rw [htarget] at hfound
        cases hfound
        obtain ⟨hresolve, hid⟩ := moduleTarget_eq_ok.mp htarget
        exact ⟨target, ⟨statement, hmem, specifier, clause, hform, hresolve⟩, hid⟩
    · cases hother

instance (p : Program) (file other : FileId) : Decidable (p.TakesFrom file other) :=
  decidable_of_iff _ takesFrom_iff.symm

end PortableTypes.Program
