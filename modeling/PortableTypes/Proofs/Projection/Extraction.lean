import PortableTypes.Proofs.Projection.Mirrors
import PortableTypes.Proofs.Projection.Modules

/-!
# What extraction gives, and what it depends on

Like any projection, an extraction gives the same from another start, under other keys. Of the files
that were entered before it sees no more than which ways are open: two extractions of a file give
the same if they can go along the same routes and have room for them.
-/
namespace PortableTypes.Program

open Projecting

/-! ## Entering files -/

/-- The extraction of a file with a name, unless the file was entered before or there is no way in.
-/
def entry (enter : Option Extractor) (chain : List FileId) (target : String) (id : FileId) :
    Option (Projecting Extracted) :=
  if chain.contains id then none else enter.map fun e => e chain target

/-- What an export declaration makes of the declarations of the file it leads to. -/
def reexported (specifier : String) (clause : Option ExportClause) : Extracted → Extracted
  | .error (.fileNotFound _) => .error (.reexport ⟨.fileNotFound, some specifier⟩)
  | .error e => .error e
  | .ok declarations =>
    match clause with
    | none => .error (.reexport ⟨.unknown, some specifier⟩)
    | some (.everything _) => .error (.reexport ⟨.notNamed, some specifier⟩)
    | some (.named items) => .ok (ExportItem.pick items declarations)

/-- The way into files from a file that has room for so many inside it. -/
def inner (p : Program) (skipGenerics : Bool) : (room : Nat) → Option Extractor
  | 0 => none
  | room + 1 => some (p.extractFile skipGenerics room)

theorem extractFile_eq (p : Program) (skipGenerics : Bool) (room : Nat) :
    p.extractFile skipGenerics room = p.extractNamed skipGenerics (p.inner skipGenerics room) := by
  cases room <;> rfl

theorem extractFile_of_sourceFile? {p : Program} {fileName : String} {file : FileId}
    (hfile : p.sourceFile? fileName = some file) (skipGenerics : Bool) (room : Nat)
    (chain : List FileId) :
    p.extractFile skipGenerics room chain fileName = (do
      report (.fileEntered fileName chain.length)
      extractAll (p.extractStatement skipGenerics (p.inner skipGenerics room) (chain ++ [file]) file
        fileName) (p.statements file)) := by
  rw [extractFile_eq]
  simp only [extractNamed, hfile]

theorem extractExport_of_form {p : Program} {node : NodeId} {file : FileId} {fileName : String}
    {specifier : Option String} {clause : Option ExportClause} (hnode : p.nodeFile? node = some file)
    (hname : p.fileName? file = some fileName)
    (hform : p.form? node = some (.exportDeclaration specifier clause)) (skipGenerics : Bool) :
    p.extractExport skipGenerics node =
      p.extractReexport (p.inner skipGenerics (maxChain - 1)) [file] file specifier clause := by
  simp only [extractExport, hnode, Option.bind_some, hname, hform]
  rfl

section

variable {p : Program} {enter : Option Extractor} {chain : List FileId} {file id : FileId}
  {specifier target : String} {clause : Option ExportClause}

theorem entry_of_mem (h : id ∈ chain) : entry enter chain target id = none :=
  if_pos (by simpa using h)

theorem entry_of_not_mem (h : id ∉ chain) :
    entry enter chain target id = enter.map fun e => e chain target :=
  if_neg (by simpa using h)

/-- A file is entered if it is new and there is room. -/
theorem mem_entry_inner {skipGenerics : Bool} {room : Nat} {x : Projecting Extracted} :
    x ∈ entry (p.inner skipGenerics room) chain target id ↔
      id ∉ chain ∧ ∃ smaller, room = smaller + 1 ∧
        x = p.extractFile skipGenerics smaller chain target := by
  by_cases h : id ∈ chain
  · simp [entry_of_mem h, h]
  · cases room with
    | zero => simp [entry_of_not_mem h, inner]
    | succ room => simp [entry_of_not_mem h, inner, h, eq_comm]

theorem isSome_entry_inner {skipGenerics : Bool} {room : Nat} :
    (entry (p.inner skipGenerics room) chain target id).isSome ↔ id ∉ chain ∧ 1 ≤ room := by
  by_cases h : id ∈ chain
  · simp [entry_of_mem h, h]
  · cases room with
    | zero => simp [entry_of_not_mem h, inner]
    | succ room => simp [entry_of_not_mem h, inner, h]

theorem extractReexport_of_error {reason : ExportReason}
    (h : p.moduleTarget file (unquoted specifier) = .error reason) :
    p.extractReexport enter chain file (some specifier) clause =
      Pure.pure (.error (.reexport ⟨reason, some (unquoted specifier)⟩)) := by
  simp only [extractReexport, Option.map_some, h]

/-- An export declaration that leads to a file enters it, if it can. -/
theorem extractReexport_of_ok (h : p.moduleTarget file (unquoted specifier) = .ok (target, id)) :
    p.extractReexport enter chain file (some specifier) clause =
      match entry enter chain target id with
      | none => do
        report (.reexportCycle (unquoted specifier) target)
        return .error (.reexport ⟨.unknown, some (unquoted specifier)⟩)
      | some x => reexported (unquoted specifier) clause <$> x := by
  simp only [extractReexport, Option.map_some, h, entry]
  by_cases hentered : chain.contains id = true
  · simp only [if_pos hentered]
  · simp only [if_neg hentered]
    cases enter with
    | none => rfl
    | some e =>
      show _ = e chain target >>= fun r => Pure.pure (reexported (unquoted specifier) clause r)
      refine bind_congr fun extracted => ?_
      cases extracted with
      | error e => cases e <;> rfl
      | ok ds =>
        cases clause with
        | none => rfl
        | some clause => cases clause <;> rfl

end

/-- A re-export takes types from what it is made of. -/
theorem types_reexported_subset (specifier : String) (clause : Option ExportClause)
    (r : Extracted) : Extracted.types (reexported specifier clause r) ⊆ Extracted.types r := by
  cases r with
  | error e => cases e <;> exact List.nil_subset _
  | ok ds =>
    cases clause with
    | none => exact List.nil_subset _
    | some clause =>
      cases clause with
      | everything => exact List.nil_subset _
      | named items =>
        intro t ht
        obtain ⟨d, hd, rfl⟩ := List.mem_map.mp ht
        obtain ⟨item, -, hitem⟩ := List.mem_filterMap.mp hd
        obtain ⟨found, hfound, rfl⟩ := Option.map_eq_some_iff.mp hitem
        exact List.mem_map.mpr ⟨found, List.mem_of_find?_eq_some hfound, rfl⟩

theorem reexported_rekey (σ : String → String) (specifier : String) (clause : Option ExportClause)
    (r : Extracted) :
    reexported specifier clause (r.rekey σ) = (reexported specifier clause r).rekey σ := by
  cases r with
  | error e => cases e <;> rfl
  | ok ds =>
    cases clause with
    | none => rfl
    | some clause =>
      cases clause with
      | everything => rfl
      | named items => simp only [Extracted.rekey, reexported, ExportItem.pick_map_rekey]

/-! ## The same from another start -/

/-- Two extractions give the same under other keys, with types as classification gives them. -/
abbrev SameExtracted (p : Program) (σ : String → String) (x y : Projecting Extracted) : Prop :=
  Mirrors σ (fun r => ∀ t ∈ Extracted.types r, t.Throughout p.Vouches (maxNesting + 1))
    (Extracted.rekey σ) x y

/-- An extraction gives the same from another start, under other keys. -/
abbrev YieldsExtracted (p : Program) (σ : String → String) (x : Projecting Extracted) : Prop :=
  p.SameExtracted σ x x

section

variable {p : Program} {σ : String → String}

theorem mirrors_error (e : ProjectionError) : p.YieldsExtracted σ (Pure.pure (.error e)) :=
  .pure (List.forall_mem_nil _) rfl

theorem mirrors_nothing : p.YieldsExtracted σ (Pure.pure (.ok [])) :=
  .pure (List.forall_mem_nil _) rfl

theorem mirrors_extractDeclaration (name : Option String) (node : NodeId) :
    Mirrors σ (fun d => d.type.Throughout p.Vouches (maxNesting + 1)) (Declaration.rekey σ)
      (p.extractDeclaration name node) (p.extractDeclaration name node) :=
  (mirrors_classify ..).bind fun _ ht => .pure ht rfl

theorem mirrors_extractVariable (node : NodeId) :
    Mirrors σ (fun d => d.type.Throughout p.Vouches (maxNesting + 1)) (Declaration.rekey σ)
      (p.extractVariable node) (p.extractVariable node) := by
  unfold extractVariable
  split <;> exact mirrors_extractDeclaration ..

theorem mirrors_extractAll {extract extract' : NodeId → Projecting Extracted}
    {statements : List NodeId}
    (hextract : ∀ node ∈ statements, p.SameExtracted σ (extract node) (extract' node)) :
    p.SameExtracted σ (extractAll extract statements) (extractAll extract' statements) := by
  induction statements with
  | nil => exact mirrors_nothing
  | cons statement rest ih =>
    obtain ⟨hstatement, hrest⟩ := List.forall_mem_cons.mp hextract
    refine hstatement.bind fun first hfirst => ?_
    cases first with
    | error e => exact mirrors_error e
    | ok ds =>
      refine (ih hrest).bind fun more hmore => ?_
      cases more with
      | error e => exact mirrors_error e
      | ok more =>
        refine .pure ?_ (by simp [Extracted.rekey])
        simpa [Extracted.types] using List.forall_mem_append.mpr ⟨hfirst, hmore⟩

section Statements

variable {enter enter' : Option Extractor} {chain chain' : List FileId} {file : FileId}

theorem mirrors_reexported {x y : Projecting Extracted} (h : p.SameExtracted σ x y)
    (specifier : String) (clause : Option ExportClause) :
    p.SameExtracted σ (reexported specifier clause <$> x) (reexported specifier clause <$> y) := by
  refine h.map (fun r hr t ht => ?_) fun r _ => reexported_rekey ..
  exact hr t (types_reexported_subset _ _ r ht)

theorem mirrors_extractReexport {specifier : Option String} {clause : Option ExportClause}
    (henter : ∀ s ∈ specifier, ∀ target id, p.moduleTarget file (unquoted s) = .ok (target, id) →
      Option.Rel (p.SameExtracted σ) (entry enter chain target id) (entry enter' chain' target id)) :
    p.SameExtracted σ (p.extractReexport enter chain file specifier clause)
      (p.extractReexport enter' chain' file specifier clause) := by
  cases specifier with
  | none => exact mirrors_error _
  | some specifier =>
    cases htarget : p.moduleTarget file (unquoted specifier) with
    | error reason =>
      rw [extractReexport_of_error htarget, extractReexport_of_error htarget]
      exact mirrors_error _
    | ok found =>
      obtain ⟨target, id⟩ := found
      have hentry := henter specifier rfl target id htarget
      rw [extractReexport_of_ok htarget, extractReexport_of_ok htarget]
      generalize entry enter chain target id = x at hentry
      generalize entry enter' chain' target id = y at hentry
      cases hentry with
      | none => exact mirrors_report.bind fun _ _ => mirrors_error _
      | some hxy =>
        exact mirrors_reexported hxy _ clause

theorem mirrors_extractForm (fileName : String) (statement : NodeId) {form : Form}
    (henter : ∀ s clause, form = .exportDeclaration (some s) clause → ∀ target id,
      p.moduleTarget file (unquoted s) = .ok (target, id) →
      Option.Rel (p.SameExtracted σ) (entry enter chain target id) (entry enter' chain' target id)) :
    p.SameExtracted σ (p.extractForm enter chain file fileName statement form)
      (p.extractForm enter' chain' file fileName statement form) := by
  unfold extractForm
  split
  · rename_i specifier clause
    have hreexport : p.SameExtracted σ (p.extractReexport enter chain file specifier clause)
        (p.extractReexport enter' chain' file specifier clause) :=
      mirrors_extractReexport fun s hs => henter s clause (by rw [Option.mem_def.mp hs])
    refine hreexport.bind fun extracted hextracted => ?_
    cases extracted with
    | error e =>
      cases e with
      | reexport e => exact mirrors_report.bind fun _ _ => mirrors_nothing
      | _ => exact mirrors_error _
    | ok ds => exact .pure hextracted rfl
  · exact mirrors_report.bind fun _ _ => mirrors_error _
  · refine (mirrors_each mirrors_extractVariable _).bind fun ds hds => .pure ?_ rfl
    exact List.forall_mem_map.mpr hds
  · refine (mirrors_extractVariable _).bind fun d hd => .pure ?_ rfl
    exact List.forall_mem_singleton.mpr hd
  · refine (mirrors_extractDeclaration ..).bind fun d hd => .pure ?_ rfl
    exact List.forall_mem_singleton.mpr hd

theorem mirrors_extractStatement (skipGenerics : Bool) (fileName : String) {statement : NodeId}
    (henter : ∀ s clause, p.form? statement = some (.exportDeclaration (some s) clause) →
      ∀ target id, p.moduleTarget file (unquoted s) = .ok (target, id) →
      Option.Rel (p.SameExtracted σ) (entry enter chain target id) (entry enter' chain' target id)) :
    p.SameExtracted σ (p.extractStatement skipGenerics enter chain file fileName statement)
      (p.extractStatement skipGenerics enter' chain' file fileName statement) := by
  unfold extractStatement
  split
  · exact mirrors_nothing
  · rename_i form hform
    split
    · exact mirrors_nothing
    · split
      · exact mirrors_report.bind fun _ _ => mirrors_nothing
      · refine mirrors_extractForm fileName statement fun s clause hexport => ?_
        exact henter s clause (hexport ▸ hform)

/-- Two extractions of a file differ by the files it takes from, at most. -/
theorem mirrors_extractNamed (skipGenerics : Bool) {fileName : String}
    (henter : ∀ file, p.sourceFile? fileName = some file → ∀ target id, p.Reexports file target →
      p.sourceFile? target = some id → Option.Rel (p.SameExtracted σ)
        (entry enter (chain ++ [file]) target id) (entry enter' (chain' ++ [file]) target id)) :
    p.SameExtracted σ (p.extractNamed skipGenerics enter chain fileName)
      (p.extractNamed skipGenerics enter' chain' fileName) := by
  unfold extractNamed
  split
  · exact mirrors_error _
  · rename_i file hfile
    refine mirrors_report.bind fun _ _ => mirrors_extractAll fun statement hstatement => ?_
    refine mirrors_extractStatement skipGenerics fileName fun s clause hform target id htarget => ?_
    obtain ⟨hresolve, hid⟩ := moduleTarget_eq_ok.mp htarget
    exact henter file hfile target id ⟨statement, hstatement, s, clause, hform, hresolve⟩ hid

end Statements

theorem sameEntry_refl {enter : Option Extractor} {chain : List FileId} {target : String}
    (henter : ∀ e ∈ enter, p.YieldsExtracted σ (e chain target)) (id : FileId) :
    Option.Rel (p.SameExtracted σ) (entry enter chain target id) (entry enter chain target id) := by
  unfold entry
  split
  · exact .none
  · cases enter with
    | none => exact .none
    | some e => exact .some (henter e rfl)

theorem mirrors_extractFile (skipGenerics : Bool) (room : Nat) (chain : List FileId)
    (fileName : String) :
    p.YieldsExtracted σ (p.extractFile skipGenerics room chain fileName) := by
  induction room generalizing chain fileName with
  | zero =>
    refine mirrors_extractNamed skipGenerics fun file _ target id _ _ => ?_
    exact sameEntry_refl (fun e he => absurd he (Option.not_mem_none e)) id
  | succ room ih =>
    refine mirrors_extractNamed skipGenerics fun file _ target id _ _ => ?_
    exact sameEntry_refl (fun e he => Option.some.inj he ▸ ih (chain ++ [file]) target) id

theorem sameEntry_inner (p : Program) (skipGenerics : Bool) (room : Nat) (chain : List FileId)
    (target : String) (id : FileId) :
    Option.Rel (p.SameExtracted σ) (entry (p.inner skipGenerics room) chain target id)
      (entry (p.inner skipGenerics room) chain target id) := by
  refine sameEntry_refl (fun e he => ?_) id
  cases room with
  | zero => cases he
  | succ room =>
    cases he
    exact mirrors_extractFile ..

theorem mirrors_extractExport (skipGenerics : Bool) (node : NodeId) :
    p.YieldsExtracted σ (p.extractExport skipGenerics node) := by
  unfold extractExport
  split
  · split
    · refine mirrors_extractReexport fun s _ target id _ => sameEntry_refl (fun e he => ?_) id
      cases he
      exact mirrors_extractFile ..
    · exact mirrors_report.bind fun _ _ => mirrors_error _
  · exact mirrors_error _

end

/-! ## Open ways -/

/-- From a file the same routes are open after either chain of files, and there is room for them. -/
structure OpenAlike (p : Program) (file : FileId) (chain chain' : List FileId) (room room' : Nat) :
    Prop where
  fresh : file ∉ chain
  routes : ∀ rest, p.Route chain (file :: rest) ↔ p.Route chain' (file :: rest)
  room : ∀ rest, p.Route chain (file :: rest) → rest.length ≤ room ∧ rest.length ≤ room'

namespace OpenAlike

variable {p : Program} {file next : FileId} {chain chain' : List FileId} {room room' : Nat}

theorem fresh' (h : p.OpenAlike file chain chain' room room') : file ∉ chain' :=
  route_singleton.mp ((h.routes []).mp (route_singleton.mpr h.fresh))

/-- A file that can be taken from is entered after both chains or after none. -/
theorem mem_iff (h : p.OpenAlike file chain chain' room room') (htakes : p.TakesFrom file next) :
    next ∈ chain ++ [file] ↔ next ∈ chain' ++ [file] := by
  have hroutes := h.routes [next]
  simp only [route_cons_cons, route_singleton, h.fresh, h.fresh', htakes, not_false_eq_true,
    true_and] at hroutes
  exact not_iff_not.mp hroutes

theorem room_pos (h : p.OpenAlike file chain chain' room room') (htakes : p.TakesFrom file next)
    (hnext : next ∉ chain ++ [file]) : 1 ≤ room ∧ 1 ≤ room' :=
  h.room [next] (route_cons_cons.mpr ⟨h.fresh, htakes, route_singleton.mpr hnext⟩)

theorem step (h : p.OpenAlike file chain chain' (room + 1) (room' + 1))
    (htakes : p.TakesFrom file next) (hnext : next ∉ chain ++ [file]) :
    p.OpenAlike next (chain ++ [file]) (chain' ++ [file]) room room' where
  fresh := hnext
  routes rest := by
    have hroutes := h.routes (next :: rest)
    simpa only [route_cons_cons, h.fresh, h.fresh', htakes, not_false_eq_true, true_and]
      using hroutes
  room rest hrest := by
    have hroom := h.room (next :: rest) (route_cons_cons.mpr ⟨h.fresh, htakes, hrest⟩)
    simpa using hroom

end OpenAlike

/-- Two extractions of a file give the same if the same routes are open to them, with room. -/
theorem mirrors_extractFile_of_openAlike {p : Program} {σ : String → String} (skipGenerics : Bool)
    {fileName : String} {chain chain' : List FileId} {room room' : Nat}
    (h : ∀ file, p.sourceFile? fileName = some file → p.OpenAlike file chain chain' room room') :
    p.SameExtracted σ (p.extractFile skipGenerics room chain fileName)
      (p.extractFile skipGenerics room' chain' fileName) := by
  -- on the room of the first extraction; the other has room whenever a route is open
  induction room using Nat.strongRecOn generalizing room' chain chain' fileName with
  | ind room ih =>
    rw [extractFile_eq, extractFile_eq]
    refine mirrors_extractNamed skipGenerics fun file hfile target id htarget hid => ?_
    have halike := h file hfile
    have htakes : p.TakesFrom file id := ⟨target, htarget, hid⟩
    by_cases hmem : id ∈ chain ++ [file]
    · rw [entry_of_mem hmem, entry_of_mem ((halike.mem_iff htakes).mp hmem)]
      exact .none
    · have hmem' : id ∉ chain' ++ [file] := fun h => hmem ((halike.mem_iff htakes).mpr h)
      obtain ⟨hroom, hroom'⟩ := halike.room_pos htakes hmem
      obtain ⟨inner, rfl⟩ := Nat.exists_eq_add_of_le' hroom
      obtain ⟨inner', rfl⟩ := Nat.exists_eq_add_of_le' hroom'
      rw [entry_of_not_mem hmem, entry_of_not_mem hmem']
      refine .some (ih inner (Nat.lt_succ_self _) fun other hother => ?_)
      rw [Option.some.inj (hother.symm.trans hid)]
      exact halike.step htakes hmem

end PortableTypes.Program
