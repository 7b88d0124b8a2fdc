import PortableTypes.Proofs.Projection.Extraction

/-!
# When extraction fails

A file that is there has declarations, unless a variable statement without variables is met: in the
file itself, or in a file that is reached along a route with room for it. Every other trouble on the
way is a re-export that leads nowhere, and is passed over.
-/
namespace PortableTypes

namespace Projecting

variable {α β : Type} {P : α → Prop} {Q : β → Prop}

/-- `P` holds of the result, wherever the projection starts. -/
def Always (P : α → Prop) (x : Projecting α) : Prop := ∀ g n, P (x g n).value

theorem Always.pure {a : α} (h : P a) : Always P (Pure.pure a : Projecting α) := fun _ _ => h

theorem Always.bind {x : Projecting α} {f : α → Projecting β} (hx : Always P x)
    (hf : ∀ a, P a → Always Q (f a)) : Always Q (x >>= f) :=
  fun g n => hf _ (hx g n) g _

theorem Always.map {x : Projecting α} {f : α → β} (hx : Always P x) (hf : ∀ a, P a → Q (f a)) :
    Always Q (f <$> x) :=
  fun g n => hf _ (hx g n)

/-- Nothing need be known of what comes first. -/
theorem Always.after {x : Projecting α} {f : α → Projecting β} (hf : ∀ a, Always Q (f a)) :
    Always Q (x >>= f) :=
  fun g _ => hf _ g _

end Projecting

namespace Program

open Projecting

/-- A variable statement without variables, which is not left out. -/
structure IsEmptyStatement (p : Program) (skipGenerics : Bool) (statement : NodeId) : Prop where
  form : ∃ exported, p.form? statement = some (.variableStatement exported [])
  kept : ¬ (skipGenerics = true ∧ p.isGeneric statement = true)

def HasEmptyStatement (p : Program) (skipGenerics : Bool) (file : FileId) : Prop :=
  ∃ statement ∈ p.statements file, p.IsEmptyStatement skipGenerics statement

/-- With a fault, an extraction fails for a variable statement without variables; without, it gives
declarations. -/
def Settled (fault : Prop) : Extracted → Prop
  | .ok _ => ¬ fault
  | .error (.violation _ v) => fault ∧ v = .emptyVariableStatement
  | .error _ => False

theorem Settled.cases {fault : Prop} {r : Extracted} (h : Settled fault r) :
    (¬ fault ∧ ∃ ds, r = .ok ds) ∨
      fault ∧ ∃ fileName, r = .error (.violation fileName .emptyVariableStatement) := by
  cases r with
  | ok ds => exact .inl ⟨h, ds, rfl⟩
  | error e =>
    cases e with
    | violation fileName v =>
      obtain ⟨hfault, rfl⟩ := h
      exact .inr ⟨hfault, fileName, rfl⟩
    | fileNotFound | nodeNotFound | reexport => exact h.elim

/-- As for an extraction, but a re-export without a fault may also lead nowhere. -/
def SettledReexport (fault : Prop) (r : Extracted) : Prop :=
  Settled fault r ∨ (¬ fault ∧ ∃ e, r = .error (.reexport e))

section

variable {p : Program} {enter : Option Extractor} {chain : List FileId} {file : FileId}

theorem settled_extractAll {extract : NodeId → Projecting Extracted} {fault : NodeId → Prop}
    {statements : List NodeId}
    (h : ∀ node ∈ statements, Always (Settled (fault node)) (extract node)) :
    Always (Settled (∃ node ∈ statements, fault node)) (extractAll extract statements) := by
  induction statements with
  | nil =>
    refine .pure ?_
    rintro ⟨node, hnode, -⟩
    exact List.not_mem_nil hnode
  | cons statement rest ih =>
    obtain ⟨hstatement, hrest⟩ := List.forall_mem_cons.mp h
    refine hstatement.bind fun first hfirst => ?_
    cases first with
    | error e =>
      cases e with
      | violation fileName v =>
        exact .pure ⟨⟨statement, List.mem_cons_self, hfirst.1⟩, hfirst.2⟩
      | _ => exact hfirst.elim
    | ok ds =>
      refine (ih hrest).bind fun more hmore => ?_
      cases more with
      | error e =>
        cases e with
        | violation fileName v =>
          obtain ⟨⟨node, hnode, hfault⟩, hv⟩ := hmore
          exact .pure ⟨⟨node, List.mem_cons_of_mem _ hnode, hfault⟩, hv⟩
        | _ => exact hmore.elim
      | ok more =>
        refine .pure ?_
        rintro ⟨node, hnode, hfault⟩
        obtain rfl | hnode := List.mem_cons.mp hnode
        · exact hfirst hfault
        · exact hmore ⟨node, hnode, hfault⟩

/-- A re-export keeps the failure of the file it leads to. -/
theorem settledReexport_reexported {fault : Prop} {r : Extracted} (h : Settled fault r)
    (specifier : String) (clause : Option ExportClause) :
    SettledReexport fault (reexported specifier clause r) := by
  cases r with
  | error e =>
    cases e with
    | violation fileName v => exact .inl h
    | _ => exact h.elim
  | ok ds =>
    cases clause with
    | none => exact .inr ⟨h, _, rfl⟩
    | some clause =>
      cases clause with
      | everything => exact .inr ⟨h, _, rfl⟩
      | named items => exact .inl h

/-- An export declaration that names a module leads into a file with a fault. -/
def EntersFault (p : Program) (fault : FileId → Prop) (enter : Option Extractor)
    (chain : List FileId) (file : FileId) (specifier : String) : Prop :=
  ∃ target id, p.moduleTarget file (unquoted specifier) = .ok (target, id) ∧
    (entry enter chain target id).isSome ∧ fault id

section

variable {fault : FileId → Prop}
  (henter : ∀ target id, p.sourceFile? target = some id → ∀ x ∈ entry enter chain target id,
    Always (Settled (fault id)) x)
include henter

theorem settled_extractReexport (specifier : Option String) (clause : Option ExportClause) :
    Always (SettledReexport (∃ s ∈ specifier, p.EntersFault fault enter chain file s))
      (p.extractReexport enter chain file specifier clause) := by
  cases specifier with
  | none => exact .pure (.inr ⟨by simp, _, rfl⟩)
  | some specifier =>
    simp only [Option.mem_some, exists_eq_left']
    cases htarget : p.moduleTarget file (unquoted specifier) with
    | error reason =>
      rw [extractReexport_of_error htarget]
      exact .pure (.inr ⟨by simp [EntersFault, htarget], _, rfl⟩)
    | ok found =>
      obtain ⟨target, id⟩ := found
      rw [extractReexport_of_ok htarget]
      cases hentry : entry enter chain target id with
      | none =>
        refine .after fun _ => .pure (.inr ⟨?_, _, rfl⟩)
        simp [EntersFault, htarget, hentry]
      | some x =>
        have hx := henter target id (moduleTarget_eq_ok.mp htarget).2 x hentry
        have hfault : p.EntersFault fault enter chain file specifier ↔ fault id := by
          simp [EntersFault, htarget, hentry]
        rw [hfault]
        exact hx.map fun r hr => settledReexport_reexported hr _ _

theorem settled_extractForm (fileName : String) (statement : NodeId) (form : Form) :
    Always
      (Settled ((∃ exported, form = .variableStatement exported []) ∨
        ∃ s clause, form = .exportDeclaration (some s) clause ∧
          p.EntersFault fault enter chain file s))
      (p.extractForm enter chain file fileName statement form) := by
  cases form with
  | exportDeclaration specifier clause =>
    have hfault : ((∃ exported, Form.exportDeclaration specifier clause =
        .variableStatement exported []) ∨
        ∃ s clause', Form.exportDeclaration specifier clause = .exportDeclaration (some s) clause' ∧
          p.EntersFault fault enter chain file s) ↔
        ∃ s ∈ specifier, p.EntersFault fault enter chain file s := by
      simp
    rw [hfault, extractForm]
    refine (settled_extractReexport henter specifier clause).bind fun r hr => ?_
    obtain hr | ⟨hsound, e, rfl⟩ := hr
    · cases r with
      | error e =>
        cases e with
        | violation fileName v => exact .pure hr
        | _ => exact hr.elim
      | ok ds => exact .pure hr
    · exact .after fun _ => .pure hsound
  | variableStatement exported nodes =>
    cases nodes with
    | nil => exact .after fun _ => .pure ⟨.inl ⟨exported, rfl⟩, rfl⟩
    | cons node nodes => exact .after fun _ => .pure (by simp [Settled])
  | _ => exact .after fun _ => .pure (by simp [Settled])

theorem settled_extractStatement (skipGenerics : Bool) (fileName : String) (statement : NodeId) :
    Always
      (Settled (p.IsEmptyStatement skipGenerics statement ∨
        ∃ s clause, p.form? statement = some (.exportDeclaration (some s) clause) ∧
          p.EntersFault fault enter chain file s))
      (p.extractStatement skipGenerics enter chain file fileName statement) := by
  unfold extractStatement
  cases hform : p.form? statement with
  | none =>
    refine .pure ?_
    rintro (⟨⟨exported, h⟩, -⟩ | ⟨s, clause, h, -⟩)
    · simp [hform] at h
    · simp at h
  | some form =>
    have hempty : p.IsEmptyStatement skipGenerics statement ↔
        (∃ exported, form = .variableStatement exported []) ∧
          ¬ (skipGenerics = true ∧ p.isGeneric statement = true) := by
      constructor
      · rintro ⟨⟨exported, h⟩, hkept⟩
        exact ⟨⟨exported, Option.some.inj (hform.symm.trans h)⟩, hkept⟩
      · rintro ⟨⟨exported, rfl⟩, hkept⟩
        exact ⟨⟨exported, hform⟩, hkept⟩
    simp only [hempty, Option.some.injEq]
    split
    · rename_i hkind
      refine .pure ?_
      rintro (⟨⟨exported, rfl⟩, -⟩ | ⟨s, clause, rfl, -⟩) <;> simp [Form.isExtractable] at hkind
    · split
      · rename_i hskipped
        refine .after fun _ => .pure ?_
        rintro (⟨-, hkept⟩ | ⟨s, clause, rfl, -⟩)
        · simp_all
        · simp [Form.isExport] at hskipped
      · rename_i hkept
        have hkeeps : ((∃ exported, form = .variableStatement exported []) ∧
            ¬ (skipGenerics = true ∧ p.isGeneric statement = true)) ↔
            ∃ exported, form = .variableStatement exported [] := by
          refine and_iff_left_of_imp ?_
          rintro ⟨exported, rfl⟩
          simpa [Form.isExport] using hkept
        rw [hkeeps]
        exact settled_extractForm henter fileName statement form

end

theorem settled_extractNamed {fault : FileId → Prop} (skipGenerics : Bool) {fileName : String}
    (hfile : p.sourceFile? fileName = some file)
    (henter : ∀ target id, p.sourceFile? target = some id →
      ∀ x ∈ entry enter (chain ++ [file]) target id, Always (Settled (fault id)) x) :
    Always
      (Settled (p.HasEmptyStatement skipGenerics file ∨
        ∃ target id, p.Reexports file target ∧ p.sourceFile? target = some id ∧
          (entry enter (chain ++ [file]) target id).isSome ∧ fault id))
      (p.extractNamed skipGenerics enter chain fileName) := by
  simp only [extractNamed, hfile]
  refine .after fun _ => ?_
  have hfault : (p.HasEmptyStatement skipGenerics file ∨
      ∃ target id, p.Reexports file target ∧ p.sourceFile? target = some id ∧
        (entry enter (chain ++ [file]) target id).isSome ∧ fault id) ↔
      ∃ statement ∈ p.statements file, p.IsEmptyStatement skipGenerics statement ∨
        ∃ s clause, p.form? statement = some (.exportDeclaration (some s) clause) ∧
          p.EntersFault fault enter (chain ++ [file]) file s := by
    constructor
    · rintro (⟨statement, hmem, hempty⟩ |
        ⟨target, id, ⟨statement, hmem, s, clause, hform, hresolve⟩, hid, hentry, hfault⟩)
      · exact ⟨statement, hmem, .inl hempty⟩
      · have htarget := moduleTarget_eq_ok.mpr ⟨hresolve, hid⟩
        exact ⟨statement, hmem, .inr ⟨s, clause, hform, target, id, htarget, hentry, hfault⟩⟩
    · rintro ⟨statement, hmem, hempty | ⟨s, clause, hform, target, id, htarget, hentry, hfault⟩⟩
      · exact .inl ⟨statement, hmem, hempty⟩
      · obtain ⟨hresolve, hid⟩ := moduleTarget_eq_ok.mp htarget
        exact .inr ⟨target, id, ⟨statement, hmem, s, clause, hform, hresolve⟩, hid, hentry, hfault⟩
  rw [hfault]
  exact settled_extractAll fun statement _ =>
    settled_extractStatement henter skipGenerics fileName statement

end

/-- A fault is met along a route from a file, with room for so many files after it. -/
def MeetsFault (p : Program) (skipGenerics : Bool) (room : Nat) (chain : List FileId)
    (file : FileId) : Prop :=
  ∃ rest, p.Route chain (file :: rest) ∧ rest.length ≤ room ∧
    ∃ last ∈ (file :: rest).getLast?, p.HasEmptyStatement skipGenerics last

/-- A fault is met in the file itself or on the way from a file it takes from. -/
theorem meetsFault_iff {p : Program} {skipGenerics : Bool} {room : Nat} {chain : List FileId}
    {file : FileId} (hfresh : file ∉ chain) :
    p.MeetsFault skipGenerics room chain file ↔
      p.HasEmptyStatement skipGenerics file ∨
        ∃ next, p.TakesFrom file next ∧ next ∉ chain ++ [file] ∧ 1 ≤ room ∧
          p.MeetsFault skipGenerics (room - 1) (chain ++ [file]) next := by
  constructor
  · rintro ⟨rest, hroute, hroom, last, hlast, hempty⟩
    cases rest with
    | nil =>
      obtain rfl : file = last := by simpa using hlast
      exact .inl hempty
    | cons next rest =>
      obtain ⟨-, htakes, hrest⟩ := route_cons_cons.mp hroute
      have hlength : rest.length + 1 ≤ room := hroom
      refine .inr ⟨next, htakes, hrest.fresh next List.mem_cons_self, by omega, rest, hrest,
        by omega, last, ?_, hempty⟩
      simpa using hlast
  · rintro (hempty | ⟨next, htakes, -, hroom, rest, hrest, hlength, last, hlast, hempty⟩)
    · exact ⟨[], route_singleton.mpr hfresh, Nat.zero_le _, file, rfl, hempty⟩
    · refine ⟨next :: rest, route_cons_cons.mpr ⟨hfresh, htakes, hrest⟩, ?_, last, ?_, hempty⟩
      · rw [List.length_cons]
        omega
      · simpa using hlast

theorem settled_extractFile {p : Program} (skipGenerics : Bool) {room : Nat} {chain : List FileId}
    {fileName : String} {file : FileId} (hfile : p.sourceFile? fileName = some file)
    (hfresh : file ∉ chain) :
    Always (Settled (p.MeetsFault skipGenerics room chain file))
      (p.extractFile skipGenerics room chain fileName) := by
  induction room using Nat.strongRecOn generalizing chain fileName file with
  | ind room ih =>
    -- a file that is entered has its faults on what is left of a route through the one before
    have hinner (target : String) (id : FileId) (hid : p.sourceFile? target = some id)
        (x : Projecting Extracted)
        (hx : x ∈ entry (p.inner skipGenerics room) (chain ++ [file]) target id) :
        Always (Settled (p.MeetsFault skipGenerics (room - 1) (chain ++ [file]) id)) x := by
      obtain ⟨hnew, smaller, rfl, rfl⟩ := mem_entry_inner.mp hx
      exact ih smaller (Nat.lt_succ_self _) hid hnew
    have hnamed := settled_extractNamed skipGenerics hfile hinner
    have hfault : (p.HasEmptyStatement skipGenerics file ∨
        ∃ target id, p.Reexports file target ∧ p.sourceFile? target = some id ∧
          (entry (p.inner skipGenerics room) (chain ++ [file]) target id).isSome ∧
            p.MeetsFault skipGenerics (room - 1) (chain ++ [file]) id) ↔
        p.MeetsFault skipGenerics room chain file := by
      rw [meetsFault_iff hfresh]
      simp only [isSome_entry_inner, TakesFrom]
      refine or_congr_right ?_
      constructor
      · rintro ⟨target, id, htarget, hid, ⟨hnew, hroom⟩, hfault⟩
        exact ⟨id, ⟨target, htarget, hid⟩, hnew, hroom, hfault⟩
      · rintro ⟨id, ⟨target, htarget, hid⟩, hnew, hroom, hfault⟩
        exact ⟨target, id, htarget, hid, ⟨hnew, hroom⟩, hfault⟩
    rw [hfault] at hnamed
    rw [extractFile_eq]
    exact hnamed

/-- A file that is entered from another comes to the faults on the routes that are left. -/
theorem settled_entry_inner {p : Program} (skipGenerics : Bool) (room : Nat) (chain : List FileId)
    {target : String} {id : FileId} (hid : p.sourceFile? target = some id)
    {x : Projecting Extracted} (hx : x ∈ entry (p.inner skipGenerics room) chain target id) :
    Always (Settled (p.MeetsFault skipGenerics (room - 1) chain id)) x := by
  obtain ⟨hnew, smaller, rfl, rfl⟩ := mem_entry_inner.mp hx
  exact settled_extractFile skipGenerics hid hnew

end Program
end PortableTypes
