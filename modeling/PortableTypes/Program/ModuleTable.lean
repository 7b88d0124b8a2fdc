/-!
# Module tables

Where the module specifiers of a file lead. Recording a specifier again changes its target and keeps
its place, so no specifier stands twice in a table.
-/
namespace PortableTypes

/-- Records a target under a specifier. -/
def putEntry (specifier target : String) : List (String × String) → List (String × String)
  | [] => [(specifier, target)]
  | (s, t) :: es =>
    if s = specifier then (s, target) :: es else (s, t) :: putEntry specifier target es

theorem map_fst_putEntry (specifier target : String) (es : List (String × String)) :
    (putEntry specifier target es).map Prod.fst =
      if specifier ∈ es.map Prod.fst then es.map Prod.fst else es.map Prod.fst ++ [specifier] := by
  induction es with
  | nil => simp [putEntry]
  | cons e es ih =>
    obtain ⟨s, t⟩ := e
    by_cases h : s = specifier
    · simp [putEntry, h]
    · have h' : ¬specifier = s := fun e => h e.symm
      simp only [putEntry, h, if_false, List.map_cons, ih, List.mem_cons, h', false_or]
      split <;> simp

theorem nodup_putEntry (specifier target : String) {es : List (String × String)}
    (h : (es.map Prod.fst).Nodup) : ((putEntry specifier target es).map Prod.fst).Nodup := by
  rw [map_fst_putEntry]
  split
  · exact h
  · rename_i hs
    simp only [List.nodup_append, List.nodup_cons, List.not_mem_nil, not_false_eq_true,
      List.nodup_nil, and_self, List.mem_cons, or_false, forall_eq, true_and]
    exact ⟨h, fun a ha e => hs (e ▸ ha)⟩

/-- Targets of specifiers, in the order the specifiers were first recorded. -/
structure ModuleTable where
  entries : List (String × String)
  nodup : (entries.map Prod.fst).Nodup

namespace ModuleTable

def empty : ModuleTable := ⟨[], List.nodup_nil⟩

def insert (t : ModuleTable) (specifier target : String) : ModuleTable :=
  ⟨putEntry specifier target t.entries, nodup_putEntry specifier target t.nodup⟩

/-- The table of a list in which later entries go before earlier ones. -/
def ofList (es : List (String × String)) : ModuleTable :=
  es.foldl (fun t e => t.insert e.1 e.2) empty

def get? (t : ModuleTable) (specifier : String) : Option String :=
  (t.entries.find? (·.1 == specifier)).map Prod.snd

end ModuleTable
end PortableTypes
