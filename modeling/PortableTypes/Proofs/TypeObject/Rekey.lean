import PortableTypes.Projection.Extraction
import PortableTypes.Proofs.TypeObject.Children

/-!
# Type objects under other keys

The same type object with its store keys replaced, wherever they stand.
-/
namespace PortableTypes

namespace TypeObject

mutual

/-- The type object with every store key replaced. -/
def rekey (σ : String → String) : TypeObject → TypeObject
  | .object typeName storeKey locations => .object typeName (σ storeKey) locations
  | .array typeName child locations => .array typeName (rekey σ child) locations
  | .tuple typeName items locations => .tuple typeName (rekeyItems σ items) locations
  | .union typeName first second rest locations =>
    .union typeName (rekey σ first) (rekey σ second) (rekeyItems σ rest) locations
  | .callable arguments result locations =>
    .callable (rekeyArguments σ arguments) (rekey σ result) locations
  | .promise child locations => .promise (rekey σ child) locations
  | .promiseLike child locations => .promiseLike (rekey σ child) locations
  | .primitive kind locations => .primitive kind locations
  | .special kind locations => .special kind locations
  | .literal value locations => .literal value locations
  | .enum typeName members locations => .enum typeName members locations
  | .unsupported gap typeText locations => .unsupported gap typeText locations
termination_by structural t => t

def rekeyItems (σ : String → String) : List TypeObject → List TypeObject
  | [] => []
  | t :: ts => rekey σ t :: rekeyItems σ ts
termination_by structural ts => ts

def rekeyArguments (σ : String → String) : List (String × TypeObject) → List (String × TypeObject)
  | [] => []
  | (name, t) :: as => (name, rekey σ t) :: rekeyArguments σ as
termination_by structural as => as

end

theorem rekeyItems_eq (σ : String → String) (ts : List TypeObject) :
    rekeyItems σ ts = ts.map (rekey σ) := by
  induction ts with
  | nil => rfl
  | cons t ts ih => rw [rekeyItems, ih, List.map_cons]

/-- An argument of a callable with every store key replaced. -/
def rekeyArgument (σ : String → String) (a : String × TypeObject) : String × TypeObject :=
  (a.1, a.2.rekey σ)

theorem rekeyArguments_eq (σ : String → String) (as : List (String × TypeObject)) :
    rekeyArguments σ as = as.map (rekeyArgument σ) := by
  induction as with
  | nil => rfl
  | cons a as ih => rw [rekeyArguments, ih, List.map_cons, rekeyArgument]

/-- Keys that are replaced twice. -/
theorem rekey_rekey (σ τ : String → String) (t : TypeObject) :
    (t.rekey σ).rekey τ = t.rekey (τ ∘ σ) := by
  induction t with
  | step t ih =>
    cases t with
    | array _ child _ | promise child _ | promiseLike child _ =>
      have hchild := ih child (List.mem_singleton_self _)
      simp only [rekey, hchild]
    | tuple typeName items locations =>
      have hitems : (items.map (rekey σ)).map (rekey τ) = items.map (rekey (τ ∘ σ)) := by
        rw [List.map_map]
        exact List.map_congr_left ih
      simp only [rekey, rekeyItems_eq, hitems]
    | union typeName first second rest locations =>
      obtain ⟨hfirst, hothers⟩ := List.forall_mem_cons.mp ih
      obtain ⟨hsecond, hrest⟩ := List.forall_mem_cons.mp hothers
      have hmembers : (rest.map (rekey σ)).map (rekey τ) = rest.map (rekey (τ ∘ σ)) := by
        rw [List.map_map]
        exact List.map_congr_left hrest
      simp only [rekey, rekeyItems_eq, hfirst, hsecond, hmembers]
    | callable arguments result locations =>
      obtain ⟨harguments, hresult⟩ := List.forall_mem_append.mp ih
      have hresult := List.forall_mem_singleton.mp hresult
      have hsame : (arguments.map (rekeyArgument σ)).map (rekeyArgument τ) =
          arguments.map (rekeyArgument (τ ∘ σ)) := by
        rw [List.map_map]
        refine List.map_congr_left fun a ha => ?_
        have hargument := harguments a.2 (List.mem_map_of_mem ha)
        simp only [Function.comp, rekeyArgument, hargument]
      simp only [rekey, rekeyArguments_eq, hresult, hsame]
    | primitive | special | literal | enum | object | unsupported => rfl

/-- The type object without store keys. -/
def erased (t : TypeObject) : TypeObject := t.rekey fun _ => ""

theorem erased_rekey (σ : String → String) (t : TypeObject) : (t.rekey σ).erased = t.erased :=
  rekey_rekey ..

/-- Where nothing is inside and there is no key of its own, nothing is erased. -/
theorem eq_of_erased_eq {t u : TypeObject} (h : t.erased = u) (hchildren : u.children = [])
    (hkey : u.storeKey? = none) : t = u := by
  subst h
  cases t with
  | array | promise | promiseLike | union => cases hchildren
  | tuple typeName items locations =>
    simp only [erased, rekey, rekeyItems_eq, children, List.map_eq_nil_iff] at hchildren
    subst hchildren
    rfl
  | callable arguments result locations =>
    exact absurd hchildren (List.append_ne_nil_of_right_ne_nil _ (List.cons_ne_nil _ _))
  | object => cases hkey
  | primitive | special | literal | enum | unsupported => rfl

end TypeObject

def Declaration.rekey (σ : String → String) (d : Declaration) : Declaration :=
  { d with type := d.type.rekey σ }

/-- The declaration without store keys. -/
def Declaration.erased (d : Declaration) : Declaration := d.rekey fun _ => ""

def Property.rekey (σ : String → String) (q : Property) : Property :=
  { q with type := q.type.rekey σ }

/-- A name picks the same declaration, whatever its keys. -/
theorem ExportItem.pick_map_rekey (σ : String → String) (items : List ExportItem)
    (ds : List Declaration) :
    ExportItem.pick items (ds.map (·.rekey σ)) = (ExportItem.pick items ds).map (·.rekey σ) := by
  unfold ExportItem.pick
  rw [List.map_filterMap]
  congr 1
  funext item
  rw [List.find?_map, Option.map_map, Option.map_map]
  rfl

namespace Program.Extracted

/-- The types of the declarations that were extracted. -/
def types : Extracted → List TypeObject
  | .ok ds => ds.map (·.type)
  | .error _ => []

def rekey (σ : String → String) : Extracted → Extracted
  | .ok ds => .ok (ds.map (·.rekey σ))
  | .error e => .error e

theorem rekey_rekey (σ τ : String → String) (r : Extracted) :
    (r.rekey σ).rekey τ = r.rekey (τ ∘ σ) := by
  cases r with
  | error e => rfl
  | ok ds =>
    have hds : (ds.map (·.rekey σ)).map (·.rekey τ) = ds.map (·.rekey (τ ∘ σ)) := by
      rw [List.map_map]
      refine List.map_congr_left fun d _ => ?_
      simp only [Function.comp, Declaration.rekey, TypeObject.rekey_rekey]
    simp only [rekey, hds]

/-- What was extracted, without its store keys. -/
def erased (r : Extracted) : Extracted := r.rekey fun _ => ""

@[simp] theorem erased_rekey (σ : String → String) (r : Extracted) :
    (r.rekey σ).erased = r.erased :=
  rekey_rekey ..

theorem exists_of_erased_eq_ok {r : Extracted} {ds : List Declaration} (h : r.erased = .ok ds) :
    ∃ found, r = .ok found ∧ found.map Declaration.erased = ds := by
  cases r with
  | error e => cases h
  | ok found => exact ⟨found, rfl, Except.ok.inj h⟩

end Program.Extracted
end PortableTypes
