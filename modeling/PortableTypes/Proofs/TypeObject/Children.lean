import PortableTypes.TypeObject.Basic

/-!
# Children of a type object

A type object holds other type objects directly or in lists. What is proved of a type object from
its children holds of every type object, and the numbers of a type object, which are the only
literals that may not survive being written down, contain those of its children.
-/
namespace PortableTypes

/-- The number that a literal is, if it is one. -/
def Literal.number? : Literal → Option Binary64
  | .number x => some x
  | .null | .boolean _ | .string _ | .bigInteger _ => none

namespace TypeObject

/-- The type objects directly inside a type object. -/
def children : TypeObject → List TypeObject
  | .array _ child _ | .promise child _ | .promiseLike child _ => [child]
  | .tuple _ items _ => items
  | .union _ first second rest _ => first :: second :: rest
  | .callable arguments result _ => arguments.map Prod.snd ++ [result]
  | .primitive .. | .special .. | .literal .. | .enum .. | .object .. | .unsupported .. => []

/-- Induction on type objects, with a hypothesis on every child. -/
@[elab_as_elim, induction_eliminator]
theorem inductionOn {motive : TypeObject → Prop}
    (step : ∀ t, (∀ c ∈ t.children, motive c) → motive t) (t : TypeObject) : motive t :=
  -- one case per constructor, then one per way to build a list of items or of arguments
  @TypeObject.rec motive (fun ts => ∀ t ∈ ts, motive t) (fun as => ∀ a ∈ as, motive a.2)
    (fun a => motive a.2)
    (fun _ _ => step _ (List.forall_mem_nil _))
    (fun _ _ => step _ (List.forall_mem_nil _))
    (fun _ _ => step _ (List.forall_mem_nil _))
    (fun _ _ _ hchild => step _ (List.forall_mem_singleton.mpr hchild))
    (fun _ _ _ hitems => step _ hitems)
    (fun _ _ _ _ _ hfirst hsecond hrest => step _
      (List.forall_mem_cons.mpr ⟨hfirst, List.forall_mem_cons.mpr ⟨hsecond, hrest⟩⟩))
    (fun _ _ _ => step _ (List.forall_mem_nil _))
    (fun _ _ _ harguments hresult => step _ (List.forall_mem_append.mpr
      ⟨List.forall_mem_map.mpr harguments, List.forall_mem_singleton.mpr hresult⟩))
    (fun _ _ hchild => step _ (List.forall_mem_singleton.mpr hchild))
    (fun _ _ hchild => step _ (List.forall_mem_singleton.mpr hchild))
    (fun _ _ _ => step _ (List.forall_mem_nil _))
    (fun _ _ _ => step _ (List.forall_mem_nil _))
    (List.forall_mem_nil _) (fun _ _ ht hts => List.forall_mem_cons.mpr ⟨ht, hts⟩)
    (List.forall_mem_nil _) (fun _ _ ha has => List.forall_mem_cons.mpr ⟨ha, has⟩)
    (fun _ _ ht => ht) t

mutual

/-- The numbers among the literals of a type object, those of enumerations included. -/
def numbers : TypeObject → List Binary64
  | .literal value _ => value.number?.toList
  | .enum _ members _ => members.filterMap (·.value.value.number?)
  | .array _ child _ | .promise child _ | .promiseLike child _ => numbers child
  | .tuple _ items _ => numbersOfItems items
  | .union _ first second rest _ => numbers first ++ numbers second ++ numbersOfItems rest
  | .callable arguments result _ => numbersOfArguments arguments ++ numbers result
  | .primitive .. | .special .. | .object .. | .unsupported .. => []
termination_by structural t => t

def numbersOfItems : List TypeObject → List Binary64
  | [] => []
  | t :: ts => numbers t ++ numbersOfItems ts
termination_by structural ts => ts

def numbersOfArguments : List (String × TypeObject) → List Binary64
  | [] => []
  | (_, t) :: as => numbers t ++ numbersOfArguments as
termination_by structural as => as

end

theorem numbersOfItems_eq (ts : List TypeObject) : numbersOfItems ts = ts.flatMap numbers := by
  induction ts with
  | nil => rfl
  | cons t ts ih => simp [numbersOfItems, ih]

theorem numbersOfArguments_eq (as : List (String × TypeObject)) :
    numbersOfArguments as = as.flatMap fun a => a.2.numbers := by
  induction as with
  | nil => rfl
  | cons a as ih => simp [numbersOfArguments, ih]

/-- The numbers of a child are numbers of its parent. -/
theorem numbers_subset {t c : TypeObject} (hc : c ∈ t.children) : c.numbers ⊆ t.numbers := by
  intro x hx
  cases t with
  | tuple typeName items locations =>
    rw [numbers, numbersOfItems_eq]
    exact List.mem_flatMap.mpr ⟨c, hc, hx⟩
  | union typeName first second rest locations =>
    simp only [children, List.mem_cons] at hc
    simp only [numbers, numbersOfItems_eq, List.mem_append, List.mem_flatMap]
    obtain rfl | rfl | hc := hc
    · exact .inl (.inl hx)
    · exact .inl (.inr hx)
    · exact .inr ⟨c, hc, hx⟩
  | callable arguments result locations =>
    simp only [children, List.mem_append, List.mem_map, List.mem_singleton] at hc
    simp only [numbers, numbersOfArguments_eq, List.mem_append, List.mem_flatMap]
    obtain ⟨a, ha, rfl⟩ | rfl := hc
    · exact .inl ⟨a, ha, hx⟩
    · exact .inr hx
  | array _ child _ | promise child _ | promiseLike child _ =>
    rw [children, List.mem_singleton] at hc
    subst hc
    exact hx
  | primitive | special | literal | enum | object | unsupported =>
    exact absurd hc List.not_mem_nil

end TypeObject
end PortableTypes
