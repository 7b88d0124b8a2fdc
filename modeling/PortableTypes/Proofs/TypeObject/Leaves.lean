import PortableTypes.TypeObject.Basic

/-!
# The object types of a type object

The object types anywhere in a type object, from left to right, with what is said of each.
-/
namespace PortableTypes

/-- An object type in a type object. -/
structure ObjectLeaf where
  typeName : String
  storeKey : String
  locations : List Location
  deriving DecidableEq, Repr

namespace TypeObject

mutual

/-- The object types at any depth. The arguments of a callable stand before its result. -/
def leaves : TypeObject → List ObjectLeaf
  | .object typeName storeKey locations => [⟨typeName, storeKey, locations⟩]
  | .array _ child _ | .promise child _ | .promiseLike child _ => leaves child
  | .tuple _ items _ => leavesOfItems items
  | .union _ first second rest _ => leaves first ++ leaves second ++ leavesOfItems rest
  | .callable arguments result _ => leavesOfArguments arguments ++ leaves result
  | .primitive .. | .special .. | .literal .. | .enum .. | .unsupported .. => []
termination_by structural t => t

def leavesOfItems : List TypeObject → List ObjectLeaf
  | [] => []
  | t :: ts => leaves t ++ leavesOfItems ts
termination_by structural ts => ts

def leavesOfArguments : List (String × TypeObject) → List ObjectLeaf
  | [] => []
  | (_, t) :: as => leaves t ++ leavesOfArguments as
termination_by structural as => as

end

theorem leavesOfItems_eq (ts : List TypeObject) : leavesOfItems ts = ts.flatMap leaves := by
  induction ts with
  | nil => rfl
  | cons t ts ih => simp [leavesOfItems, ih]

theorem leavesOfArguments_eq (as : List (String × TypeObject)) :
    leavesOfArguments as = as.flatMap fun a => a.2.leaves := by
  induction as with
  | nil => rfl
  | cons a as ih => simp [leavesOfArguments, ih]

end TypeObject

namespace ObjectLeaf

/-- An object type alone, if it is in a list. -/
def among (leaf : ObjectLeaf) (ls : List ObjectLeaf) : List ObjectLeaf :=
  if leaf ∈ ls then [leaf] else []

theorem among_sublist (leaf : ObjectLeaf) (ls : List ObjectLeaf) : (leaf.among ls).Sublist ls := by
  unfold among
  split
  · rename_i h
    exact List.singleton_sublist.mpr h
  · exact List.nil_sublist _

theorem among_mono {leaf : ObjectLeaf} {ls more : List ObjectLeaf} (h : ls ⊆ more) :
    (leaf.among ls).Sublist (leaf.among more) := by
  by_cases hl : leaf ∈ ls
  · have hmore : leaf.among more = leaf.among ls := by
      rw [among, if_pos (h hl), among, if_pos hl]
    exact hmore ▸ .refl _
  · rw [among, if_neg hl]
    exact List.nil_sublist _

theorem among_append (leaf : ObjectLeaf) (ls more : List ObjectLeaf) :
    (leaf.among (ls ++ more)).Sublist (leaf.among ls ++ leaf.among more) := by
  by_cases hl : leaf ∈ ls
  · simp [among, hl]
  · simp [among, hl]

end ObjectLeaf

/-- The object types in a list of declarations, or in none. -/
def leavesOfExtracted {ε : Type} : Except ε (List Declaration) → List ObjectLeaf
  | .ok ds => ds.flatMap fun d => d.type.leaves
  | .error _ => []

end PortableTypes
