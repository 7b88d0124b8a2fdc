import PortableTypes.Json.Record
import PortableTypes.Proofs.Json.Parts

/-!
# Decoding what was encoded

Every encoder writes the fields of a record as an object in their declared order, and leaves out at
most fields that have a default. `Row.Holds` says this of an object and a record, and an object
that holds a record decodes to it. Lists and tagged objects are treated the same way: if the
decoder of the parts gives the parts back, the decoder of the whole gives the whole back.
-/
namespace PortableTypes

namespace Row

/-- The declared names of a record. -/
def names : {σ ρ : Type} → Row σ ρ → List String
  | _, _, .done => []
  | _, _, .field name _ _ rest => name :: rest.names

/-- The fields of an object, in declared order, decode one by one to the parts of a record. A field
may be left out if its default is the part. -/
inductive Holds : {σ ρ : Type} → Row σ ρ → List (String × Json) → ρ → Prop
  | done : Holds .done [] ()
  | field {α σ ρ : Type} {name : String} {decode : Decoder α} {absent : Absent α} {rest : Row σ ρ}
      {j : Json} {a : α} {fields : List (String × Json)} {r : ρ} (here : decode j = .ok a)
      (there : Holds rest fields r) :
      Holds (.field name decode absent rest) ((name, j) :: fields) (a, r)
  | omitted {α σ ρ : Type} {name : String} {decode : Decoder α} {rest : Row σ ρ} {a : α}
      {fields : List (String × Json)} {r : ρ} (there : Holds rest fields r) :
      Holds (.field name decode (.default a) rest) fields (a, r)

/-- Fields with other names go past the first slot of a record. -/
theorem putAll_field {α σ ρ : Type} {own : String} (decode : Decoder α) (absent : Absent α)
    (rest : Row σ ρ) {fields : List (String × Json)} (hown : own ∉ fields.map Prod.fst)
    (slot : Option α) (slots : σ) :
    (Row.field own decode absent rest).putAll fields (slot, slots)
      = (slot, ·) <$> rest.putAll fields slots := by
  induction fields generalizing slots with
  | nil => rfl
  | cons f fields ih =>
    obtain ⟨name, j⟩ := f
    simp only [List.map_cons, List.mem_cons, not_or] at hown
    have hput : (Row.field own decode absent rest).put name j (slot, slots)
        = Option.map (slot, ·) <$> rest.put name j slots := by
      simp only [put, Ne.symm hown.1, if_false]
      rfl
    simp only [putAll, hput]
    rcases rest.put name j slots with e | (_ | s)
    · rfl
    · show (passOver j >>= fun _ => _) = _ <$> (passOver j >>= fun _ => _)
      cases passOver j with
      | error e => rfl
      | ok u => exact ih hown.2 slots
    · exact ih hown.2 s

namespace Holds

variable {σ ρ : Type} {row : Row σ ρ} {fields : List (String × Json)} {r : ρ}

theorem names_sublist (h : row.Holds fields r) : (fields.map Prod.fst).Sublist row.names := by
  induction h with
  | done => exact .slnil
  | field _ _ ih => exact ih.cons_cons _
  | omitted _ ih => exact ih.cons _

/-- The slots that the fields fill are those of the record. -/
theorem putAll_eq (h : row.Holds fields r) (hnames : row.names.Nodup) :
    ∃ s, row.putAll fields row.empty = .ok s ∧ row.finish s = .ok r := by
  induction h with
  | done => exact ⟨(), rfl, rfl⟩
  | @field α σ ρ name decode absent rest j a fields r here there ih =>
    obtain ⟨hname, hrest⟩ := List.nodup_cons.mp hnames
    have hown : name ∉ fields.map Prod.fst := fun hf => hname (there.names_sublist.mem hf)
    obtain ⟨s, hput, hfinish⟩ := ih hrest
    have hfirst : (Row.field name decode absent rest).put name j (none, rest.empty)
        = .ok (some (some a, rest.empty)) := by
      simp only [put, if_true, here]
      rfl
    refine ⟨(some a, s), ?_, ?_⟩
    · simp only [putAll, empty, hfirst]
      show (Row.field name decode absent rest).putAll fields (some a, rest.empty) = _
      rw [putAll_field decode absent rest hown, hput]
      rfl
    · simp only [finish, hfinish]
      rfl
  | @omitted α σ ρ name decode rest a fields r there ih =>
    obtain ⟨hname, hrest⟩ := List.nodup_cons.mp hnames
    have hown : name ∉ fields.map Prod.fst := fun hf => hname (there.names_sublist.mem hf)
    obtain ⟨s, hput, hfinish⟩ := ih hrest
    refine ⟨(none, s), ?_, ?_⟩
    · rw [empty, putAll_field decode (.default a) rest hown, hput]
      rfl
    · simp only [finish, hfinish]
      rfl

/-- An object that holds a record decodes to it, wherever it comes from. -/
theorem decode_object (h : row.Holds fields r) (hnames : row.names.Nodup) (medium : Medium)
    (what : String) : row.decode medium what (.object fields) = .ok r := by
  obtain ⟨s, hput, hfinish⟩ := h.putAll_eq hnames
  simp only [decode, hput]
  exact hfinish

/-- What is built from the record that an object holds is built from the object. -/
theorem decode_object_bind {α : Type} {build : ρ → Except DecodeError α} {a : α}
    {medium : Medium} {what : String} (h : row.Holds fields r) (hnames : row.names.Nodup)
    (hbuild : build r = .ok a) :
    (row.decode medium what (.object fields) >>= build) = .ok a := by
  rw [h.decode_object hnames]
  exact hbuild

end Holds
end Row

namespace Decode

/-- A list decodes item by item. -/
theorem list_map {α : Type} {decode : Decoder α} {encode : α → Json} {xs : List α}
    (h : ∀ x ∈ xs, decode (encode x) = .ok x) :
    list decode (.array (xs.map encode)) = .ok xs := by
  show (xs.map encode).mapM decode = .ok xs
  induction xs with
  | nil => rfl
  | cons x xs ih =>
    obtain ⟨hx, hxs⟩ := List.forall_mem_cons.mp h
    rw [List.map_cons, List.mapM_cons, hx, ih hxs]
    rfl

/-- An optional value decodes if the value does and is not written as null. -/
theorem nullable_nullable {α : Type} {decode : Decoder α} {encode : α → Json} {o : Option α}
    (hnull : ∀ a, encode a ≠ .null) (h : ∀ a ∈ o, decode (encode a) = .ok a) :
    nullable decode (Json.nullable encode o) = .ok o := by
  cases o with
  | none => rfl
  | some a =>
    have hvalue : nullable decode (encode a) = some <$> decode (encode a) := by
      unfold nullable
      split
      · rename_i hencode
        exact absurd hencode (hnull a)
      · rfl
    rw [Json.nullable, hvalue, h a rfl]
    rfl

/-- A natural number below `2 ^ 32` reads back from a document. -/
theorem natural32_nat {n : Nat} (h : n < 2 ^ 32) : natural32 (.nat n) = .ok n := if_pos h

theorem word32_nat (n : UInt32) : word32 (.nat n.toNat) = .ok n := by
  rw [word32, natural32_nat n.toNat_lt]
  show Except.ok (UInt32.ofNat n.toNat) = _
  rw [UInt32.ofNat_toNat]

section Names

variable {α : Type} {all : List α} {wire : α → String} {a : α}

/-- An element is found under its own name if no two elements share one. -/
theorem byName_wire (hwire : (all.map wire).Nodup) (ha : a ∈ all) :
    byName all wire (wire a) = .ok a := by
  have hfind : all.find? (wire · == wire a) = some a := by
    induction all with
    | nil => exact absurd ha List.not_mem_nil
    | cons b all ih =>
      obtain ⟨hb, hall⟩ := List.nodup_cons.mp hwire
      obtain rfl | ha := List.mem_cons.mp ha
      · simp
      · have hne : wire b ≠ wire a := fun h => hb (h ▸ List.mem_map_of_mem ha)
        simpa [hne] using ih hall ha
  rw [byName, hfind]

variable {tagName : String} {fields : List (String × Json)}

/-- Behind its tag an object is set aside whole unless something in it is faulty. -/
theorem splitFields_behind (medium : Medium) (htag : tagName ∉ fields.map Prod.fst) :
    splitFields medium all wire tagName fields (some a)
      = (fun _ => (a, fields)) <$> flawed (Json.checkFields fields) := by
  induction fields with
  | nil => rfl
  | cons f fields ih =>
    obtain ⟨name, j⟩ := f
    simp only [List.map_cons, List.mem_cons, not_or] at htag
    simp only [splitFields, Ne.symm htag.1, if_false, ih htag.2, Json.checkFields]
    cases j.check with
    | error f => rfl
    | ok u =>
      show (_ <$> flawed (Json.checkFields fields) >>= _) = _
      cases Json.checkFields fields <;> rfl

/-- A tagged object comes apart into its tag and its other fields. -/
theorem tagged_object (medium : Medium) (what : String) (hwire : (all.map wire).Nodup)
    (ha : a ∈ all) (htag : tagName ∉ fields.map Prod.fst) :
    tagged medium all wire tagName what (.object ((tagName, .string (wire a)) :: fields))
      = (fun _ => (a, .object fields)) <$> flawed (Json.object fields).check := by
  simp only [tagged, splitFields, if_true, tag, byName_wire hwire ha]
  show (splitFields medium all wire tagName fields (some a) >>= _) = _
  rw [splitFields_behind medium htag, Json.check]
  cases Json.checkFields fields <;> rfl

/-- A tagged object with nothing faulty in it comes apart. -/
theorem tagged_object_of_check {medium : Medium} {what : String} (hwire : (all.map wire).Nodup)
    (ha : a ∈ all) (htag : tagName ∉ fields.map Prod.fst)
    (hcheck : (Json.object fields).check = .ok ()) :
    tagged medium all wire tagName what (.object ((tagName, .string (wire a)) :: fields))
      = .ok (a, .object fields) := by
  rw [tagged_object medium what hwire ha htag, hcheck]
  rfl

end Names

end Decode
end PortableTypes
