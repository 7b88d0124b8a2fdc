import PortableTypes.Proofs.Json.Record
import PortableTypes.Proofs.TypeObject.Children
import PortableTypes.Wire.TypeObject

/-!
# Type objects survive their documents

A type object decodes from its document to itself, whatever its form and however deep it is nested,
if its numbers are finite. The proof goes from the children of a type object to the type object:
the document has the tag in front, nothing in it is faulty, the children lie deeper than the whole,
and behind the tag the fields decode one by one.
-/
namespace PortableTypes

theorem Position.decode_encode (medium : Medium) (p : Position) : decode medium p.encode = .ok p :=
  Row.Holds.decode_object_bind
    (.field (Decode.word32_nat p.line) (.field (Decode.word32_nat p.character) .done))
    (by simp [Row.names]) (by rfl)

theorem Range.decode_encode (medium : Medium) (r : Range) : decode medium r.encode = .ok r :=
  Row.Holds.decode_object_bind
    (.field (r.start.decode_encode medium) (.field (r.stop.decode_encode medium) .done))
    (by simp [Row.names]) (by rfl)

namespace Location

theorem decode_encode (medium : Medium) (l : Location) : decode medium l.encode = .ok l :=
  Row.Holds.decode_object_bind (.field rfl (.field (l.range.decode_encode medium) .done))
    (by simp [Row.names]) (by rfl)

theorem decodeAll_encodeAll (medium : Medium) (ls : List Location) :
    decodeAll medium (encodeAll ls) = .ok ls :=
  Decode.list_map fun l _ => decode_encode medium l

end Location

theorem BigInteger.decode_encode (medium : Medium) (b : BigInteger) :
    decode medium b.encode = .ok b :=
  Row.Holds.decode_object_bind (.field rfl (.field rfl .done))
    (by simp [Row.names]) (by rfl)

namespace Literal

/-- The five kinds of literals stay apart without a tag. -/
theorem decode_encode {l : Literal} (h : ∀ x ∈ l.number?, x.isFinite = true) :
    decode l.encode = .ok l := by
  cases l with
  | number x =>
    have hx : (Literal.number x).encode = .number (.real x) := if_pos (h x rfl)
    rw [hx]
    rfl
  | bigInteger b =>
    have hb : BigInteger.decode .buffer (.object [("negative", .boolean b.negative),
        ("base10Value", .string b.digits)]) = .ok b := BigInteger.decode_encode .buffer b
    simp only [decode, encode, BigInteger.encode, hb]
    rfl
  | null | boolean b | string s => rfl

end Literal

namespace LocatedLiteral

theorem decode_encode {l : LocatedLiteral} (h : ∀ x ∈ l.value.number?, x.isFinite = true) :
    decode l.encode = .ok l :=
  Row.Holds.decode_object_bind
    (.field (Literal.decode_encode h) (.field (Location.decodeAll_encodeAll _ _) .done))
    (by simp [Row.names]) (by rfl)

end LocatedLiteral

namespace EnumMember

theorem decode_encode {m : EnumMember} (h : ∀ x ∈ m.value.value.number?, x.isFinite = true) :
    decode m.encode = .ok m :=
  Row.Holds.decode_object_bind (.field rfl (.field (LocatedLiteral.decode_encode h) .done))
    (by simp [Row.names]) (by rfl)

end EnumMember

theorem Primitive.oneOfNames_wire (kind : Primitive) :
    Decode.oneOfNames all wire (.string kind.wire) = .ok kind :=
  Decode.byName_wire (by decide) (by cases kind <;> decide)

theorem Special.oneOfNames_wire (kind : Special) :
    Decode.oneOfNames all wire (.string kind.wire) = .ok kind :=
  Decode.byName_wire (by decide) (by cases kind <;> decide)

theorem Gap.oneOfNames_wire (gap : Gap) :
    Decode.oneOfNames all wire (.string gap.wire) = .ok gap :=
  Decode.byName_wire (by decide) (by cases gap <;> decide)

theorem TypeTag.mem_all (tag : TypeTag) : tag ∈ all := by
  cases tag <;> decide

namespace TypeObject

theorem encodeItems_eq (ts : List TypeObject) : encodeItems ts = ts.map encode := by
  induction ts with
  | nil => rfl
  | cons t ts ih => rw [encodeItems, ih, List.map_cons]

/-- An argument of a callable. -/
def encodeArgument (a : String × TypeObject) : Json :=
  .object [("name", .string a.1), ("type", a.2.encode)]

theorem encodeArguments_eq (as : List (String × TypeObject)) :
    encodeArguments as = as.map encodeArgument := by
  induction as with
  | nil => rfl
  | cons a as ih => rw [encodeArguments, ih, List.map_cons, encodeArgument]

/-- A type object is written with its tag in front, and only there. -/
theorem exists_encode_eq_tagged (t : TypeObject) :
    ∃ fields, t.encode = tagged t.tag fields ∧ "__type" ∉ fields.map Prod.fst := by
  cases t with
  | unsupported gap typeText locations =>
    refine ⟨_, rfl, ?_⟩
    cases typeText <;> simp
  | _ => exact ⟨_, rfl, by simp⟩

section Sound

variable {p : Number → Prop} (hnatural : ∀ n < 2 ^ 32, p (.natural n))
include hnatural

theorem sound_locations (ls : List Location) : (Location.encodeAll ls).Sound p := by
  have hword (n : UInt32) : p (.natural n.toNat) := hnatural _ n.toNat_lt
  simp [Location.encodeAll, Location.encode, Range.encode, Position.encode, Json.nat, hword]

omit hnatural in
theorem sound_literal {l : Literal} (hreal : ∀ x ∈ l.number?, x.isFinite = true → p (.real x)) :
    l.encode.Sound p := by
  cases l with
  | number x =>
    rw [Literal.encode]
    split
    · exact .number (hreal x rfl ‹_›)
    · exact .null
  | bigInteger b => simp [Literal.encode, BigInteger.encode]
  | null | boolean b | string s => simp [Literal.encode]

/-- No part of a written type object is faulty, and its numbers are those of its positions, which
have 32 bits, and of its literals. -/
theorem sound_encode (t : TypeObject)
    (hreal : ∀ x ∈ t.numbers, x.isFinite = true → p (.real x)) : t.encode.Sound p := by
  have hlocations := sound_locations hnatural
  induction t with
  | step t ih =>
    replace ih : ∀ c ∈ t.children, c.encode.Sound p := fun c hc =>
      ih c hc fun x hx => hreal x (numbers_subset hc hx)
    cases t with
    | literal value locations =>
      have hvalue : value.encode.Sound p :=
        sound_literal fun x hx => hreal x (Option.mem_toList.mpr hx)
      simp [encode, tagged, hvalue, hlocations]
    | enum typeName members locations =>
      have hmembers : ∀ m ∈ members, m.encode.Sound p := by
        intro m hm
        have hvalue : m.value.value.encode.Sound p := sound_literal fun x hx =>
          hreal x (List.mem_filterMap.mpr ⟨m, hm, hx⟩)
        simp [EnumMember.encode, LocatedLiteral.encode, hvalue, hlocations]
      simpa [encode, tagged, hlocations] using hmembers
    | callable arguments result locations =>
      simp only [children, List.forall_mem_append, List.forall_mem_map,
        List.forall_mem_singleton] at ih
      have harguments : ∀ j ∈ encodeArguments arguments, j.Sound p := by
        rw [encodeArguments_eq, List.forall_mem_map]
        intro a ha
        simp [encodeArgument, ih.1 a ha]
      simpa [encode, tagged, ih.2, hlocations] using harguments
    | unsupported gap typeText locations => cases typeText <;> simp [encode, tagged, hlocations]
    | _ => simp_all [encode, tagged, encodeItems_eq, children]

end Sound

/-- A child lies deeper than its parent. -/
theorem depth_child_lt {t c : TypeObject} (hc : c ∈ t.children) :
    c.encode.depth < t.encode.depth := by
  cases t with
  | array typeName child locations | promise child locations | promiseLike child locations =>
    rw [children, List.mem_singleton] at hc
    subst hc
    rw [encode, tagged]
    exact Json.depth_lt_object (f := ("child", c.encode)) (by simp)
  | tuple typeName items locations =>
    have hitem : c.encode ∈ encodeItems items := by
      rw [encodeItems_eq]
      exact List.mem_map_of_mem hc
    rw [encode, tagged]
    exact Nat.lt_trans (Json.depth_lt_array hitem)
      (Json.depth_lt_object (f := ("items", .array (encodeItems items))) (by simp))
  | union typeName first second rest locations =>
    have hmember : c.encode ∈ encode first :: encode second :: encodeItems rest := by
      rw [encodeItems_eq, ← List.map_cons, ← List.map_cons]
      exact List.mem_map_of_mem hc
    rw [encode, tagged]
    exact Nat.lt_trans (Json.depth_lt_array hmember)
      (Json.depth_lt_object (f := ("members", _)) (by simp))
  | callable arguments result locations =>
    simp only [children, List.mem_append, List.mem_map, List.mem_singleton] at hc
    rw [encode, tagged]
    obtain ⟨a, ha, rfl⟩ | rfl := hc
    · have hargument : encodeArgument a ∈ encodeArguments arguments := by
        rw [encodeArguments_eq]
        exact List.mem_map_of_mem ha
      calc a.2.encode.depth
        _ < (encodeArgument a).depth := Json.depth_lt_object (f := ("type", a.2.encode)) (by simp)
        _ < _ := Json.depth_lt_array hargument
        _ < _ := Json.depth_lt_object (f := ("argTypes", .array (encodeArguments arguments)))
          (by simp)
    · exact Json.depth_lt_object (f := ("returnType", c.encode)) (by simp)
  | primitive | special | literal | enum | object | unsupported =>
    exact absurd hc List.not_mem_nil

theorem decodeArgument_encodeArgument {type : Decoder TypeObject} {a : String × TypeObject}
    (h : type a.2.encode = .ok a.2) : decodeArgument type (encodeArgument a) = .ok a :=
  Row.Holds.decode_object_bind (.field rfl (.field h .done))
    (by simp [Row.names]) (by rfl)

theorem decodeMembers_array {type : Decoder TypeObject} {a b : TypeObject} {rest : List TypeObject}
    (h : ∀ t ∈ a :: b :: rest, type t.encode = .ok t) :
    decodeMembers type (.array (a.encode :: b.encode :: encodeItems rest)) = .ok (a, b, rest) := by
  have hlist : Decode.list type (.array (a.encode :: b.encode :: encodeItems rest))
      = .ok (a :: b :: rest) := by
    rw [encodeItems_eq, ← List.map_cons, ← List.map_cons]
    exact Decode.list_map h
  rw [decodeMembers, hlist]
  rfl

/-- Behind its tag a type object decodes to itself if its children do. -/
theorem decodeFields_encode {type : Decoder TypeObject} {t : TypeObject}
    {fields : List (String × Json)} (hencode : t.encode = tagged t.tag fields)
    (hnumbers : ∀ x ∈ t.numbers, x.isFinite = true)
    (hchildren : ∀ c ∈ t.children, type c.encode = .ok c) :
    decodeFields type t.tag (.object fields) = .ok t := by
  have hlocations := Location.decodeAll_encodeAll .buffer t.locations
  cases t with
  | primitive kind locations =>
    cases hencode
    exact Row.Holds.decode_object_bind (.field kind.oneOfNames_wire (.field hlocations .done))
      (by simp [Row.names]) (by rfl)
  | special kind locations =>
    cases hencode
    exact Row.Holds.decode_object_bind (.field kind.oneOfNames_wire (.field hlocations .done))
      (by simp [Row.names]) (by rfl)
  | literal value locations =>
    cases hencode
    have hl : LocatedLiteral.decode (LocatedLiteral.encode ⟨value, locations⟩)
        = .ok ⟨value, locations⟩ := LocatedLiteral.decode_encode (by simpa [numbers] using hnumbers)
    show (LocatedLiteral.decode (LocatedLiteral.encode ⟨value, locations⟩) >>= _) = _
    rw [hl]
    rfl
  | array typeName child locations =>
    cases hencode
    have hchild := hchildren child (by simp [children])
    exact Row.Holds.decode_object_bind (.field rfl (.field hchild (.field hlocations .done)))
      (by simp [Row.names]) (by rfl)
  | tuple typeName items locations =>
    cases hencode
    have hitems : Decode.list type (.array (encodeItems items)) = .ok items := by
      rw [encodeItems_eq]
      exact Decode.list_map hchildren
    exact Row.Holds.decode_object_bind (.field rfl (.field hitems (.field hlocations .done)))
      (by simp [Row.names]) (by rfl)
  | union typeName first second rest locations =>
    cases hencode
    exact Row.Holds.decode_object_bind
      (.field rfl (.field (decodeMembers_array hchildren) (.field hlocations .done)))
      (by simp [Row.names]) (by rfl)
  | enum typeName members locations =>
    cases hencode
    have hmembers : Decode.list EnumMember.decode (.array (members.map (·.encode)))
        = .ok members := by
      refine Decode.list_map fun m hm => EnumMember.decode_encode fun x hx => ?_
      exact hnumbers x (List.mem_filterMap.mpr ⟨m, hm, hx⟩)
    exact Row.Holds.decode_object_bind (.field rfl (.field hmembers (.field hlocations .done)))
      (by simp [Row.names]) (by rfl)
  | callable arguments result locations =>
    cases hencode
    simp only [children, List.forall_mem_append, List.forall_mem_map,
      List.forall_mem_singleton] at hchildren
    have harguments : Decode.list (decodeArgument type) (.array (encodeArguments arguments))
        = .ok arguments := by
      rw [encodeArguments_eq]
      exact Decode.list_map fun a ha => decodeArgument_encodeArgument (hchildren.1 a ha)
    exact Row.Holds.decode_object_bind
      (.field harguments (.field hchildren.2 (.field hlocations .done)))
      (by simp [Row.names]) (by rfl)
  | promise child locations =>
    cases hencode
    have hchild := hchildren child (by simp [children])
    exact Row.Holds.decode_object_bind (.field hchild (.field hlocations .done))
      (by simp [Row.names]) (by rfl)
  | promiseLike child locations =>
    cases hencode
    have hchild := hchildren child (by simp [children])
    exact Row.Holds.decode_object_bind (.field hchild (.field hlocations .done))
      (by simp [Row.names]) (by rfl)
  | object typeName storeKey locations =>
    cases hencode
    exact Row.Holds.decode_object_bind (.field rfl (.field rfl (.field hlocations .done)))
      (by simp [Row.names]) (by rfl)
  | unsupported gap typeText locations =>
    cases typeText with
    | none =>
      cases hencode
      exact Row.Holds.decode_object_bind
        (.field gap.oneOfNames_wire (.omitted (.field hlocations .done)))
        (by simp [Row.names]) (by rfl)
    | some text =>
      cases hencode
      exact Row.Holds.decode_object_bind
        (.field gap.oneOfNames_wire (.field rfl (.field hlocations .done)))
        (by simp [Row.names]) (by rfl)

/-- A type object nested less than `fuel` deep decodes from its document to itself. -/
theorem decodeNested_encode (t : TypeObject) (hnumbers : ∀ x ∈ t.numbers, x.isFinite = true)
    {fuel : Nat} (hfuel : t.encode.depth < fuel) (medium : Medium) :
    decodeNested fuel medium t.encode = .ok t := by
  induction t generalizing fuel medium with
  | step t ih =>
    obtain ⟨fuel, rfl⟩ := Nat.exists_eq_add_one_of_ne_zero (Nat.ne_of_gt (Nat.zero_lt_of_lt hfuel))
    obtain ⟨fields, hencode, htag⟩ := t.exists_encode_eq_tagged
    have hcheck : (Json.object fields).check = .ok () := by
      have hsound := sound_encode (p := fun _ => True) (fun _ _ => trivial) t fun _ _ _ => trivial
      rw [hencode, tagged, Json.sound_object] at hsound
      exact (Json.Sound.object (List.forall_mem_cons.mp hsound).2).check_eq
    have hchildren : ∀ c ∈ t.children, decodeNested fuel .buffer c.encode = .ok c := by
      intro c hc
      have hdepth := depth_child_lt hc
      exact ih c hc (fun x hx => hnumbers x (numbers_subset hc hx)) (by omega) .buffer
    have htagged : Decode.tagged medium TypeTag.all TypeTag.wire "__type"
        "internally tagged enum TypeObject" t.encode = .ok (t.tag, .object fields) := by
      rw [hencode, tagged]
      exact Decode.tagged_object_of_check (by decide) t.tag.mem_all htag hcheck
    rw [decodeNested, htagged]
    exact decodeFields_encode hencode hnumbers hchildren

/-- A type object whose numbers are finite decodes from its document to itself. -/
theorem decode_encode_of_finite (medium : Medium) (t : TypeObject)
    (hnumbers : ∀ x ∈ t.numbers, x.isFinite = true) : decode medium t.encode = .ok t :=
  t.decodeNested_encode hnumbers (Nat.lt_add_one _) medium

/-- A type object with every form and every kind of literal. -/
def everyForm : TypeObject :=
  let here : List Location := [⟨"a \"quoted\" name.ts", ⟨⟨0, 4⟩, ⟨4294967295, 7⟩⟩⟩]
  .callable
    [("first", .union "U" (.literal (.number (.ofNat 1)) here) (.literal .null [])
        [.literal (.boolean true) [], .literal (.string "\\ \n é") [],
          .literal (.bigInteger ⟨true, "90"⟩) []] here),
      ("second", .tuple "T" [.primitive .bigint here, .special .uniqueSymbol [],
        .object "O" "0-1" here, .unsupported .conversion none [],
        .unsupported .property (some "X") here] [])]
    (.promise (.promiseLike (.array "E[]" (.enum "E" [⟨"Zero", .number (.zero true), here⟩] [])
      here) []) [])
    [⟨"b.ts", ⟨⟨1, 0⟩, ⟨1, 0⟩⟩⟩]

theorem decode_encode_of_finite_everyForm :
    (∀ x ∈ everyForm.numbers, x.isFinite = true)
      ∧ decode .text everyForm.encode = .ok everyForm :=
  ⟨by decide +kernel, decode_encode_of_finite .text everyForm (by decide +kernel)⟩

end TypeObject
end PortableTypes
