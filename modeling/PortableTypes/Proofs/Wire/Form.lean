import PortableTypes.Proofs.Json.Decoded
import PortableTypes.Proofs.Json.Record
import PortableTypes.Proofs.Program.Handles
import PortableTypes.Wire.Form

/-!
# Node forms survive their documents

A handle of 32 bits decodes from its document to itself, and every handle that is decoded has 32
bits. The same then holds of the handles in a form.
-/
namespace PortableTypes

open Decode (Gives gives_anything gives_list gives_nullable list_map nullable_nullable)

section Handles

variable {α : Type} {handle : Nat → α}

/-- A handle with an index of 32 bits is read back from the index. -/
theorem Decode.handle_natural32_nat {n : Nat} (h : n < 2 ^ 32) :
    handle <$> natural32 (.nat n) = .ok (handle n) := by
  rw [natural32_nat h]
  rfl

/-- What is read as a handle has an index of 32 bits. -/
theorem Decode.gives_handle {P : α → Prop} (h : ∀ n < 2 ^ 32, P (handle n)) :
    Gives (fun j => handle <$> natural32 j) P :=
  fun j => (gives_natural32 j).map h

end Handles

theorem FileId.decode_encode {id : FileId} (h : id.Below .word) : decode id.encode = .ok id :=
  Decode.handle_natural32_nat h

theorem NodeId.decode_encode {id : NodeId} (h : id.Below .word) : decode id.encode = .ok id :=
  Decode.handle_natural32_nat h

theorem SymbolId.decode_encode {id : SymbolId} (h : id.Below .word) : decode id.encode = .ok id :=
  Decode.handle_natural32_nat h

theorem TypeId.decode_encode {id : TypeId} (h : id.Below .word) : decode id.encode = .ok id :=
  Decode.handle_natural32_nat h

theorem SignatureId.decode_encode {id : SignatureId} (h : id.Below .word) :
    decode id.encode = .ok id :=
  Decode.handle_natural32_nat h

theorem FileId.gives_decode : Gives decode (·.Below .word) :=
  Decode.gives_handle fun _ h => h

theorem NodeId.gives_decode : Gives decode (·.Below .word) :=
  Decode.gives_handle fun _ h => h

theorem SymbolId.gives_decode : Gives decode (·.Below .word) :=
  Decode.gives_handle fun _ h => h

theorem TypeId.gives_decode : Gives decode (·.Below .word) :=
  Decode.gives_handle fun _ h => h

theorem SignatureId.gives_decode : Gives decode (·.Below .word) :=
  Decode.gives_handle fun _ h => h

/-- An optional name decodes to itself. -/
theorem Decode.nullable_string (o : Option String) :
    nullable string (Json.nullable .string o) = .ok o :=
  nullable_nullable nofun fun _ _ => rfl

namespace ExportItem

theorem decode_encode (e : ExportItem) : decode e.encode = .ok e := by
  obtain ⟨name, declared⟩ := e
  cases declared with
  | none =>
    exact Row.Holds.decode_object_bind (.field rfl (.omitted .done))
      (by simp [Row.names]) (by rfl)
  | some declared =>
    exact Row.Holds.decode_object_bind (.field rfl (.field rfl .done))
      (by simp [Row.names]) (by rfl)

theorem soundTo_encode {p : Number → Prop} (e : ExportItem) : e.encode.SoundTo p 1 := by
  obtain ⟨name, declared⟩ := e
  cases declared <;> simp [encode]

end ExportItem

namespace ExportClause

theorem soundTo_encode {p : Number → Prop} (c : ExportClause) : c.encode.SoundTo p 3 := by
  cases c with
  | named items => simp [encode, ExportItem.soundTo_encode]
  | everything name => simp [encode]

theorem decode_encode (c : ExportClause) : decode c.encode = .ok c := by
  cases c with
  | named items =>
    have hitems : Decode.list ExportItem.decode (.array (items.map (·.encode))) = .ok items :=
      list_map fun e _ => e.decode_encode
    have hsound : (Json.object [("elements", .array (items.map (·.encode)))]).SoundTo
        (fun _ => True) 3 := by
      simp [ExportItem.soundTo_encode]
    have htagged : Decode.tagged .buffer [true, false]
        (fun byName => if byName then "named" else "namespace") "kind"
        "internally tagged enum ExportClause" (named items).encode = .ok (true, .object _) :=
      Decode.tagged_object_of_check (a := true) (by decide) (by decide) (by simp)
        hsound.sound.check_eq
    rw [decode, htagged]
    exact Row.Holds.decode_object_bind (.field hitems .done) (by simp [Row.names]) (by rfl)
  | everything name =>
    have hsound : (Json.object [("alias", Json.nullable .string name)]).SoundTo
        (fun _ => True) 1 := by
      simp
    have htagged : Decode.tagged .buffer [true, false]
        (fun byName => if byName then "named" else "namespace") "kind"
        "internally tagged enum ExportClause" (everything name).encode = .ok (false, .object _) :=
      Decode.tagged_object_of_check (a := false) (by decide) (by decide) (by simp)
        hsound.sound.check_eq
    rw [decode, htagged]
    exact Row.Holds.decode_object_bind (.field (Decode.nullable_string name) .done)
      (by simp [Row.names]) (by rfl)

theorem encode_ne_null (c : ExportClause) : c.encode ≠ .null := by
  cases c <;> nofun

end ExportClause

theorem FormKind.mem_all (kind : FormKind) : kind ∈ all := by
  cases kind <;> decide

namespace Form

/-- A form is written with its tag in front, and only there. -/
theorem exists_encode_eq_tagged (f : Form) :
    ∃ fields, f.encode = .object (("kind", .string f.kind.wire) :: fields)
      ∧ "kind" ∉ fields.map Prod.fst := by
  cases f <;> exact ⟨_, rfl, by simp⟩

/-- No part of a written form is faulty, and its numbers are handles. -/
theorem soundTo_encode {p : Number → Prop} (hnatural : ∀ n < 2 ^ 32, p (.natural n)) {f : Form}
    (h : ∀ id ∈ f.nodes, id.Below .word) : f.encode.SoundTo p 4 := by
  have hid {n : Nat} (id : NodeId) (hid : id.Below .word) : (NodeId.encode id).SoundTo p n :=
    Json.soundTo_number.mpr (hnatural _ hid)
  cases f with
  | exportDeclaration specifier clause =>
    simp [encode, ExportClause.soundTo_encode]
  | _ => simp_all [encode, nodes]

/-- Behind its tag a form decodes to itself. -/
theorem decodeFields_encode {f : Form} {fields : List (String × Json)}
    (hencode : f.encode = .object (("kind", .string f.kind.wire) :: fields))
    (h : ∀ id ∈ f.nodes, id.Below .word) :
    decodeFields f.kind (.object fields) = .ok f := by
  have hnode {o : Option NodeId} (h : ∀ id ∈ o, id.Below .word) :
      Decode.nullable NodeId.decode (Json.nullable NodeId.encode o) = .ok o :=
    nullable_nullable nofun fun id hid => NodeId.decode_encode (h id hid)
  have hnodes {ids : List NodeId} (h : ∀ id ∈ ids, id.Below .word) :
      Decode.list NodeId.decode (.array (ids.map (·.encode))) = .ok ids :=
    list_map fun id hid => NodeId.decode_encode (h id hid)
  cases f with
  | typeAlias name exported typeNode =>
    cases hencode
    exact Row.Holds.decode_object_bind
      (.field rfl (.field rfl (.field (hnode (by simpa [nodes] using h)) .done)))
      (by simp [Row.names]) (by rfl)
  | interface name exported =>
    cases hencode
    exact Row.Holds.decode_object_bind (.field rfl (.field rfl .done))
      (by simp [Row.names]) (by rfl)
  | enumeration name exported =>
    cases hencode
    exact Row.Holds.decode_object_bind (.field rfl (.field rfl .done))
      (by simp [Row.names]) (by rfl)
  | enumMember name =>
    cases hencode
    exact Row.Holds.decode_object_bind (.field rfl .done) (by simp [Row.names]) (by rfl)
  | variableStatement exported declarations =>
    cases hencode
    exact Row.Holds.decode_object_bind (.field rfl (.field (hnodes h) .done))
      (by simp [Row.names]) (by rfl)
  | variableDeclaration name typeNode =>
    cases hencode
    exact Row.Holds.decode_object_bind
      (.field rfl (.field (hnode (by simpa [nodes] using h)) .done)) (by simp [Row.names]) (by rfl)
  | exportDeclaration specifier clause =>
    cases hencode
    have hclause : Decode.nullable ExportClause.decode (Json.nullable ExportClause.encode clause)
        = .ok clause :=
      nullable_nullable ExportClause.encode_ne_null fun c _ => c.decode_encode
    exact Row.Holds.decode_object_bind
      (.field (Decode.nullable_string specifier) (.field hclause .done))
      (by simp [Row.names]) (by rfl)
  | propertySignature name typeNode =>
    cases hencode
    exact Row.Holds.decode_object_bind
      (.field rfl (.field (hnode (by simpa [nodes] using h)) .done)) (by simp [Row.names]) (by rfl)
  | parameter name typeNode =>
    cases hencode
    exact Row.Holds.decode_object_bind
      (.field rfl (.field (hnode (by simpa [nodes] using h)) .done)) (by simp [Row.names]) (by rfl)
  | identifier text =>
    cases hencode
    exact Row.Holds.decode_object_bind (.field rfl .done) (by simp [Row.names]) (by rfl)
  | tupleType elements =>
    cases hencode
    exact Row.Holds.decode_object_bind (.field (hnodes h) .done) (by simp [Row.names]) (by rfl)
  | arrayType element =>
    cases hencode
    have helement := NodeId.decode_encode (h element (List.mem_singleton_self element))
    exact Row.Holds.decode_object_bind (.field helement .done) (by simp [Row.names]) (by rfl)
  | typeReference name arguments =>
    cases hencode
    exact Row.Holds.decode_object_bind (.field rfl (.field (hnodes h) .done))
      (by simp [Row.names]) (by rfl)
  | otherType | other => cases hencode; rfl

theorem decode_encode {f : Form} (h : ∀ id ∈ f.nodes, id.Below .word) (medium : Medium) :
    decode medium f.encode = .ok f := by
  obtain ⟨fields, hencode, htag⟩ := f.exists_encode_eq_tagged
  have hcheck : (Json.object fields).check = .ok () := by
    have hsound := (soundTo_encode (p := fun _ => True) (fun _ _ => trivial) h).sound
    rw [hencode, Json.sound_object] at hsound
    exact (Json.Sound.object (List.forall_mem_cons.mp hsound).2).check_eq
  have htagged : Decode.tagged medium FormKind.all FormKind.wire "kind"
      "internally tagged enum SyntaxNode" f.encode = .ok (f.kind, .object fields) := by
    rw [hencode]
    exact Decode.tagged_object_of_check (by decide) f.kind.mem_all htag hcheck
  rw [decode, htagged]
  exact decodeFields_encode hencode h

/-- Whatever a form is decoded from, its nodes have handles of 32 bits. -/
theorem gives_decodeFields (kind : FormKind) :
    Gives (decodeFields kind) fun f => ∀ id ∈ f.nodes, id.Below .word := by
  have hnone : ∀ id ∈ (none : Option NodeId), id.Below .word := fun id hid => nomatch hid
  have hnode := gives_nullable NodeId.gives_decode
  have hnodes := gives_list NodeId.gives_decode
  have hempty (f : Form) (hf : f.nodes = []) :
      Gives (decodeEmpty f) fun f => ∀ id ∈ f.nodes, id.Below .word := by
    intro j
    unfold decodeEmpty
    split
    · exact .error
    · refine .ok ?_
      rw [hf]
      exact List.forall_mem_nil _
  intro j
  cases kind with
  | typeAlias =>
    refine Row.Gives.decode_bind (.field gives_anything trivial (.field gives_anything trivial
      (.field hnode hnone .done))) fun r hr => .ok fun id hid => ?_
    exact hr.2.2.1 id (Option.mem_toList.mp hid)
  | variableDeclaration | propertySignature | parameter =>
    refine Row.Gives.decode_bind (.field gives_anything trivial (.field hnode hnone .done))
      fun r hr => .ok fun id hid => ?_
    exact hr.2.1 id (Option.mem_toList.mp hid)
  | variableStatement | typeReference =>
    refine Row.Gives.decode_bind (.field gives_anything trivial (.field hnodes trivial .done))
      fun r hr => .ok ?_
    exact hr.2.1
  | tupleType =>
    refine Row.Gives.decode_bind (.field hnodes trivial .done) fun r hr => .ok ?_
    exact hr.1
  | arrayType =>
    refine Row.Gives.decode_bind (.field NodeId.gives_decode trivial .done) fun r hr => .ok ?_
    exact List.forall_mem_singleton.mpr hr.1
  | interface | enumeration | enumMember | exportDeclaration | identifier =>
    exact .after fun r => .ok (List.forall_mem_nil _)
  | otherType => exact hempty .otherType rfl j
  | other => exact hempty .other rfl j

theorem gives_decode (medium : Medium) :
    Gives (decode medium) fun f => ∀ id ∈ f.nodes, id.Below .word :=
  fun _ => .after fun r => gives_decodeFields r.1 r.2

end Form
end PortableTypes
