import PortableTypes.Proofs.TypeObject.Nesting
import PortableTypes.Proofs.Wire.Form
import PortableTypes.Wire.Program

/-!
# Programs survive their documents

Every record of a program decodes from its document to itself if its handles have 32 bits and its
numbers are finite, and nothing that is decoded has other handles. What a document does not hold is
the list of intrinsic types, which is taken anew from the table of types.
-/
namespace PortableTypes

open Decode (Gives gives_anything gives_list gives_nullable list_map nullable_nullable)

namespace Span

theorem decode_encode (s : Span) : decode s.encode = .ok s :=
  Row.Holds.decode_object_bind
    (.field (Decode.word32_nat s.start) (.field (Decode.word32_nat s.stop) .done))
    (by simp [Row.names]) (by rfl)

end Span

/-- What is recorded under a new specifier comes last. -/
theorem putEntry_of_not_mem {specifier : String} (target : String) {es : List (String × String)}
    (h : specifier ∉ es.map Prod.fst) :
    putEntry specifier target es = es ++ [(specifier, target)] := by
  induction es with
  | nil => rfl
  | cons e es ih =>
    simp only [List.map_cons, List.mem_cons, not_or] at h
    rw [putEntry, if_neg (Ne.symm h.1), ih h.2, List.cons_append]

namespace ModuleTable

/-- Entries under different new specifiers are kept in their order. -/
theorem entries_foldl_insert {t : ModuleTable} {es : List (String × String)}
    (h : ((t.entries ++ es).map Prod.fst).Nodup) :
    (es.foldl (fun t e => t.insert e.1 e.2) t).entries = t.entries ++ es := by
  induction es generalizing t with
  | nil => rw [List.foldl_nil, List.append_nil]
  | cons e es ih =>
    have hfresh : e.1 ∉ t.entries.map Prod.fst := by
      simp only [List.map_append, List.map_cons, List.nodup_append] at h
      exact fun he => h.2.2 _ he _ List.mem_cons_self rfl
    have hinsert : (t.insert e.1 e.2).entries = t.entries ++ [e] := putEntry_of_not_mem e.2 hfresh
    have hnodup : (((t.insert e.1 e.2).entries ++ es).map Prod.fst).Nodup := by
      rwa [hinsert, List.append_assoc, List.singleton_append]
    rw [List.foldl_cons, ih hnodup, hinsert, List.append_assoc, List.singleton_append]

theorem ofList_entries (t : ModuleTable) : ofList t.entries = t := by
  have hentries : (ofList t.entries).entries = t.entries := entries_foldl_insert t.nodup
  generalize ofList t.entries = u at hentries
  cases u
  cases t
  cases hentries
  rfl

theorem decode_encode (t : ModuleTable) : decode t.encode = .ok t := by
  have hentries (es : List (String × String)) :
      Decode.entries Decode.string (.object (es.map fun e => (e.1, .string e.2))) = .ok es := by
    simp only [Decode.entries]
    induction es with
    | nil => rfl
    | cons e es ih =>
      rw [List.map_cons, List.mapM_cons, ih]
      rfl
  change ofList <$> Decode.entries Decode.string
    (.object (t.entries.map fun e => (e.1, .string e.2))) = .ok t
  rw [hentries]
  exact congrArg Except.ok t.ofList_entries

end ModuleTable

/-- The number that a kind of types holds. -/
def TypeKind.number? : TypeKind → Option Binary64
  | .literal value => value.number?
  | .error | .intrinsic | .union _ | .typeParameter | .object => none

/-! ## From documents -/

section Decoding

variable {α : Type} {decode : Decoder α} {encode : α → Json} {P : α → Prop}

/-- Values that decode to themselves do so in lists. -/
theorem Decode.list_encodeList (hvalue : ∀ {a}, P a → decode (encode a) = .ok a) {as : List α}
    (h : ∀ a ∈ as, P a) : Decode.list decode (encodeList encode as) = .ok as :=
  list_map fun a ha => hvalue (h a ha)

theorem Decode.nullable_encode (hvalue : ∀ {a}, P a → decode (encode a) = .ok a)
    (hnull : ∀ a, encode a ≠ .null) {o : Option α} (h : ∀ a ∈ o, P a) :
    Decode.nullable decode (Json.nullable encode o) = .ok o :=
  nullable_nullable hnull fun a ha => hvalue (h a ha)

end Decoding

open Decode (list_encodeList nullable_encode)

theorem SourceFile.decode_encode {f : SourceFile} (h : f.Below .word) : decode f.encode = .ok f :=
  Row.Holds.decode_object_bind
    (.field rfl (.field rfl (.field (list_encodeList NodeId.decode_encode h.statements)
      (.field (nullable_nullable nofun fun t _ => t.decode_encode) .done))))
    (by simp [Row.names]) (by rfl)

theorem Node.decode_encode {n : Node} (h : n.Below .word) : decode n.encode = .ok n :=
  Row.Holds.decode_object_bind
    (.field (FileId.decode_encode h.file)
      (.field (nullable_nullable nofun fun s _ => s.decode_encode)
        (.field (nullable_encode NodeId.decode_encode nofun h.parent)
          (.field (Form.decode_encode h.form .text)
            (.field (nullable_encode SymbolId.decode_encode nofun h.declares)
              (.field (nullable_encode SymbolId.decode_encode nofun h.refersTo)
                (.field (nullable_encode TypeId.decode_encode nofun h.type) .done)))))))
    (by simp [Row.names]) (by rfl)

theorem Symbol.decode_encode {s : Symbol} (h : s.Below .word) : decode s.encode = .ok s :=
  Row.Holds.decode_object_bind
    (.field rfl (.field (list_encodeList NodeId.decode_encode h.declarations)
      (.field (nullable_encode NodeId.decode_encode nofun h.valueDeclaration)
        (.field (list_encodeList SymbolId.decode_encode h.exports)
          (.field rfl (.field (nullable_encode TypeId.decode_encode nofun h.mappedTemplate)
            (.field (nullable_encode TypeId.decode_encode nofun h.type)
              (.field (nullable_encode TypeId.decode_encode nofun h.declaredType) .done))))))))
    (by simp [Row.names]) (by rfl)

theorem TypeKind.decode_encode {k : TypeKind} (hmembers : ∀ id ∈ k.members, id.Below .word)
    (hnumber : ∀ x ∈ k.number?, x.isFinite = true) : decode k.encode = .ok k := by
  cases k with
  | literal value =>
    have hvalue : decodeData .literal value.encode = .ok (.literal value) := by
      show TypeKind.literal <$> Literal.decode value.encode = _
      rw [Literal.decode_encode hnumber]
      rfl
    show (decodeData .literal value.encode >>= fun kind => closeFields kind []) = _
    rw [hvalue]
    rfl
  | union members =>
    have hdata : decodeData .union (encodeList TypeId.encode members) = .ok (.union members) := by
      show TypeKind.union <$> Decode.list TypeId.decode (encodeList TypeId.encode members) = _
      have hlist : Decode.list TypeId.decode (encodeList TypeId.encode members) = .ok members :=
        list_encodeList TypeId.decode_encode hmembers
      rw [hlist]
      rfl
    show (decodeData .union (encodeList TypeId.encode members) >>= fun kind => closeFields kind [])
      = _
    rw [hdata]
    rfl
  | error | intrinsic | typeParameter | object => rfl

theorem TypeRecord.decode_encode {t : TypeRecord} (h : t.Below .word)
    (hnumber : ∀ x ∈ t.kind.number?, x.isFinite = true) : decode t.encode = .ok t :=
  Row.Holds.decode_object_bind
    (.field rfl (.field (TypeKind.decode_encode h.members hnumber)
      (.field (nullable_encode SymbolId.decode_encode nofun h.symbol)
        (.field (nullable_encode SymbolId.decode_encode nofun h.aliasSymbol)
          (.field (list_encodeList TypeId.decode_encode h.aliasArguments)
            (.field (list_encodeList TypeId.decode_encode h.arguments)
              (.field (nullable_encode NodeId.decode_encode nofun h.origin)
                (.field (list_encodeList SymbolId.decode_encode h.properties)
                  (.field (list_encodeList SignatureId.decode_encode h.callSignatures)
                    .done)))))))))
    (by simp [Row.names]) (by rfl)

theorem Signature.decode_encode {s : Signature} (h : s.Below .word) : decode s.encode = .ok s :=
  Row.Holds.decode_object_bind
    (.field (list_encodeList SymbolId.decode_encode h.parameters)
      (.field (TypeId.decode_encode h.result) .done))
    (by simp [Row.names]) (by rfl)

namespace Program

/-- The program with its intrinsic types as the table of types has them. -/
def reloaded (p : Program) : Program := { p with intrinsics := intrinsicsOf p.types }

/-- A program decodes from its document to itself, up to its list of intrinsic types. -/
theorem decode_encode {p : Program} (h : p.Below .word) (htypes : 0 < p.types.size)
    (hnumbers : ∀ t ∈ p.types, ∀ x ∈ t.kind.number?, x.isFinite = true) :
    decode p.encode = .ok p.reloaded := by
  have hfiles : Decode.list SourceFile.decode (encodeList SourceFile.encode p.files.toList)
      = .ok p.files.toList :=
    list_encodeList SourceFile.decode_encode fun f hf => h.files f (Array.mem_toList_iff.mp hf)
  have hnodes : Decode.list Node.decode (encodeList Node.encode p.nodes.toList)
      = .ok p.nodes.toList :=
    list_encodeList Node.decode_encode fun n hn => h.nodes n (Array.mem_toList_iff.mp hn)
  have hsymbols : Decode.list Symbol.decode (encodeList Symbol.encode p.symbols.toList)
      = .ok p.symbols.toList :=
    list_encodeList Symbol.decode_encode fun s hs => h.symbols s (Array.mem_toList_iff.mp hs)
  have hrecords : Decode.list TypeRecord.decode (encodeList TypeRecord.encode p.types.toList)
      = .ok p.types.toList := by
    refine list_map fun t ht => ?_
    rw [Array.mem_toList_iff] at ht
    exact TypeRecord.decode_encode (h.types t ht) (hnumbers t ht)
  have hsignatures : Decode.list Signature.decode
      (encodeList Signature.encode p.signatures.toList) = .ok p.signatures.toList :=
    list_encodeList Signature.decode_encode fun s hs => h.signatures s (Array.mem_toList_iff.mp hs)
  have hempty : p.types.toList.isEmpty = false := by
    rw [List.isEmpty_eq_false_iff]
    intro hnil
    rw [← Array.length_toList, hnil] at htypes
    exact Nat.lt_irrefl 0 htypes
  have htables : ofTables p.files.toList p.nodes.toList p.symbols.toList p.types.toList
      p.signatures.toList = p.reloaded := by
    simp [ofTables, hempty, reloaded]
  exact Row.Holds.decode_object_bind
    (.field hfiles (.field hnodes (.field hsymbols (.field hrecords (.field hsignatures .done)))))
    (by simp [Row.names]) (congrArg Except.ok htables)

end Program

/-! ## Documents without faults -/

section Sound

variable {p : Number → Prop} {n : Nat}

@[simp] theorem soundTo_encodeList {α : Type} {encode : α → Json} {as : List α} :
    (encodeList encode as).SoundTo p (n + 1) ↔ ∀ a ∈ as, (encode a).SoundTo p n := by
  rw [encodeList, Json.soundTo_array, List.forall_mem_map]

theorem ModuleTable.soundTo_encode (t : ModuleTable) : t.encode.SoundTo p 1 := by
  rw [encode, Json.soundTo_object, List.forall_mem_map]
  exact fun e _ => Json.soundTo_string e.2

variable (hnatural : ∀ n < 2 ^ 32, p (.natural n))
include hnatural

/-- A handle of 32 bits is written as a number of 32 bits. -/
theorem soundTo_nat {i : Nat} (h : i < 2 ^ 32) : (Json.nat i).SoundTo p n :=
  Json.soundTo_number.mpr (hnatural i h)

theorem Span.soundTo_encode (s : Span) : s.encode.SoundTo p 1 := by
  have hword (w : UInt32) : (Json.nat w.toNat).SoundTo p 0 := soundTo_nat hnatural w.toNat_lt
  simp [encode, hword]

theorem SourceFile.soundTo_encode {f : SourceFile} (h : f.Below .word) : f.encode.SoundTo p 2 := by
  have hstatements : (encodeList NodeId.encode f.statements).SoundTo p 1 :=
    soundTo_encodeList.mpr fun id hid => soundTo_nat hnatural (h.statements id hid)
  have hmodules : (Json.nullable ModuleTable.encode f.modules).SoundTo p 1 :=
    Json.soundTo_nullable.mpr fun t _ => t.soundTo_encode
  simp [encode, hstatements, hmodules]

theorem Node.soundTo_encode {n : Node} (h : n.Below .word) : n.encode.SoundTo p 5 := by
  have hfile : n.file.encode.SoundTo p 4 := soundTo_nat hnatural h.file
  have hspan : (Json.nullable Span.encode n.span).SoundTo p 4 :=
    Json.soundTo_nullable.mpr fun s _ => (s.soundTo_encode hnatural).mono (by decide)
  have hparent : (Json.nullable NodeId.encode n.parent).SoundTo p 4 :=
    Json.soundTo_nullable.mpr fun id hid => soundTo_nat hnatural (h.parent id hid)
  have hform : n.form.encode.SoundTo p 4 := Form.soundTo_encode hnatural h.form
  have hdeclares : (Json.nullable SymbolId.encode n.declares).SoundTo p 4 :=
    Json.soundTo_nullable.mpr fun id hid => soundTo_nat hnatural (h.declares id hid)
  have hrefersTo : (Json.nullable SymbolId.encode n.refersTo).SoundTo p 4 :=
    Json.soundTo_nullable.mpr fun id hid => soundTo_nat hnatural (h.refersTo id hid)
  have htype : (Json.nullable TypeId.encode n.type).SoundTo p 4 :=
    Json.soundTo_nullable.mpr fun id hid => soundTo_nat hnatural (h.type id hid)
  simp [encode, hfile, hspan, hparent, hform, hdeclares,
    hrefersTo, htype]

theorem Symbol.soundTo_encode {s : Symbol} (h : s.Below .word) : s.encode.SoundTo p 2 := by
  have hdeclarations : (encodeList NodeId.encode s.declarations).SoundTo p 1 :=
    soundTo_encodeList.mpr fun id hid => soundTo_nat hnatural (h.declarations id hid)
  have hvalue : (Json.nullable NodeId.encode s.valueDeclaration).SoundTo p 1 :=
    Json.soundTo_nullable.mpr fun id hid => soundTo_nat hnatural (h.valueDeclaration id hid)
  have hexports : (encodeList SymbolId.encode s.exports).SoundTo p 1 :=
    soundTo_encodeList.mpr fun id hid => soundTo_nat hnatural (h.exports id hid)
  have htemplate : (Json.nullable TypeId.encode s.mappedTemplate).SoundTo p 1 :=
    Json.soundTo_nullable.mpr fun id hid => soundTo_nat hnatural (h.mappedTemplate id hid)
  have htype : (Json.nullable TypeId.encode s.type).SoundTo p 1 :=
    Json.soundTo_nullable.mpr fun id hid => soundTo_nat hnatural (h.type id hid)
  have hdeclared : (Json.nullable TypeId.encode s.declaredType).SoundTo p 1 :=
    Json.soundTo_nullable.mpr fun id hid => soundTo_nat hnatural (h.declaredType id hid)
  simp [encode, hdeclarations, hvalue, hexports, htemplate, htype, hdeclared]

theorem TypeKind.soundTo_encode {k : TypeKind} (hmembers : ∀ id ∈ k.members, id.Below .word)
    (hreal : ∀ x ∈ k.number?, x.isFinite = true → p (.real x)) : k.encode.SoundTo p 2 := by
  cases k with
  | literal value =>
    have hvalue : value.encode.SoundTo p 1 :=
      ⟨TypeObject.sound_literal hreal, TypeObject.depth_literal_le value⟩
    simp [encode, hvalue]
  | union members =>
    have hlist : (encodeList TypeId.encode members).SoundTo p 1 :=
      soundTo_encodeList.mpr fun id hid => soundTo_nat hnatural (hmembers id hid)
    simp [encode, hlist]
  | error | intrinsic | typeParameter | object => simp [encode]

theorem TypeRecord.soundTo_encode {t : TypeRecord} (h : t.Below .word)
    (hreal : ∀ x ∈ t.kind.number?, x.isFinite = true → p (.real x)) : t.encode.SoundTo p 3 := by
  have hkind : t.kind.encode.SoundTo p 2 := TypeKind.soundTo_encode hnatural h.members hreal
  have hsymbol : (Json.nullable SymbolId.encode t.symbol).SoundTo p 2 :=
    Json.soundTo_nullable.mpr fun id hid => soundTo_nat hnatural (h.symbol id hid)
  have halias : (Json.nullable SymbolId.encode t.aliasSymbol).SoundTo p 2 :=
    Json.soundTo_nullable.mpr fun id hid => soundTo_nat hnatural (h.aliasSymbol id hid)
  have haliasArguments : (encodeList TypeId.encode t.aliasArguments).SoundTo p 2 :=
    soundTo_encodeList.mpr fun id hid => soundTo_nat hnatural (h.aliasArguments id hid)
  have harguments : (encodeList TypeId.encode t.arguments).SoundTo p 2 :=
    soundTo_encodeList.mpr fun id hid => soundTo_nat hnatural (h.arguments id hid)
  have horigin : (Json.nullable NodeId.encode t.origin).SoundTo p 2 :=
    Json.soundTo_nullable.mpr fun id hid => soundTo_nat hnatural (h.origin id hid)
  have hproperties : (encodeList SymbolId.encode t.properties).SoundTo p 2 :=
    soundTo_encodeList.mpr fun id hid => soundTo_nat hnatural (h.properties id hid)
  have hcalls : (encodeList SignatureId.encode t.callSignatures).SoundTo p 2 :=
    soundTo_encodeList.mpr fun id hid => soundTo_nat hnatural (h.callSignatures id hid)
  simp [encode, hkind, hsymbol, halias,
    haliasArguments, harguments, horigin, hproperties, hcalls]

theorem Signature.soundTo_encode {s : Signature} (h : s.Below .word) : s.encode.SoundTo p 2 := by
  have hparameters : (encodeList SymbolId.encode s.parameters).SoundTo p 1 :=
    soundTo_encodeList.mpr fun id hid => soundTo_nat hnatural (h.parameters id hid)
  have hresult : s.result.encode.SoundTo p 1 := soundTo_nat hnatural h.result
  simp [encode, hparameters, hresult]

/-- No part of a written program is faulty, at most seven brackets are open at once, and its numbers
are handles, offsets and those of its literal types. -/
theorem Program.soundTo_encode {q : Program} (h : q.Below .word)
    (hreal : ∀ t ∈ q.types, ∀ x ∈ t.kind.number?, x.isFinite = true → p (.real x)) :
    q.encode.SoundTo p 7 := by
  have hfiles : (encodeList SourceFile.encode q.files.toList).SoundTo p 6 :=
    soundTo_encodeList.mpr fun f hf =>
      (SourceFile.soundTo_encode hnatural (h.files f (Array.mem_toList_iff.mp hf))).mono (by decide)
  have hnodes : (encodeList Node.encode q.nodes.toList).SoundTo p 6 :=
    soundTo_encodeList.mpr fun n hn =>
      Node.soundTo_encode hnatural (h.nodes n (Array.mem_toList_iff.mp hn))
  have hsymbols : (encodeList Symbol.encode q.symbols.toList).SoundTo p 6 :=
    soundTo_encodeList.mpr fun s hs =>
      (Symbol.soundTo_encode hnatural (h.symbols s (Array.mem_toList_iff.mp hs))).mono (by decide)
  have htypes : (encodeList TypeRecord.encode q.types.toList).SoundTo p 6 := by
    refine soundTo_encodeList.mpr fun t ht => ?_
    rw [Array.mem_toList_iff] at ht
    exact (TypeRecord.soundTo_encode hnatural (h.types t ht) (hreal t ht)).mono (by decide)
  have hsignatures : (encodeList Signature.encode q.signatures.toList).SoundTo p 6 :=
    soundTo_encodeList.mpr fun s hs =>
      (Signature.soundTo_encode hnatural (h.signatures s (Array.mem_toList_iff.mp hs))).mono
        (by decide)
  simp [encode, hfiles, hnodes, hsymbols, htypes,
    hsignatures]

end Sound

/-! ## What documents give -/

/-- Nothing stands for a handle that is left out. -/
theorem forall_mem_none {α : Type} {P : α → Prop} : ∀ a ∈ (none : Option α), P a :=
  fun _ ha => nomatch ha

theorem SourceFile.gives_decode : Gives decode (·.Below .word) := fun _ =>
  Row.Gives.decode_bind
    (.field gives_anything trivial (.field gives_anything trivial
      (.field (gives_list NodeId.gives_decode) (List.forall_mem_nil _)
        (.field gives_anything trivial .done))))
    fun _ hr => .ok ⟨hr.2.2.1⟩

theorem Node.gives_decode : Gives decode (·.Below .word) := fun _ =>
  Row.Gives.decode_bind
    (.field FileId.gives_decode trivial (.field gives_anything trivial
      (.field (gives_nullable NodeId.gives_decode) forall_mem_none
        (.field (Form.gives_decode .text) trivial
          (.field (gives_nullable SymbolId.gives_decode) forall_mem_none
            (.field (gives_nullable SymbolId.gives_decode) forall_mem_none
              (.field (gives_nullable TypeId.gives_decode) forall_mem_none .done)))))))
    fun _ ⟨hfile, _, hparent, hform, hdeclares, hrefersTo, htype, _⟩ =>
      .ok ⟨hfile, hparent, hform, hdeclares, hrefersTo, htype⟩

theorem Symbol.gives_decode : Gives decode (·.Below .word) := fun _ =>
  Row.Gives.decode_bind
    (.field gives_anything trivial
      (.field (gives_list NodeId.gives_decode) (List.forall_mem_nil _)
        (.field (gives_nullable NodeId.gives_decode) forall_mem_none
          (.field (gives_list SymbolId.gives_decode) (List.forall_mem_nil _)
            (.field gives_anything trivial
              (.field (gives_nullable TypeId.gives_decode) forall_mem_none
                (.field (gives_nullable TypeId.gives_decode) forall_mem_none
                  (.field (gives_nullable TypeId.gives_decode) forall_mem_none .done))))))))
    fun _ ⟨_, hdeclarations, hvalue, hexports, _, htemplate, htype, hdeclared, _⟩ =>
      .ok ⟨hdeclarations, hvalue, hexports, htemplate, htype, hdeclared⟩

namespace TypeKind

theorem members_of_plain? {tag : TypeKindTag} {kind : TypeKind} {name : String}
    (h : tag.plain? = some (kind, name)) : kind.members = [] := by
  cases tag <;> cases h <;> rfl

theorem gives_decodeData (tag : TypeKindTag) :
    Gives (decodeData tag) fun k => ∀ id ∈ k.members, id.Below .word := by
  intro j
  unfold decodeData
  split
  · rename_i hplain
    split
    · refine .ok ?_
      rw [members_of_plain? hplain]
      exact List.forall_mem_nil _
    · exact .error
  · exact .map (P := fun _ => True) (gives_anything j) fun _ _ => List.forall_mem_nil _
  · exact (gives_list TypeId.gives_decode j).map fun _ h => h

variable {P : TypeKind → Prop}

theorem ensures_closeFields {kind : TypeKind} (h : P kind) (fields : List (String × Json)) :
    Ensures (closeFields kind fields) P := by
  refine .after fun next => ?_
  match next with
  | none => exact .ok h
  | some (true, _) => exact .error
  | some (false, _) => exact .error

theorem ensures_decodeFields (fields : List (String × Json)) :
    Ensures (decodeFields fields) fun k => ∀ id ∈ k.members, id.Below .word := by
  refine .after fun next => ?_
  obtain _ | ⟨_ | _, j, fields⟩ := next
  · exact .error
  · refine .after fun _ => .after fun next => ?_
    obtain _ | ⟨_ | _, k, fields⟩ := next
    · exact .error
    · exact .error
    · refine .after fun tag => (gives_decodeData tag j).bind fun kind hkind => ?_
      exact ensures_closeFields hkind fields
  · refine .after fun tag => .after fun next => ?_
    obtain _ | ⟨_ | _, data, fields⟩ := next
    · dsimp only
      split
      · rename_i hplain
        refine .ok ?_
        rw [members_of_plain? hplain]
        exact List.forall_mem_nil _
      · exact .error
    · exact (gives_decodeData tag data).bind fun kind hkind => ensures_closeFields hkind fields
    · exact .error

theorem gives_decode : Gives decode fun k => ∀ id ∈ k.members, id.Below .word := by
  intro j
  unfold decode
  split
  · exact ensures_decodeFields _
  · exact .error
  · exact .after fun _ => .error
  · refine .after fun tag => (gives_decodeData tag _).bind fun kind hkind => .after fun _ => ?_
    exact .ok hkind
  · exact .error

end TypeKind

theorem TypeRecord.gives_decode : Gives decode (·.Below .word) := fun _ =>
  Row.Gives.decode_bind
    (.field gives_anything trivial (.field TypeKind.gives_decode trivial
      (.field (gives_nullable SymbolId.gives_decode) forall_mem_none
        (.field (gives_nullable SymbolId.gives_decode) forall_mem_none
          (.field (gives_list TypeId.gives_decode) (List.forall_mem_nil _)
            (.field (gives_list TypeId.gives_decode) (List.forall_mem_nil _)
              (.field (gives_nullable NodeId.gives_decode) forall_mem_none
                (.field (gives_list SymbolId.gives_decode) (List.forall_mem_nil _)
                  (.field (gives_list SignatureId.gives_decode) (List.forall_mem_nil _)
                    .done)))))))))
    fun _ ⟨_, hkind, hsymbol, halias, haliasArguments, harguments, horigin, hproperties, hcalls,
        _⟩ =>
      .ok ⟨hkind, hsymbol, halias, haliasArguments, harguments, horigin, hproperties, hcalls⟩

theorem Signature.gives_decode : Gives decode (·.Below .word) := fun _ =>
  Row.Gives.decode_bind
    (.field (gives_list SymbolId.gives_decode) trivial (.field TypeId.gives_decode trivial .done))
    fun _ ⟨hparameters, hresult, _⟩ => .ok ⟨hparameters, hresult⟩

namespace Program

theorem size_types_ofTables (files : List SourceFile) (nodes : List Node) (symbols : List Symbol)
    (types : List TypeRecord) (signatures : List Signature) :
    0 < (ofTables files nodes symbols types signatures).types.size := by
  cases types with
  | nil => exact Nat.zero_lt_one
  | cons t types => simp [ofTables]

theorem below_ofTables {b : Bounds} {files : List SourceFile} {nodes : List Node}
    {symbols : List Symbol} {types : List TypeRecord} {signatures : List Signature}
    (hfiles : ∀ f ∈ files, f.Below b) (hnodes : ∀ n ∈ nodes, n.Below b)
    (hsymbols : ∀ s ∈ symbols, s.Below b) (htypes : ∀ t ∈ types, t.Below b)
    (hsignatures : ∀ s ∈ signatures, s.Below b) :
    (ofTables files nodes symbols types signatures).Below b where
  files := fun f hf => hfiles f (List.mem_toArray.mp hf)
  nodes := fun n hn => hnodes n (List.mem_toArray.mp hn)
  symbols := fun s hs => hsymbols s (List.mem_toArray.mp hs)
  types := by
    intro t ht
    unfold ofTables at ht
    split at ht
    · rw [List.mem_singleton.mp (List.mem_toArray.mp ht)]
      exact TypeRecord.below_error b
    · exact htypes t (List.mem_toArray.mp ht)
  signatures := fun s hs => hsignatures s (List.mem_toArray.mp hs)

/-- A decoded program has handles of 32 bits and a first type, and its intrinsic types are those of
its table. -/
theorem gives_decode :
    Gives decode fun p => p.Below .word ∧ 0 < p.types.size ∧ p.intrinsics = intrinsicsOf p.types :=
  fun _ => Row.Gives.decode_bind
    (.field (gives_list SourceFile.gives_decode) (List.forall_mem_nil _)
      (.field (gives_list Node.gives_decode) (List.forall_mem_nil _)
        (.field (gives_list Symbol.gives_decode) (List.forall_mem_nil _)
          (.field (gives_list TypeRecord.gives_decode) (List.forall_mem_nil _)
            (.field (gives_list Signature.gives_decode) (List.forall_mem_nil _) .done)))))
    fun _ ⟨hfiles, hnodes, hsymbols, htypes, hsignatures, _⟩ =>
      .ok ⟨below_ofTables hfiles hnodes hsymbols htypes hsignatures, size_types_ofTables .., rfl⟩

end Program
end PortableTypes
