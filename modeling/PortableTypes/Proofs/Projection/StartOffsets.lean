import PortableTypes.Proofs.Program.NodeAt
import PortableTypes.Proofs.Projection.Locations

/-!
# Locations by the offsets they start at

A location leads back to its symbol by way of a file name, a line and a column. Where files have
names of their own, and the declaration starts at an offset that comes back from its position, the
way ends at the file and the offset it began with. So the locations of a symbol are those of the
declarations at whose first offset a node of the symbol is found. Texts are below `2 ^ 32` bytes, as
line maps take them to be.

Nodes that end at an offset are found there as well. Such a node stands before the declaration and
has no part of it; but if it is the narrower one, the declaration has no location.
-/
namespace PortableTypes

open Text

/-- The location of a span in the text of a file. -/
def SourceFile.locate (f : SourceFile) (span : Span) : Location :=
  let m := LineMap.ofText f.text
  { fileName := f.name, range := ⟨m.position span.start.toNat, m.position span.stop.toNat⟩ }

namespace Program

/-- No two files have the same name. -/
def NamesDiffer (p : Program) : Prop := (p.files.toList.map (·.name)).Nodup

instance (p : Program) : Decidable p.NamesDiffer :=
  inferInstanceAs (Decidable (p.files.toList.map (·.name)).Nodup)

/-- If a node has a span and its file exists, the span starts where the text can be cut without
splitting a character or a line end. -/
def StartsCleanly (p : Program) (node : NodeId) : Prop :=
  ∀ span ∈ p.span? node, ∀ f ∈ (p.nodeFile? node).bind p.file?,
    IsBoundary f.text.toList span.start.toNat ∧ ¬ SplitsLineEnd f.text.toList span.start.toNat

instance (p : Program) (node : NodeId) : Decidable (p.StartsCleanly node) :=
  inferInstanceAs (Decidable (∀ span ∈ p.span? node, ∀ f ∈ (p.nodeFile? node).bind p.file?,
    IsBoundary f.text.toList span.start.toNat ∧ ¬ SplitsLineEnd f.text.toList span.start.toNat))

/-- The location of a declaration in a file that exists, if the node at its first offset declares
the symbol, or else refers to it. -/
def locationByOffset? (p : Program) (symbol : SymbolId) (declaration : NodeId) :
    Option Location := do
  let span ← p.span? declaration
  let file ← p.nodeFile? declaration
  let f ← p.file? file
  let node ← p.nodeAt? file span.start.toNat
  if (p.declares? node).or (p.refersTo? node) = some symbol then some (f.locate span) else none

section

variable {p : Program} {symbol : SymbolId} {declaration : NodeId} {file : FileId} {f : SourceFile}
  {span : Span}

/-- A file with a name of its own is found by it. -/
theorem NamesDiffer.sourceFile?_name (h : p.NamesDiffer) (hf : p.file? file = some f) :
    p.sourceFile? f.name = some file := by
  obtain ⟨hlt, rfl⟩ := Array.getElem?_eq_some_iff.mp hf
  have hdiffer : p.files.toList.Pairwise fun a b => a.name ≠ b.name := List.pairwise_map.mp h
  have hfirst : p.files.toList.findIdx? (·.name == p.files[file.index].name) = some file.index := by
    refine List.findIdx?_eq_some_iff_getElem.mpr ⟨hlt, by simp, fun j hj hsame => ?_⟩
    have hne := List.pairwise_iff_getElem.mp hdiffer j file.index (Nat.lt_trans hj hlt) hlt hj
    exact hne (beq_iff_eq.mp hsame)
  rw [sourceFile?, hfirst]
  rfl

theorem location?_eq (hspan : p.span? declaration = some span)
    (hfile : p.nodeFile? declaration = some file) :
    p.location? declaration = (p.file? file).map (·.locate span) := by
  cases hf : p.file? file with
  | none => simp [location?, hspan, hfile, fileName?, hf]
  | some f => simp [location?, hspan, hfile, fileName?, position?, hf, SourceFile.locate]

theorem locatedNode?_locate (hnames : p.NamesDiffer) (hf : p.file? file = some f)
    (hboundary : IsBoundary f.text.toList span.start.toNat)
    (hwhole : ¬ SplitsLineEnd f.text.toList span.start.toNat) :
    p.locatedNode? (f.locate span) = p.nodeAt? file span.start.toNat := by
  have hoffset : p.offset? file (f.locate span).range.start = some span.start.toNat := by
    have hback := LineMap.offset?_position_eq_snap f.text span.start
    rw [snap_eq_self_iff.mpr ⟨hboundary, hwhole⟩] at hback
    rw [offset?, hf]
    exact hback
  have hname : p.sourceFile? (f.locate span).fileName = some file := hnames.sourceFile?_name hf
  simp only [locatedNode?, Option.bind_eq_bind, hname, Option.bind_some, hoffset]

theorem filter_location? (hnames : p.NamesDiffer) (hstarts : p.StartsCleanly declaration) :
    (p.location? declaration).filter (p.leadsTo symbol) =
      p.locationByOffset? symbol declaration := by
  cases hspan : p.span? declaration with
  | none => simp [location?, locationByOffset?, hspan]
  | some span =>
    cases hfile : p.nodeFile? declaration with
    | none => simp [location?, locationByOffset?, hspan, hfile]
    | some file =>
      rw [location?_eq hspan hfile]
      cases hf : p.file? file with
      | none => simp [locationByOffset?, hspan, hfile, hf]
      | some f =>
        obtain ⟨hboundary, hwhole⟩ := hstarts span hspan f (by rw [hfile]; exact hf)
        have hnode := locatedNode?_locate hnames hf hboundary hwhole
        cases hat : p.nodeAt? file span.start.toNat with
        | none => simp [locationByOffset?, hspan, hfile, hf, leadsTo, hnode, hat]
        | some node =>
          simp [locationByOffset?, hspan, hfile, hf, leadsTo, hnode, hat, nodeSymbol?,
            Option.filter_some]

end

/-- Where file names differ and every declaration of a symbol starts cleanly, the locations of the
symbol are those of its declarations, in their order, that have a span and a file and at whose first
offset the node found declares the symbol, or else refers to it. -/
theorem locationsOf_by_offset (p : Program) (hnames : p.NamesDiffer) (symbol : SymbolId)
    (hstarts : ∀ declaration ∈ p.declarations symbol, p.StartsCleanly declaration) (g : UInt32)
    (n : Nat) :
    (p.locationsOf (some symbol) g n).value =
      (p.declarations symbol).filterMap (p.locationByOffset? symbol) := by
  show ((p.declarations symbol).filterMap p.location?).filter (p.leadsTo symbol) = _
  rw [List.filter_filterMap]
  exact List.filterMap_congr fun declaration hmem => filter_location? hnames (hstarts _ hmem)

/-- A symbol with a declaration behind a character of four bytes and a line end, one without a span,
one in a file that is not there, one whose first offset belongs to another symbol, and one that only
refers to it. -/
def scattered : Program :=
  { files := #[{ name := "a.ts", text := "// 😀\r\ntype A = B;\n" },
      { name := "b.ts", text := "interface A {}" }]
    types := #[.error]
    symbols := #[{ name := "A", declarations := [⟨0⟩, ⟨1⟩, ⟨2⟩, ⟨3⟩, ⟨5⟩] }, { name := "B" }]
    nodes := #[
      { file := ⟨0⟩, form := .typeAlias "A" false none, span := some ⟨9, 20⟩,
        declares := some ⟨0⟩ },
      { file := ⟨0⟩, form := .other, declares := some ⟨0⟩ },
      { file := ⟨7⟩, form := .other, span := some ⟨0, 1⟩, declares := some ⟨0⟩ },
      { file := ⟨1⟩, form := .interface "A" false, span := some ⟨0, 14⟩, declares := some ⟨0⟩ },
      { file := ⟨1⟩, form := .other, span := some ⟨0, 9⟩, refersTo := some ⟨1⟩ },
      { file := ⟨0⟩, form := .identifier "A", span := some ⟨14, 15⟩, refersTo := some ⟨0⟩ }] }

theorem locationsOf_by_offset_scattered :
    scattered.NamesDiffer ∧
    (∀ declaration ∈ scattered.declarations ⟨0⟩, scattered.StartsCleanly declaration) ∧
    (scattered.locationsOf (some ⟨0⟩) 1 0).value =
      [⟨"a.ts", ⟨1, 0⟩, ⟨1, 11⟩⟩, ⟨"a.ts", ⟨1, 5⟩, ⟨1, 6⟩⟩] := by
  have hnames : scattered.NamesDiffer := by decide +kernel
  have hstarts : ∀ declaration ∈ scattered.declarations ⟨0⟩,
      scattered.StartsCleanly declaration := by decide +kernel
  refine ⟨hnames, hstarts, ?_⟩
  rw [locationsOf_by_offset scattered hnames ⟨0⟩ hstarts]
  decide +kernel

/-! ## Nodes that end where a declaration starts -/

/-- A node of the file with the offset in its span, the end not counted. -/
def Covers (p : Program) (file : FileId) (offset : Nat) (node : NodeId) : Prop :=
  p.nodeFile? node = some file ∧
    ∃ span, p.span? node = some span ∧ span.start.toNat ≤ offset ∧ offset < span.stop.toNat

/-- A node of the file whose span ends at the offset. -/
def EndsAt (p : Program) (file : FileId) (offset : Nat) (node : NodeId) : Prop :=
  p.nodeFile? node = some file ∧
    ∃ span, p.span? node = some span ∧ span.start.toNat ≤ offset ∧ span.stop.toNat = offset

/-- A node that does not hide a declaration of the symbol: it is of the symbol itself, or longer. -/
def GivesWay (p : Program) (symbol : SymbolId) (length : Nat) (node : NodeId) : Prop :=
  p.nodeSymbol? node = some symbol ∨ ∃ span, p.span? node = some span ∧ length < span.length

/-- A declaration that declares its symbol and has a span, not an empty one, in the text of a file
that exists, with a clean start. -/
structure DeclaredAt (p : Program) (symbol : SymbolId) (declaration : NodeId) (file : FileId)
    (f : SourceFile) (span : Span) : Prop where
  listed : declaration ∈ p.declarations symbol
  declares : p.declares? declaration = some symbol
  nodeFile : p.nodeFile? declaration = some file
  sourceFile : p.file? file = some f
  nodeSpan : p.span? declaration = some span
  nonempty : span.start < span.stop
  inside : span.stop.toNat ≤ bytes f.text.toList
  boundary : IsBoundary f.text.toList span.start.toNat
  whole : ¬ SplitsLineEnd f.text.toList span.start.toNat

section

variable {p : Program} {symbol : SymbolId} {declaration node : NodeId} {file : FileId}
  {f : SourceFile} {span : Span} {offset : Nat}

theorem covers_or_endsAt (h : p.Touches file offset node) :
    p.Covers file offset node ∨ p.EndsAt file offset node := by
  obtain ⟨hfile, span, hspan, htouches⟩ := h
  simp only [Span.touches, Bool.and_eq_true, decide_eq_true_eq] at htouches
  obtain hlt | heq := Nat.lt_or_eq_of_le htouches.2
  · exact .inl ⟨hfile, span, hspan, htouches.1, hlt⟩
  · exact .inr ⟨hfile, span, hspan, htouches.1, heq.symm⟩

theorem length_le_of_rank_le {a b : NodeId} {s t : Span} (h : p.rank a ≤ p.rank b)
    (hs : p.span? a = some s) (ht : p.span? b = some t) : s.length ≤ t.length := by
  simp only [rank, hs, ht, Option.map_some, Option.getD_some, Prod.Lex.toLex_le_toLex] at h
  omega

namespace DeclaredAt

variable (h : p.DeclaredAt symbol declaration file f span)
include h

theorem touches : p.Touches file span.start.toNat declaration := by
  refine ⟨h.nodeFile, span, h.nodeSpan, ?_⟩
  have hle := Nat.le_of_lt (UInt32.lt_iff_toNat_lt.mp h.nonempty)
  simp [Span.touches, hle]

theorem location?_eq : p.location? declaration = some (f.locate span) := by
  rw [Program.location?_eq h.nodeSpan h.nodeFile, h.sourceFile]
  rfl

/-- The location is kept just if the node at the first offset is of the symbol. -/
theorem mem_locations_iff (hnames : p.NamesDiffer) :
    f.locate span ∈ p.locations symbol ↔
      (p.nodeAt? file span.start.toNat).bind p.nodeSymbol? = some symbol := by
  have hlisted : f.locate span ∈ p.declaredLocations symbol :=
    List.mem_filterMap.mpr ⟨declaration, h.listed, h.location?_eq⟩
  have hnode := locatedNode?_locate hnames h.sourceFile h.boundary h.whole
  rw [locations, List.mem_filter, and_iff_right hlisted, leadsTo, hnode, beq_iff_eq]

/-- What is found at the first offset is no longer than the declaration. -/
theorem not_longer (hnode : p.nodeAt? file span.start.toNat = some node) {s : Span}
    (hs : p.span? node = some s) : s.length ≤ span.length :=
  length_le_of_rank_le ((nodeAt?_eq_some_iff.mp hnode).2 declaration h.touches) hs h.nodeSpan

theorem nodeSymbol?_of_givesWay (hnode : p.nodeAt? file span.start.toNat = some node)
    (hway : p.GivesWay symbol span.length node) : p.nodeSymbol? node = some symbol := by
  obtain hsymbol | ⟨s, hs, hlonger⟩ := hway
  · exact hsymbol
  · exact absurd (h.not_longer hnode hs) (Nat.not_le.mpr hlonger)

/-- If all other nodes around the first offset give way, the one that is found there is of the
symbol, or it ends there. -/
theorem nodeSymbol?_or_endsAt
    (hway : ∀ other, other ≠ declaration → p.Covers file span.start.toNat other →
      p.GivesWay symbol span.length other)
    (hnode : p.nodeAt? file span.start.toNat = some node) :
    p.nodeSymbol? node = some symbol ∨ p.EndsAt file span.start.toNat node := by
  by_cases hself : node = declaration
  · left
    rw [hself, nodeSymbol?, h.declares, Option.some_or]
  · obtain hcovers | hends := covers_or_endsAt (nodeAt?_eq_some_iff.mp hnode).1
    · exact .inl (h.nodeSymbol?_of_givesWay hnode (hway node hself hcovers))
    · exact .inr hends

end DeclaredAt
end

/-- Where file names differ, take a declaration of a symbol with a clean start, such that every
other node around its first offset is longer or of the symbol. Its location is reported just if no
node of another symbol that ends at this offset is found there; so it is reported if the nodes that
end there are longer or of the symbol too. -/
theorem declaration_located (p : Program) (hnames : p.NamesDiffer) (symbol : SymbolId)
    (declaration : NodeId) (file : FileId) (f : SourceFile) (span : Span)
    (h : p.DeclaredAt symbol declaration file f span)
    (hway : ∀ other, other ≠ declaration → p.Covers file span.start.toNat other →
      p.GivesWay symbol span.length other) (g : UInt32) (n : Nat) :
    p.location? declaration = some (f.locate span) ∧
    (f.locate span ∈ (p.locationsOf (some symbol) g n).value ↔
      ∀ node, p.nodeAt? file span.start.toNat = some node → p.EndsAt file span.start.toNat node →
        p.nodeSymbol? node = some symbol) ∧
    ((∀ other, p.EndsAt file span.start.toNat other → p.GivesWay symbol span.length other) →
      f.locate span ∈ (p.locationsOf (some symbol) g n).value) := by
  have hfound : ∃ node, p.nodeAt? file span.start.toNat = some node :=
    Option.ne_none_iff_exists'.mp fun hnone => nodeAt?_eq_none_iff.mp hnone declaration h.touches
  obtain ⟨node, hnode⟩ := hfound
  have hkept : f.locate span ∈ (p.locationsOf (some symbol) g n).value ↔
      p.nodeSymbol? node = some symbol := by
    have hmem := h.mem_locations_iff hnames
    rwa [hnode] at hmem
  refine ⟨h.location?_eq, hkept.trans ⟨fun hsymbol other hother _ => ?_, fun hends => ?_⟩,
    fun hends => hkept.mpr ?_⟩
  · rwa [← Option.some.inj (hnode.symm.trans hother)]
  · exact (h.nodeSymbol?_or_endsAt hway hnode).elim id (hends node hnode)
  · exact (h.nodeSymbol?_or_endsAt hway hnode).elim id fun hbefore =>
      h.nodeSymbol?_of_givesWay hnode (hends node hbefore)

/-- Two statements of a file without a blank between them, the longer one in front. -/
def longerInFront : Program :=
  { files := #[{ name := "a.ts", text := "type Long=1;type A=2;" }]
    types := #[.error]
    symbols := #[{ name := "Long", declarations := [⟨0⟩] }, { name := "A", declarations := [⟨1⟩] }]
    nodes := #[
      { file := ⟨0⟩, form := .typeAlias "Long" false none, span := some ⟨0, 12⟩,
        declares := some ⟨0⟩ },
      { file := ⟨0⟩, form := .typeAlias "A" false none, span := some ⟨12, 21⟩,
        declares := some ⟨1⟩ }] }

theorem declaration_located_longerInFront :
    ∃ f, longerInFront.NamesDiffer ∧ longerInFront.DeclaredAt ⟨1⟩ ⟨1⟩ ⟨0⟩ f ⟨12, 21⟩ ∧
      longerInFront.EndsAt ⟨0⟩ 12 ⟨0⟩ ∧
      f.locate ⟨12, 21⟩ ∈ (longerInFront.locationsOf (some ⟨1⟩) 1 0).value := by
  have hnames : longerInFront.NamesDiffer := by decide +kernel
  have hdeclared : longerInFront.DeclaredAt ⟨1⟩ ⟨1⟩ ⟨0⟩ _ ⟨12, 21⟩ :=
    ⟨by decide, rfl, rfl, rfl, rfl, by decide, by decide +kernel, by decide +kernel,
      by decide +kernel⟩
  have hspans (node : NodeId) (s : Span) (hs : longerInFront.span? node = some s) :
      node = ⟨0⟩ ∧ s = ⟨0, 12⟩ ∨ node = ⟨1⟩ ∧ s = ⟨12, 21⟩ := by
    obtain ⟨_ | _ | i⟩ := node <;> simp_all [longerInFront, span?, node?]
  have hlonger : longerInFront.GivesWay ⟨1⟩ (Span.mk 12 21).length ⟨0⟩ :=
    .inr ⟨⟨0, 12⟩, rfl, by decide⟩
  have hway : ∀ other, other ≠ ⟨1⟩ → longerInFront.Covers ⟨0⟩ 12 other →
      longerInFront.GivesWay ⟨1⟩ (Span.mk 12 21).length other := by
    rintro other hother ⟨-, s, hs, -⟩
    obtain ⟨rfl, -⟩ | ⟨rfl, -⟩ := hspans other s hs
    · exact hlonger
    · exact absurd rfl hother
  have hends : ∀ other, longerInFront.EndsAt ⟨0⟩ 12 other →
      longerInFront.GivesWay ⟨1⟩ (Span.mk 12 21).length other := by
    rintro other ⟨-, s, hs, -, hstop⟩
    obtain ⟨rfl, -⟩ | ⟨-, rfl⟩ := hspans other s hs
    · exact hlonger
    · exact absurd hstop (by decide)
  obtain ⟨-, -, hkept⟩ := declaration_located longerInFront hnames ⟨1⟩ ⟨1⟩ ⟨0⟩ _ ⟨12, 21⟩ hdeclared
    hway 1 0
  exact ⟨_, hnames, hdeclared, ⟨rfl, ⟨0, 12⟩, rfl, by decide, by decide⟩, hkept hends⟩

/-- Two statements of a file without a blank between them, the shorter one in front. -/
def shorterInFront : Program :=
  { files := #[{ name := "a.ts", text := "type A=1;type BB=2;" }]
    types := #[.error]
    symbols := #[{ name := "A", declarations := [⟨0⟩] }, { name := "BB", declarations := [⟨1⟩] }]
    nodes := #[
      { file := ⟨0⟩, form := .typeAlias "A" false none, span := some ⟨0, 9⟩,
        declares := some ⟨0⟩ },
      { file := ⟨0⟩, form := .typeAlias "BB" false none, span := some ⟨9, 19⟩,
        declares := some ⟨1⟩ }] }

/-- No other node is around the first offset of the second statement, but the first statement ends
there and is found; so the second one has no location. -/
theorem declaration_located_shorterInFront :
    ∃ f, shorterInFront.NamesDiffer ∧ shorterInFront.DeclaredAt ⟨1⟩ ⟨1⟩ ⟨0⟩ f ⟨9, 19⟩ ∧
      (∀ other, other ≠ ⟨1⟩ → ¬ shorterInFront.Covers ⟨0⟩ 9 other) ∧
      shorterInFront.location? ⟨1⟩ = some (f.locate ⟨9, 19⟩) ∧
      (shorterInFront.locationsOf (some ⟨1⟩) 1 0).value = [] := by
  have hdeclared : shorterInFront.DeclaredAt ⟨1⟩ ⟨1⟩ ⟨0⟩ _ ⟨9, 19⟩ :=
    ⟨by decide, rfl, rfl, rfl, rfl, by decide, by decide +kernel, by decide +kernel,
      by decide +kernel⟩
  refine ⟨_, by decide +kernel, hdeclared, ?_, hdeclared.location?_eq, by decide +kernel⟩
  rintro ⟨_ | _ | i⟩ hother ⟨-, s, hs, -, hbefore⟩
  · cases hs
    exact absurd hbefore (by decide)
  · exact hother rfl
  · simp [shorterInFront, span?, node?] at hs

end Program
end PortableTypes
