import PortableTypes.Projection.Location
import PortableTypes.Proofs.Source.Positions

/-!
# Reported locations

A location that is reported is the place of a declaration, written down by file name, lines and
columns, and going there finds a node of the symbol that is declared. Lines and columns keep the
order of offsets, so its range runs forward if the span of the declaration does.
-/
namespace PortableTypes.Program

/-- A location is where a declaration stands, and its ends are in order if those of the
declaration's span are. -/
structure Places (p : Program) (declaration : NodeId) (file : FileId) (span : Span) (l : Location) :
    Prop where
  nodeFile : p.nodeFile? declaration = some file
  fileName : p.fileName? file = some l.fileName
  nodeSpan : p.span? declaration = some span
  startsAt : p.position? file span.start.toNat = some l.range.start
  stopsAt : p.position? file span.stop.toNat = some l.range.stop
  ordered : span.start ≤ span.stop → l.range.start ≤ l.range.stop

/-- The start of a location leads to a node, by way of an offset in a file, and the node to a
symbol. -/
structure Finds (p : Program) (l : Location) (file : FileId) (offset : Nat) (node : NodeId)
    (symbol : SymbolId) : Prop where
  sourceFile : p.sourceFile? l.fileName = some file
  startOffset : p.offset? file l.range.start = some offset
  nodeAt : p.nodeAt? file offset = some node
  nodeSymbol : (p.declares? node).or (p.refersTo? node) = some symbol

/-- A location leads to a symbol, and one of the symbol's declarations stands there. -/
def Verified (p : Program) (l : Location) : Prop :=
  ∃ file offset node symbol, p.Finds l file offset node symbol ∧
    ∃ declaration ∈ p.declarations symbol, ∃ home span, p.Places declaration home span l

theorem position?_mono {p : Program} {file : FileId} {a b : UInt32} {start stop : Position}
    (h : a ≤ b) (hstart : p.position? file a.toNat = some start)
    (hstop : p.position? file b.toNat = some stop) : start ≤ stop := by
  obtain ⟨f, hf, rfl⟩ := Option.map_eq_some_iff.mp hstart
  obtain ⟨f', hf', rfl⟩ := Option.map_eq_some_iff.mp hstop
  rw [hf] at hf'
  cases hf'
  exact LineMap.position_mono f.text h

theorem places_of_location? {p : Program} {declaration : NodeId} {l : Location}
    (h : p.location? declaration = some l) :
    ∃ file span, p.Places declaration file span l := by
  simp only [location?, Option.bind_eq_bind, Option.bind_eq_some_iff] at h
  obtain ⟨span, hspan, file, hfile, fileName, hname, start, hstart, stop, hstop, hl⟩ := h
  cases hl
  exact ⟨file, span, hfile, hname, hspan, hstart, hstop, fun h => position?_mono h hstart hstop⟩

theorem finds_of_leadsTo {p : Program} {symbol : SymbolId} {l : Location}
    (h : p.leadsTo symbol l = true) : ∃ file offset node, p.Finds l file offset node symbol := by
  simp only [leadsTo, locatedNode?, beq_iff_eq, Option.bind_eq_bind, Option.bind_eq_some_iff] at h
  obtain ⟨node, ⟨file, hfile, offset, hoffset, hnode⟩, hsymbol⟩ := h
  exact ⟨file, offset, node, hfile, hoffset, hnode, hsymbol⟩

/-- The locations of a symbol are verified. -/
theorem verified_of_mem_locations {p : Program} {symbol : SymbolId} {l : Location}
    (h : l ∈ p.locations symbol) : p.Verified l := by
  obtain ⟨hdeclared, hleads⟩ := List.mem_filter.mp h
  obtain ⟨declaration, hmem, hl⟩ := List.mem_filterMap.mp hdeclared
  obtain ⟨file, offset, node, hfinds⟩ := finds_of_leadsTo hleads
  exact ⟨file, offset, node, symbol, hfinds, declaration, hmem, places_of_location? hl⟩

end PortableTypes.Program

namespace PortableTypes.LineMap

open Text

/-- Offsets and positions keep each other's order. A later offset has no earlier position, and a
later one if both are boundaries of the text; a later position has no earlier offset; and the range
of a declaration runs forward if its span does. -/
theorem positions_in_order (text : String) :
    (∀ a b : UInt32, a ≤ b → (ofText text).position a.toNat ≤ (ofText text).position b.toNat) ∧
    (∀ a b : UInt32, IsBoundary text.toList a.toNat → IsBoundary text.toList b.toNat →
      (a < b → (ofText text).position a.toNat < (ofText text).position b.toNat) ∧
      ((ofText text).position a.toNat = (ofText text).position b.toNat → a = b)) ∧
    (∀ p q : Position, p ≤ q → q.line.toNat < (ofText text).lineCount →
      ∃ a b, (ofText text).offset? p = some a ∧ (ofText text).offset? q = some b ∧ a ≤ b) ∧
    ∀ (program : Program) (node : NodeId) (span : Span) (l : Location),
      program.span? node = some span → program.location? node = some l →
      span.start ≤ span.stop → l.range.start ≤ l.range.stop := by
  refine ⟨fun a b h => position_mono text h,
    fun a b ha hb => ⟨position_lt_of_lt ha hb, eq_of_position_eq ha hb⟩, ?_, ?_⟩
  · intro p q h hline
    obtain ⟨a, ha⟩ := exists_offset? (Nat.lt_of_le_of_lt (Position.toNat_line_le h) hline)
    obtain ⟨b, hb⟩ := exists_offset? hline
    exact ⟨a, b, ha, hb, offset?_mono h ha hb⟩
  · intro program node span l hspan hl hforward
    obtain ⟨file, span', hplaces⟩ := Program.places_of_location? hl
    obtain rfl : span = span' := Option.some.inj (hspan.symm.trans hplaces.nodeSpan)
    exact hplaces.ordered hforward

/-- A file whose only node spans the end of a line and a character of four bytes. -/
def spanningLines : Program :=
  { files := #[{ name := "a.ts", text := "a\r\n😀" }]
    types := #[.error]
    nodes := #[{ file := ⟨0⟩, form := .other, span := some ⟨2, 7⟩ }] }

/-- The offset that splits the line end is before the one behind it, though it is on a line with a
greater column. -/
theorem positions_in_order_spanningLines :
    let m := ofText "a\r\n😀"
    m.position 2 = ⟨0, 2⟩ ∧ m.position 3 = ⟨1, 0⟩ ∧ m.position 2 ≤ m.position 3 ∧
    m.position 2 < m.position 3 ∧
    (∃ a b, m.offset? ⟨0, 9⟩ = some a ∧ m.offset? ⟨1, 1⟩ = some b ∧ a ≤ b) ∧
    ∃ l, spanningLines.location? ⟨0⟩ = some l ∧ l.range.start ≤ l.range.stop := by
  intro m
  obtain ⟨hmono, hstrict, hoffsets, hranges⟩ := positions_in_order "a\r\n😀"
  obtain ⟨l, hl⟩ : ∃ l, spanningLines.location? ⟨0⟩ = some l :=
    Option.isSome_iff_exists.mp (by decide +kernel)
  refine ⟨by decide +kernel, by decide +kernel, hmono 2 3 (by decide), ?_, ?_, l, hl, ?_⟩
  · exact (hstrict 2 3 (by decide +kernel) (by decide +kernel)).1 (by decide)
  · exact hoffsets ⟨0, 9⟩ ⟨1, 1⟩ (by decide) (by decide +kernel)
  · exact hranges spanningLines ⟨0⟩ ⟨2, 7⟩ l rfl hl (by decide)

end PortableTypes.LineMap
