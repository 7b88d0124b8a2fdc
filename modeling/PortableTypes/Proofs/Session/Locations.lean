import PortableTypes.Proofs.Session.Results

/-!
# Locations in answers

Whatever is asked of a session, every location in the answer is the place of a declaration and leads
back to the symbol that is declared there. The texts of the program are below `2 ^ 32` bytes, as
line maps take them to be.
-/
namespace PortableTypes.Session

/-- Every location at any depth of what an operation returns, those of the members of enumerations
included, leads over a file of its name, an offset and a node to a symbol; a declaration of that
symbol stands in a file of the location's name, and the span of the declaration, carried over to
positions, is the range of the location, whose ends are in order if those of the span are. -/
theorem locations_verified (s : Session) (op : Operation) (t : TypeObject)
    (ht : t ∈ (perform op s).value.types) (path : List TypeObject) (hpath : t.Path path)
    (u : TypeObject) (hu : u ∈ path) (l : Location) (hl : l ∈ u.ownLocations) :
    s.program.Verified l := by
  have hthroughout := throughout_types_perform s op t ht
  have hvouched := hthroughout.of_mem_path hpath hu
  exact hvouched.locations l hl

/-- A file with an enumeration on its second line, behind a character of four bytes, and a tuple
type of the enumeration. -/
def tupleOfEnumeration : Program :=
  { files := #[{ name := "a.ts", text := "// 😀\r\nenum E { A = 1 }\n" }]
    types := #[.error, { text := "[E]", kind := .object },
      { text := "E", kind := .union [⟨3⟩], symbol := some ⟨0⟩ },
      { text := "E.A", kind := .literal (.string "1") }]
    symbols := #[{ name := "E", declarations := [⟨1⟩], exports := [⟨1⟩], type := some ⟨2⟩ },
      { name := "A", declarations := [⟨2⟩], valueDeclaration := some ⟨2⟩, type := some ⟨3⟩ }]
    nodes := #[{ file := ⟨0⟩, form := .tupleType [⟨1⟩], type := some ⟨1⟩ },
      { file := ⟨0⟩, form := .enumeration "E" true, span := some ⟨9, 25⟩, declares := some ⟨0⟩,
        type := some ⟨2⟩ },
      { file := ⟨0⟩, form := .enumMember "A", span := some ⟨18, 23⟩, declares := some ⟨1⟩,
        type := some ⟨3⟩ }] }

/-- The location of the only member of the enumeration that is the only item of the tuple. -/
theorem locations_verified_tupleOfEnumeration :
    let l : Location := ⟨"a.ts", ⟨1, 9⟩, ⟨1, 14⟩⟩
    (∃ t ∈ (perform (.typeOf ⟨0⟩) (start tupleOfEnumeration .initial)).value.types,
      ∃ c ∈ t.children, t.Path [t, c] ∧ c.tag = .enum ∧ l ∈ c.ownLocations) ∧
    tupleOfEnumeration.Verified l := by
  intro l
  have hmember : ∃ t ∈ (perform (.typeOf ⟨0⟩) (start tupleOfEnumeration .initial)).value.types,
      ∃ c ∈ t.children, c.tag = .enum ∧ l ∈ c.ownLocations := by decide +kernel
  obtain ⟨t, ht, c, hc, htag, hl⟩ := hmember
  have hpath : t.Path [t, c] := .down hc (.here c)
  refine ⟨⟨t, ht, c, hc, hpath, htag, hl⟩, ?_⟩
  exact locations_verified (start tupleOfEnumeration .initial) (.typeOf ⟨0⟩) t ht [t, c] hpath c
    (by simp) l hl

end PortableTypes.Session
