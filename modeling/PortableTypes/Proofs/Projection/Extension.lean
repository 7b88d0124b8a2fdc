import PortableTypes.Projection.Property
import PortableTypes.Proofs.Program.Extension
import PortableTypes.Proofs.Projection.Statements
import PortableTypes.Session

/-!
# Projection and records that are added

From a handle of a closed program every projection reaches handles of that program only. So it gives
the same, stores the same objects and reports the same events in a program that extends it.
-/
namespace PortableTypes

namespace Projecting

variable {α β : Type}

theorem each_congr {f g : α → Projecting β} {as : List α} (h : ∀ a ∈ as, f a = g a) :
    each f as = each g as := by
  induction as with
  | nil => rfl
  | cons a as ih =>
    obtain ⟨ha, has⟩ := List.forall_mem_cons.mp h
    simp only [each, ha, ih has]

theorem eachSome_congr {f g : α → Projecting (Option β)} {as : List α} (h : ∀ a ∈ as, f a = g a) :
    eachSome f as = eachSome g as := by
  induction as with
  | nil => rfl
  | cons a as ih =>
    obtain ⟨ha, has⟩ := List.forall_mem_cons.mp h
    simp only [eachSome, ha, ih has]

end Projecting

namespace Program

/-! ## Children of arrays and promises -/

/-- The node of the element in a form that is written as an array type. -/
def elementNode? : Form → Option NodeId
  | .arrayType element => some element
  | form => firstArgument? form

/-- The node of the first argument of what the alias of a type is declared as. -/
def promisedNode? (p : Program) (type : TypeId) : Option NodeId := do
  let symbol ← p.aliasSymbol? type
  let declaration ← (p.declarations symbol).head?
  let typeNode ← p.typeNode? declaration
  let form ← p.form? typeNode
  firstArgument? form

/-- A child is the first argument of a type, or else the type at a node. -/
def childSource? (p : Program) (type : TypeId) (node : Option NodeId) :
    Option (TypeId × Option NodeId) :=
  ((p.typeArguments type).head?.map (·, none)).or (node.map fun n => (p.typeAt n, some n))

theorem elementSource?_eq_childSource? (p : Program) (type : TypeId) (anchor : Option NodeId) :
    p.elementSource? type anchor =
      p.childSource? type ((anchor.bind p.arrayForm?).bind elementNode?) := by
  unfold elementSource? childSource?
  cases (p.typeArguments type).head? with
  | some argument => rfl
  | none =>
    cases anchor.bind p.arrayForm? with
    | none => rfl
    | some form =>
      cases form with
      | typeReference name arguments => cases arguments <;> rfl
      | _ => rfl

theorem promiseSource?_eq_childSource? (p : Program) (type : TypeId) :
    p.promiseSource? type = p.childSource? type (p.promisedNode? type) := by
  unfold promiseSource? childSource?
  cases (p.typeArguments type).head? with
  | some argument => rfl
  | none => simp [promisedNode?, Option.map_eq_bind, Option.bind_assoc]

theorem mem_nodes_of_mem_firstArgument? {form : Form} {node : NodeId}
    (h : node ∈ firstArgument? form) : node ∈ form.nodes := by
  cases form <;> simp only [firstArgument?, Option.mem_def, reduceCtorEq] at h
  exact List.mem_of_head? h

theorem mem_nodes_of_mem_elementNode? {form : Form} {node : NodeId}
    (h : node ∈ elementNode? form) : node ∈ form.nodes := by
  cases form with
  | arrayType element =>
    cases h
    exact List.mem_singleton_self _
  | _ => exact mem_nodes_of_mem_firstArgument? h

theorem exists_form?_of_arrayForm? {p : Program} {anchor : NodeId} {form : Form}
    (h : p.arrayForm? anchor = some form) : ∃ node, p.form? node = some form := by
  simp only [arrayForm?, Option.bind_eq_bind, Option.bind_eq_some_iff] at h
  obtain ⟨own, hown, h⟩ := h
  split at h
  · cases h
    exact ⟨anchor, hown⟩
  · simp only [Option.bind_eq_some_iff] at h
    obtain ⟨annotated, ⟨node, -, hnode⟩, h⟩ := h
    split at h <;> cases h
    exact ⟨node, hnode⟩

namespace Closed

variable {p : Program} (hp : p.Closed)
include hp

theorem typeNode? (node : NodeId) : ∀ n ∈ p.typeNode? node, n.Below p.bounds :=
  forall_mem_bind fun _ hform n hn => hp.form? hform n (Form.mem_nodes_of_mem_typeNode? hn)

theorem tupleElements? {node : NodeId} {elements : List NodeId}
    (h : p.tupleElements? node = some elements) : ∀ n ∈ elements, n.Below p.bounds := by
  unfold Program.tupleElements? at h
  split at h <;> cases h
  rename_i hform
  exact hp.form? hform

theorem elementNode? (anchor : Option NodeId) :
    ∀ n ∈ (anchor.bind p.arrayForm?).bind elementNode?, n.Below p.bounds := by
  refine forall_mem_bind fun form hform n hn => ?_
  obtain ⟨node, -, harray⟩ := Option.bind_eq_some_iff.mp hform
  obtain ⟨other, hother⟩ := exists_form?_of_arrayForm? harray
  exact hp.form? hother n (mem_nodes_of_mem_elementNode? hn)

theorem promisedNode? (type : TypeId) : ∀ n ∈ p.promisedNode? type, n.Below p.bounds := by
  intro n hn
  simp only [Program.promisedNode?, Option.bind_eq_bind, Option.mem_def,
    Option.bind_eq_some_iff] at hn
  obtain ⟨symbol, -, declaration, -, typeNode, -, form, hform, hn⟩ := hn
  exact hp.form? hform n (mem_nodes_of_mem_firstArgument? hn)

theorem childSource? {type child : TypeId} {node anchor : Option NodeId}
    (hnode : ∀ n ∈ node, n.Below p.bounds) (h : p.childSource? type node = some (child, anchor)) :
    child.Below p.bounds ∧ ∀ a ∈ anchor, a.Below p.bounds := by
  obtain hfirst | ⟨-, hnodes⟩ := Option.or_eq_some_iff.mp h
  · obtain ⟨argument, hargument, heq⟩ := Option.map_eq_some_iff.mp hfirst
    cases heq
    exact ⟨hp.typeArguments type _ (List.mem_of_head? hargument), fun _ ha => nomatch ha⟩
  · obtain ⟨n, hn, heq⟩ := Option.map_eq_some_iff.mp hnodes
    cases heq
    refine ⟨hp.typeOrError _, fun a ha => ?_⟩
    cases ha
    exact hnode n hn

theorem exportsOfType (type : TypeId) : ∀ s ∈ p.exportsOfType type, s.Below p.bounds :=
  forall_mem_getD_map fun symbol _ => hp.exports symbol

theorem annotatedArray? {property : SymbolId} {typeNode element : NodeId}
    (h : p.annotatedArray? property = some (typeNode, element)) :
    typeNode.Below p.bounds ∧ element.Below p.bounds := by
  simp only [Program.annotatedArray?, Option.bind_eq_bind, Option.bind_eq_some_iff] at h
  obtain ⟨declaration, -, node, hnode, form, hform, h⟩ := h
  split at h <;> cases h
  exact ⟨hp.typeNode? declaration typeNode hnode,
    hp.form? hform element (List.mem_singleton_self _)⟩

theorem nodeSymbol? (node : NodeId) : ∀ s ∈ p.nodeSymbol? node, s.Below p.bounds := by
  intro s hs
  obtain hs | ⟨-, hs⟩ := Option.or_eq_some_iff.mp hs
  · exact hp.declares? node s hs
  · exact hp.refersTo? node s hs

theorem anchored (node : NodeId) :
    ∀ s ∈ (p.refersTo? node).or (p.declares? node), s.Below p.bounds := by
  intro s hs
  obtain hs | ⟨-, hs⟩ := Option.or_eq_some_iff.mp hs
  · exact hp.refersTo? node s hs
  · exact hp.declares? node s hs

theorem anchorSymbol? (anchor : Option NodeId) :
    ∀ s ∈ p.anchorSymbol? anchor, s.Below p.bounds := by
  intro s hs
  simp only [Program.anchorSymbol?, Option.bind_eq_bind, Option.mem_def,
    Option.bind_eq_some_iff] at hs
  obtain ⟨node, -, -, -, symbol, hsymbol, hs⟩ := hs
  split at hs <;> cases hs
  exact hp.anchored node s hsymbol

end Closed

theorem below_of_locatedNode? {p : Program} {l : Location} {node : NodeId}
    (h : p.locatedNode? l = some node) : node.Below p.bounds := by
  simp only [locatedNode?, Option.bind_eq_bind, Option.bind_eq_some_iff] at h
  obtain ⟨file, -, offset, -, hnode⟩ := h
  exact below_of_nodeAt? hnode

theorem below_of_nodeUnder {p : Program} {fileName : String} {position : Position}
    {node : NodeId} (h : p.nodeUnder fileName position = .ok node) : node.Below p.bounds := by
  unfold nodeUnder at h
  split at h
  · cases h
  · split at h <;> cases h
    rename_i hnode
    obtain ⟨offset, -, hnode⟩ := Option.bind_eq_some_iff.mp hnode
    exact below_of_nodeAt? hnode

theorem mentions_of_sourceFile? {p : Program} {name : String} {file : FileId}
    (h : p.sourceFile? name = some file) : p.Mentions name :=
  mentions_of_fileName? (fileName?_of_sourceFile? h)

theorem mentions_of_mem_declaredLocations {p : Program} {symbol : SymbolId} {l : Location}
    (h : l ∈ p.declaredLocations symbol) : p.Mentions l.fileName := by
  obtain ⟨node, -, hl⟩ := List.mem_filterMap.mp h
  obtain ⟨file, span, hplaces⟩ := places_of_location? hl
  exact mentions_of_fileName? hplaces.fileName

namespace Extends

variable {p q : Program} (h : q.Extends p)
include h

/-! ## Locations -/

theorem displayText_eq {type : TypeId} (ht : type.Below p.bounds) :
    q.displayText type = p.displayText type := by
  simp only [displayText, typeText, h.type?_eq ht]

theorem isTypeParameter_eq {type : TypeId} (ht : type.Below p.bounds) :
    q.isTypeParameter type = p.isTypeParameter type := by
  simp only [isTypeParameter, h.type?_eq ht]

theorem callSignatures_eq {type : TypeId} (ht : type.Below p.bounds) :
    q.callSignatures type = p.callSignatures type := by
  simp only [callSignatures, h.type?_eq ht]

theorem properties_eq {type : TypeId} (ht : type.Below p.bounds) :
    q.properties type = p.properties type := by
  simp only [properties, h.type?_eq ht]

theorem form?_eq {node : NodeId} (hnode : node.Below p.bounds) : q.form? node = p.form? node := by
  simp only [form?, h.node?_eq hnode]

theorem typeNode?_eq {node : NodeId} (hnode : node.Below p.bounds) :
    q.typeNode? node = p.typeNode? node := by
  simp only [typeNode?, h.form?_eq hnode]

theorem nodeSymbol?_eq {node : NodeId} (hnode : node.Below p.bounds) :
    q.nodeSymbol? node = p.nodeSymbol? node := by
  simp only [nodeSymbol?, declares?, refersTo?, h.node?_eq hnode]

theorem anchored_eq {node : NodeId} (hnode : node.Below p.bounds) :
    (q.refersTo? node).or (q.declares? node) = (p.refersTo? node).or (p.declares? node) := by
  simp only [refersTo?, declares?, h.node?_eq hnode]

theorem symbolName?_eq {symbol : SymbolId} (hsymbol : symbol.Below p.bounds) :
    q.symbolName? symbol = p.symbolName? symbol := by
  simp only [symbolName?, h.symbol?_eq hsymbol]

theorem declarations_eq {symbol : SymbolId} (hsymbol : symbol.Below p.bounds) :
    q.declarations symbol = p.declarations symbol := by
  simp only [declarations, h.symbol?_eq hsymbol]

variable (hp : p.Closed)
include hp

theorem location?_eq {node : NodeId} (hnode : node.Below p.bounds) :
    q.location? node = p.location? node := by
  have hspan : q.span? node = p.span? node := by simp only [span?, h.node?_eq hnode]
  have hhome : q.nodeFile? node = p.nodeFile? node := by simp only [nodeFile?, h.node?_eq hnode]
  cases hfile : p.nodeFile? node with
  | none => simp only [location?, hspan, hhome, hfile, Option.bind_eq_bind, Option.bind_none]
  | some file =>
    have hbelow := hp.nodeFile? node file hfile
    simp only [location?, hspan, hhome, hfile, fileName?, position?, h.file?_eq hbelow,
      Option.bind_eq_bind, Option.bind_some]

theorem declaredLocations_eq {symbol : SymbolId} (hsymbol : symbol.Below p.bounds) :
    q.declaredLocations symbol = p.declaredLocations symbol := by
  rw [declaredLocations, h.declarations_eq hsymbol]
  exact List.filterMap_congr fun n hn => h.location?_eq hp (hp.declarations symbol n hn)

theorem locatedNode?_eq {l : Location} (hname : p.Mentions l.fileName) :
    q.locatedNode? l = p.locatedNode? l := by
  cases hfile : p.sourceFile? l.fileName with
  | none => simp only [locatedNode?, h.sourceFile?_eq hname, hfile, Option.bind_eq_bind,
      Option.bind_none]
  | some file =>
    have hbelow := below_of_sourceFile? hfile
    simp only [locatedNode?, h.sourceFile?_eq hname, hfile, offset?, h.file?_eq hbelow,
      h.nodeAt?_eq hp hbelow, Option.bind_eq_bind, Option.bind_some]

theorem leadsTo_eq {l : Location} (hname : p.Mentions l.fileName) (symbol : SymbolId) :
    q.leadsTo symbol l = p.leadsTo symbol l := by
  rw [leadsTo, h.locatedNode?_eq hp hname, leadsTo]
  congr 1
  exact Option.bind_congr fun node hnode => h.nodeSymbol?_eq (below_of_locatedNode? hnode)

theorem locationsOf_eq {symbol : Option SymbolId} (hsymbol : ∀ s ∈ symbol, s.Below p.bounds) :
    q.locationsOf symbol = p.locationsOf symbol := by
  cases symbol with
  | none => rfl
  | some symbol =>
    have hdeclared := h.declaredLocations_eq hp (hsymbol symbol rfl)
    have hleads : ∀ l ∈ p.declaredLocations symbol, q.leadsTo symbol l = p.leadsTo symbol l :=
      fun l hl => h.leadsTo_eq hp (mentions_of_mem_declaredLocations hl) symbol
    have hkept := List.filter_congr hleads
    have hdropped := List.filter_congr fun l hl => congrArg not (hleads l hl)
    simp only [locationsOf, locations, hdeclared, hkept, hdropped]

theorem anchorSymbol?_eq {anchor : Option NodeId} (hanchor : ∀ a ∈ anchor, a.Below p.bounds) :
    q.anchorSymbol? anchor = p.anchorSymbol? anchor := by
  cases anchor with
  | none => rfl
  | some node =>
    have htested {symbol : SymbolId} (hs : symbol.Below p.bounds) :
        (q.symbolHasType symbol || q.isModule symbol) =
          (p.symbolHasType symbol || p.isModule symbol) := by
      simp only [symbolHasType, isModule, h.symbol?_eq hs, h.typeOfSymbol_eq hp hs,
        h.declaredType_eq hp hs, isErrorType, h.type?_eq (hp.typeOfSymbol symbol),
        h.type?_eq (hp.declaredType symbol)]
    have hspan : q.span? node = p.span? node := by simp only [span?, h.node?_eq (hanchor node rfl)]
    simp only [anchorSymbol?, hspan, h.anchored_eq (hanchor node rfl), Option.bind_eq_bind,
      Option.bind_some]
    refine Option.bind_congr fun _ _ => Option.bind_congr fun symbol hs => ?_
    rw [htested (hp.anchored node symbol hs)]

/-! ## Classification -/

theorem tupleSource?_eq {type : TypeId} (ht : type.Below p.bounds) {anchor : Option NodeId}
    (hanchor : ∀ a ∈ anchor, a.Below p.bounds) :
    q.tupleSource? type anchor = p.tupleSource? type anchor := by
  have horigin : q.origin? type = p.origin? type := by simp only [origin?, h.type?_eq ht]
  have hannotated : anchor.bind q.typeNode? = anchor.bind p.typeNode? :=
    Option.bind_congr fun a ha => h.typeNode?_eq (hanchor a ha)
  simp only [tupleSource?, horigin, hannotated, ← List.head?_filterMap]
  refine congrArg List.head? (List.filterMap_congr fun n hn => ?_)
  have hbelow : n.Below p.bounds := by
    simp only [List.mem_append, Option.mem_toList] at hn
    obtain (hn | hn) | hn := hn
    · exact hp.origin? type n hn
    · exact hanchor n hn
    · obtain ⟨a, -, hn⟩ := Option.bind_eq_some_iff.mp hn
      exact hp.typeNode? a n hn
  simp only [tupleElements?, h.form?_eq hbelow]

theorem shape_eq {type : TypeId} (ht : type.Below p.bounds) {anchor : Option NodeId}
    (hanchor : ∀ a ∈ anchor, a.Below p.bounds) : q.shape type anchor = p.shape type anchor := by
  have htype := h.type?_eq ht
  have hname : q.typeSymbolName? type = p.typeSymbolName? type := by
    simp only [typeSymbolName?, symbolOf?, htype]
    exact Option.bind_congr fun s hs => h.symbolName?_eq (hp.symbolOf? type s hs)
  have hexports : q.exportsOfType type = p.exportsOfType type := by
    simp only [exportsOfType, symbolOf?, htype]
    congr 1
    refine Option.map_congr fun s hs => ?_
    simp only [exports, h.symbol?_eq (hp.symbolOf? type s hs)]
  have htext := h.displayText_eq ht
  have hunion : q.unionShape? type = p.unionShape? type := by
    simp only [unionShape?, constituents?, htype, hexports]
  have hparameter : q.typeParameterShape? type = p.typeParameterShape? type := by
    rw [typeParameterShape?, h.isTypeParameter_eq ht, typeParameterShape?]
  have hliteral : q.literalShape? type = p.literalShape? type := by
    simp only [literalShape?, literalValue?, literal?, typeText, htype]
  have harray : q.arrayShape? type = p.arrayShape? type := by
    have hisArray : q.isArray type = p.isArray type := by simp only [isArray, htext, hname]
    rw [arrayShape?, hisArray, arrayShape?]
  have hobject : q.objectShape? type = p.objectShape? type := by
    rw [objectShape?, h.properties_eq ht, objectShape?]
  simp only [shape, shapeRules, tupleShape?, primitiveShape?, specialShape?, callableShape?,
    promiseShape?, hunion, hparameter, h.tupleSource?_eq hp ht hanchor, hliteral, htext, harray,
    h.callSignatures_eq ht, hname, hobject]

theorem arrayForm?_eq {anchor : NodeId} (hanchor : anchor.Below p.bounds) :
    q.arrayForm? anchor = p.arrayForm? anchor := by
  cases hform : p.form? anchor with
  | none => simp only [arrayForm?, h.form?_eq hanchor, hform, Option.bind_eq_bind, Option.bind_none]
  | some form =>
    have hannotated : form.typeNode?.bind q.form? = form.typeNode?.bind p.form? :=
      Option.bind_congr fun n hn => h.form?_eq (hp.form? hform n (Form.mem_nodes_of_mem_typeNode? hn))
    simp only [arrayForm?, h.form?_eq hanchor, hform, hannotated, Option.bind_eq_bind,
      Option.bind_some]

theorem childSource?_eq {type : TypeId} (ht : type.Below p.bounds) {node : Option NodeId}
    (hnode : ∀ n ∈ node, n.Below p.bounds) : q.childSource? type node = p.childSource? type node := by
  have harguments : q.typeArguments type = p.typeArguments type := by
    simp only [typeArguments, h.type?_eq ht]
  have htypes : (node.map fun n => (q.typeAt n, some n)) = node.map fun n => (p.typeAt n, some n) :=
    Option.map_congr fun n hn => by rw [h.typeAt_eq hp (hnode n hn)]
  simp only [childSource?, harguments, htypes]

theorem elementSource?_eq {type : TypeId} (ht : type.Below p.bounds) {anchor : Option NodeId}
    (hanchor : ∀ a ∈ anchor, a.Below p.bounds) :
    q.elementSource? type anchor = p.elementSource? type anchor := by
  have hform : anchor.bind q.arrayForm? = anchor.bind p.arrayForm? :=
    Option.bind_congr fun a ha => h.arrayForm?_eq hp (hanchor a ha)
  rw [elementSource?_eq_childSource?, elementSource?_eq_childSource?, hform,
    h.childSource?_eq hp ht (hp.elementNode? anchor)]

theorem promiseSource?_eq {type : TypeId} (ht : type.Below p.bounds) :
    q.promiseSource? type = p.promiseSource? type := by
  have hnode : q.promisedNode? type = p.promisedNode? type := by
    have halias : q.aliasSymbol? type = p.aliasSymbol? type := by
      simp only [aliasSymbol?, h.type?_eq ht]
    simp only [promisedNode?, halias, Option.bind_eq_bind]
    refine Option.bind_congr fun symbol hs => ?_
    rw [h.declarations_eq (hp.aliasSymbol? type symbol hs)]
    refine Option.bind_congr fun declaration hd => ?_
    rw [h.typeNode?_eq (hp.declarations symbol declaration (List.mem_of_head? hd))]
    refine Option.bind_congr fun typeNode hn => ?_
    rw [h.form?_eq (hp.typeNode? declaration typeNode hn)]
  rw [promiseSource?_eq_childSource?, promiseSource?_eq_childSource?, hnode,
    h.childSource?_eq hp ht (hp.promisedNode? type)]

section

variable {project project' : Projector}
  (hproject : ∀ {type : TypeId}, type.Below p.bounds → ∀ {anchor : Option NodeId},
    (∀ a ∈ anchor, a.Below p.bounds) → project' type anchor = project type anchor)
include hproject

theorem projectMember_eq {member : SymbolId} (hmember : member.Below p.bounds) :
    q.projectMember project' member = p.projectMember project member := by
  have hvalue : q.valueDeclaration? member = p.valueDeclaration? member := by
    simp only [valueDeclaration?, h.symbol?_eq hmember]
  rw [projectMember, h.symbolName?_eq hmember, hvalue, projectMember]
  split
  · rename_i declaration _ hdeclaration
    have hbelow := hp.valueDeclaration? member declaration hdeclaration
    rw [h.typeAt_eq hp hbelow, hproject (hp.typeAt declaration) (forall_mem_some hbelow)]
  · rfl

theorem projectParameter_eq {parameter : SymbolId} (hparameter : parameter.Below p.bounds) :
    q.projectParameter project' parameter = p.projectParameter project parameter := by
  rw [projectParameter, h.declarations_eq hparameter, projectParameter]
  split
  · rfl
  · rename_i declaration hdeclaration
    have hbelow := hp.declarations parameter declaration (List.mem_of_head? hdeclaration)
    rw [h.typeOfSymbol_eq hp hparameter, h.symbolName?_eq hparameter,
      hproject (hp.typeOfSymbol parameter) (forall_mem_some hbelow)]

theorem projectCallable_eq {signature : SignatureId} (hsignature : signature.Below p.bounds)
    (locations : List Location) :
    q.projectCallable project' signature locations =
      p.projectCallable project signature locations := by
  have hparameters : q.parameters signature = p.parameters signature := by
    simp only [parameters, h.signature?_eq hsignature]
  have harguments : Projecting.eachSome (q.projectParameter project') (p.parameters signature) =
      Projecting.eachSome (p.projectParameter project) (p.parameters signature) :=
    Projecting.eachSome_congr fun s hs =>
      h.projectParameter_eq hp hproject (hp.parameters signature s hs)
  rw [projectCallable, hparameters, harguments, h.resultType_eq hp hsignature,
    hproject (hp.resultType signature) (by simp)]
  rfl

theorem projectElement_eq {type : TypeId} (ht : type.Below p.bounds) {anchor : Option NodeId}
    (hanchor : ∀ a ∈ anchor, a.Below p.bounds) :
    q.projectElement project' type anchor = p.projectElement project type anchor := by
  rw [projectElement, h.elementSource?_eq hp ht hanchor, h.displayText_eq ht, projectElement]
  split
  · rename_i child node hsource
    rw [elementSource?_eq_childSource?] at hsource
    obtain ⟨hchild, hnode⟩ := hp.childSource? (hp.elementNode? anchor) hsource
    exact hproject hchild hnode
  · rfl

theorem projectPromised_eq {type : TypeId} (ht : type.Below p.bounds) (locations : List Location) :
    q.projectPromised project' type locations = p.projectPromised project type locations := by
  rw [projectPromised, h.promiseSource?_eq hp ht, projectPromised]
  split
  · rename_i child node hsource
    rw [promiseSource?_eq_childSource?] at hsource
    obtain ⟨hchild, hnode⟩ := hp.childSource? (hp.promisedNode? type) hsource
    exact hproject hchild hnode
  · rfl

theorem projectShape_eq {type : TypeId} (ht : type.Below p.bounds) {anchor : Option NodeId}
    (hanchor : ∀ a ∈ anchor, a.Below p.bounds) (locations : List Location) {shape : Shape}
    (hfits : shape.Fits p type) :
    q.projectShape project' type anchor locations shape =
      p.projectShape project type anchor locations shape := by
  have htext := h.displayText_eq ht
  cases shape with
  | enum members =>
    have hmembers : Projecting.eachSome (q.projectMember project') members =
        Projecting.eachSome (p.projectMember project) members := by
      refine Projecting.eachSome_congr fun member hmember => ?_
      refine h.projectMember_eq hp hproject (hp.exportsOfType type member ?_)
      rwa [show p.exportsOfType type = members from hfits]
    simp only [projectShape, htext, hmembers]
  | union first second rest =>
    have hmembers := hp.constituents? hfits
    obtain ⟨hfirst, hsecond, hrest⟩ := by simpa only [List.forall_mem_cons] using hmembers
    have hsame {member : TypeId} (hm : member.Below p.bounds) :
        project' member none = project member none := hproject hm (by simp)
    have hothers := Projecting.each_congr fun t ht => hsame (hrest t ht)
    simp only [projectShape, htext, hsame hfirst, hsame hsecond, hothers]
  | constituent member =>
    exact hproject (hp.constituents? hfits member (List.mem_singleton_self _)) hanchor
  | tuple elements =>
    obtain ⟨node, hnode⟩ := hfits
    have hitems : Projecting.each (fun e => project' (q.typeAt e) (some e)) elements =
        Projecting.each (fun e => project (p.typeAt e) (some e)) elements := by
      refine Projecting.each_congr fun e he => ?_
      have hbelow := hp.tupleElements? hnode e he
      rw [h.typeAt_eq hp hbelow, hproject (hp.typeAt e) (forall_mem_some hbelow)]
    simp only [projectShape, htext, hitems]
  | array => simp only [projectShape, htext, h.projectElement_eq hp hproject ht hanchor]
  | callable signature =>
    exact h.projectCallable_eq hp hproject
      (hp.callSignatures type signature (List.mem_of_head? hfits)) locations
  | promise | promiseLike =>
    simp only [projectShape, h.projectPromised_eq hp hproject ht]
  | typeParameter | object | unknown => simp only [projectShape, htext]
  | literal _ | primitive _ | special _ => rfl

end

/-- A type of the smaller program is classified alike. -/
theorem classify_eq (room : Nat) {type : TypeId} (ht : type.Below p.bounds)
    {anchor : Option NodeId} (hanchor : ∀ a ∈ anchor, a.Below p.bounds) :
    q.classify room type anchor = p.classify room type anchor := by
  induction room generalizing type anchor with
  | zero => simp only [classify, h.displayText_eq ht]
  | succ room ih =>
    have hlocations : q.locationsOf (q.anchorSymbol? anchor) =
        p.locationsOf (p.anchorSymbol? anchor) := by
      rw [h.anchorSymbol?_eq hp hanchor, h.locationsOf_eq hp (hp.anchorSymbol? anchor)]
    have hparts (locations : List Location) :
        q.projectShape (q.classify room) type anchor locations (p.shape type anchor) =
          p.projectShape (p.classify room) type anchor locations (p.shape type anchor) :=
      h.projectShape_eq hp ih ht hanchor locations (p.fits_shape type anchor)
    simp only [classify, hlocations, h.shape_eq hp ht hanchor, h.displayText_eq ht, hparts]

/-! ## Properties -/

theorem annotatedArray?_eq {property : SymbolId} (hproperty : property.Below p.bounds) :
    q.annotatedArray? property = p.annotatedArray? property := by
  have hvalue : q.valueDeclaration? property = p.valueDeclaration? property := by
    simp only [valueDeclaration?, h.symbol?_eq hproperty]
  simp only [annotatedArray?, hvalue, Option.bind_eq_bind]
  refine Option.bind_congr fun declaration hd => ?_
  rw [h.typeNode?_eq (hp.valueDeclaration? property declaration hd)]
  refine Option.bind_congr fun typeNode hn => ?_
  rw [h.form?_eq (hp.typeNode? declaration typeNode hn)]

theorem projectProperty_eq {property : SymbolId} (hproperty : property.Below p.bounds) :
    q.projectProperty property = p.projectProperty property := by
  have hmapped : q.mappedTemplate? property = p.mappedTemplate? property := by
    simp only [mappedTemplate?, h.symbol?_eq hproperty]
  have htype := hp.typeOfSymbol property
  have hsame {type : TypeId} {node : NodeId} (ht : type.Below p.bounds)
      (hnode : node.Below p.bounds) :
      q.classify maxNesting type (some node) = p.classify maxNesting type (some node) :=
    h.classify_eq hp maxNesting ht (forall_mem_some hnode)
  rw [projectProperty, hmapped, h.annotatedArray?_eq hp hproperty, h.declarations_eq hproperty,
    projectProperty]
  split
  · rename_i template htemplate
    exact h.classify_eq hp maxNesting (hp.mappedTemplate? property template htemplate) (by simp)
  · rename_i typeNode element _ hannotated
    obtain ⟨htypeNode, helement⟩ := hp.annotatedArray? hannotated
    simp only [h.nodeSymbol?_eq htypeNode, h.locationsOf_eq hp (hp.nodeSymbol? typeNode),
      h.typeAt_eq hp helement, hsame (hp.typeAt element) helement, h.typeAt_eq hp htypeNode,
      h.displayText_eq (hp.typeAt typeNode)]
  · rfl
  · rename_i declaration _ _ hdeclaration
    have hbelow := hp.declarations property declaration (List.mem_of_head? hdeclaration)
    have hsymbol : q.symbolOf? (p.typeOfSymbol property) = p.symbolOf? (p.typeOfSymbol property) := by
      simp only [symbolOf?, h.type?_eq htype]
    simp only [h.typeOfSymbol_eq hp hproperty, h.callSignatures_eq htype]
    split
    · rename_i signature hsignature
      have hcallable (locations : List Location) :
          q.projectCallable (q.classify maxNesting) signature locations =
            p.projectCallable (p.classify maxNesting) signature locations :=
        h.projectCallable_eq hp (h.classify_eq hp maxNesting)
          (hp.callSignatures _ signature (List.mem_of_head? hsignature)) locations
      simp only [hsymbol, h.locationsOf_eq hp (hp.symbolOf? _), hcallable]
    · exact hsame htype hbelow

/-- The properties of a type of the smaller program are projected alike. -/
theorem projectProperties_eq {type : TypeId} (ht : type.Below p.bounds) :
    q.projectProperties type = p.projectProperties type := by
  rw [projectProperties, h.properties_eq ht]
  refine Projecting.each_congr fun property hmem => ?_
  have hbelow := hp.properties type property hmem
  rw [h.projectProperty_eq hp hbelow, h.symbolName?_eq hbelow]

/-! ## Extraction -/

theorem extractDeclaration_eq (name : Option String) {node : NodeId}
    (hnode : node.Below p.bounds) :
    q.extractDeclaration name node = p.extractDeclaration name node := by
  simp only [extractDeclaration, h.typeAt_eq hp hnode,
    h.classify_eq hp maxNesting (hp.typeAt node) (forall_mem_some hnode)]

theorem declaredName?_eq {node : NodeId} (hnode : node.Below p.bounds) :
    q.declaredName? node = p.declaredName? node := by
  have hdeclares : q.declares? node = p.declares? node := by
    simp only [declares?, h.node?_eq hnode]
  rw [declaredName?, hdeclares]
  exact Option.bind_congr fun s hs => h.symbolName?_eq (hp.declares? node s hs)

theorem extractVariable_eq {node : NodeId} (hnode : node.Below p.bounds) :
    q.extractVariable node = p.extractVariable node := by
  simp only [extractVariable, h.form?_eq hnode, h.declaredName?_eq hp hnode,
    h.extractDeclaration_eq hp _ hnode]

theorem isGeneric_eq {statement : NodeId} (hstatement : statement.Below p.bounds) :
    q.isGeneric statement = p.isGeneric statement := by
  have harguments : q.aliasArguments (p.typeAt statement) = p.aliasArguments (p.typeAt statement) := by
    simp only [aliasArguments, h.type?_eq (hp.typeAt statement)]
  rw [isGeneric, isGeneric, h.typeAt_eq hp hstatement, harguments, Bool.eq_iff_iff,
    List.any_eq_true, List.any_eq_true]
  refine exists_congr fun t => and_congr_right fun ht => ?_
  rw [h.isTypeParameter_eq (hp.aliasArguments _ t ht)]

omit hp in
theorem moduleTarget_eq {file : FileId} (hfile : file.Below p.bounds) (specifier : String) :
    q.moduleTarget file specifier = p.moduleTarget file specifier := by
  rw [moduleTarget, h.resolveModule_eq hfile, moduleTarget]
  split
  · rfl
  · rfl
  · rename_i target htarget
    rw [h.sourceFile?_eq (mentions_of_resolveModule htarget)]

/-- With the same way into files, a statement of the smaller program gives the same. -/
theorem extractStatement_eq (skipGenerics : Bool) (enter : Option Extractor) (chain : List FileId)
    {file : FileId} (hfile : file.Below p.bounds) (fileName : String) {statement : NodeId}
    (hstatement : statement.Below p.bounds) :
    q.extractStatement skipGenerics enter chain file fileName statement =
      p.extractStatement skipGenerics enter chain file fileName statement := by
  rw [extractStatement, h.form?_eq hstatement, extractStatement]
  split
  · rfl
  · rename_i form hform
    have hparts : q.extractForm enter chain file fileName statement form =
        p.extractForm enter chain file fileName statement form := by
      cases form with
      | exportDeclaration specifier clause =>
        simp only [extractForm, extractReexport, h.moduleTarget_eq hfile]
      | variableStatement exported nodes =>
        have hnodes := Projecting.each_congr fun n hn =>
          h.extractVariable_eq hp (hp.form? hform n hn)
        cases nodes with
        | nil => rfl
        | cons n ns => exact congrArg (fun x => Except.ok <$> x) hnodes
      | variableDeclaration name typeNode =>
        simp only [extractForm, h.extractVariable_eq hp hstatement]
      | _ => simp only [extractForm, h.declaredName?_eq hp hstatement,
          h.extractDeclaration_eq hp _ hstatement]
    rw [h.isGeneric_eq hp hstatement, hparts]

/-- If the ways into files lead to the same, so does the extraction of a file. -/
theorem extractFile_of_entry (skipGenerics : Bool) (room : Nat)
    (hentry : ∀ (chain : List FileId) (target : String) (id : FileId),
      p.sourceFile? target = some id →
      entry (q.inner skipGenerics room) chain target id =
        entry (p.inner skipGenerics room) chain target id)
    (chain : List FileId) {name : String} (hname : p.Mentions name) :
    q.extractFile skipGenerics room chain name = p.extractFile skipGenerics room chain name := by
  have hsame := h.sourceFile?_eq hname
  cases hfile : p.sourceFile? name with
  | none =>
    rw [hfile] at hsame
    simp only [Program.extractFile_eq, extractNamed, hfile, hsame]
  | some file =>
    rw [hfile] at hsame
    have hbelow := below_of_sourceFile? hfile
    have hstatements : q.statements file = p.statements file := by
      simp only [Program.statements, h.file?_eq hbelow]
    have hall : extractAll (q.extractStatement skipGenerics (q.inner skipGenerics room)
          (chain ++ [file]) file name) (p.statements file) =
        extractAll (p.extractStatement skipGenerics (p.inner skipGenerics room)
          (chain ++ [file]) file name) (p.statements file) := by
      refine extractAll_congr fun statement hmem => ?_
      rw [h.extractStatement_eq hp _ _ _ hbelow _ (hp.statements file statement hmem)]
      exact extractStatement_congr (hentry (chain ++ [file])) skipGenerics name statement
    rw [extractFile_of_sourceFile? hfile, extractFile_of_sourceFile? hsame, hstatements, hall]

theorem entry_inner_eq (skipGenerics : Bool) (room : Nat) (chain : List FileId) (target : String)
    (id : FileId) (hid : p.sourceFile? target = some id) :
    entry (q.inner skipGenerics room) chain target id =
      entry (p.inner skipGenerics room) chain target id := by
  induction room generalizing chain target id with
  | zero => rfl
  | succ room ih =>
    by_cases hmem : id ∈ chain
    · rw [entry_of_mem hmem, entry_of_mem hmem]
    · rw [entry_of_not_mem hmem, entry_of_not_mem hmem]
      exact congrArg some
        (h.extractFile_of_entry hp skipGenerics room ih chain (mentions_of_sourceFile? hid))

/-- A file that the smaller program mentions is extracted alike. -/
theorem extract_eq (skipGenerics : Bool) {name : String} (hname : p.Mentions name) :
    q.extract skipGenerics name = p.extract skipGenerics name :=
  h.extractFile_of_entry hp skipGenerics _ (h.entry_inner_eq hp skipGenerics _) [] hname

theorem extractExport_eq (skipGenerics : Bool) {node : NodeId} (hnode : node.Below p.bounds) :
    q.extractExport skipGenerics node = p.extractExport skipGenerics node := by
  have hhome : q.nodeFile? node = p.nodeFile? node := by simp only [nodeFile?, h.node?_eq hnode]
  have hname : (p.nodeFile? node).bind q.fileName? = (p.nodeFile? node).bind p.fileName? :=
    Option.bind_congr fun file hfile => by
      simp only [fileName?, h.file?_eq (hp.nodeFile? node file hfile)]
  rw [extractExport, hhome, hname, h.form?_eq hnode, extractExport]
  split
  · rename_i file fileName hfile _
    split
    · rename_i specifier clause _
      have hbelow := hp.nodeFile? node file hfile
      have hentry := h.entry_inner_eq hp skipGenerics (maxChain - 1) [file]
      simp only [extractReexport, h.moduleTarget_eq hbelow]
      exact extractReexport_congr hentry specifier clause
    · rfl
  · rfl

theorem nodeUnder_eq {name : String} (hname : p.Mentions name) (position : Position) :
    q.nodeUnder name position = p.nodeUnder name position := by
  rw [nodeUnder, h.sourceFile?_eq hname, nodeUnder]
  split
  · rfl
  · rename_i file hfile
    have hbelow := below_of_sourceFile? hfile
    have hoffset : q.offset? file position = p.offset? file position := by
      simp only [offset?, h.file?_eq hbelow]
    have hnode : (p.offset? file position).bind (q.nodeAt? file) =
        (p.offset? file position).bind (p.nodeAt? file) :=
      Option.bind_congr fun offset _ => h.nodeAt?_eq hp hbelow offset
    rw [hoffset, hnode]

/-- The name of the symbol at a node of the smaller program. -/
theorem cursorName_eq {node : NodeId} (hnode : node.Below p.bounds) :
    ((q.refersTo? node).or (q.declares? node)).bind q.symbolName? =
      ((p.refersTo? node).or (p.declares? node)).bind p.symbolName? := by
  rw [h.anchored_eq hnode]
  exact Option.bind_congr fun s hs => h.symbolName?_eq (hp.anchored node s hs)

end Extends
end Program
end PortableTypes
