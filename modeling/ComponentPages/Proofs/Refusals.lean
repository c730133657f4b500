import ComponentPages.Proofs.Normalizing
import ComponentPages.Proofs.Trimming

/-!
# Why a page is refused

A page is refused where something on it has no type that can be shown. The properties are looked at
first, in the order of the metadata, and then the parameters of the methods. The first of them that
offends decides the error.

- **`TypeNode.ShowsNothing`** — the nodes without anything to show, told by their texts
  (`TypeDescriptor.ofNode?_eq_none_iff`).
- **`Typed`**, **`Metadata.Page.typedParts`** — what needs a type, in the order in which it is
  looked at.
- **`Typed.Offends`** — the error that such a part gives rise to.
- **`errorOf?_ofPage`** — the error of a page is the first of them.
- **`ofPage_refusal`** — so a page is refused exactly where some part of it offends.
-/

namespace ComponentPages

/-! ## Nodes with nothing to show -/

/-- A text of a node that is missing or blank. -/
def BlankPart (part : Option Text) : Prop := ∀ s ∈ part, isBlankText s = true

instance (part : Option Text) : Decidable (BlankPart part) :=
  inferInstanceAs (Decidable (∀ s ∈ part, _))

/-- A text that is not blank is there when it is trimmed. -/
theorem nonBlank?_eq_none_iff {s : Text} : nonBlank? s = none ↔ isBlankText s = true := by
  unfold nonBlank?
  split <;> simp [*]

theorem TypeDescriptor.present_eq_none_iff {part : Option Text} :
    present part = none ↔ BlankPart part := by
  rw [present, Option.bind_eq_none_iff]
  exact forall₂_congr fun s _ => nonBlank?_eq_none_iff

/-- A text that is there is the trimmed text of the part. -/
theorem TypeDescriptor.map_trim_of_present {part : Option Text} {s : Text}
    (h : present part = some s) : part.map trim = some s := by
  obtain ⟨t, rfl, ht⟩ := Option.bind_eq_some_iff.1 h
  unfold nonBlank? at ht
  split at ht
  · cases ht
  · exact ht

/-- Neither a name nor source text, or a literal with neither a value nor source text. -/
def TypeNode.ShowsNothing : TypeNode → Prop
  | .node name raw _ value _ _ => (BlankPart name ∧ BlankPart raw) ∨
      (name.map trim = some "literal".toList ∧ BlankPart value ∧ BlankPart raw)

instance (n : TypeNode) : Decidable n.ShowsNothing :=
  match n with
  | .node _ _ _ _ _ _ => inferInstanceAs (Decidable (_ ∨ _))

/-- **The nodes without a form** are those with nothing to show. -/
theorem TypeDescriptor.ofNode?_eq_none_iff {n : TypeNode} : ofNode? n = none ↔ n.ShowsNothing := by
  obtain ⟨name, raw, kind, value, elements, object?⟩ := n
  rw [ofNode?_node, TypeNode.ShowsNothing, ← @present_eq_none_iff name]
  cases hname : present name with
  | none =>
    -- a node without a name is no literal
    have hliteral : name.map trim ≠ some "literal".toList := by
      intro heq
      obtain ⟨s, rfl, hs⟩ := Option.map_eq_some_iff.1 heq
      have hblank := present_eq_none_iff.1 hname s rfl
      rw [← isBlankText_trim, hs] at hblank
      cases hblank
    rw [or_iff_left fun h => hliteral h.1, eq_self, true_and, Option.map_eq_none_iff,
      present_eq_none_iff]
  | some s =>
    rw [map_trim_of_present hname, Option.some_inj]
    by_cases hliteral : s = "literal".toList
    · subst hliteral
      simp [present_eq_none_iff]
    · -- a node of any other name has a form
      simp only [hliteral, if_false, false_and, reduceCtorEq, or_self, iff_false]
      split_ifs <;> simp

/-! ## What needs a type -/

/-- What on a page needs a type that can be shown. -/
inductive Typed where
  /-- A property under its name. -/
  | property (name : Text) (p : Metadata.Property)
  /-- A parameter of the method of a name. -/
  | parameter (method : Text) (p : Metadata.Parameter)

/-- The properties of a page in order, and then the parameters of its methods in order. -/
def Metadata.Page.typedParts (p : Metadata.Page) : List Typed :=
  p.component.props.entries.map (fun e => .property e.1 e.2) ++
    p.component.methods.flatMap fun m => m.params.map (.parameter m.name)

/-- The error that a part gives rise to. A property without a type tag needs a type with something
to show, and a parameter does if it has a type at all. -/
inductive Typed.Offends : Typed → DocError → Prop
  /-- A property has neither a type tag nor a type. -/
  | missing {name : Text} {p : Metadata.Property}
      (htag : (extract (p.description.getD [])).tags.typeOverrides = []) (htype : p.type? = none) :
      Offends (.property name p) (.missingType name)
  /-- A property has no type tag, and a type with nothing to show. -/
  | malformed {name : Text} {p : Metadata.Property} {n : TypeNode}
      (htag : (extract (p.description.getD [])).tags.typeOverrides = []) (htype : p.type? = some n)
      (hnode : n.ShowsNothing) : Offends (.property name p) (.malformedType name)
  /-- A parameter has a type with nothing to show. -/
  | parameter {method : Text} {p : Metadata.Parameter} {n : TypeNode} (htype : p.type? = some n)
      (hnode : n.ShowsNothing) :
      Offends (.parameter method p) (.malformedType (method ++ "(".toList ++ p.name ++ ")".toList))

/-- The error of a part when it is made ready to be shown. -/
def Typed.error? : Typed → Option DocError
  | .property name p => errorOf? (PropDoc.ofProperty name p)
  | .parameter method p => errorOf? (ParamDoc.ofParameter method p)

/-! ## The error of a part -/

/-- A property is refused where neither a tag nor its type gives something to show. -/
theorem errorOf?_propType_eq_some_iff {name : Text} {type : Option TypeNode} {overridden : Bool}
    {e : DocError} : errorOf? (propType name type overridden) = some e ↔ overridden = false ∧
      ((type = none ∧ e = .missingType name) ∨
        ∃ n, type = some n ∧ n.ShowsNothing ∧ e = .malformedType name) := by
  unfold propType
  cases type with
  | none => cases overridden <;> simp [eq_comm]
  | some n =>
    simp only [Option.some_inj, exists_eq_left', ← TypeDescriptor.ofNode?_eq_none_iff]
    cases TypeDescriptor.ofNode? n with
    | none => cases overridden <;> simp [eq_comm]
    | some d => simp

/-- The error of a property is that of its type. -/
theorem errorOf?_ofProperty (name : Text) (p : Metadata.Property) :
    errorOf? (PropDoc.ofProperty name p) = errorOf? (propType name p.type?
      (!(extract (p.description.getD [])).tags.typeOverrides.isEmpty)) :=
  errorOf?_bind_pure _ _

/-- A parameter is refused where it has a type with nothing to show. -/
theorem errorOf?_ofParameter_eq_some_iff {method : Text} {p : Metadata.Parameter} {e : DocError} :
    errorOf? (ParamDoc.ofParameter method p) = some e ↔
      ∃ n, p.type? = some n ∧ n.ShowsNothing ∧ e = .malformedType (paramEntity method p.name) := by
  unfold ParamDoc.ofParameter
  cases p.type? with
  | none => simp
  | some n =>
    simp only [Option.some_inj, exists_eq_left', ← TypeDescriptor.ofNode?_eq_none_iff]
    cases TypeDescriptor.ofNode? n with
    | none => simp [eq_comm]
    | some d => simp

/-- **A part is refused where it offends.** -/
theorem Typed.error?_eq_some_iff {part : Typed} {e : DocError} :
    part.error? = some e ↔ part.Offends e := by
  cases part with
  | property name p =>
    rw [error?, errorOf?_ofProperty, errorOf?_propType_eq_some_iff, Bool.not_eq_false',
      List.isEmpty_iff]
    constructor
    · rintro ⟨htag, ⟨htype, rfl⟩ | ⟨n, htype, hnode, rfl⟩⟩
      · exact .missing htag htype
      · exact .malformed htag htype hnode
    · intro h
      cases h with
      | missing htag htype => exact ⟨htag, .inl ⟨htype, rfl⟩⟩
      | malformed htag htype hnode => exact ⟨htag, .inr ⟨_, htype, hnode, rfl⟩⟩
  | parameter method p =>
    have hentity : paramEntity method p.name = method ++ "(".toList ++ p.name ++ ")".toList := by
      simp [paramEntity]
    rw [error?, errorOf?_ofParameter_eq_some_iff, hentity]
    constructor
    · rintro ⟨n, htype, hnode, rfl⟩
      exact .parameter htype hnode
    · intro h
      cases h with
      | parameter htype hnode => exact ⟨_, htype, hnode, rfl⟩

theorem Typed.error?_eq_none_iff {part : Typed} : part.error? = none ↔ ∀ e, ¬part.Offends e := by
  rw [Option.eq_none_iff_forall_ne_some]
  exact forall_congr' fun e => not_congr error?_eq_some_iff

/-! ## The error of a page -/

/-- The error of a method is the first of one of its parameters. -/
theorem errorOf?_ofMethod (m : Metadata.Method) :
    errorOf? (MethodDoc.ofMethod m) =
      (m.params.map (Typed.parameter m.name)).findSome? Typed.error? := by
  rw [MethodDoc.ofMethod, errorOf?_bind_pure, errorOf?_mapM, List.findSome?_map]
  rfl

/-- The error of the properties is the first of one of them. -/
theorem errorOf?_propEntries (entries : List (Text × Metadata.Property)) :
    errorOf? (propEntries entries) =
      (entries.map fun e => Typed.property e.1 e.2).findSome? Typed.error? := by
  rw [propEntries, errorOf?_mapM, List.findSome?_map]
  simp only [errorOf?_map]
  rfl

/-- The first find in lists one after another is the first find in the first list that has one. -/
theorem findSome?_flatMap {α β γ : Type} (f : β → Option γ) (g : α → List β) (xs : List α) :
    (xs.flatMap g).findSome? f = xs.findSome? fun x => (g x).findSome? f := by
  induction xs with
  | nil => rfl
  | cons x xs ih =>
    rw [List.flatMap_cons, List.findSome?_append, List.findSome?_cons, ih]
    cases (g x).findSome? f <;> rfl

/-- **The error of a page is the first error of one of its parts.** -/
theorem errorOf?_ofPage (p : Metadata.Page) :
    errorOf? (PageDoc.ofPage p) = p.typedParts.findSome? Typed.error? := by
  have hmethods : errorOf? (p.component.methods.mapM MethodDoc.ofMethod) =
      (p.component.methods.flatMap fun m => m.params.map (Typed.parameter m.name)).findSome?
        Typed.error? := by
    rw [errorOf?_mapM, findSome?_flatMap]
    simp only [errorOf?_ofMethod]
  rw [PageDoc.ofPage, errorOf?_bind_pure, ComponentDoc.ofComponent,
    errorOf?_bind fun _ => (errorOf?_bind_pure _ _).trans hmethods, errorOf?_propEntries,
    Metadata.Page.typedParts, List.findSome?_append]

/-- **A page is refused exactly where some part of it offends**, with the error of the first part
that does; the types that offend are those with nothing to show. -/
theorem ofPage_refusal (p : Metadata.Page) :
    (∀ e, PageDoc.ofPage p = .error e ↔
      ∃ before part after, p.typedParts = before ++ part :: after ∧ part.Offends e ∧
        ∀ other ∈ before, ∀ e', ¬other.Offends e') ∧
    ((∃ doc, PageDoc.ofPage p = .ok doc) ↔ ∀ part ∈ p.typedParts, ∀ e, ¬part.Offends e) ∧
    ∀ n, TypeDescriptor.ofNode? n = none ↔ n.ShowsNothing := by
  refine ⟨fun e => ?_, ?_, fun n => TypeDescriptor.ofNode?_eq_none_iff⟩
  · rw [← errorOf?_eq_some_iff, errorOf?_ofPage, List.findSome?_eq_some_iff]
    simp only [Typed.error?_eq_some_iff, Typed.error?_eq_none_iff]
  · rw [← errorOf?_eq_none_iff, errorOf?_ofPage, List.findSome?_eq_none_iff]
    simp only [Typed.error?_eq_none_iff]

/-- A page with two faults: a type with nothing to show of a parameter, and a property without a
type. -/
def twoFaultsPage : Metadata.Page where
  id := "x".toList
  title := "X".toList
  component := {
    displayName := []
    description := none
    props := .ofList [("size".toList, ⟨none, true, some "Size.".toList, none⟩)]
    methods := [⟨"scrollTo".toList, none, [],
      [⟨"options".toList, some (.node (some " ".toList) none none none [] none), false, none⟩]⟩]
    composes := [] }

/-- The property comes first. -/
example : errorOf? (PageDoc.ofPage twoFaultsPage) = some (.missingType "size".toList) := by
  decide +kernel

end ComponentPages
