import ComponentPages.Proofs.Trimming
import ComponentPages.Types.Resolve

/-!
# What types are shown as

Two things about the display of types: it is never blank, whatever the link table holds, and it is a
link exactly where one of the names that a type is a choice of has an entry.

- **`TypeDescriptor.Within`** — the types that a type is made of, at any depth.
- **`TypeDescriptor.Legible`**, **`TypeDescriptor.legible_of_ofNode?`** — every text in a type that
  came from a type node has something to show.
- **`resolve_text_not_blank`** — and so has what is shown of it.
- **`TypeDescriptor.leaves`**, **`TypeDescriptor.target?`** — the names that a type is a choice of,
  and their entries in the link table.
- **`resolve_link_of_leaves`** — the first of them that has an entry is what the type links to.
-/

namespace ComponentPages

namespace TypeDescriptor

/-! ## Types within types -/

/-- The types that a form is made of. -/
def parts : TypeDescriptor → List TypeDescriptor
  | primitive _ _ | named _ _ | literal _ _ => []
  | union elements _ => elements
  | readOnlyArray element _ | readOnlyObject element _ => element.toList
  | signature _ _ properties => properties.map Prod.snd

/-- A type stands within another at some depth, or is the type itself. -/
inductive Within : TypeDescriptor → TypeDescriptor → Prop
  | self (d : TypeDescriptor) : Within d d
  | part {d p e : TypeDescriptor} (hp : p ∈ d.parts) (h : Within e p) : Within e d

/-- The texts of a form have something to show: its name, kind or value, and its source text. -/
structure HasTexts (d : TypeDescriptor) : Prop where
  raw : ∀ s ∈ d.raw, isBlankText s = false
  name : isBlankText d.bareName = false

/-- All texts of a type have something to show, at every depth. -/
inductive Legible : TypeDescriptor → Prop
  | intro {d : TypeDescriptor} (texts : d.HasTexts) (parts : ∀ p ∈ d.parts, Legible p) : Legible d

theorem Legible.texts {d : TypeDescriptor} : d.Legible → d.HasTexts
  | .intro texts _ => texts

theorem Legible.parts {d : TypeDescriptor} : d.Legible → ∀ p ∈ d.parts, p.Legible
  | .intro _ parts => parts

/-- A form without parts needs only its own texts. -/
theorem HasTexts.legible {d : TypeDescriptor} (h : d.HasTexts) (hparts : d.parts = []) :
    d.Legible :=
  .intro h fun p hp => by rw [hparts] at hp; cases hp

theorem Legible.of_within {d e : TypeDescriptor} (h : d.Legible) (he : e.Within d) : e.Legible := by
  induction he with
  | self d => exact h
  | part hp _ ih => exact ih (h.parts _ hp)

/-- The stand-in of a form has something to show. -/
theorem HasTexts.isBlankText_fallbackText {d : TypeDescriptor} (h : d.HasTexts) :
    isBlankText d.fallbackText = false := by
  unfold fallbackText
  cases hraw : d.raw with
  | none => exact h.name
  | some s => exact h.raw s hraw

/-! ## Types of type nodes -/

/-- A part that is there is not blank. -/
theorem isBlankText_of_present {part : Option Text} {s : Text} (h : present part = some s) :
    isBlankText s = false := by
  obtain ⟨t, -, ht⟩ := Option.bind_eq_some_iff.1 h
  unfold nonBlank? at ht
  split at ht
  · cases ht
  · next hblank =>
    cases ht
    rw [isBlankText_trim]
    simpa using hblank

/-- The kind of a signature is not blank, whether it is given or not. -/
theorem isBlankText_kind (kind : Option Text) :
    isBlankText ((present kind).getD "signature".toList) = false := by
  cases h : present kind with
  | none => rfl
  | some s => exact isBlankText_of_present h

/-- The form of the first node is among the forms of all. -/
theorem mem_ofNodes_of_ofFirst? {ns : List TypeNode} {d : TypeDescriptor}
    (h : ofFirst? ns = some d) : d ∈ ofNodes ns := by
  cases ns with
  | nil => cases h
  | cons n ns =>
    rw [ofFirst?] at h
    rw [ofNodes, h]
    exact List.mem_cons_self ..

/-- The form of a node has texts to show where the forms within it do. -/
theorem legible_of_parts {name raw kind value : Option Text} {elements : List TypeNode}
    {object? : Option (List (Text × TypeNode))} {d : TypeDescriptor}
    (h : ofNode? (.node name raw kind value elements object?) = some d)
    (helements : ∀ p ∈ ofNodes elements, p.Legible)
    (hentries : ∀ entries, object? = some entries → ∀ p ∈ (ofEntries entries).map Prod.snd,
      p.Legible) : d.Legible := by
  have hraw : ∀ s ∈ present raw, isBlankText s = false := fun s hs => isBlankText_of_present hs
  have hfirst : ∀ p ∈ (ofFirst? elements).toList, p.Legible := fun p hp =>
    helements p (mem_ofNodes_of_ofFirst? (Option.mem_toList.1 hp))
  rw [ofNode?_node] at h
  split at h
  -- without a name the source text is shown
  · obtain ⟨text, htext, rfl⟩ := Option.map_eq_some_iff.1 h
    have hblank := hraw text htext
    exact HasTexts.legible ⟨fun s hs => by cases hs; exact hblank, hblank⟩ rfl
  · next name hname =>
    have hblank := isBlankText_of_present hname
    split at h
    -- a union has the forms of all its nodes
    · cases h
      exact .intro ⟨hraw, rfl⟩ helements
    split at h
    -- an array has the form of the first node
    · cases h
      exact .intro ⟨hraw, rfl⟩ hfirst
    split at h
    -- and so has a read-only object
    · cases h
      exact .intro ⟨hraw, rfl⟩ hfirst
    split at h
    -- a signature has those of its entries
    · cases h
      refine .intro ⟨hraw, isBlankText_kind kind⟩ fun p hp => ?_
      cases object? with
      | none => cases hp
      | some entries => exact hentries entries rfl p hp
    split at h
    -- a literal has a value, or else source text
    · obtain ⟨text, htext, rfl⟩ := Option.map_eq_some_iff.1 h
      have hvalue : isBlankText text = false := by
        rcases Option.or_eq_some_iff.1 htext with hvalue | ⟨-, hvalue⟩
        · exact isBlankText_of_present hvalue
        · exact isBlankText_of_present hvalue
      exact HasTexts.legible ⟨hraw, hvalue⟩ rfl
    split at h
    -- all else has its name
    · cases h
      exact HasTexts.legible ⟨hraw, hblank⟩ rfl
    · cases h
      exact HasTexts.legible ⟨hraw, hblank⟩ rfl

mutual

/-- **Every text in a type that came from a type node has something to show.** -/
theorem legible_of_ofNode? : ∀ (n : TypeNode) {d : TypeDescriptor}, ofNode? n = some d → d.Legible
  | .node _ _ _ _ elements none, _, h =>
    legible_of_parts h (legible_of_mem_ofNodes elements) fun _ hentries => by cases hentries
  | .node _ _ _ _ elements (some entries), _, h =>
    legible_of_parts h (legible_of_mem_ofNodes elements) fun _ hentries => by
      cases hentries
      exact legible_of_mem_ofEntries entries

theorem legible_of_mem_ofNodes : ∀ (ns : List TypeNode), ∀ d ∈ ofNodes ns, d.Legible
  | [], d, h => by cases h
  | n :: ns, d, h => by
    rw [ofNodes] at h
    split at h
    · next e he =>
      rcases List.mem_cons.1 h with rfl | h
      · exact legible_of_ofNode? n he
      · exact legible_of_mem_ofNodes ns d h
    · exact legible_of_mem_ofNodes ns d h

theorem legible_of_mem_ofEntries :
    ∀ (es : List (Text × TypeNode)), ∀ d ∈ (ofEntries es).map Prod.snd, d.Legible
  | [], d, h => by cases h
  | (key, n) :: es, d, h => by
    rw [ofEntries] at h
    split at h
    · next e he =>
      rcases List.mem_cons.1 h with rfl | h
      · exact legible_of_ofNode? n he
      · exact legible_of_mem_ofEntries es d h
    · exact legible_of_mem_ofEntries es d h

end

end TypeDescriptor

/-! ## The text that is shown -/

/-- A rule has its text to show, or else the stand-in. -/
theorem isBlankText_orFallback {d : TypeDescriptor} (h : d.HasTexts) (r : Resolved) :
    isBlankText (orFallback d r).text = false := by
  unfold orFallback
  split
  · exact h.isBlankText_fallbackText
  · next hblank => simpa using hblank

/-- Every form shows what its rule gives, or its stand-in. -/
theorem exists_resolve_eq_orFallback (links : LinkTable) (d : TypeDescriptor) :
    ∃ r, resolve links d = orFallback d r := by
  cases d <;> exact ⟨_, resolve.eq_def ..⟩

/-- **What is shown of a type is never blank**, nor is it for any type within it, whatever the texts
and addresses of the links are. -/
theorem resolve_text_not_blank {n : TypeNode} {d e : TypeDescriptor}
    (hd : TypeDescriptor.ofNode? n = some d) (he : e.Within d) (links : LinkTable) :
    ∃ c ∈ (resolve links e).text, isBlank c = false := by
  obtain ⟨r, hr⟩ := exists_resolve_eq_orFallback links e
  have hblank := isBlankText_orFallback
    ((TypeDescriptor.legible_of_ofNode? n hd).of_within he).texts r
  rw [← hr] at hblank
  obtain ⟨blanks, c, rest, htext, -, hc⟩ := exists_first_of_not_blank hblank
  exact ⟨c, by rw [htext]; simp, hc⟩

/-- A read-only object with one entry, a choice of a value and a name. -/
def objectNode : TypeNode :=
  .node (some "$ReadOnly".toList) none none none
    [.node (some "signature".toList) none (some "object".toList) none []
      (some [("onPress".toList,
        .node (some "union".toList) (some " ".toList) none none
          [.node (some "literal".toList) none none (some "'auto'".toList) [] none,
            .node (some " PressEvent ".toList) none none none [] none] none)])] none

/-- The type that the node is read as. -/
def objectType : TypeDescriptor :=
  .readOnlyObject
    (some (.signature "object".toList none [("onPress".toList,
      .union [.literal "'auto'".toList none, .named "PressEvent".toList none] none)])) none

/-- The name in the object has itself to show where its link has nothing but blanks. -/
theorem resolve_text_not_blank_objectNode :
    TypeDescriptor.ofNode? objectNode = some objectType ∧
      (TypeDescriptor.named "PressEvent".toList none).Within objectType ∧
        ∃ c ∈ (resolve (.ofList [("PressEvent".toList, ⟨" ".toList, []⟩)])
          (.named "PressEvent".toList none)).text, isBlank c = false := by
  have hobject : TypeDescriptor.ofNode? objectNode = some objectType := rfl
  -- the object, its entry, and the second of the choice
  have hname : (TypeDescriptor.named "PressEvent".toList none).Within objectType :=
    .part (List.mem_cons_self ..) <| .part (List.mem_cons_self ..) <|
      .part (List.mem_cons_of_mem _ (List.mem_cons_self ..)) <| .self _
  exact ⟨hobject, hname, resolve_text_not_blank hobject hname _⟩

/-! ## Leaves -/

namespace TypeDescriptor

mutual

/-- The types that a type is a choice of, in order: those of the elements of a union, and a name or
a value itself. Arrays, objects and functions are not a choice of anything. -/
def leaves : TypeDescriptor → List TypeDescriptor
  | d@(primitive _ _) | d@(named _ _) | d@(literal _ _) => [d]
  | union elements _ => leavesOf elements
  | readOnlyArray _ _ | readOnlyObject _ _ | signature _ _ _ => []

/-- The leaves of all types of a list, one after another. -/
def leavesOf : List TypeDescriptor → List TypeDescriptor
  | [] => []
  | d :: ds => d.leaves ++ leavesOf ds

end

/-- The name that a leaf is looked up by. Quotation marks around a literal do not count, nor do
blanks on either side of them. -/
def linkName? : TypeDescriptor → Option Text
  | primitive name _ | named name _ => some (trim name)
  | literal value _ => some (trim (unquote value))
  | union _ _ | readOnlyArray _ _ | readOnlyObject _ _ | signature _ _ _ => none

/-- The entry of a leaf in the link table. -/
def target? (links : LinkTable) (d : TypeDescriptor) : Option LinkTarget :=
  d.linkName?.bind links.get?

end TypeDescriptor

/-! ## Links -/

/-- A result that is a link. -/
def Resolved.asLink? (r : Resolved) : Option Resolved := if r.isLink then some r else none

theorem Resolved.asLink?_eq_none {r : Resolved} (h : r.isLink = false) : r.asLink? = none := by
  rw [asLink?, h, if_neg Bool.false_ne_true]

theorem Resolved.isSome_asLink? (r : Resolved) : r.asLink?.isSome = r.isLink := by
  cases h : r.isLink <;> simp [asLink?, h]

theorem Resolved.eq_of_asLink? {r link : Resolved} (h : r.asLink? = some link) : r = link :=
  Option.some.inj (Option.ite_none_right_eq_some.1 h).2

theorem TypeDescriptor.mem_values_of_target? {links : LinkTable} {d : TypeDescriptor}
    {target : LinkTarget} (h : d.target? links = some target) : target ∈ links.values := by
  obtain ⟨name, -, hname⟩ := Option.bind_eq_some_iff.1 h
  exact OrderedMap.mem_values_of_get? hname

section Links

variable {links : LinkTable} (hlinks : ∀ target ∈ links.values, isBlankText target.text = false)

open TypeDescriptor

/-- The stand-in of a form is not a link. -/
theorem asLink?_orFallback_of_plain {d : TypeDescriptor} {r : Resolved} (h : r.isLink = false) :
    (orFallback d r).asLink? = none := by
  unfold orFallback
  split
  · rfl
  · exact Resolved.asLink?_eq_none h

include hlinks

/-- A rule that falls back on plain text where it finds no entry gives a link just where it finds
one, since the text of an entry is not blank. -/
theorem asLink?_orFallback_getD {d : TypeDescriptor} {found : Option LinkTarget} {r : Resolved}
    (hfound : ∀ target, found = some target → target ∈ links.values) (hr : r.isLink = false) :
    (orFallback d ((found.map .link).getD r)).asLink? = found.map .link := by
  cases found with
  | none => exact asLink?_orFallback_of_plain hr
  | some target =>
    have hblank := hlinks target (hfound target rfl)
    rw [Option.map_some, Option.getD_some, orFallback, Resolved.link, hblank]
    rfl

/-- A rule for a name links by the entry of the name. -/
theorem asLink?_of_lookup {d : TypeDescriptor} (name : Text) {r : Resolved}
    (hr : r.isLink = false) :
    (orFallback d ((lookup links name).getD r)).asLink? = lookup links name :=
  asLink?_orFallback_getD hlinks (fun _ h => OrderedMap.mem_values_of_get? h) hr

/-- The first link of a list is that of its first element, or else that of the rest: a literal links
by the same name within a union and on its own. -/
theorem firstLink?_cons (d : TypeDescriptor) (rest : List TypeDescriptor) :
    firstLink? links (d :: rest) = (resolve links d).asLink?.or (firstLink? links rest) := by
  have hrule : ∀ r : Resolved,
      (if r.isLink then some r else firstLink? links rest) =
        r.asLink?.or (firstLink? links rest) := by
    intro r
    cases h : r.isLink <;> simp [Resolved.asLink?, h]
  cases d with
  | literal value raw =>
    rw [resolve, asLink?_of_lookup hlinks _ rfl, firstLink?]
    cases lookup links (unquote value) <;> rfl
  | primitive name raw => exact hrule _
  | named name raw => exact hrule _
  | union elements raw => exact hrule _
  | readOnlyArray element raw => exact hrule _
  | readOnlyObject element raw => exact hrule _
  | signature kind raw properties => exact hrule _

mutual

/-- **A type is shown as the link of the first of its leaves that has an entry.** -/
theorem asLink?_resolve : ∀ d : TypeDescriptor,
    (resolve links d).asLink? = (d.leaves.findSome? (target? links)).map .link
  | primitive name raw | named name raw => by
    rw [resolve, asLink?_of_lookup hlinks name rfl, leaves, List.findSome?_singleton]
    rfl
  | literal value raw => by
    rw [resolve, asLink?_of_lookup hlinks (unquote value) rfl, leaves, List.findSome?_singleton]
    rfl
  | union elements raw => by
    rw [resolve, firstLink?_eq elements, Option.getD_or, leaves]
    refine asLink?_orFallback_getD hlinks (fun target h => ?_) ?_
    · obtain ⟨leaf, -, hleaf⟩ := List.exists_of_findSome?_eq_some h
      exact mem_values_of_target? hleaf
    · cases enumText? elements raw <;> rfl
  -- the links inside of arrays, objects and functions are written out as part of a plain text
  | readOnlyArray element raw => by
    unfold resolve
    refine asLink?_orFallback_of_plain ?_
    split
    · split <;> rfl
    · dsimp only
      split <;> rfl
    · rfl
  | readOnlyObject element raw => by
    unfold resolve
    refine asLink?_orFallback_of_plain ?_
    split
    · split
      · unfold linkedObject?
        split <;> rfl
      · rfl
    · rfl
  | signature kind raw properties => by
    unfold resolve
    refine asLink?_orFallback_of_plain ?_
    split
    · unfold resolveFunction
      split <;> rfl
    · rfl

theorem firstLink?_eq : ∀ ds : List TypeDescriptor,
    firstLink? links ds = ((leavesOf ds).findSome? (target? links)).map .link
  | [] => rfl
  | d :: ds => by
    rw [firstLink?_cons hlinks, asLink?_resolve d, firstLink?_eq ds, leavesOf,
      List.findSome?_append, Option.map_or]

end

end Links

/-- **A type is shown as a link exactly where one of its leaves has an entry in the link table**,
and then the first of them that has one gives the text and the address. -/
theorem resolve_link_of_leaves {links : LinkTable}
    (hlinks : ∀ target ∈ links.values, isBlankText target.text = false) (d : TypeDescriptor) :
    ((resolve links d).isLink = true ↔ ∃ leaf ∈ d.leaves, (leaf.target? links).isSome = true) ∧
      ∀ target, d.leaves.findSome? (TypeDescriptor.target? links) = some target →
        (resolve links d).text = target.text ∧ (resolve links d).url = some target.url := by
  have hlink := asLink?_resolve hlinks d
  refine ⟨?_, fun target htarget => ?_⟩
  · rw [← Resolved.isSome_asLink?, hlink, Option.isSome_map, List.findSome?_isSome_iff]
  · rw [htarget, Option.map_some] at hlink
    rw [Resolved.eq_of_asLink? hlink]
    exact ⟨rfl, rfl⟩

/-- A choice of a choice that holds an array, a quoted name with blanks in it, and a name. -/
def nestedChoice : TypeDescriptor :=
  .union
    [.union [.literal "'auto'".toList none,
        .readOnlyArray (some (.named "PressEvent".toList none)) none] none,
      .union [.literal " \" ColorValue \" ".toList none] none,
      .named "ViewProps".toList none] none

/-- The quoted name is linked: the array before it is not one of the leaves, and the name after it
does not come first. -/
theorem resolve_link_of_leaves_nestedChoice :
    (∀ target ∈ builtinLinks.values, isBlankText target.text = false) ∧
      (resolve builtinLinks nestedChoice).text = "color".toList ∧
        (resolve builtinLinks nestedChoice).url = some "colors".toList := by
  have hlinks : ∀ target ∈ builtinLinks.values, isBlankText target.text = false := by decide
  have hfirst : nestedChoice.leaves.findSome? (TypeDescriptor.target? builtinLinks) =
      some ⟨"color".toList, "colors".toList⟩ := by decide
  exact ⟨hlinks, (resolve_link_of_leaves hlinks nestedChoice).2 _ hfirst⟩

end ComponentPages
