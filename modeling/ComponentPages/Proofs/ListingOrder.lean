import ComponentPages.Page.Render
import ComponentPages.Proofs.Normalizing
import Mathlib.Data.List.Nodup
import Mathlib.Data.List.Perm.Basic

/-!
# The order of listing

The properties and methods of a component are shown in an order of their own, so that the page does
not depend on the order in which the metadata lists them.

- **`textLE_total`**, **`textLE_trans`**, **`textLE_antisymm`** — texts are ordered linearly.
- **`mergeSort_eq_of_perm`** — a sorted list does not depend on the order of what is sorted.
- **`exists_mapM_of_perm`** — whether all entries are well-formed does not depend on their order.
- **`Metadata.Component.Relisted`** — the same component, listed in another order.
- **`renderMarkdown_relisted`** — its page.
-/

namespace ComponentPages

/-! ## The order of texts -/

/-- Of two texts, one comes before the other or is the same. -/
theorem textLE_total (s t : Text) : (textLE s t || textLE t s) = true := by
  induction s generalizing t with
  | nil => rfl
  | cons c s ih =>
    cases t with
    | nil => rfl
    | cons d t =>
      simp only [textLE, Bool.or_eq_true, Bool.and_eq_true, decide_eq_true_eq, beq_iff_eq]
      rcases Nat.lt_trichotomy c.toNat d.toNat with hlt | heq | hgt
      · exact .inl (.inl hlt)
      · have hcd : c = d := Char.toNat_inj.1 heq
        have hrest := ih t
        rw [Bool.or_eq_true] at hrest
        exact hrest.imp (fun h => .inr ⟨hcd, h⟩) (fun h => .inr ⟨hcd.symm, h⟩)
      · exact .inr (.inl hgt)

theorem textLE_trans (s t u : Text) (hst : textLE s t = true) (htu : textLE t u = true) :
    textLE s u = true := by
  induction s generalizing t u with
  | nil => rfl
  | cons c s ih =>
    cases t with
    | nil => cases hst
    | cons d t =>
      cases u with
      | nil => cases htu
      | cons e u =>
        simp only [textLE, Bool.or_eq_true, Bool.and_eq_true, decide_eq_true_eq, beq_iff_eq]
          at hst htu ⊢
        rcases hst with hcd | ⟨rfl, hst⟩
        · rcases htu with hde | ⟨rfl, -⟩
          · exact .inl (Nat.lt_trans hcd hde)
          · exact .inl hcd
        · rcases htu with hce | ⟨rfl, htu⟩
          · exact .inl hce
          · exact .inr ⟨rfl, ih t u hst htu⟩

/-- Two texts of which each comes before the other are the same. -/
theorem textLE_antisymm {s t : Text} (hst : textLE s t = true) (hts : textLE t s = true) :
    s = t := by
  induction s generalizing t with
  | nil =>
    cases t with
    | nil => rfl
    | cons d t => cases hts
  | cons c s ih =>
    cases t with
    | nil => cases hst
    | cons d t =>
      simp only [textLE, Bool.or_eq_true, Bool.and_eq_true, decide_eq_true_eq, beq_iff_eq]
        at hst hts
      rcases hst with hcd | ⟨rfl, hst⟩
      · rcases hts with hdc | ⟨rfl, -⟩
        · exact absurd hdc (Nat.lt_asymm hcd)
        · exact absurd hcd (Nat.lt_irrefl _)
      · rcases hts with hlt | ⟨-, hts⟩
        · exact absurd hlt (Nat.lt_irrefl _)
        · rw [ih hst hts]

/-! ## Sorting -/

section Sorting

variable {α : Type} {le : α → α → Bool}

/-- **A sorted list does not depend on the order of what is sorted**, where no two of its members
are on a par. -/
theorem mergeSort_eq_of_perm (htrans : ∀ a b c, le a b = true → le b c = true → le a c = true)
    (htotal : ∀ a b, (le a b || le b a) = true) {l l' : List α} (hperm : l'.Perm l)
    (hanti : ∀ a ∈ l, ∀ b ∈ l, le a b = true → le b a = true → a = b) :
    l'.mergeSort le = l.mergeSort le := by
  have hmem {a : α} : a ∈ l'.mergeSort le ↔ a ∈ l :=
    ((List.mergeSort_perm l' le).trans hperm).mem_iff
  have hmem' {a : α} : a ∈ l.mergeSort le ↔ a ∈ l := (List.mergeSort_perm l le).mem_iff
  refine List.Perm.eq_of_pairwise (fun a b ha hb => hanti a (hmem.1 ha) b (hmem'.1 hb))
    (List.pairwise_mergeSort htrans htotal l') (List.pairwise_mergeSort htrans htotal l) ?_
  exact (List.mergeSort_perm l' le).trans (hperm.trans (List.mergeSort_perm l le).symm)

end Sorting

theorem PropDoc.le_total (p q : PropDoc) : (p.le q || q.le p) = true := by
  unfold PropDoc.le
  cases p.required <;> cases q.required <;> simp [textLE_total]

theorem PropDoc.le_trans (p q r : PropDoc) (hpq : p.le q = true) (hqr : q.le r = true) :
    p.le r = true := by
  unfold PropDoc.le at hpq hqr ⊢
  have htrans := textLE_trans p.name q.name r.name
  cases hp : p.required <;> cases hq : q.required <;> cases hr : r.required <;> simp_all

/-- Two properties of which each comes before the other have one name. -/
theorem PropDoc.name_eq_of_le {p q : PropDoc} (hpq : p.le q = true) (hqp : q.le p = true) :
    p.name = q.name := by
  unfold PropDoc.le at hpq hqp
  refine textLE_antisymm ?_ ?_ <;> cases hp : p.required <;> cases hq : q.required <;> simp_all

/-- The order in which properties are listed does not depend on that of the metadata. -/
theorem sortProps_eq_of_perm {ps ps' : List PropDoc} (hperm : ps'.Perm ps)
    (hnames : (ps.map PropDoc.name).Nodup) : sortProps ps' = sortProps ps := by
  refine mergeSort_eq_of_perm PropDoc.le_trans PropDoc.le_total hperm fun p hp q hq hpq hqp => ?_
  exact List.inj_on_of_nodup_map hnames hp hq (PropDoc.name_eq_of_le hpq hqp)

/-- The order in which methods are listed does not depend on that of the metadata, where their names
differ. -/
theorem sortMethods_eq_of_perm {ms ms' : List MethodDoc} (hperm : ms'.Perm ms)
    (hnames : (ms.map MethodDoc.name).Nodup) : sortMethods ms' = sortMethods ms := by
  refine mergeSort_eq_of_perm (fun l m n => textLE_trans l.name m.name n.name)
    (fun m n => textLE_total m.name n.name) hperm fun m hm n hn hmn hnm => ?_
  exact List.inj_on_of_nodup_map hnames hm hn (textLE_antisymm hmn hnm)

/-! ## Reading in another order -/

/-- **Whether all of a list is well-formed does not depend on its order**, and neither does what is
read, but for the order. -/
theorem exists_mapM_of_perm {α β ε : Type} {f : α → Except ε β} {xs xs' : List α} {ys : List β}
    (hperm : xs'.Perm xs) (h : xs.mapM f = .ok ys) : ∃ ys', xs'.mapM f = .ok ys' ∧ ys'.Perm ys := by
  obtain ⟨ys', hys', hyperm⟩ := List.perm_comp_forall₂ hperm (mapM_eq_ok_iff.1 h)
  exact ⟨ys', mapM_eq_ok_iff.2 hys', hyperm⟩

/-! ## Components -/

/-- The same component with its properties in another order, and with its methods in another order
where their names are pairwise different. -/
structure Metadata.Component.Relisted (c c' : Metadata.Component) : Prop where
  displayName : c'.displayName = c.displayName
  description : c'.description = c.description
  composes : c'.composes = c.composes
  props : c'.props.entries.Perm c.props.entries
  methods : c'.methods = c.methods ∨
    (c.methods.map (·.name)).Nodup ∧ c'.methods.Perm c.methods

theorem Metadata.Component.Relisted.symm {c c' : Metadata.Component} (h : c.Relisted c') :
    c'.Relisted c where
  displayName := h.displayName.symm
  description := h.description.symm
  composes := h.composes.symm
  props := h.props.symm
  methods := h.methods.imp Eq.symm fun ⟨hnames, hperm⟩ =>
    ⟨(hperm.map _).nodup_iff.2 hnames, hperm.symm⟩

/-- The same component as it is shown, up to an order that is not. -/
structure ComponentDoc.ShownAlike (d d' : ComponentDoc) : Prop where
  displayName : d'.displayName = d.displayName
  description : d'.description = d.description
  composes : d'.composes = d.composes
  props : sortProps d'.props.values = sortProps d.props.values
  methods : sortMethods d'.methods = sortMethods d.methods

/-- Sorting a list shows whether there is anything in it. -/
theorem isEmpty_eq_of_mergeSort {α : Type} {le : α → α → Bool} {l l' : List α}
    (h : l'.mergeSort le = l.mergeSort le) : l'.isEmpty = l.isEmpty := by
  have hperm : l'.Perm l :=
    (List.mergeSort_perm l' le).symm.trans (h ▸ List.mergeSort_perm l le)
  rw [Bool.eq_iff_iff, List.isEmpty_iff, List.isEmpty_iff, ← List.length_eq_zero_iff,
    hperm.length_eq, List.length_eq_zero_iff]

/-- **What is shown alike makes the same reference.** -/
theorem referenceParts_of_shownAlike {d d' : ComponentDoc} (h : d.ShownAlike d')
    (config : Config) : referenceParts config d' = referenceParts config d := by
  have hprops : renderProps? config d' = renderProps? config d := by
    have hempty : d'.props.isEmpty = d.props.isEmpty := by
      have hvalues := isEmpty_eq_of_mergeSort h.props
      simpa [OrderedMap.values, OrderedMap.isEmpty] using hvalues
    rw [renderProps?, renderProps?, hempty, h.composes, h.props]
  have hmethods : renderMethods? config d' = renderMethods? config d := by
    rw [renderMethods?, renderMethods?, isEmpty_eq_of_mergeSort h.methods, h.methods,
      h.displayName]
  rw [referenceParts, referenceParts, hprops, hmethods]

/-- **A component that is listed in another order is shown alike**: it is read where the other one
is. -/
theorem exists_ofComponent_of_relisted {c c' : Metadata.Component} (h : c.Relisted c')
    {d : ComponentDoc} (hd : ComponentDoc.ofComponent c = .ok d) :
    ∃ d', ComponentDoc.ofComponent c' = .ok d' ∧ d.ShownAlike d' := by
  obtain ⟨props, methods, hprops, hmethods, rfl⟩ := ComponentDoc.ofComponent_eq_ok_iff.1 hd
  obtain ⟨props', hprops', hpropsPerm⟩ := exists_mapM_of_perm h.props hprops
  -- methods of one name keep their order, and so they are read in the same order
  obtain ⟨methods', hmethods', hsort⟩ :
      ∃ methods', c'.methods.mapM MethodDoc.ofMethod = .ok methods' ∧
        sortMethods methods' = sortMethods methods := by
    rcases h.methods with hsame | ⟨hnames, hperm⟩
    · exact ⟨methods, hsame ▸ hmethods, rfl⟩
    · obtain ⟨methods', hmethods', hmethodsPerm⟩ := exists_mapM_of_perm hperm hmethods
      refine ⟨methods', hmethods', sortMethods_eq_of_perm hmethodsPerm ?_⟩
      rwa [names_of_methods hmethods]
  refine ⟨_, ComponentDoc.ofComponent_eq_ok_iff.2 ⟨props', methods', hprops', hmethods', rfl⟩,
    h.displayName, ?_, h.composes, ?_, hsort⟩
  · rw [h.description]
  · dsimp only
    rw [values_ofList_of_propEntries hprops, values_ofList_of_propEntries hprops']
    refine sortProps_eq_of_perm (hpropsPerm.map Prod.snd) ?_
    rw [names_of_propEntries hprops]
    exact c.props.nodup

/-- What is shown alike makes the same page. -/
theorem renderMarkdown_of_shownAlike {d d' : ComponentDoc} (h : d.ShownAlike d') (config : Config)
    (id title : Text) :
    PageDoc.renderMarkdown config ⟨id, title, d'⟩ =
      PageDoc.renderMarkdown config ⟨id, title, d⟩ := by
  have hparts : pageParts config ⟨id, title, d'⟩ = pageParts config ⟨id, title, d⟩ := by
    unfold pageParts
    dsimp only
    rw [referenceParts_of_shownAlike h, h.description]
    rfl
  unfold PageDoc.renderMarkdown
  rw [hparts]

/-- Where there is a page, listing its component in another order gives the same. -/
theorem renderMarkdown_of_relisted {config : Config} {id title : Text} {c c' : Metadata.Component}
    (h : c.Relisted c') {text : Text}
    (htext : Metadata.Page.renderMarkdown config ⟨id, title, c⟩ = .ok text) :
    Metadata.Page.renderMarkdown config ⟨id, title, c'⟩ = .ok text := by
  obtain ⟨d, hd, rfl⟩ := Metadata.Page.renderMarkdown_eq_ok_iff.1 htext
  obtain ⟨d', hd', hshown⟩ := exists_ofComponent_of_relisted h hd
  exact Metadata.Page.renderMarkdown_eq_ok_iff.2
    ⟨d', hd', (renderMarkdown_of_shownAlike hshown config id title).symm⟩

/-- **A page does not depend on the order of listing**: where the properties are listed in another
order, and the methods too if their names are pairwise different, there is a page in both cases or
in none, and it is the same. -/
theorem renderMarkdown_relisted (config : Config) (p : Metadata.Page) {c : Metadata.Component}
    (h : p.component.Relisted c) :
    (({ p with component := c } : Metadata.Page).renderMarkdown config).toOption =
      (p.renderMarkdown config).toOption := by
  have hiff (text : Text) :
      ({ p with component := c } : Metadata.Page).renderMarkdown config = .ok text ↔
        p.renderMarkdown config = .ok text :=
    ⟨renderMarkdown_of_relisted h.symm, renderMarkdown_of_relisted h⟩
  cases hpage : p.renderMarkdown config with
  | ok text => rw [(hiff text).2 hpage]
  | error e =>
    cases hpage' : ({ p with component := c } : Metadata.Page).renderMarkdown config with
    | ok text => rw [(hiff text).1 hpage'] at hpage; cases hpage
    | error e' => rfl

/-- A property of type number that is required or not. -/
def numberProperty (required : Bool) : Metadata.Property :=
  ⟨some (.node (some "number".toList) none none none [] none), required,
    some "Text.\n@default 0".toList, none⟩

/-- Three properties, one of them required, and two methods. -/
def listedComponent : Metadata.Component where
  displayName := "Box".toList
  description := some "A box.".toList
  props := .ofList [("c".toList, numberProperty false), ("a".toList, numberProperty false),
    ("b".toList, numberProperty true)]
  methods := [⟨"focus".toList, none, [], []⟩, ⟨"blur".toList, none, ["static".toList], []⟩]
  composes := ["ViewProps".toList]

/-- The component with the properties and the methods turned around. -/
def turnedComponent : Metadata.Component :=
  { listedComponent with
    props := .ofList listedComponent.props.entries.reverse
    methods := listedComponent.methods.reverse }

/-- There is a page of the component as it is listed and turned around, and it is the same. -/
theorem renderMarkdown_relisted_turned :
    listedComponent.Relisted turnedComponent ∧
      (Metadata.Page.renderMarkdown .builtin
          ⟨"box".toList, "Box".toList, listedComponent⟩).toOption.isSome = true ∧
        (Metadata.Page.renderMarkdown .builtin
            ⟨"box".toList, "Box".toList, turnedComponent⟩).toOption =
          (Metadata.Page.renderMarkdown .builtin
            ⟨"box".toList, "Box".toList, listedComponent⟩).toOption := by
  have hrelisted : listedComponent.Relisted turnedComponent :=
    ⟨rfl, rfl, rfl, List.reverse_perm listedComponent.props.entries,
      .inr ⟨by decide, List.reverse_perm listedComponent.methods⟩⟩
  exact ⟨hrelisted, rfl,
    renderMarkdown_relisted .builtin ⟨"box".toList, "Box".toList, listedComponent⟩ hrelisted⟩

end ComponentPages
