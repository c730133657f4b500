import ComponentPages.Metadata.Schema
import ComponentPages.Proofs.JsonWriting

/-!
# Pages in one list

Texts that each write one page can be put together to one list. Its pages are those of the texts, in
order. This needs that a page is never taken for a list of pages: the first member of a list of
pages is a page, and the first field of a page is a text.

- **`parse_eq_ok_iff`**, **`parsePages_eq_ok_iff`** — what a whole text writes.
- **`parse_batchText`** — values in one list.
- **`ofJson?_of_asList?`** — a list of pages is no page.
- **`parsePages_batchText`** — pages in one list.
-/

namespace ComponentPages

/-! ## Values in one list -/

/-- A text is parsed as a value where it has nothing but white space around the value. -/
theorem Json.parse_eq_ok_iff {s : Text} {v : Json} : Json.parse s = .ok v ↔
    ∃ rest, Reads (readJson .strict maxDepth) s v rest ∧ skipSpace rest = [] := by
  constructor
  · intro h
    obtain ⟨⟨v', rest⟩, hfront, h⟩ := bind_eq_ok_iff.1 h
    obtain ⟨_, hafter, h⟩ := bind_eq_ok_iff.1 h
    cases h
    obtain ⟨r, hr, hpair⟩ := map_eq_ok_iff.1 hfront
    cases hpair
    refine ⟨_, ⟨r, hr, rfl, rfl⟩, ?_⟩
    unfold afterValue at hafter
    split at hafter
    · next hempty => exact List.isEmpty_iff.1 hempty
    · cases hafter
  · rintro ⟨_, ⟨r, hr, rfl, rfl⟩, hrest⟩
    have hafter : afterValue r.rest = .ok () := by simp [afterValue, hrest]
    simp [Json.parse, Json.parseFront, hr, Except.map, hafter]

/-- Texts between brackets, with commas between them. -/
def batchText (texts : List Text) : Text := '[' :: joinWith [','] texts ++ [']']

/-- A text that writes a value by itself writes it in front of other texts. -/
theorem writesValue_of_parse {depth : Nat} {s : Text} {v : Json} (h : Json.parse s = .ok v)
    (hnumber : v.isNumber = false) (hdepth : v.nesting ≤ depth) :
    WritesValue .strict depth s v := by
  obtain ⟨rest, hread, hrest⟩ := Json.parse_eq_ok_iff.1 h
  refine ⟨rest, hrest, fun more _ => reads_json_append hread hdepth ?_ more⟩
  rw [hnumber]
  intro h
  cases h

/-- **Values in one list**, where there is room for one more level. -/
theorem parse_batchText {texts : List Text} {values : List Json}
    (h : List.Forall₂ (fun s v => Json.parse s = .ok v ∧ v.isNumber = false ∧
      v.nesting < maxDepth) texts values) : Json.parse (batchText texts) = .ok (.array values) := by
  obtain ⟨depth, hdepth⟩ : ∃ depth, maxDepth = depth + 1 := ⟨126, rfl⟩
  have hspace : skipSpace [] = [] := rfl
  have hclosing : skipSpace [']'] = [']'] := rfl
  have hitems := reads_items_joinWith hspace hclosing <|
    h.imp fun _ _ ⟨hparse, hnumber, hnesting⟩ =>
      writesValue_of_parse hparse hnumber (Nat.le_of_lt_succ (hdepth ▸ hnesting))
  refine Json.parse_eq_ok_iff.2 ⟨[], ?_, rfl⟩
  rw [batchText, List.cons_append, hdepth, reads_json_iff, skipSpace_cons _ (by rfl)]
  exact .array (reads_array_iff.2 ⟨depth, values, rfl, rfl, hitems⟩)

namespace Metadata

/-! ## Pages and lists of pages -/

/-- The pages that a whole text writes are those of its value. -/
theorem parsePages_eq_ok_iff {s : Text} {pages : List Page} :
    parsePages s = .ok pages ↔ ∃ v, Json.parse s = .ok v ∧ pages? v = some pages := by
  unfold parsePages Json.parse
  cases hfront : Json.parseFront s with
  | error e => simp
  | ok front =>
    obtain ⟨v, rest⟩ := front
    cases hafter : afterValue rest <;> cases hpages : pages? v <;> simp [hafter, hpages]

/-- A page is written as an array or an object. -/
theorem isNumber_of_ofJson? {v : Json} {page : Page} (h : Page.ofJson? v = some page) :
    v.isNumber = false := by
  cases v with
  | number n => cases h
  | _ => rfl

/-- The first item of a page that is written as an array is a text. -/
theorem exists_string_of_ofJson?_array {items : List Json} {page : Page}
    (h : Page.ofJson? (.array items) = some page) : ∃ id more, items = .string id :: more := by
  unfold Page.ofJson? at h
  split at h
  · next id title component hsplit =>
    obtain ⟨idText, hid, -⟩ := Option.bind_eq_some_iff.1 h
    cases items with
    | nil => cases hsplit
    | cons item more =>
      -- the first field is not looked at, but taken as it is
      have hitem : item = id := by
        simp only [RecordName.split?, recordFields, splitRecord?, List.map_cons, List.cons_append,
          List.zip_cons_cons, List.mapM_cons, Option.ite_none_right_eq_some,
          Option.bind_eq_bind, Option.bind_eq_some_iff] at hsplit
        obtain ⟨-, first, hfirst, others, -, hall⟩ := hsplit
        cases hall
        exact Option.some.inj (Option.some.inj hfirst)
      subst hitem
      cases item with
      | string text => exact ⟨text, more, rfl⟩
      | _ => cases hid
  · cases h

/-- **A list of pages is no page**: its first item is a page, and not a text. -/
theorem ofJson?_of_asList? {v : Json} {pages : List Page}
    (h : v.asList? Page.ofJson? = some pages) : Page.ofJson? v = none := by
  cases hpage : Page.ofJson? v with
  | none => rfl
  | some page =>
    cases v with
    | array items =>
      obtain ⟨id, more, rfl⟩ := exists_string_of_ofJson?_array hpage
      cases h
    | _ => cases h

/-! ## Pages in one list -/

/-- A text that writes a page by itself, with room for one more level around it. -/
def WritesPage (s : Text) (page : Page) : Prop :=
  ∃ v, Json.parse s = .ok v ∧ Page.ofJson? v = some page ∧ v.nesting < maxDepth

/-- A text that writes a page is read as that page. -/
theorem WritesPage.parsePages_eq {s : Text} {page : Page} (h : WritesPage s page) :
    parsePages s = .ok [page] := by
  obtain ⟨v, hparse, hpage, -⟩ := h
  refine parsePages_eq_ok_iff.2 ⟨v, hparse, ?_⟩
  have hlist : v.asList? Page.ofJson? = none := by
    cases hlist : v.asList? Page.ofJson? with
    | none => rfl
    | some pages =>
      rw [ofJson?_of_asList? hlist] at hpage
      cases hpage
  simp [pages?, hlist, hpage]

/-- **Pages in one list.** Where each of some texts writes a page by itself and has room for one
more level around it, the list of the texts is read as the pages that are read from the texts, in
order. It does not matter whether a value is first taken for a list of pages or for a page, since no
value is both. -/
theorem parsePages_batchText {texts : List Text} (h : ∀ s ∈ texts, ∃ page, WritesPage s page) :
    (∃ results, texts.mapM parsePages = .ok results ∧
      parsePages (batchText texts) = .ok results.flatten) ∧
    (∀ v, v.asList? Page.ofJson? = none ∨ Page.ofJson? v = none) ∧
    ∀ v, pages? v = ((Page.ofJson? v).map fun page => [page]).or (v.asList? Page.ofJson?) := by
  have hnever (v : Json) : v.asList? Page.ofJson? = none ∨ Page.ofJson? v = none := by
    cases hlist : v.asList? Page.ofJson? with
    | none => exact .inl rfl
    | some pages => exact .inr (ofJson?_of_asList? hlist)
  refine ⟨?_, hnever, ?_⟩
  · choose! page value hvalue using h
    refine ⟨texts.map fun s => [page s], ?_,
      parsePages_eq_ok_iff.2 ⟨.array (texts.map value), ?_, ?_⟩⟩
    · rw [mapM_eq_ok_iff, List.forall₂_map_right_iff, List.forall₂_same]
      exact fun s hs => WritesPage.parsePages_eq ⟨value s, hvalue s hs⟩
    · apply parse_batchText
      rw [List.forall₂_map_right_iff, List.forall₂_same]
      intro s hs
      obtain ⟨hparse, hpage, hnesting⟩ := hvalue s hs
      exact ⟨hparse, isNumber_of_ofJson? hpage, hnesting⟩
    · have hlist : (Json.array (texts.map value)).asList? Page.ofJson? = some (texts.map page) :=
        mapM_eq_some_map fun s hs => (hvalue s hs).2.1
      have hflatten : (texts.map fun s => [page s]).flatten = texts.map page := by
        rw [← List.flatMap_def, ← List.map_eq_flatMap]
      rw [pages?, hlist, hflatten]
      rfl
  · intro v
    unfold pages?
    rcases hnever v with hlist | hpage
    · rw [hlist, Option.none_or, Option.or_none]
    · rw [hpage, Option.map_none, Option.none_or, Option.or_none]

/-- A page with white space around it, brackets and commas in its texts and a field that means
nothing, and a page that is written as an array. -/
def twoPages : List Text :=
  [" \x7b\"title\": \"],[\", \"component\": \x7b\x7d, \"id\": \"\\\"]\", \"n\": [1e2]\x7d\n".toList,
    "[\"b\", \"B\", {}]".toList]

/-- The two pages are read off their list. -/
theorem parsePages_batchText_twoPages : (∀ s ∈ twoPages, ∃ page, WritesPage s page) ∧
    ∃ results, twoPages.mapM parsePages = .ok results ∧
      parsePages (batchText twoPages) = .ok results.flatten := by
  have h : ∀ s ∈ twoPages, ∃ page, WritesPage s page := by
    have hall : ∀ s ∈ twoPages, ((Json.parse s).toOption.any fun v =>
        (Page.ofJson? v).isSome && decide (v.nesting < maxDepth)) = true := by
      decide +kernel
    intro s hs
    obtain ⟨v, hparse, hv⟩ := exists_eq_ok_of_any (hall s hs)
    rw [Bool.and_eq_true, decide_eq_true_iff] at hv
    obtain ⟨page, hpage⟩ := Option.isSome_iff_exists.1 hv.1
    exact ⟨page, v, hparse, hpage, hv.2⟩
  exact ⟨h, (parsePages_batchText h).1⟩

end Metadata

end ComponentPages
