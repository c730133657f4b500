import ComponentPages.Proofs.LosslessPages
import ComponentPages.Proofs.Normalizing
import ComponentPages.Proofs.PageBatches
import ComponentPages.Proofs.Trimming

/-!
# Written pages as input

The text of a page can come to be read as metadata, where a page is written over a file that is
still to be read. It is then read as no pages at all, or as pages with the same id: a Markdown page
is no JSON, and a JSON page has its id as its first member.

- **`parsePages_renderMarkdown`**, **`id_of_parsePages_renderJson`** — the two formats.
- **`id_of_parsePages_render`** — a page that is read from a written page has its id.
-/

namespace ComponentPages

open Metadata (parsePages)

/-! ## Markdown -/

/-- The blocks of a page begin with the dashes of the front matter. -/
theorem exists_joinSections_pageParts_eq (config : Config) (p : PageDoc) :
    ∃ rest, joinSections (pageParts config p) = '-' :: '-' :: rest := by
  obtain ⟨front, hfront⟩ : ∃ front, frontMatter p = '-' :: '-' :: front :=
    ⟨"-\nid: ".toList ++ p.id ++ "\ntitle: ".toList ++ p.title ++ "\n---".toList, rfl⟩
  rw [pageParts, hfront, joinSections]
  generalize sectionOf (joinSections (descriptionParts p.component.description)) ++
    referenceParts config p.component = parts
  cases parts with
  | nil => exact ⟨front, joinWith_singleton _ _⟩
  | cons part parts =>
    rw [joinWith_cons_cons]
    exact ⟨_, rfl⟩

/-- A Markdown page begins with two dashes. -/
theorem exists_renderMarkdown_eq (config : Config) (p : PageDoc) :
    ∃ rest, p.renderMarkdown config = '-' :: '-' :: rest := by
  obtain ⟨rest, hrest⟩ := exists_joinSections_pageParts_eq config p
  have hdash : ('-' : Char) ≠ '\n' := by decide
  have hblank : isBlank '-' = false := by decide
  refine ⟨trimEnd (collapseFrom 0 rest) ++ ['\n'], ?_⟩
  rw [PageDoc.renderMarkdown, hrest, finishPage, collapseFrom, if_neg hdash, collapseFrom,
    if_neg hdash, trimEnd_cons_of_not_blank hblank, trimEnd_cons_of_not_blank hblank,
    List.cons_append, List.cons_append]

/-- A Markdown page is no JSON. -/
theorem parsePages_renderMarkdown (config : Config) (p : PageDoc) :
    parsePages (p.renderMarkdown config) = .error .malformed := by
  obtain ⟨rest, hrest⟩ := exists_renderMarkdown_eq config p
  rw [hrest]
  rfl

/-! ## JSON -/

/-- The id of a page that is read from an object whose first member is an id. -/
theorem id_of_ofJson? {id : Text} {members : List (Text × Json)} {page : Metadata.Page}
    (h : Metadata.Page.ofJson? (.object (("id".toList, .string id) :: members)) = some page) :
    page.id = id := by
  have hnamed : membersNamed (("id".toList, .string id) :: members) "id".toList =
      .string id :: membersNamed members "id".toList := by simp [membersNamed]
  unfold Metadata.Page.ofJson? at h
  split at h
  · next id' title component hsplit =>
    simp only [RecordName.split?, recordFields, splitRecord?, requiredField, List.mapM_cons,
      hnamed, Option.bind_eq_bind, Option.bind_eq_some_iff] at hsplit
    obtain ⟨first, hfirst, others, -, hall⟩ := hsplit
    cases hall
    obtain ⟨read, hread, h⟩ := Option.bind_eq_some_iff.1 h
    obtain ⟨_, -, h⟩ := Option.bind_eq_some_iff.1 h
    obtain ⟨_, -, h⟩ := Option.bind_eq_some_iff.1 h
    cases h
    -- a second member with the name would be refused
    cases hmore : membersNamed members "id".toList with
    | nil =>
      rw [hmore] at hfirst
      cases hfirst
      exact (Option.some.inj hread).symm
    | cons value values =>
      rw [hmore] at hfirst
      cases hfirst
  · cases h

/-- **A JSON page is read as its own value**, if it can be read. -/
theorem pages?_of_parsePages_renderJson {p : PageDoc} {pages : List Metadata.Page}
    (h : parsePages p.renderJson = .ok pages) : Metadata.pages? p.toJson = some pages := by
  obtain ⟨v, hparse, hpages⟩ := Metadata.parsePages_eq_ok_iff.1 h
  obtain ⟨rest, hread, -⟩ := Json.parse_eq_ok_iff.1 hparse
  have hnumber : v.isNumber = false := by
    cases v with
    | number n => cases hpages
    | _ => rfl
  rw [← eq_of_reads_pretty p.numberFree_toJson hnumber hread, hpages]

/-- A page that is read from a JSON page has its id. -/
theorem id_of_parsePages_renderJson {p : PageDoc} {pages : List Metadata.Page}
    (h : parsePages p.renderJson = .ok pages) : ∀ page ∈ pages, page.id = p.id := by
  have hvalue : p.toJson = .object (("id".toList, .string p.id) ::
      [("title".toList, .string p.title), ("component".toList, p.component.toJson)]) := rfl
  -- an object is no list of pages
  have hsingle : Metadata.pages? p.toJson =
      (Metadata.Page.ofJson? p.toJson).map fun page => [page] := rfl
  have hpages := pages?_of_parsePages_renderJson h
  rw [hsingle, Option.map_eq_some_iff] at hpages
  obtain ⟨page, hpage, rfl⟩ := hpages
  rw [hvalue] at hpage
  simpa using id_of_ofJson? hpage

/-- **A page that is read from the text of a page has its id.** -/
theorem id_of_parsePages_render {config : Config} {format : Format} {page : Metadata.Page}
    {text : Text} {pages : List Metadata.Page} (hrender : page.render config format = .ok text)
    (hpages : parsePages text = .ok pages) : ∀ other ∈ pages, other.id = page.id := by
  rw [Metadata.Page.render] at hrender
  cases hdoc : PageDoc.ofPage page with
  | error e =>
    rw [hdoc] at hrender
    cases hrender
  | ok doc =>
    obtain ⟨component, -, rfl⟩ := PageDoc.ofPage_eq_ok_iff.1 hdoc
    rw [hdoc] at hrender
    cases hrender
    cases format with
    | markdown =>
      rw [PageDoc.render, parsePages_renderMarkdown] at hpages
      cases hpages
    | json => exact id_of_parsePages_renderJson hpages

end ComponentPages
