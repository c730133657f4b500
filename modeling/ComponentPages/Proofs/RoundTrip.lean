import ComponentPages.Proofs.SettledScan

/-!
# Canonical descriptions

A description in canonical form is written as a text in one way, and that text is read back as the
description. The form is told by the parts alone.

- **`CleanProse`** — prose that is neither empty lines in a row nor anything that reading would take
  out.
- **`CanonicalExample`** — a block of one marker, with its language and its code.
- **`Description.Canonical`** — the whole.
- **`extract_joined_of_canonical`** — reading undoes writing.
-/

namespace ComponentPages

/-! ## The form -/

/-- Prose that reading leaves alone, the empty text included. A carriage return inside a line does
no harm, and neither does a directive that runs over the end of a line: it is read as none. -/
structure CleanProse (s : Text) : Prop where
  trimmed : trim s = s
  keepsEnds : ∀ l ∈ lines s, trimEnd l = l
  noDoubleBlank : (lines s).IsChain fun a b => a = [] → b ≠ []
  noFence : ∀ l ∈ lines s, fenceOpening? (trim l) = none
  noTag : ∀ l ∈ lines s, ∀ found ∈ blockTag? (trim l), TagKey.ofName? found.1 = none
  noDirective : ∀ l ∈ lines s, DirectiveFree l

instance (s : Text) : Decidable (CleanProse s) :=
  decidable_of_iff
    (trim s = s ∧ (∀ l ∈ lines s, trimEnd l = l) ∧
      ((lines s).IsChain fun a b => a = [] → b ≠ []) ∧
      (∀ l ∈ lines s, fenceOpening? (trim l) = none) ∧
      (∀ l ∈ lines s, ∀ found ∈ blockTag? (trim l), TagKey.ofName? found.1 = none) ∧
      ∀ l ∈ lines s, DirectiveFree l)
    ⟨fun ⟨h₁, h₂, h₃, h₄, h₅, h₆⟩ => ⟨h₁, h₂, h₃, h₄, h₅, h₆⟩,
      fun ⟨h₁, h₂, h₃, h₄, h₅, h₆⟩ => ⟨h₁, h₂, h₃, h₄, h₅, h₆⟩⟩

/-- A line of code in a block whose marker is written `width` times: it does not close the block,
and nothing is taken from it when lines are read. -/
structure CanonicalCodeLine (marker : Char) (width : Nat) (l : Text) : Prop where
  oneLine : '\n' ∉ l
  noReturn : l.getLast? ≠ some '\r'
  notBlank : isBlankText l = true → l = []
  noClose : ∀ n, width ≤ n → trim l ≠ List.replicate n marker

instance (marker : Char) (width : Nat) (l : Text) : Decidable (CanonicalCodeLine marker width l) :=
  decidable_of_iff
    ('\n' ∉ l ∧ l.getLast? ≠ some '\r' ∧ (isBlankText l = true → l = []) ∧
      (width ≤ (trim l).length → trim l ≠ List.replicate (trim l).length marker))
    ⟨fun ⟨h₁, h₂, h₃, h₄⟩ => ⟨h₁, h₂, h₃, fun n hn heq => h₄
        (by rw [heq, List.length_replicate]; exact hn) (by rw [heq, List.length_replicate])⟩,
      fun ⟨h₁, h₂, h₃, h₄⟩ => ⟨h₁, h₂, h₃, fun hn => h₄ _ hn⟩⟩

/-- The block of an example: `width` markers and the language, the lines of code, and at least as
many markers again. -/
structure CanonicalBlock (e : Example) (marker : Char) (width closing : Nat) (body : List Text) :
    Prop where
  isMarker : isFenceMarker marker = true
  wide : 3 ≤ width
  closes : width ≤ closing
  trimmed : trim e.language = e.language
  oneLine : '\n' ∉ e.language
  noMarker : e.language.head? ≠ some marker
  codeLines : ∀ l ∈ body, CanonicalCodeLine marker width l
  raw : e.raw = joinLines
    ((List.replicate width marker ++ e.language) :: body ++ [List.replicate closing marker])
  code : e.code = joinLines body

instance (e : Example) (marker : Char) (width closing : Nat) (body : List Text) :
    Decidable (CanonicalBlock e marker width closing body) :=
  decidable_of_iff
    ((isFenceMarker marker = true ∧ 3 ≤ width ∧ width ≤ closing) ∧
      (trim e.language = e.language ∧ '\n' ∉ e.language ∧ e.language.head? ≠ some marker) ∧
      (∀ l ∈ body, CanonicalCodeLine marker width l) ∧
      e.raw = joinLines ((List.replicate width marker ++ e.language) :: body ++
        [List.replicate closing marker]) ∧
      e.code = joinLines body)
    ⟨fun ⟨⟨h₁, h₂, h₃⟩, ⟨h₄, h₅, h₆⟩, h₇, h₈, h₉⟩ => ⟨h₁, h₂, h₃, h₄, h₅, h₆, h₇, h₈, h₉⟩,
      fun ⟨h₁, h₂, h₃, h₄, h₅, h₆, h₇, h₈, h₉⟩ => ⟨⟨h₁, h₂, h₃⟩, ⟨h₄, h₅, h₆⟩, h₇, h₈, h₉⟩⟩

/-- An example in canonical form. -/
structure CanonicalExample (e : Example) : Prop where
  intro : CleanProse e.intro
  block : ∃ marker width closing body, CanonicalBlock e marker width closing body

/-- **A description in canonical form.** -/
structure Description.Canonical (d : Description) : Prop where
  text : CleanProse d.text
  footer : CleanProse d.footer
  examples : ∀ e ∈ d.examples, CanonicalExample e
  firstIntro : ∀ e ∈ d.examples.head?, e.intro = []
  noFooter : d.examples = [] → d.footer = []

/-! ## Canonical parts are settled -/

/-- A line of clean prose is empty or a line of prose. -/
theorem CleanProse.line {s l : Text} (h : CleanProse s) (hl : l ∈ lines s) :
    l = [] ∨ ProseLine l := by
  by_cases hnil : l = []
  · exact .inl hnil
  · exact .inr ⟨h.keepsEnds l hl, hnil, h.noDirective l hl, h.noFence l hl,
      fun name value hb => h.noTag l hl (name, value) hb⟩

/-- Clean prose is read back as it is. -/
theorem CleanProse.settled {s : Text} (h : CleanProse s) : SettledProse s where
  trimmed := h.trimmed
  settled := by
    refine ⟨fun l hl => newline_not_mem_of_mem_lines hl,
      fun l hl => (h.line hl).imp_right .inl, ?_⟩
    refine h.noDoubleBlank.imp_of_mem_imp fun a b ha _ hab => ⟨hab, fun hbare => ?_⟩
    -- a line of clean prose is no tag that is recorded
    rcases h.line ha with rfl | hprose
    · exact absurd hbare not_bareTagLine_nil
    · exact absurd hbare hprose.not_bareTagLine

/-- A language that does not begin with the marker ends the run of markers in front of it. -/
theorem span_replicate_append {c : Char} {lang : Text} (h : lang.head? ≠ some c) (n : Nat) :
    (List.replicate n c ++ lang).takeWhile (· == c) = List.replicate n c ∧
      (List.replicate n c ++ lang).dropWhile (· == c) = lang := by
  have hall : ∀ d ∈ List.replicate n c, (d == c) = true := by simp
  rw [List.takeWhile_append_of_pos hall, List.dropWhile_append_of_pos hall]
  cases lang with
  | nil => exact ⟨List.append_nil _, rfl⟩
  | cons d lang =>
    have hd : (d == c) = false := beq_eq_false_iff_ne.2 fun heq => h (by rw [heq]; rfl)
    simp [hd]

/-- Markers and a language open a block. -/
theorem fenceOpening?_replicate_append {c : Char} {lang : Text} {n : Nat}
    (hmarker : isFenceMarker c = true) (hwide : 3 ≤ n) (htrim : trim lang = lang)
    (h : lang.head? ≠ some c) :
    fenceOpening? (List.replicate n c ++ lang) = some ⟨c, n, lang⟩ := by
  obtain ⟨htake, hdrop⟩ := span_replicate_append h n
  obtain ⟨m, rfl⟩ : ∃ m, n = m + 1 := ⟨n - 1, by omega⟩
  rw [List.replicate_succ, List.cons_append] at htake hdrop ⊢
  unfold fenceOpening?
  dsimp only
  rw [htake, hdrop, htrim, List.length_cons, List.length_replicate, hmarker, Bool.true_and,
    if_pos (decide_eq_true hwide)]

section Block

variable {e : Example} {marker : Char} {width closing : Nat} {body : List Text}

/-- The opening line of a block is read as its marker, its width and its language. -/
theorem CanonicalBlock.openingLine (h : CanonicalBlock e marker width closing body) :
    OpeningLine ⟨marker, width, e.language⟩ (List.replicate width marker ++ e.language) := by
  have hmarker := isBlank_of_isFenceMarker h.isMarker
  refine ⟨?_, fenceOpening?_replicate_append h.isMarker h.wide h.trimmed h.noMarker, ?_⟩
  · cases hblank : isBlankText e.language with
    | true =>
      rw [← h.trimmed, trim_eq_nil_iff.2 hblank, List.append_nil, trim_replicate hmarker]
    | false =>
      obtain ⟨n, hn⟩ : ∃ n, width = n + 1 := ⟨width - 1, by have := h.wide; omega⟩
      rw [trim_eq_self_iff, trimEnd_append _ hblank, (trim_eq_self_iff.1 h.trimmed).2, hn,
        List.replicate_succ, List.cons_append, trimStart_cons_of_not_blank hmarker]
      exact ⟨rfl, rfl⟩
  · rw [List.mem_append, List.mem_replicate]
    rintro (⟨-, rfl⟩ | hnl)
    · cases hmarker
    · exact h.oneLine hnl

/-- A block in canonical form is read back as it is. -/
theorem CanonicalBlock.settled (h : CanonicalBlock e marker width closing body) :
    SettledBlock e ⟨marker, width, e.language⟩ (List.replicate width marker ++ e.language) body
      (List.replicate closing marker) := by
  have htrim := trim_replicate (isBlank_of_isFenceMarker h.isMarker) closing
  refine ⟨h.openingLine, fun l hl => ?_, htrim, ?_, rfl, h.raw, h.code⟩
  · have hbody := h.codeLines l hl
    refine ⟨hbody.oneLine, hbody.noReturn, hbody.notBlank, ?_⟩
    by_contra hclosed
    rw [Bool.not_eq_false, FenceOpening.closedBy, Bool.and_eq_true, decide_eq_true_eq] at hclosed
    refine hbody.noClose (trim l).length hclosed.1 (List.eq_replicate_of_mem fun c hc => ?_)
    simpa using List.all_eq_true.1 hclosed.2 c hc
  · rw [FenceOpening.closedBy, htrim]
    simp [h.closes]

end Block

/-- A description in canonical form is settled. -/
theorem Description.Canonical.settled {d : Description} (h : d.Canonical) : d.Settled where
  whole hes := ⟨h.text.settled.atEnd, h.noFooter hes⟩
  parts _ := ⟨h.text.settled, h.footer.settled.atEnd⟩
  examples e he := by
    obtain ⟨marker, width, closing, body, hblock⟩ := (h.examples e he).block
    exact ⟨(h.examples e he).intro.settled, _, _, _, _, hblock.settled⟩
  firstIntro := h.firstIntro

/-! ## Reading undoes writing -/

/-- **Reading undoes writing**: the text of a canonical description is read back as the description,
with every example in its place and as it was, and no tag is found. -/
theorem extract_joined_of_canonical {d : Description} (h : d.Canonical) :
    (extract d.joined).description = d ∧ (extract d.joined).tags = .empty :=
  h.settled.extract_joined

/-- A block of four backticks around a fence of three and a line that would be a tag, and a block of
tildes around backticks, with prose before, between and after them. -/
def nestedBlocks : Description where
  text := "A group.\n\n  - @see other".toList
  examples :=
    [⟨"js".toList, [], "````js\n```\n@type x\n````".toList, "```\n@type x".toList⟩,
      ⟨[], "And \x7b@platform, once more:".toList, "~~~\n```\n\n  ~~\n~~~~".toList,
        "```\n\n  ~~".toList⟩]
  footer := "Last.".toList

theorem canonical_nestedBlocks : nestedBlocks.Canonical where
  text := by decide +kernel
  footer := by decide +kernel
  examples := by
    intro e he
    rcases List.mem_pair.1 he with rfl | rfl
    · exact ⟨by decide +kernel, backtick, 4, 4, ["```".toList, "@type x".toList],
        by decide +kernel⟩
    · exact ⟨by decide +kernel, '~', 3, 4, ["```".toList, [], "  ~~".toList], by decide +kernel⟩
  firstIntro := by decide +kernel
  noFooter := by decide +kernel

/-- Fences inside a block are code, and the block of each example is kept as it is written. -/
theorem extract_joined_nestedBlocks :
    (extract nestedBlocks.joined).description = nestedBlocks ∧
      (extract nestedBlocks.joined).tags = .empty :=
  extract_joined_of_canonical canonical_nestedBlocks

end ComponentPages
