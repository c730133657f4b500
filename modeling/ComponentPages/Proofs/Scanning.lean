import ComponentPages.Proofs.Directives
import ComponentPages.Proofs.Lines

/-!
# One line of a scan

What a line is read as, and all that reading it can do. Everything that is proved about a scan is
proved from these.

- **`Scan.reading`** — how a line is read outside code blocks.
- **`Scan.Step`**, **`Scan.step_spec`** — the eight things that a line can do.
- **`Scan.step_congr`** — the blanks at the end of a line that is no code do not matter.
- **`TagSet.Extends`**, **`Scan.extends_run`** — recorded tags stay recorded.
-/

namespace ComponentPages

/-! ## What a line is -/

/-- No marker is blank. -/
theorem isBlank_of_isFenceMarker {c : Char} (h : isFenceMarker c = true) : isBlank c = false := by
  rw [isFenceMarker, Bool.or_eq_true, beq_iff_eq, beq_iff_eq] at h
  rcases h with rfl | rfl
  · rfl
  · rfl

/-- **The form of an opening line**: it begins with its marker, written three times or more. -/
theorem markers_of_fenceOpening? {s : Text} {opening : FenceOpening}
    (h : fenceOpening? s = some opening) :
    isFenceMarker opening.marker = true ∧ 3 ≤ opening.width ∧
      List.replicate opening.width opening.marker <+: s := by
  unfold fenceOpening? at h
  split at h
  · cases h
  · next c rest =>
    dsimp only at h
    split at h
    · next hcond =>
      cases h
      rw [Bool.and_eq_true, decide_eq_true_eq] at hcond
      have hrun : (c :: rest).takeWhile (· == c) =
          List.replicate ((c :: rest).takeWhile (· == c)).length c :=
        List.eq_replicate_of_mem fun d hd => by simpa using List.mem_takeWhile_imp hd
      refine ⟨hcond.1, hcond.2, ?_⟩
      rw [← hrun]
      exact List.takeWhile_prefix _
    · cases h

/-- An opening line begins with a marker. -/
theorem isFenceMarker_of_fenceOpening? {c : Char} {s : Text} {opening : FenceOpening}
    (h : fenceOpening? (c :: s) = some opening) : isFenceMarker c = true := by
  obtain ⟨hmarker, hwide, rest, hrest⟩ := markers_of_fenceOpening? h
  obtain ⟨n, hn⟩ : ∃ n, opening.width = n + 1 := ⟨opening.width - 1, by omega⟩
  rw [hn, List.replicate_succ, List.cons_append] at hrest
  rwa [← (List.cons.inj hrest).1]

/-- Whether a line closes a code block does not depend on the blanks at its end. -/
theorem FenceOpening.closedBy_congr (f : FenceOpening) {l l' : Text} (h : trimEnd l = trimEnd l') :
    f.closedBy l = f.closedBy l' := by
  rw [closedBy, closedBy, ← trim_trimEnd l, h, trim_trimEnd]

/-- **The form of a block tag**: an at sign, and a value that is trimmed after the name. -/
theorem exists_cons_of_blockTag? {s : Text} {found : Text × Text} (h : blockTag? s = some found) :
    ∃ c rest, s = '@' :: c :: rest ∧ found.2 = trim (rest.dropWhile inTagName) := by
  unfold blockTag? at h
  split at h
  · next c rest =>
    refine ⟨c, rest, rfl, ?_⟩
    split at h
    · split at h
      · next hname => cases h; rw [hname]; rfl
      · next d value hname =>
        split at h
        · cases h; rw [hname]
        · cases h
    · cases h
  · cases h

/-- The value of a block tag is trimmed. -/
theorem trim_value_of_blockTag? {s name value : Text} (h : blockTag? s = some (name, value)) :
    trim value = value := by
  obtain ⟨c, rest, -, rfl⟩ := exists_cons_of_blockTag? h
  exact trim_trim _

/-- The value of a block tag is a part of the line. -/
theorem value_infix_of_blockTag? {s name value : Text} (h : blockTag? s = some (name, value)) :
    value <:+: s := by
  obtain ⟨c, rest, rfl, rfl⟩ := exists_cons_of_blockTag? h
  have hsuffix : rest.dropWhile inTagName <:+ '@' :: c :: rest :=
    (List.dropWhile_suffix _).trans ((List.suffix_cons c rest).trans (List.suffix_cons '@' _))
  exact (trim_isInfix _).trans hsuffix.isInfix

/-- No line is a fence and a block tag. -/
theorem fenceOpening?_of_blockTag? {s : Text} {found : Text × Text}
    (h : blockTag? s = some found) : fenceOpening? s = none := by
  obtain ⟨c, rest, rfl, -⟩ := exists_cons_of_blockTag? h
  rfl

/-- A block tag does not begin with a directive. -/
theorem directiveAt?_of_blockTag? {s : Text} {found : Text × Text}
    (h : blockTag? s = some found) : directiveAt? s = none := by
  obtain ⟨c, rest, rfl, -⟩ := exists_cons_of_blockTag? h
  exact directiveAt?_cons_of_ne (by decide) (c :: rest)

/-- An opening line does not begin with a directive. -/
theorem directiveAt?_of_fenceOpening? {s : Text} {opening : FenceOpening}
    (h : fenceOpening? s = some opening) : directiveAt? s = none := by
  cases s with
  | nil => rfl
  | cons c s =>
    refine directiveAt?_cons_of_ne ?_ s
    rintro rfl
    exact absurd (isFenceMarker_of_fenceOpening? h) (by decide)

namespace Line

/-- Where a line begins with no directive, nothing is set apart of it. -/
theorem ofText_eq_whole {raw : Text} (h : directiveAt? (trim raw) = none) :
    Line.ofText raw = Line.whole raw := by
  rw [Line.ofText, splitLeading_of_none h, Line.whole]

/-- The kind of a line, by what is left of it after its directives. -/
theorem kind_eq_fence_iff {l : Line} {opening : FenceOpening} :
    l.kind = .fence opening ↔ fenceOpening? l.rest = some opening := by
  unfold kind
  split
  · next h => rw [h]; simp
  · next h =>
    rw [h]
    split
    · simp
    · split <;> simp

/-- A line is a block tag where its rest is one. -/
theorem kind_eq_tag_iff {l : Line} {name value : Text} :
    l.kind = .tag name value ↔ blockTag? l.rest = some (name, value) := by
  unfold kind
  split
  · next h =>
    constructor
    · intro hk; cases hk
    · intro hb; rw [fenceOpening?_of_blockTag? hb] at h; cases h
  · split
    · next h => rw [h]; simp
    · next h => rw [h]; split <;> simp

/-- A line is plain where it is none of the other kinds. -/
theorem kind_eq_plain_iff {l : Line} :
    l.kind = .plain ↔
      fenceOpening? l.rest = none ∧ blockTag? l.rest = none ∧ isBlankText l.raw = false := by
  unfold kind
  split
  · next h => rw [h]; simp
  · next h =>
    rw [h]
    split
    · next h => rw [h]; simp
    · next h => rw [h]; split <;> simp_all

/-- What is left of a blank line is nothing. -/
theorem ofText_of_blank {raw : Text} (h : isBlankText raw = true) :
    Line.ofText raw = ⟨raw, [], []⟩ := by
  rw [Line.ofText, trim_eq_nil_iff.2 h, splitLeading_of_none directiveAt?_nil]

/-- A blank line is blank, whether a tag is open or not. -/
theorem kind_ofText_of_blank {raw : Text} (h : isBlankText raw = true) :
    (Line.ofText raw).kind = .blank := by
  rw [ofText_of_blank h]
  exact if_pos h

/-- A blank line is blank where a tag is open. -/
theorem kind_whole_of_blank {raw : Text} (h : isBlankText raw = true) :
    (Line.whole raw).kind = .blank := by
  rw [Line.whole, trim_eq_nil_iff.2 h]
  exact if_pos h

/-- Only blank lines are read as blank. -/
theorem isBlankText_of_kind {l : Line} (h : l.kind = .blank) : isBlankText l.raw = true := by
  unfold kind at h
  split at h
  · cases h
  · split at h
    · cases h
    · split at h
      · next hb => exact hb
      · cases h

@[simp] theorem whole_rest (raw : Text) : (Line.whole raw).rest = trim raw := rfl

@[simp] theorem whole_raw (raw : Text) : (Line.whole raw).raw = raw := rfl

@[simp] theorem whole_directives (raw : Text) : (Line.whole raw).directives = [] := rfl

theorem ofText_directives (raw : Text) :
    (Line.ofText raw).directives = (splitLeading (trim raw)).1 := rfl

@[simp] theorem ofText_raw (raw : Text) : (Line.ofText raw).raw = raw := rfl

/-- What is left of a line after its directives is its end. -/
theorem ofText_rest_suffix (raw : Text) : (Line.ofText raw).rest <:+ trim raw :=
  afterLeading_suffix (trim raw)

/-- The kind of a line does not depend on the blanks around it. -/
theorem kind_ofText_congr {raw raw' : Text} (h : trim raw = trim raw') :
    (Line.ofText raw).kind = (Line.ofText raw').kind := by
  have hblank : isBlankText (Line.ofText raw).raw = isBlankText (Line.ofText raw').raw := by
    rw [ofText_raw, ofText_raw, ← isBlankText_trim, h, isBlankText_trim]
  have hrest : (Line.ofText raw).rest = (Line.ofText raw').rest := by
    rw [Line.ofText, Line.ofText, h]
  rw [kind, kind, hrest, hblank]

end Line

namespace Scan

/-! ## Closing a tag -/

/-- No code block is open. -/
def Outside (s : Scan) : Prop := ∀ f, s.mode ≠ .fence f

@[simp] theorem closeTag_opening? (s : Scan) : s.closeTag.opening? = s.opening? := by
  unfold closeTag
  split
  · split <;> rfl
  · rfl

@[simp] theorem closeTag_examples (s : Scan) : s.closeTag.examples = s.examples := by
  unfold closeTag
  split
  · split <;> rfl
  · rfl

theorem outside_of_prose {s : Scan} (h : s.mode = .prose) : s.Outside := fun f hf => by
  rw [h] at hf; cases hf

theorem outside_of_tag {s : Scan} {t : OpenTag} (h : s.mode = .tag t) : s.Outside := fun f hf => by
  rw [h] at hf; cases hf

theorem outside_or_fence (s : Scan) : s.Outside ∨ ∃ f, s.mode = .fence f := by
  by_cases h : ∃ f, s.mode = .fence f
  · exact .inr h
  · exact .inl fun f hf => h ⟨f, hf⟩

/-- Where no tag is open there is nothing to close. -/
theorem closeTag_of_ne {s : Scan} (h : ∀ t, s.mode ≠ .tag t) : s.closeTag = s := by
  unfold closeTag
  split
  · next t ht => exact absurd ht (h t)
  · rfl

theorem closeTag_of_prose {s : Scan} (h : s.mode = .prose) : s.closeTag = s :=
  closeTag_of_ne fun t ht => by rw [h] at ht; cases ht

/-- A tag without a value goes back to the prose. -/
theorem closeTag_of_blank {s : Scan} {t : OpenTag} (h : s.mode = .tag t)
    (hv : isBlankText t.value = true) :
    s.closeTag = { s with
      prose := s.prose ++ t.rawLines
      mode := .prose
      notices := s.notices ++ [.emptyTag (joinWith [' '] t.rawLines)] } := by
  simp only [closeTag, h, hv, if_true]

/-- A tag with a value is recorded. -/
theorem closeTag_of_value {s : Scan} {t : OpenTag} (h : s.mode = .tag t)
    (hv : isBlankText t.value = false) :
    s.closeTag = { s with
      tags := record s.tags t.key t.fullValue
      mode := .prose
      notices := s.notices ++ brokenDirectives (stripDirectives t.fullValue).1 } := by
  simp only [closeTag, h, hv, Bool.false_eq_true, if_false]

/-- After a tag is closed the scan is in the prose. -/
theorem closeTag_mode {s : Scan} (h : s.Outside) : s.closeTag.mode = .prose := by
  cases hm : s.mode with
  | prose => rw [closeTag_of_prose hm, hm]
  | tag t =>
    cases hv : isBlankText t.value with
    | true => rw [closeTag_of_blank hm hv]
    | false => rw [closeTag_of_value hm hv]
  | fence f => exact absurd hm (h f)

@[simp] theorem closeTag_closeTag (s : Scan) : s.closeTag.closeTag = s.closeTag := by
  rcases s.outside_or_fence with h | ⟨f, hf⟩
  · exact closeTag_of_prose (closeTag_mode h)
  · have hs : s.closeTag = s := closeTag_of_ne fun t ht => by rw [hf] at ht; cases ht
    rw [hs, hs]

/-- At the end of the text an open tag is closed. -/
theorem finish_of_outside {s : Scan} (h : s.Outside) : s.finish = s.closeTag := by
  rw [finish, closeTag_mode h]

/-- At the end of the text an open code block goes back to the prose. -/
theorem finish_of_fence {s : Scan} {f : OpenFence} (h : s.mode = .fence f) :
    s.finish = { s with
      prose := s.prose ++ f.firstLine :: f.body
      mode := .prose
      notices := s.notices ++ [.unclosedFence f.opening.language] } := by
  have hclose : s.closeTag = s := closeTag_of_ne fun t ht => by rw [h] at ht; cases ht
  rw [finish, hclose, h]

@[simp] theorem finish_opening? (s : Scan) : s.finish.opening? = s.opening? := by
  unfold finish
  dsimp only
  split <;> exact closeTag_opening? s

@[simp] theorem finish_examples (s : Scan) : s.finish.examples = s.examples := by
  unfold finish
  dsimp only
  split <;> exact closeTag_examples s

/-! ## Prose -/

@[simp] theorem addProse_opening? (s : Scan) (l : Text) :
    (s.addProse l).opening? = s.opening? := rfl

@[simp] theorem addProse_examples (s : Scan) (l : Text) :
    (s.addProse l).examples = s.examples := rfl

@[simp] theorem addProse_mode (s : Scan) (l : Text) : (s.addProse l).mode = s.mode := rfl

@[simp] theorem addProse_tags (s : Scan) (l : Text) :
    (s.addProse l).tags = s.tags.addPlatforms (stripDirectives (trimEnd l)).2 := rfl

/-- A line of prose is added without its directives, and left out where it held only directives. -/
theorem addProse_prose (s : Scan) (l : Text) :
    (s.addProse l).prose =
      if isBlankText (stripDirectives (trimEnd l)).1 && !(stripDirectives (trimEnd l)).2.isEmpty
      then s.prose else s.prose ++ [trimEnd (stripDirectives (trimEnd l)).1] := rfl

/-- A line without directives is kept as it is, up to blanks at its end. -/
theorem addProse_of_free (s : Scan) {l : Text} (h : DirectiveFree (trimEnd l)) :
    (s.addProse l).prose = s.prose ++ [trimEnd l] ∧ (s.addProse l).tags = s.tags := by
  rw [addProse_prose, addProse_tags, stripDirectives_of_free h]
  simp

@[simp] theorem addBlank_opening? (s : Scan) : s.addBlank.opening? = s.opening? := by
  unfold addBlank; split <;> rfl

@[simp] theorem addBlank_examples (s : Scan) : s.addBlank.examples = s.examples := by
  unfold addBlank; split <;> rfl

@[simp] theorem addBlank_mode (s : Scan) : s.addBlank.mode = s.mode := by
  unfold addBlank; split <;> rfl

@[simp] theorem addBlank_tags (s : Scan) : s.addBlank.tags = s.tags := by
  unfold addBlank; split <;> rfl

/-- A blank line is added unless the line before is empty. -/
theorem addBlank_prose (s : Scan) :
    s.addBlank.prose = if s.prose.getLast? = some [] then s.prose else s.prose ++ [[]] := by
  unfold addBlank; split <;> rfl

/-! ## What a line can do -/

/-- How a line is read outside code blocks: its leading directives are set apart where no tag is
open. -/
def reading (s : Scan) (l : Text) : Line :=
  match s.mode with
  | .tag _ => .whole l
  | _ => .ofText l

theorem reading_of_prose {s : Scan} (h : s.mode = .prose) (l : Text) :
    s.reading l = .ofText l := by
  rw [reading, h]

theorem reading_of_tag {s : Scan} {t : OpenTag} (h : s.mode = .tag t) (l : Text) :
    s.reading l = .whole l := by
  rw [reading, h]

@[simp] theorem reading_raw (s : Scan) (l : Text) : (s.reading l).raw = l := by
  unfold reading; split <;> rfl

/-- A blank line is read as one everywhere. -/
theorem kind_reading_of_blank (s : Scan) {l : Text} (h : isBlankText l = true) :
    (s.reading l).kind = .blank := by
  unfold reading
  split
  · exact Line.kind_whole_of_blank h
  · exact Line.kind_ofText_of_blank h

/-- The example that a closed code block becomes. -/
def exampleOf (s : Scan) (f : OpenFence) (l : Text) : Example :=
  ⟨f.opening.language, if s.opening?.isSome then proseText s.prose else [],
    joinLines (f.firstLine :: f.body ++ [trim l]), joinLines f.body⟩

/-- All that a line can do to a scan. -/
inductive Step (s : Scan) (l : Text) : Scan → Prop
  /-- The code block goes on. -/
  | code (f : OpenFence) (hmode : s.mode = .fence f) (hopen : f.opening.closedBy l = false) :
      Step s l { s with mode := .fence { f with body := f.body ++ [l] } }
  /-- The code block is closed. -/
  | close (f : OpenFence) (hmode : s.mode = .fence f) (hclose : f.opening.closedBy l = true) :
      Step s l { s with
        prose := []
        opening? := some (s.opening?.getD (proseText s.prose))
        examples := s.examples ++ [s.exampleOf f l]
        mode := .prose }
  /-- A code block is opened. -/
  | fence (opening : FenceOpening) (hout : s.Outside)
      (hkind : (s.reading l).kind = .fence opening) :
      Step s l { s.closeTag with
        tags := s.closeTag.tags.addPlatforms (stripDirectives (s.reading l).directives).2
        mode := .fence ⟨opening, (s.reading l).rest, []⟩ }
  /-- A tag is opened. -/
  | tag (key : TagKey) (name value : Text) (hout : s.Outside)
      (hkind : (s.reading l).kind = .tag name value) (hkey : TagKey.ofName? name = some key) :
      Step s l { s.closeTag with
        mode := .tag ⟨key, value, (s.reading l).directives, [trimEnd l]⟩ }
  /-- A tag of another name is prose. -/
  | unknownTag (name value : Text) (hout : s.Outside)
      (hkind : (s.reading l).kind = .tag name value) (hkey : TagKey.ofName? name = none) :
      Step s l (addProse
        { s.closeTag with notices := s.closeTag.notices ++ [.unknownTag name] } l)
  /-- The line is blank. -/
  | blank (hout : s.Outside) (hkind : (s.reading l).kind = .blank) :
      Step s l s.closeTag.addBlank
  /-- The open tag goes on. -/
  | continued (t : OpenTag) (hmode : s.mode = .tag t) (hkind : (Line.whole l).kind = .plain) :
      Step s l { s with
        mode := .tag { t with
          value := t.value ++ ' ' :: trim l
          rawLines := t.rawLines ++ [trimEnd l] } }
  /-- The line is prose. -/
  | prose (hmode : s.mode = .prose) (hkind : (Line.ofText l).kind = .plain) :
      Step s l (s.addProse l)

/-- Outside code blocks a step is what the line is read as. -/
theorem step_of_outside {s : Scan} (h : s.Outside) (l : Text) :
    s.step l = s.textLine (s.reading l) := by
  cases hm : s.mode with
  | prose => rw [step, hm, reading_of_prose hm]
  | tag t => rw [step, hm, reading_of_tag hm]
  | fence f => exact absurd hm (h f)

/-- Inside a code block the line is code or closes the block. -/
theorem step_of_fence {s : Scan} {f : OpenFence} (h : s.mode = .fence f) (l : Text) :
    s.step l = s.fenceLine f l := by
  rw [step, h]

/-- A blank line closes the open tag. -/
theorem step_of_blank {s : Scan} {l : Text} (hout : s.Outside)
    (hkind : (s.reading l).kind = .blank) : s.step l = s.closeTag.addBlank := by
  rw [step_of_outside hout, textLine, hkind]

/-- A block tag closes the open tag and opens its own. -/
theorem step_of_tag {s : Scan} {l : Text} {key : TagKey} {name value : Text} (hout : s.Outside)
    (hkind : (s.reading l).kind = .tag name value) (hkey : TagKey.ofName? name = some key) :
    s.step l = { s.closeTag with
      mode := .tag ⟨key, value, (s.reading l).directives, [trimEnd l]⟩ } := by
  rw [step_of_outside hout, textLine, hkind]
  dsimp only
  rw [hkey, reading_raw]

/-- A block tag of another name closes the open tag and is prose. -/
theorem step_of_unknownTag {s : Scan} {l : Text} {name value : Text} (hout : s.Outside)
    (hkind : (s.reading l).kind = .tag name value) (hkey : TagKey.ofName? name = none) :
    s.step l =
      addProse { s.closeTag with notices := s.closeTag.notices ++ [.unknownTag name] } l := by
  rw [step_of_outside hout, textLine, hkind]
  dsimp only
  rw [hkey, reading_raw]

/-- An opening line closes the open tag. -/
theorem step_of_opening {s : Scan} {l : Text} {opening : FenceOpening} (hout : s.Outside)
    (hkind : (s.reading l).kind = .fence opening) :
    s.step l = { s.closeTag with
      tags := s.closeTag.tags.addPlatforms (stripDirectives (s.reading l).directives).2
      mode := .fence ⟨opening, (s.reading l).rest, []⟩ } := by
  rw [step_of_outside hout, textLine, hkind]

/-- A plain line goes on with the open tag. -/
theorem step_of_continued {s : Scan} {l : Text} {t : OpenTag} (hmode : s.mode = .tag t)
    (hkind : (Line.whole l).kind = .plain) :
    s.step l = { s with
      mode := .tag { t with
        value := t.value ++ ' ' :: trim l
        rawLines := t.rawLines ++ [trimEnd l] } } := by
  rw [step_of_outside (outside_of_tag hmode), reading_of_tag hmode, textLine, hkind]
  dsimp only
  rw [hmode, Line.whole_raw]

/-- A plain line is prose where no tag is open. -/
theorem step_of_plain {s : Scan} {l : Text} (hmode : s.mode = .prose)
    (hkind : (Line.ofText l).kind = .plain) : s.step l = s.addProse l := by
  rw [step_of_outside (outside_of_prose hmode), reading_of_prose hmode, textLine, hkind]
  dsimp only
  rw [hmode, Line.ofText_raw]

/-- **A step is one of the eight.** -/
theorem step_spec (s : Scan) (l : Text) : Step s l (s.step l) := by
  rcases s.outside_or_fence with hout | ⟨f, hmode⟩
  · cases hkind : (s.reading l).kind with
    | fence opening => rw [step_of_opening hout hkind]; exact .fence opening hout hkind
    | tag name value =>
      cases hkey : TagKey.ofName? name with
      | some key => rw [step_of_tag hout hkind hkey]; exact .tag key name value hout hkind hkey
      | none =>
        rw [step_of_unknownTag hout hkind hkey]
        exact .unknownTag name value hout hkind hkey
    | blank => rw [step_of_blank hout hkind]; exact .blank hout hkind
    | plain =>
      cases hmode : s.mode with
      | prose =>
        rw [reading_of_prose hmode] at hkind
        rw [step_of_plain hmode hkind]
        exact .prose hmode hkind
      | tag t =>
        rw [reading_of_tag hmode] at hkind
        rw [step_of_continued hmode hkind]
        exact .continued t hmode hkind
      | fence f => exact absurd hmode (hout f)
  · rw [step_of_fence hmode]
    unfold fenceLine
    split
    · next hclose => exact .close f hmode hclose
    · next hopen => exact .code f hmode (by simpa using hopen)

/-- Lines that do not close a block are added to it. -/
theorem run_code {s : Scan} {f : OpenFence} (hmode : s.mode = .fence f) {ls : List Text}
    (hls : ∀ l ∈ ls, f.opening.closedBy l = false) :
    s.run ls = { s with mode := .fence { f with body := f.body ++ ls } } := by
  induction ls generalizing s f with
  | nil => rw [run_nil, List.append_nil, ← hmode]
  | cons l ls ih =>
    have hstep : s.step l = { s with mode := .fence { f with body := f.body ++ [l] } } := by
      rw [step_of_fence hmode, fenceLine, hls l (List.mem_cons_self ..)]
      rfl
    have hrest := ih (f := { f with body := f.body ++ [l] }) (s := s.step l) (by rw [hstep])
      fun m hm => hls m (List.mem_cons_of_mem _ hm)
    rw [run_cons, hrest, hstep, List.append_assoc, List.singleton_append]

/-! ## Blanks at the end of a line -/

/-- What a line is read as does not depend on the blanks at its end. -/
theorem reading_congr (s : Scan) {l l' : Text} (h : trimEnd l = trimEnd l') :
    s.reading l' = { s.reading l with raw := l' } := by
  have htrim : trim l = trim l' := by rw [← trim_trimEnd, h, trim_trimEnd]
  unfold reading
  split
  · rw [Line.whole, Line.whole, htrim]
  · rw [Line.ofText, Line.ofText, htrim]

/-- **Blanks at the end of a line do not matter**, unless the line is one of a code block. -/
theorem step_congr {s : Scan} {l l' : Text} (h : trimEnd l = trimEnd l')
    (hcode : ∀ f, s.mode = .fence f → f.opening.closedBy l = true) : s.step l = s.step l' := by
  have htrim : trim l = trim l' := by rw [← trim_trimEnd, h, trim_trimEnd]
  rcases s.outside_or_fence with hout | ⟨f, hmode⟩
  · have hread := s.reading_congr h
    have hrest : (s.reading l').rest = (s.reading l).rest := by rw [hread]
    have hdirectives : (s.reading l').directives = (s.reading l).directives := by rw [hread]
    have hkind : (s.reading l').kind = (s.reading l).kind := by
      rw [Line.kind, Line.kind, hrest, reading_raw, reading_raw, ← isBlankText_trimEnd, ← h,
        isBlankText_trimEnd]
    cases hk : (s.reading l).kind with
    | blank => rw [step_of_blank hout hk, step_of_blank hout (hkind.trans hk)]
    | fence opening =>
      rw [step_of_opening hout hk, step_of_opening hout (hkind.trans hk), hrest, hdirectives]
    | tag name value =>
      cases hkey : TagKey.ofName? name with
      | some key =>
        rw [step_of_tag hout hk hkey, step_of_tag hout (hkind.trans hk) hkey, hdirectives, h]
      | none =>
        rw [step_of_unknownTag hout hk hkey, step_of_unknownTag hout (hkind.trans hk) hkey,
          addProse, addProse, h]
    | plain =>
      cases hmode : s.mode with
      | fence f => exact absurd hmode (hout f)
      | prose =>
        simp only [reading_of_prose hmode] at hk hkind
        rw [step_of_plain hmode hk, step_of_plain hmode (hkind.trans hk), addProse, addProse, h]
      | tag t =>
        simp only [reading_of_tag hmode] at hk hkind
        rw [step_of_continued hmode hk, step_of_continued hmode (hkind.trans hk), h, htrim]
  · have hclose := hcode f hmode
    have hclose' : f.opening.closedBy l' = true := by
      rw [← f.opening.closedBy_congr h, hclose]
    rw [step_of_fence hmode, step_of_fence hmode, fenceLine, fenceLine, if_pos hclose,
      if_pos hclose', htrim]

end Scan

/-! ## Recorded tags stay -/

/-- All that was recorded is still there, in the same order and at the front. -/
structure TagSet.Extends (t t' : TagSet) : Prop where
  platform : t.platform <+: t'.platform
  default : t.default <+: t'.default
  typeOverrides : t.typeOverrides <+: t'.typeOverrides

namespace TagSet

theorem Extends.refl (t : TagSet) : t.Extends t :=
  ⟨List.prefix_refl _, List.prefix_refl _, List.prefix_refl _⟩

theorem Extends.trans {t t' t'' : TagSet} (h : t.Extends t') (h' : t'.Extends t'') :
    t.Extends t'' :=
  ⟨h.platform.trans h'.platform, h.default.trans h'.default,
    h.typeOverrides.trans h'.typeOverrides⟩

/-- Only the empty tags are extended by the empty tags. -/
theorem Extends.eq_empty {t : TagSet} (h : t.Extends empty) : t = empty := by
  obtain ⟨platform, default, typeOverrides⟩ := t
  obtain rfl : platform = [] := List.prefix_nil.1 h.platform
  obtain rfl : default = [] := List.prefix_nil.1 h.default
  obtain rfl : typeOverrides = [] := List.prefix_nil.1 h.typeOverrides
  rfl

theorem extends_addPlatform (t : TagSet) (id : Text) : t.Extends (t.addPlatform id) := by
  refine ⟨?_, List.prefix_refl _, List.prefix_refl _⟩
  dsimp only [addPlatform, addId]
  split
  · exact List.prefix_refl _
  · exact List.prefix_append _ _

theorem extends_addPlatforms (t : TagSet) (ids : List Text) : t.Extends (t.addPlatforms ids) := by
  induction ids generalizing t with
  | nil => exact .refl t
  | cons id ids ih => exact (extends_addPlatform t id).trans (ih _)

/-- Adding a platform that is not blank leaves the tags not empty. -/
theorem addPlatforms_ne_empty (t : TagSet) {id : Text} (hid : trim id ≠ []) (ids : List Text) :
    t.addPlatforms (id :: ids) ≠ empty := by
  intro h
  have hone : t.addPlatform id = empty := (h ▸ extends_addPlatforms _ ids).eq_empty
  have hplatform : addId t.platform id = [] := congrArg TagSet.platform hone
  dsimp only [addId] at hplatform
  split at hplatform
  · next hcond =>
    -- the id would have to be there already
    rw [hplatform] at hcond
    simp [hid] at hcond
  · simp at hplatform

/-- Recording a value takes no tag back. -/
theorem extends_record (t : TagSet) (key : TagKey) (value : Text) :
    t.Extends (Scan.record t key value) := by
  cases key with
  | platform => exact extends_addPlatforms t _
  | default => exact ⟨List.prefix_refl _, List.prefix_append _ _, List.prefix_refl _⟩
  | type => exact ⟨List.prefix_refl _, List.prefix_refl _, List.prefix_append _ _⟩

end TagSet

namespace Scan

theorem extends_closeTag (s : Scan) : s.tags.Extends s.closeTag.tags := by
  unfold closeTag
  split
  · split
    · exact .refl _
    · exact TagSet.extends_record _ _ _
  · exact .refl _

/-- **A line takes no tag back.** -/
theorem extends_step (s : Scan) (l : Text) : s.tags.Extends (s.step l).tags := by
  have h := s.step_spec l
  generalize s.step l = s' at h ⊢
  cases h with
  | code f hmode hopen => exact .refl _
  | close f hmode hclose => exact .refl _
  | fence opening hout hkind =>
    exact (extends_closeTag s).trans (TagSet.extends_addPlatforms _ _)
  | tag key name value hout hkind hkey => exact extends_closeTag s
  | unknownTag name value hout hkind hkey =>
    exact (extends_closeTag s).trans (TagSet.extends_addPlatforms _ _)
  | blank hout hkind => rw [addBlank_tags]; exact extends_closeTag s
  | continued t hmode hkind => exact .refl _
  | prose hmode hkind => exact TagSet.extends_addPlatforms _ _

theorem extends_run (s : Scan) (ls : List Text) : s.tags.Extends (s.run ls).tags := by
  induction ls generalizing s with
  | nil => exact .refl _
  | cons l ls ih => exact (extends_step s l).trans (ih (s.step l))

/-- The end of the text records nothing but the open tag. -/
theorem finish_tags (s : Scan) : s.finish.tags = s.closeTag.tags := by
  unfold finish
  dsimp only
  split <;> rfl

/-- The examples of a description are those that the scan has found. -/
theorem description_examples (s : Scan) : s.description.examples = s.examples := by
  unfold description
  dsimp only
  split <;> rfl

end Scan

/-! ## The whole text -/

/-- The tags of a text are those that the scan has found, the open one included. -/
theorem extract_tags (t : Text) :
    (extract t).tags = (Scan.start.run (contentLines t)).closeTag.tags :=
  Scan.finish_tags _

/-- The examples of a text are those that the scan has found. -/
theorem extract_examples (t : Text) :
    (extract t).description.examples = (Scan.start.run (contentLines t)).examples :=
  (Scan.description_examples _).trans (Scan.finish_examples _)

end ComponentPages
