import ComponentPages.Proofs.Scanning
import Mathlib.Data.List.Destutter

/-!
# Groups of tag lines

A text without code blocks and directives is read as if its lines were taken apart first and looked
at afterwards: a tag with the lines that go on with it is a group, and any other line is shown.

- **`readGroups`** — the groups and the other lines, by looking ahead to the end of each group.
- **`groupsText`**, **`groupsTags`** — what is shown of them, and what is recorded.
- **`Scan.run_continued`**, **`Scan.finish_run_closeTag`** — the lines of a group, and its end.
- **`extract_eq_groups`** — reading line by line comes to the same.
-/

namespace ComponentPages

/-! ## The parts of a text -/

/-- The key and the value of a line that is a recorded tag. -/
def knownTag? (l : Text) : Option (TagKey × Text) :=
  match blockTag? (trim l) with
  | some (name, value) => (TagKey.ofName? name).map fun key => (key, value)
  | none => none

/-- A line that is a known tag has the name of the key. -/
theorem exists_name_of_knownTag? {l value : Text} {key : TagKey}
    (h : knownTag? l = some (key, value)) :
    ∃ name, blockTag? (trim l) = some (name, value) ∧ TagKey.ofName? name = some key := by
  unfold knownTag? at h
  split at h
  · next name value' htag =>
    obtain ⟨key', hkey, hpair⟩ := Option.map_eq_some_iff.1 h
    cases hpair
    exact ⟨name, htag, hkey⟩
  · cases h

/-- Whether a line goes on with the tag before: it is not blank and is no tag of any name. -/
def continues (l : Text) : Bool := !isBlankText l && (blockTag? (trim l)).isNone

/-- A group of tag lines with their value, or a line that is shown. -/
inductive Part where
  | group (key : TagKey) (value : Text)
  | line (l : Text)
deriving DecidableEq, Repr

/-- The value of a tag with the lines that go on with it, single spaces between them. -/
def groupValue (own : Text) (more : List Text) : Text :=
  trim (joinWith [' '] (own :: more.map trim))

/-- The lines in order, each tag with all the lines that go on with it. A tag without any value is a
line as others are. -/
def readGroups : List Text → List Part
  | [] => []
  | l :: ls =>
    match knownTag? l with
    | some (key, own) =>
      let value := groupValue own (ls.takeWhile continues)
      (if value = [] then .line l else .group key value) :: readGroups (ls.dropWhile continues)
    | none => .line l :: readGroups ls
termination_by ls => ls.length
decreasing_by
  · exact Nat.lt_succ_of_le (List.dropWhile_sublist _).length_le
  · simp

/-- Two lines that are not both empty. -/
def NotBothEmpty (a b : Text) : Prop := a = [] → b ≠ []

instance : DecidableRel NotBothEmpty := fun a b => inferInstanceAs (Decidable (a = [] → b ≠ []))

/-- Lines with one empty line for each run of them. -/
def collapse (ls : List Text) : List Text := ls.destutter NotBothEmpty

/-- What is shown of a part: a line without the blanks at its end. -/
def Part.shown? : Part → Option Text
  | .group _ _ => none
  | .line l => some (trimEnd l)

/-- What is recorded of a part. -/
def Part.record (t : TagSet) : Part → TagSet
  | .group .platform value => t.addPlatforms (splitIds value)
  | .group .default value => { t with default := t.default ++ [⟨value, []⟩] }
  | .group .type value => { t with typeOverrides := t.typeOverrides ++ [⟨value, []⟩] }
  | .line _ => t

/-- The text that is shown of the parts. -/
def groupsText (ps : List Part) : Text := trim (joinLines (collapse (ps.filterMap Part.shown?)))

/-- The tags that are recorded of the parts. -/
def groupsTags (ps : List Part) : TagSet := ps.foldl Part.record .empty

theorem readGroups_nil : readGroups [] = [] := by rw [readGroups]

/-- A line that is no recorded tag is a part of its own. -/
theorem readGroups_cons_line {l : Text} (h : knownTag? l = none) (ls : List Text) :
    readGroups (l :: ls) = .line l :: readGroups ls := by
  rw [readGroups, h]

/-- A recorded tag takes the lines that go on with it. -/
theorem readGroups_cons_group {l own : Text} {key : TagKey} (h : knownTag? l = some (key, own))
    (ls : List Text) :
    readGroups (l :: ls) =
      (if groupValue own (ls.takeWhile continues) = [] then .line l
        else .group key (groupValue own (ls.takeWhile continues))) ::
      readGroups (ls.dropWhile continues) := by
  rw [readGroups, h]

/-- The parts show what the first one shows, and then what the others do. -/
theorem filterMap_shown_cons (p : Part) (ps : List Part) :
    (p :: ps).filterMap Part.shown? = p.shown?.toList ++ ps.filterMap Part.shown? := by
  cases p <;> rfl

/-! ## Runs of empty lines -/

/-- A line after lines that begin with `a` is left out where it and the line before are empty. -/
theorem destutter'_concat (a : Text) (ls : List Text) (l : Text) :
    (ls ++ [l]).destutter' NotBothEmpty a =
      if (ls.destutter' NotBothEmpty a).getLast? = some [] ∧ l = []
      then ls.destutter' NotBothEmpty a else ls.destutter' NotBothEmpty a ++ [l] := by
  induction ls generalizing a with
  | nil =>
    rw [List.nil_append, List.destutter'_singleton, List.destutter'_nil, List.getLast?_singleton]
    by_cases hboth : a = [] ∧ l = []
    · rw [if_neg (by simp [NotBothEmpty, hboth]), if_pos (by simp [hboth])]
    · have hnot : NotBothEmpty a l := fun ha hl => hboth ⟨ha, hl⟩
      rw [if_pos hnot, if_neg (by simpa using hboth)]
      rfl
  | cons b ls ih =>
    rw [List.cons_append, List.destutter'_cons, List.destutter'_cons]
    by_cases hab : NotBothEmpty a b
    · have hlast : (a :: ls.destutter' NotBothEmpty b).getLast? =
          (ls.destutter' NotBothEmpty b).getLast? := by
        obtain ⟨c, cs, hcs⟩ := List.exists_cons_of_ne_nil (List.destutter'_ne_nil ls NotBothEmpty)
        rw [hcs, List.getLast?_cons_cons]
      rw [if_pos hab, if_pos hab, ih b, hlast]
      split
      · rfl
      · rw [List.cons_append]
    · rw [if_neg hab, if_neg hab, ih a]

/-- **One more line**: it is left out where it and the line before are empty. -/
theorem collapse_concat (ls : List Text) (l : Text) :
    collapse (ls ++ [l]) =
      if (collapse ls).getLast? = some [] ∧ l = [] then collapse ls else collapse ls ++ [l] := by
  cases ls with
  | nil => simp [collapse]
  | cons a ls => exact destutter'_concat a ls l

/-! ## Texts put together -/

/-- The opening of a directive is not made by putting texts together with spaces. -/
theorem not_infix_joinWith {parts : List Text} (h : ∀ p ∈ parts, ¬directiveOpening <:+: p) :
    ¬directiveOpening <:+: joinWith [' '] parts := by
  induction parts with
  | nil => exact fun hnil => by cases List.infix_nil.1 hnil
  | cons p ps ih =>
    cases ps with
    | nil => rw [joinWith_singleton]; exact h p (List.mem_cons_self ..)
    | cons q ps =>
      rw [joinWith_cons_cons, List.append_assoc, List.singleton_append]
      intro hwithin
      rcases infix_append_cons (by decide) hwithin with hp | hrest
      · exact h p (List.mem_cons_self ..) hp
      · exact ih (fun r hr => h r (List.mem_cons_of_mem _ hr)) hrest

/-- Two texts at the front of a list put together beforehand. -/
theorem joinWith_merge (v l : Text) (ls : List Text) :
    joinWith [' '] ((v ++ ' ' :: l) :: ls) = joinWith [' '] (v :: l :: ls) := by
  cases ls with
  | nil => rw [joinWith_singleton, joinWith_cons_cons, joinWith_singleton, List.append_assoc]; rfl
  | cons m ms => simp [joinWith_cons_cons]

/-- Texts put together are blank where all of them are. -/
theorem isBlankText_joinWith (ps : List Text) :
    isBlankText (joinWith [' '] ps) = ps.all isBlankText := by
  induction ps with
  | nil => rfl
  | cons p ps ih =>
    cases ps with
    | nil => rw [joinWith_singleton, List.all_cons, List.all_nil, Bool.and_true]
    | cons q ps =>
      rw [joinWith_cons_cons, isBlankText_append, isBlankText_append, ih, List.all_cons]
      exact congrArg (· && _) (Bool.and_true _)

/-- A tag has no value where it has none of its own and no line goes on with it. -/
theorem groupValue_eq_nil_iff {own : Text} {more : List Text}
    (hmore : ∀ l ∈ more, continues l = true) :
    groupValue own more = [] ↔ isBlankText own = true ∧ more = [] := by
  rw [groupValue, trim_eq_nil_iff, isBlankText_joinWith, List.all_cons, Bool.and_eq_true]
  refine and_congr_right fun _ => ⟨fun hall => ?_, fun hnil => by rw [hnil]; rfl⟩
  cases more with
  | nil => rfl
  | cons l more =>
    have hl := hmore l (List.mem_cons_self ..)
    rw [List.map_cons, List.all_cons, Bool.and_eq_true, isBlankText_trim] at hall
    rw [continues, hall.1] at hl
    cases hl

/-! ## Texts without code and directives -/

/-- A line that holds no directive and opens no code block. -/
structure PlainText (l : Text) : Prop where
  noDirective : ¬directiveOpening <:+: l
  noFence : fenceOpening? (trim l) = none

theorem PlainText.free_trim {l : Text} (h : PlainText l) : DirectiveFree (trim l) :=
  directiveFree_of_not_infix fun hwithin => h.noDirective (hwithin.trans (trim_isInfix l))

theorem PlainText.free_trimEnd {l : Text} (h : PlainText l) : DirectiveFree (trimEnd l) :=
  directiveFree_of_not_infix fun hwithin =>
    h.noDirective (hwithin.trans (trimEnd_isPrefix l).isInfix)

/-- A plain line is read in one way, whether a tag is open or not. -/
theorem PlainText.reading {l : Text} (h : PlainText l) (s : Scan) :
    s.reading l = Line.whole l := by
  unfold Scan.reading
  split
  · rfl
  · exact Line.ofText_eq_whole h.free_trim.directiveAt?

/-- A plain line goes on with a tag exactly where it is plain. -/
theorem PlainText.kind_eq_plain_iff {l : Text} (h : PlainText l) :
    (Line.whole l).kind = .plain ↔ continues l = true := by
  rw [Line.kind_eq_plain_iff, Line.whole_rest, Line.whole_raw, continues, Bool.and_eq_true,
    Bool.not_eq_true', Option.isNone_iff_eq_none]
  exact ⟨fun ⟨_, htag, hblank⟩ => ⟨hblank, htag⟩, fun ⟨hblank, htag⟩ => ⟨h.noFence, htag, hblank⟩⟩

namespace Scan

variable {s : Scan}

/-! ## The lines of a group -/

/-- **Plain lines go on with the open tag.** -/
theorem run_continued {t : OpenTag} (hmode : s.mode = .tag t) {ls : List Text}
    (h : ∀ l ∈ ls, (Line.whole l).kind = .plain) :
    s.run ls = { s with
      mode := .tag { t with
        value := joinWith [' '] (t.value :: ls.map trim)
        rawLines := t.rawLines ++ ls.map trimEnd } } := by
  induction ls generalizing s t with
  | nil =>
    rw [run_nil, List.map_nil, List.map_nil, joinWith_singleton, List.append_nil, ← hmode]
  | cons l ls ih =>
    have hstep := step_of_continued hmode (h l (List.mem_cons_self ..))
    have hrest := ih (s := s.step l) (by rw [hstep]) fun m hm => h m (List.mem_cons_of_mem _ hm)
    rw [run_cons, hrest, hstep, joinWith_merge, List.append_assoc]
    rfl

/-- A plain line that ends the open tag is read as if the tag were closed. -/
theorem step_closeTag (hout : s.Outside) {l : Text} (hl : PlainText l)
    (hend : continues l = false) : s.closeTag.step l = s.step l := by
  have hout' : s.closeTag.Outside := outside_of_prose (closeTag_mode hout)
  have hread := hl.reading s
  have hread' := hl.reading s.closeTag
  cases hkind : (Line.whole l).kind with
  | plain =>
    rw [hl.kind_eq_plain_iff.1 hkind] at hend
    cases hend
  | blank =>
    rw [step_of_blank hout (by rw [hread, hkind]), step_of_blank hout' (by rw [hread', hkind]),
      closeTag_closeTag]
  | fence opening =>
    rw [Line.kind_eq_fence_iff, Line.whole_rest, hl.noFence] at hkind
    cases hkind
  | tag name value =>
    cases hkey : TagKey.ofName? name with
    | some key =>
      rw [step_of_tag hout (by rw [hread, hkind]) hkey,
        step_of_tag hout' (by rw [hread', hkind]) hkey, closeTag_closeTag, hread, hread']
    | none =>
      rw [step_of_unknownTag hout (by rw [hread, hkind]) hkey,
        step_of_unknownTag hout' (by rw [hread', hkind]) hkey, closeTag_closeTag]

/-- **The end of a group**: the lines after it are read as if its tag were closed. -/
theorem finish_run_closeTag (hout : s.Outside) {ls : List Text}
    (h : ∀ l ∈ ls.head?, PlainText l ∧ continues l = false) :
    (s.closeTag.run ls).finish = (s.run ls).finish := by
  cases ls with
  | nil =>
    rw [run_nil, run_nil, finish_of_outside hout,
      finish_of_outside (outside_of_prose (closeTag_mode hout)), closeTag_closeTag]
  | cons l ls =>
    obtain ⟨hl, hend⟩ := h l rfl
    rw [run_cons, run_cons, step_closeTag hout hl hend]

/-! ## A group and what is recorded of it -/

/-- A value without directives is recorded as the value of its group. -/
theorem record_of_free {value : Text} (h : DirectiveFree value) (t : TagSet) (key : TagKey) :
    record t key value = (Part.group key (trim value)).record t := by
  cases key with
  | platform =>
    rw [record, stripDirectives_of_free h, Part.record, splitIds_trim]
    dsimp only
    rw [List.append_nil]
  | default => rw [record, platformValue, stripDirectives_of_free h]; rfl
  | type => rw [record, platformValue, stripDirectives_of_free h]; rfl

/-- What a scan without code blocks has found: the lines that are shown and the tags. -/
structure HasRead (s : Scan) (shown : List Text) (tags : TagSet) : Prop where
  prose : s.prose = collapse shown
  recorded : s.tags = tags
  opening : s.opening? = none
  examples : s.examples = []

variable {shown : List Text} {tags : TagSet}

/-- **A line that is no recorded tag** is shown. -/
theorem HasRead.step_line (h : s.HasRead shown tags) (hmode : s.mode = .prose) {l : Text}
    (hl : PlainText l) (hknown : knownTag? l = none) :
    (s.step l).mode = .prose ∧ (s.step l).HasRead (shown ++ [trimEnd l]) tags := by
  have hout := outside_of_prose hmode
  have hread := hl.reading s
  have hadd {r : Scan} (hr : r.HasRead shown tags) (hblank : isBlankText l = false) :
      (r.addProse l).HasRead (shown ++ [trimEnd l]) tags := by
    obtain ⟨hprose, htags⟩ := addProse_of_free r hl.free_trimEnd
    refine ⟨?_, htags.trans hr.recorded, hr.opening, hr.examples⟩
    rw [hprose, collapse_concat, if_neg, hr.prose]
    rintro ⟨-, hnil⟩
    rw [trimEnd_eq_nil_iff, hblank] at hnil
    cases hnil
  cases hkind : (Line.whole l).kind with
  | plain =>
    rw [reading_of_prose hmode] at hread
    rw [step_of_plain hmode (by rw [hread, hkind])]
    exact ⟨hmode, hadd h (Line.kind_eq_plain_iff.1 hkind).2.2⟩
  | blank =>
    have hblank := Line.isBlankText_of_kind hkind
    rw [Line.whole_raw] at hblank
    rw [step_of_blank hout (by rw [hread, hkind]), closeTag_of_prose hmode,
      trimEnd_eq_nil_iff.2 hblank]
    refine ⟨by rw [addBlank_mode, hmode], ?_, by rw [addBlank_tags, h.recorded],
      by rw [addBlank_opening?, h.opening], by rw [addBlank_examples, h.examples]⟩
    rw [addBlank_prose, h.prose, collapse_concat]
    simp
  | fence opening =>
    rw [Line.kind_eq_fence_iff, Line.whole_rest, hl.noFence] at hkind
    cases hkind
  | tag name value =>
    have htag := Line.kind_eq_tag_iff.1 hkind
    rw [Line.whole_rest] at htag
    have hkey : TagKey.ofName? name = none := by
      rw [knownTag?, htag] at hknown
      exact Option.map_eq_none_iff.1 hknown
    have hblank : isBlankText l = false := by
      by_contra hb
      rw [Bool.not_eq_false, ← trim_eq_nil_iff] at hb
      rw [hb] at htag
      cases htag
    rw [step_of_unknownTag hout (by rw [hread, hkind]) hkey, closeTag_of_prose hmode]
    exact ⟨hmode, hadd ⟨h.prose, h.recorded, h.opening, h.examples⟩ hblank⟩

/-- **A group**: after the tag and the lines that go on with it are read, closing the tag records
the group, or shows the tag where there is no value. -/
theorem HasRead.run_group (h : s.HasRead shown tags) (hmode : s.mode = .prose) {l own : Text}
    {key : TagKey} {more : List Text} (hl : PlainText l) (hknown : knownTag? l = some (key, own))
    (hplain : ∀ m ∈ more, PlainText m) (hmore : ∀ m ∈ more, continues m = true) {p : Part}
    (hp : p = if groupValue own more = [] then .line l else .group key (groupValue own more)) :
    (s.run (l :: more)).Outside ∧ (s.run (l :: more)).closeTag.HasRead
      (shown ++ p.shown?.toList) (p.record tags) := by
  obtain ⟨name, htag, hkey⟩ := exists_name_of_knownTag? hknown
  have hstep : s.step l = { s with mode := .tag ⟨key, own, [], [trimEnd l]⟩ } := by
    have hkind : (s.reading l).kind = .tag name own := by
      rw [hl.reading, Line.kind_eq_tag_iff, Line.whole_rest, htag]
    rw [step_of_tag (outside_of_prose hmode) hkind hkey, closeTag_of_prose hmode, hl.reading,
      Line.whole_directives]
  have hrun := run_continued (s := s.step l) (t := ⟨key, own, [], [trimEnd l]⟩) (by rw [hstep])
    fun m hm => (hplain m hm).kind_eq_plain_iff.2 (hmore m hm)
  rw [hstep] at hrun
  rw [run_cons, hstep, hrun]
  refine ⟨outside_of_tag rfl, ?_⟩
  by_cases hnil : groupValue own more = []
  · have hblank := trim_eq_nil_iff.1 hnil
    rw [closeTag_of_blank rfl hblank, hp, if_pos hnil]
    obtain ⟨-, rfl⟩ := (groupValue_eq_nil_iff hmore).1 hnil
    refine ⟨?_, h.recorded, h.opening, h.examples⟩
    have hne : trimEnd l ≠ [] := fun heq => by
      rw [← trim_trimEnd, heq] at htag
      cases htag
    rw [Part.shown?, Option.toList_some, collapse_concat, if_neg (fun hboth => hne hboth.2)]
    exact congrArg (· ++ [trimEnd l]) h.prose
  · have hblank : isBlankText (joinWith [' '] (own :: more.map trim)) = false := by
      rw [← Bool.not_eq_true, ← trim_eq_nil_iff]
      exact hnil
    have hfree : DirectiveFree (joinWith [' '] (own :: more.map trim)) := by
      refine directiveFree_of_not_infix (not_infix_joinWith fun q hq hwithin => ?_)
      rcases List.mem_cons.1 hq with rfl | hq
      · have hvalue := hwithin.trans (value_infix_of_blockTag? htag)
        exact hl.noDirective (hvalue.trans (trim_isInfix l))
      · obtain ⟨m, hm, rfl⟩ := List.mem_map.1 hq
        exact (hplain m hm).noDirective (hwithin.trans (trim_isInfix m))
    rw [closeTag_of_value rfl hblank, hp, if_neg hnil]
    refine ⟨?_, ?_, h.opening, h.examples⟩
    · rw [Part.shown?, Option.toList_none, List.append_nil]
      exact h.prose
    · show record s.tags key (joinWith [' '] (own :: more.map trim)) = _
      rw [h.recorded, record_of_free hfree]
      rfl

/-- **Reading line by line comes to the parts.** -/
theorem HasRead.finish_run {ls : List Text} (hls : ∀ l ∈ ls, PlainText l)
    (h : s.HasRead shown tags) (hmode : s.mode = .prose) :
    (s.run ls).finish.HasRead (shown ++ (readGroups ls).filterMap Part.shown?)
      ((readGroups ls).foldl Part.record tags) := by
  induction ls using readGroups.induct generalizing s shown tags with
  | case1 =>
    rw [run_nil, finish_of_outside (outside_of_prose hmode), closeTag_of_prose hmode,
      readGroups_nil, List.filterMap_nil, List.append_nil]
    exact h
  | case2 l ls key own hknown ih =>
    have hplain : ∀ m ∈ ls.takeWhile continues, PlainText m := fun m hm =>
      hls m (List.mem_cons_of_mem _ ((List.takeWhile_prefix _).subset hm))
    have hrest : ∀ m ∈ ls.dropWhile continues, PlainText m := fun m hm =>
      hls m (List.mem_cons_of_mem _ ((List.dropWhile_suffix _).subset hm))
    obtain ⟨hout, hread⟩ := h.run_group hmode (hls l (List.mem_cons_self ..)) hknown hplain
      (fun m hm => List.mem_takeWhile_imp hm) rfl
    have hmode' := closeTag_mode hout
    have hfinish := ih hrest hread hmode'
    -- the line after the group does not go on with it
    have hsplit : s.run (l :: ls) =
        (s.run (l :: ls.takeWhile continues)).run (ls.dropWhile continues) := by
      rw [← run_append, List.cons_append, List.takeWhile_append_dropWhile]
    have hend : ∀ m ∈ (ls.dropWhile continues).head?, PlainText m ∧ continues m = false := by
      intro m hm
      refine ⟨hrest m (List.mem_of_mem_head? hm), ?_⟩
      have hhead := List.head?_dropWhile_not continues ls
      rw [Option.mem_def.1 hm] at hhead
      simpa using hhead
    rw [hsplit, ← finish_run_closeTag hout hend, readGroups_cons_group hknown,
      filterMap_shown_cons, ← List.append_assoc]
    exact hfinish
  | case3 l ls hknown ih =>
    obtain ⟨hmode', hread⟩ := h.step_line hmode (hls l (List.mem_cons_self ..)) hknown
    have hfinish := ih (fun m hm => hls m (List.mem_cons_of_mem _ hm)) hread hmode'
    rw [readGroups_cons_line hknown, run_cons]
    rwa [List.append_assoc, List.singleton_append] at hfinish

end Scan

/-! ## The whole text -/

/-- A line that opens a code block begins with three backticks or three tildes. -/
theorem replicate_isPrefix_of_fenceOpening? {s : Text} {opening : FenceOpening}
    (h : fenceOpening? s = some opening) :
    List.replicate 3 backtick <+: s ∨ List.replicate 3 '~' <+: s := by
  obtain ⟨hmarker, hwide, hrun⟩ := markers_of_fenceOpening? h
  have hthree : List.replicate 3 opening.marker <+: s :=
    (List.prefix_replicate_iff.2 ⟨by simpa using hwide, by simp⟩).trans hrun
  rw [isFenceMarker, Bool.or_eq_true, beq_iff_eq, beq_iff_eq] at hmarker
  rcases hmarker with hmarker | hmarker
  · exact .inl (hmarker ▸ hthree)
  · exact .inr (hmarker ▸ hthree)

/-- **Tags are read in groups**: in a text without directives and code blocks, reading line by line
shows the lines that belong to no group and records the groups in order. -/
theorem extract_eq_groups {t : Text} (hdirective : ¬directiveOpening <:+: t)
    (hfence : ∀ l ∈ lines t, ¬List.replicate 3 backtick <+: trim l ∧
      ¬List.replicate 3 '~' <+: trim l) :
    (extract t).description = ⟨groupsText (readGroups (contentLines t)), [], []⟩ ∧
      (extract t).tags = groupsTags (readGroups (contentLines t)) := by
  have hplain : ∀ l ∈ contentLines t, PlainText l := by
    intro l hl
    obtain ⟨k, hk, htrim, hwithin⟩ := exists_of_mem_contentLines hl
    refine ⟨fun hopening => hdirective ((hopening.trans hwithin).trans (infix_of_mem_lines hk)), ?_⟩
    cases hopening : fenceOpening? (trim l) with
    | none => rfl
    | some opening =>
      rw [htrim] at hopening
      rcases replicate_isPrefix_of_fenceOpening? hopening with hbacktick | htilde
      · exact absurd hbacktick (hfence k hk).1
      · exact absurd htilde (hfence k hk).2
  have hstart : Scan.start.HasRead [] .empty := ⟨rfl, rfl, rfl, rfl⟩
  have hfinish := hstart.finish_run hplain rfl
  rw [extract]
  refine ⟨?_, hfinish.recorded⟩
  dsimp only
  rw [Scan.description, hfinish.opening, hfinish.examples, hfinish.prose]
  rfl

/-- Groups of two lines and of one, a tag of another name and one without a value, and a broken
directive. -/
theorem extract_groups_of_tags :
    let t := "  Text.\n\n\n  @default\n    1\n    2\n  @other a\n  b {@plat x}\r\n".toList ++
      "  @platform ios,\n  IOS web\n\n  @type".toList
    (extract t).description = ⟨groupsText (readGroups (contentLines t)), [], []⟩ ∧
      (extract t).tags = groupsTags (readGroups (contentLines t)) ∧
      groupsText (readGroups (contentLines t)) =
        "Text.\n\n@other a\nb {@plat x}\n\n@type".toList ∧
      groupsTags (readGroups (contentLines t)) =
        ⟨["ios".toList, "web".toList], [⟨"1 2".toList, []⟩], []⟩ := by
  intro t
  obtain ⟨hdescription, htags⟩ := extract_eq_groups (t := t) (by decide +kernel) (by decide +kernel)
  exact ⟨hdescription, htags, by decide +kernel, by decide +kernel⟩

end ComponentPages
