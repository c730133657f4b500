import ComponentPages.Proofs.Shown

/-!
# Texts that show no markup

Taking a directive out of a line of prose puts the two sides of it together, and what comes of that
may be a directive, a code fence or a tag that the text did not have. Where no line does so, what a
scan has found is settled at every line, and so is the description at the end.

- **`shownLine`** — what is shown of a line of prose.
- **`Scan.KeepsLine`**, **`LeavesNoMarkup`** — a line, and a text, that show no markup.
- **`settledProse_proseText`**, **`settledEnd_proseText`** — settled lines put together.
- **`Scan.Tidy`**, **`Scan.Tidy.step`**, **`Scan.Tidy.run`** — the invariant.
- **`settled_of_leavesNoMarkup`** — the description of such a text is settled.
-/

namespace ComponentPages

/-! ## Lines that show no markup -/

/-- What is shown of a line of prose: nothing, where the line holds only directives. -/
def shownLine (l : Text) : Text := trimEnd (stripDirectives (trimEnd l)).1

/-- The line is read as prose: it is plain and no tag is open, or it is a tag of another name. -/
def Scan.ReadsProse (s : Scan) (l : Text) : Prop :=
  s.Outside ∧ ((s.mode = .prose ∧ (s.reading l).kind = .plain) ∨
    ∃ name value, (s.reading l).kind = .tag name value ∧ TagKey.ofName? name = none)

/-- The line shows no markup that it did not have: what is shown of prose is prose, a tag of another
name that ends the value of an open one is still a tag, and code does not end in a carriage
return. -/
structure Scan.KeepsLine (s : Scan) (l : Text) : Prop where
  prose : s.ReadsProse l → shownLine l = [] ∨ ProseLine (shownLine l)
  tag : s.ReadsProse l → ∀ t, s.mode = .tag t → IsTagLine (shownLine l)
  code : ∀ f, s.mode = .fence f → f.opening.closedBy l = false → l.getLast? ≠ some '\r'

/-- None of the lines shows markup where it is read after the lines before it. -/
def Scan.KeepsLines (s : Scan) (ls : List Text) : Prop :=
  ∀ before l after, ls = before ++ l :: after → (s.run before).KeepsLine l

/-- **No line of the text shows markup** that it did not have. -/
def LeavesNoMarkup (t : Text) : Prop := Scan.start.KeepsLines (contentLines t)

theorem Scan.keepsLines_nil (s : Scan) : s.KeepsLines [] := fun before l after h => by
  cases before <;> cases h

/-- No line shows markup where the first shows none, and neither do the others after it. -/
theorem Scan.keepsLines_cons_iff {s : Scan} {l : Text} {ls : List Text} :
    s.KeepsLines (l :: ls) ↔ s.KeepsLine l ∧ (s.step l).KeepsLines ls := by
  constructor
  · exact fun h => ⟨h [] l ls rfl, fun before m after hls =>
      h (l :: before) m after (by rw [hls, List.cons_append])⟩
  · rintro ⟨hfirst, hrest⟩ before m after hls
    cases before with
    | nil =>
      obtain ⟨rfl, -⟩ := List.cons.inj hls
      exact hfirst
    | cons k before =>
      obtain ⟨rfl, htail⟩ := List.cons.inj hls
      exact hrest before m after htail

/-! ## Lines of the prose -/

namespace Scan

variable {P : Text → Prop} {s : Scan}

/-- What holds of the prose and of what is shown of a line holds of the prose with the line. -/
theorem forall_mem_addProse (h : ∀ m ∈ s.prose, P m) {l : Text} (hl : P (shownLine l)) :
    ∀ m ∈ (s.addProse l).prose, P m := by
  intro m hm
  rw [addProse_prose] at hm
  split at hm
  · exact h m hm
  · rcases List.mem_append.1 hm with hm | hm
    · exact h m hm
    · rw [List.mem_singleton.1 hm]
      exact hl

/-- What holds of the prose and of the empty line holds of the prose with a blank line. -/
theorem forall_mem_addBlank (h : ∀ m ∈ s.prose, P m) (hnil : P []) :
    ∀ m ∈ s.addBlank.prose, P m := by
  intro m hm
  rw [addBlank_prose] at hm
  split at hm
  · exact h m hm
  · rcases List.mem_append.1 hm with hm | hm
    · exact h m hm
    · rw [List.mem_singleton.1 hm]
      exact hnil

/-- What holds of the prose and of the lines of the open tag holds of the prose when the tag is
closed. -/
theorem forall_mem_closeTag (h : ∀ m ∈ s.prose, P m)
    (htag : ∀ t, s.mode = .tag t → ∀ m ∈ t.rawLines, P m) : ∀ m ∈ s.closeTag.prose, P m := by
  intro m hm
  unfold closeTag at hm
  split at hm
  · next t hmode =>
    split at hm
    · exact (List.mem_append.1 hm).elim (h m) (htag t hmode m)
    · exact h m hm
  · exact h m hm

end Scan

/-! ## Trimming lines that are put together -/

/-- What holds of lines holds of the lines of their text without the blanks in front, where it is
kept when the first line is trimmed or left out as blank. -/
theorem lines_trimStart_joinLines {P : List Text → Prop} {ls : List Text} (hne : ls ≠ [])
    (hnl : ∀ l ∈ ls, '\n' ∉ l) (hls : P ls) (first : ∀ l ms, P (l :: ms) → P (trimStart l :: ms))
    (dropFirst : ∀ l ms, isBlankText l = true → P (l :: ms) → P ms) :
    P (lines (trimStart (joinLines ls))) := by
  induction ls with
  | nil => exact absurd rfl hne
  | cons l ls ih =>
    have hl : '\n' ∉ trimStart l := fun hmem =>
      hnl l (List.mem_cons_self ..) ((trimStart_suffix l).subset hmem)
    have hrest : ∀ m ∈ ls, '\n' ∉ m := fun m hm => hnl m (List.mem_cons_of_mem _ hm)
    by_cases hlsnil : ls = []
    · rw [hlsnil] at hls ⊢
      rw [joinLines_singleton, lines, splitOn_of_not_mem hl]
      exact first l [] hls
    · rw [joinLines_cons l hlsnil]
      cases hblank : isBlankText l with
      | true =>
        have hskip : trimStart (l ++ '\n' :: joinLines ls) = trimStart (joinLines ls) := by
          rw [trimStart_append_of_blank hblank, ← List.singleton_append,
            trimStart_append_of_blank (by rfl)]
        rw [hskip]
        exact ih hlsnil hrest (dropFirst l ls hblank hls)
      | false =>
        rw [trimStart_append hblank, ← joinLines_cons _ hlsnil, lines_joinLines (by simp)]
        · exact first l ls hls
        · intro m hm
          rcases List.mem_cons.1 hm with rfl | hm
          · exact hl
          · exact hrest m hm

/-- What holds of lines holds of the lines of their text without the blanks at the end, where it is
kept when the last line is trimmed or left out as blank. -/
theorem lines_trimEnd_joinLines {P : List Text → Prop} {ls : List Text} (hne : ls ≠ [])
    (hnl : ∀ l ∈ ls, '\n' ∉ l) (hls : P ls)
    (last : ∀ ms l, P (ms ++ [l]) → P (ms ++ [trimEnd l]))
    (dropLast : ∀ ms l, isBlankText l = true → P (ms ++ [l]) → P ms) :
    P (lines (trimEnd (joinLines ls))) := by
  induction ls using List.reverseRecOn with
  | nil => exact absurd rfl hne
  | append_singleton ls l ih =>
    have hl : '\n' ∉ trimEnd l := fun hmem =>
      hnl l (by simp) ((trimEnd_isPrefix l).subset hmem)
    have hrest : ∀ m ∈ ls, '\n' ∉ m := fun m hm => hnl m (List.mem_append_left _ hm)
    by_cases hlsnil : ls = []
    · rw [hlsnil] at hls ⊢
      rw [List.nil_append, joinLines_singleton, lines, splitOn_of_not_mem hl]
      exact last [] l hls
    · rw [joinLines_append hlsnil (by simp), joinLines_singleton]
      cases hblank : isBlankText l with
      | true =>
        have hskip : trimEnd (joinLines ls ++ '\n' :: l) = trimEnd (joinLines ls) :=
          trimEnd_append_of_blank _ (by rw [isBlankText_cons, hblank]; rfl)
        rw [hskip]
        exact ih hlsnil hrest (dropLast ls l hblank hls)
      | false =>
        have hjoin : joinLines ls ++ '\n' :: trimEnd l = joinLines (ls ++ [trimEnd l]) := by
          rw [joinLines_append hlsnil (by simp), joinLines_singleton]
        rw [trimEnd_append_cons _ _ hblank, hjoin, lines_joinLines (by simp)]
        · exact last ls l hls
        · intro m hm
          rcases List.mem_append.1 hm with hm | hm
          · exact hrest m hm
          · rw [List.mem_singleton.1 hm]; exact hl

/-- What holds of lines holds of the lines of their text without the blanks at both ends. -/
theorem lines_proseText {P : List Text → Prop} {ls : List Text} (hne : ls ≠ [])
    (hnl : ∀ l ∈ ls, '\n' ∉ l) (hls : P ls) (first : ∀ l ms, P (l :: ms) → P (trimStart l :: ms))
    (dropFirst : ∀ l ms, isBlankText l = true → P (l :: ms) → P ms)
    (last : ∀ ms l, P (ms ++ [l]) → P (ms ++ [trimEnd l]))
    (dropLast : ∀ ms l, isBlankText l = true → P (ms ++ [l]) → P ms) :
    P (lines (Scan.proseText ls)) := by
  have hstart := lines_trimStart_joinLines hne hnl hls first dropFirst
  rw [Scan.proseText, trim, ← joinLines_lines (trimStart (joinLines ls))]
  exact lines_trimEnd_joinLines (lines_ne_nil _) (fun l hl => newline_not_mem_of_mem_lines hl)
    hstart last dropLast

/-! ## Settled lines that are put together -/

/-- A line of prose is one without the blanks in front of it. -/
theorem ProseLine.trimStart {l : Text} (h : ProseLine l) : ProseLine (trimStart l) := by
  have htrim : ComponentPages.trimStart l = trim l := by
    rw [trim_eq_trimStart_trimEnd, h.keepsEnd]
  refine ⟨?_, fun hnil => h.ne_nil ?_, h.free.of_isSuffix (trimStart_suffix l), ?_, ?_⟩
  · rw [htrim, trimEnd_trim]
  · rw [trimStart_eq_nil_iff] at hnil
    exact (plainEnd_of_trimEnd h.keepsEnd).notBlank hnil
  · rw [trim_trimStart]; exact h.noFence
  · rw [trim_trimStart]; exact h.noTag

/-- A line is a bare tag exactly where it is one without the blanks in front of it. -/
theorem bareTagLine_trimStart_iff {l : Text} (h : trimEnd l = l) :
    BareTagLine (trimStart l) ↔ BareTagLine l := by
  have hkind : (Line.ofText (trimStart l)).kind = (Line.ofText l).kind :=
    Line.kind_ofText_congr (trim_trimStart l)
  have htrim : trimStart l = trim l := by rw [trim_eq_trimStart_trimEnd, h]
  constructor
  · rintro ⟨-, hisTag⟩
    rw [hkind] at hisTag
    exact ⟨h, hisTag⟩
  · rintro ⟨-, hisTag⟩
    rw [← hkind] at hisTag
    exact ⟨by rw [htrim, trimEnd_trim], hisTag⟩

/-- A line that stays does so without the blanks in front of it. -/
theorem StaysInProse.trimStart {l : Text} (h : StaysInProse l) :
    StaysInProse (trimStart l) := by
  rcases h with rfl | h | h
  · exact .inl rfl
  · exact .inr (.inl h.trimStart)
  · exact .inr (.inr ((bareTagLine_trimStart_iff h.keepsEnd).2 h))

/-- Settled lines stay settled when the first is trimmed. -/
theorem SettledLines.trimStart_head {l : Text} {ls : List Text} (h : SettledLines (l :: ls)) :
    SettledLines (trimStart l :: ls) := by
  have hl := h.stays l (List.mem_cons_self ..)
  obtain ⟨hfirst, hrest⟩ := List.isChain_cons.1 h.follow
  refine ⟨fun m hm => ?_, fun m hm => ?_, List.isChain_cons.2 ⟨fun b hb => ?_, hrest⟩⟩
  · rcases List.mem_cons.1 hm with rfl | hm
    · exact fun hmem => h.oneLine l (List.mem_cons_self ..) ((trimStart_suffix l).subset hmem)
    · exact h.oneLine m (List.mem_cons_of_mem _ hm)
  · rcases List.mem_cons.1 hm with rfl | hm
    · exact hl.trimStart
    · exact h.stays m (List.mem_cons_of_mem _ hm)
  · obtain ⟨hblank, hbare⟩ := hfirst b hb
    refine ⟨fun hnil => hblank ?_, fun hb' => hbare ((bareTagLine_trimStart_iff hl.keepsEnd).1 hb')⟩
    exact hl.plainEnd.notBlank (trimStart_eq_nil_iff.1 hnil)

/-- **Settled lines put together are settled prose.** -/
theorem settledProse_proseText {ls : List Text} (h : SettledLines ls) :
    SettledProse (Scan.proseText ls) := by
  refine ⟨Scan.trim_proseText ls, ?_⟩
  by_cases hne : ls = []
  · rw [hne]
    exact settledLines_singleton_nil
  · refine lines_proseText hne h.oneLine h (fun l ms hms => hms.trimStart_head)
      (fun l ms _ hms => hms.of_cons) (fun ms l hms => ?_) fun ms l _ hms => hms.of_concat
    rwa [(hms.stays l (by simp)).keepsEnd]

/-- A line of code stays one without the blanks at its end. -/
theorem CodeLine.trimEnd {opening : FenceOpening} {l : Text} (h : CodeLine opening l) :
    CodeLine opening (trimEnd l) where
  noNewline hmem := h.noNewline ((trimEnd_isPrefix l).subset hmem)
  noReturn := (plainEnd_of_trimEnd (trimEnd_trimEnd l)).noReturn
  notBlank := (plainEnd_of_trimEnd (trimEnd_trimEnd l)).notBlank
  open_ := by
    have hopen := h.open_
    rwa [FenceOpening.closedBy, ← trim_trimEnd l] at hopen

/-- The lines of a settled end are lines. -/
theorem SettledTail.oneLine {ls : List Text} (h : SettledTail ls) : ∀ l ∈ ls, '\n' ∉ l := by
  rcases h with hls | ⟨prose, opening, first, body, rfl, hprose, hfirst, hbody⟩
  · exact hls.oneLine
  · intro l hl
    rcases List.mem_append.1 hl with hl | hl
    · exact hprose.oneLine l hl
    · rcases List.mem_cons.1 hl with rfl | hl
      · exact hfirst.noNewline
      · exact (hbody l hl).noNewline

/-- A settled end stays settled when its first line is trimmed. -/
theorem SettledTail.trimStart_head {l : Text} {ls : List Text} (h : SettledTail (l :: ls)) :
    SettledTail (trimStart l :: ls) := by
  rcases h with hls | ⟨prose, opening, first, body, hls, hprose, hfirst, hbody⟩
  · exact .inl hls.trimStart_head
  · cases prose with
    | nil =>
      obtain ⟨rfl, rfl⟩ := List.cons.inj hls
      rw [(trim_eq_self_iff.1 hfirst.trimmed).1]
      exact .inr ⟨[], opening, l, ls, rfl, hprose, hfirst, hbody⟩
    | cons m prose =>
      obtain ⟨rfl, rfl⟩ := List.cons.inj hls
      exact .inr ⟨trimStart l :: prose, opening, first, body, rfl, hprose.trimStart_head, hfirst,
        hbody⟩

/-- A settled end stays settled when a blank first line is left out. -/
theorem SettledTail.of_cons {l : Text} {ls : List Text} (h : SettledTail (l :: ls))
    (hblank : isBlankText l = true) : SettledTail ls := by
  rcases h with hls | ⟨prose, opening, first, body, hls, hprose, hfirst, hbody⟩
  · exact .inl hls.of_cons
  · cases prose with
    | nil =>
      obtain ⟨rfl, rfl⟩ := List.cons.inj hls
      rw [hfirst.not_blank] at hblank
      cases hblank
    | cons m prose =>
      obtain ⟨rfl, rfl⟩ := List.cons.inj hls
      exact .inr ⟨prose, opening, first, body, rfl, hprose.of_cons, hfirst, hbody⟩

/-- The last line of a settled end is prose, or it opens a code block, or it is a line of one. -/
theorem SettledTail.concat_cases {l : Text} {ls : List Text} (h : SettledTail (ls ++ [l])) :
    SettledLines (ls ++ [l]) ∨ (∃ opening, SettledLines ls ∧ OpeningLine opening l) ∨
      ∃ prose opening first body, ls = prose ++ first :: body ∧ SettledLines prose ∧
        OpeningLine opening first ∧ (∀ k ∈ body, CodeLine opening k) ∧ CodeLine opening l := by
  rcases h with hls | ⟨prose, opening, first, body, hls, hprose, hfirst, hbody⟩
  · exact .inl hls
  · rcases List.eq_nil_or_concat body with rfl | ⟨body, m, rfl⟩
    · obtain ⟨rfl, hlast⟩ := List.append_inj' hls rfl
      obtain rfl := List.singleton_inj.1 hlast
      exact .inr (.inl ⟨opening, hprose, hfirst⟩)
    · rw [List.concat_eq_append] at hls hbody
      rw [← List.cons_append, ← List.append_assoc] at hls
      obtain ⟨rfl, hlast⟩ := List.append_inj' hls rfl
      obtain rfl := List.singleton_inj.1 hlast
      exact .inr (.inr ⟨prose, opening, first, body, rfl, hprose, hfirst,
        fun k hk => hbody k (List.mem_append_left _ hk), hbody l (by simp)⟩)

/-- A settled end stays settled when its last line is trimmed. -/
theorem SettledTail.trimEnd_last {l : Text} {ls : List Text} (h : SettledTail (ls ++ [l])) :
    SettledTail (ls ++ [trimEnd l]) := by
  rcases h.concat_cases with hls | ⟨opening, hls, hfirst⟩ |
    ⟨prose, opening, first, body, rfl, hprose, hfirst, hbody, hl⟩
  · rw [(hls.stays l (by simp)).keepsEnd]
    exact .inl hls
  · rw [(trim_eq_self_iff.1 hfirst.trimmed).2]
    exact .inr ⟨ls, opening, l, [], rfl, hls, hfirst, by simp⟩
  · refine .inr ⟨prose, opening, first, body ++ [trimEnd l], by simp, hprose, hfirst,
      fun k hk => ?_⟩
    rcases List.mem_append.1 hk with hk | hk
    · exact hbody k hk
    · rw [List.mem_singleton.1 hk]; exact hl.trimEnd

/-- A settled end stays settled when a blank last line is left out. -/
theorem SettledTail.of_concat {l : Text} {ls : List Text} (h : SettledTail (ls ++ [l]))
    (hblank : isBlankText l = true) : SettledTail ls := by
  rcases h.concat_cases with hls | ⟨opening, hls, hfirst⟩ |
    ⟨prose, opening, first, body, rfl, hprose, hfirst, hbody, hl⟩
  · exact .inl hls.of_concat
  · rw [hfirst.not_blank] at hblank
    cases hblank
  · exact .inr ⟨prose, opening, first, body, rfl, hprose, hfirst, hbody⟩

/-- **A settled end that is put together is one.** -/
theorem settledEnd_proseText {ls : List Text} (h : SettledTail ls) :
    SettledEnd (Scan.proseText ls) := by
  refine ⟨Scan.trim_proseText ls, ?_⟩
  by_cases hne : ls = []
  · rw [hne]
    exact .inl settledLines_singleton_nil
  · exact lines_proseText hne h.oneLine h (fun l ms hms => hms.trimStart_head)
      (fun l ms hblank hms => hms.of_cons hblank) (fun ms l hms => hms.trimEnd_last)
      fun ms l hblank hms => hms.of_concat hblank

/-! ## The invariant -/

/-- What is open may be read back: an open tag without a value is one line, which becomes prose, and
an open code block is one that may be left without an end. -/
def Mode.TidyAfter (prose : List Text) : Mode → Prop
  | .prose => ∀ a ∈ prose.getLast?, ¬BareTagLine a
  | .tag t => isBlankText t.value = true →
    ∃ raw, t.rawLines = [raw] ∧ '\n' ∉ raw ∧ BareTagLine raw ∧
      ∀ a ∈ prose.getLast?, BareTagLine a → IsTagLine raw
  | .fence f => OpeningLine f.opening f.firstLine ∧ ∀ l ∈ f.body, CodeLine f.opening l

namespace Scan

/-- All that has been found is settled. -/
structure Tidy (s : Scan) : Prop where
  opening : ∀ text ∈ s.opening?, SettledProse text
  started : s.opening? = none ↔ s.examples = []
  examples : ∀ e ∈ s.examples, SettledExample e
  firstIntro : ∀ e ∈ s.examples.head?, e.intro = []
  prose : SettledLines s.prose
  openPart : s.mode.TidyAfter s.prose

theorem tidy_start : start.Tidy where
  opening text htext := by cases htext
  started := ⟨fun _ => rfl, fun _ => rfl⟩
  examples e he := by cases he
  firstIntro e he := by cases he
  prose := settledLines_nil
  openPart a ha := by cases ha

/-- Outside code blocks the finished parts stay, and only the prose and what is open matter. -/
theorem Tidy.of_parts {s s' : Scan} (h : s.Tidy) (hopening : s'.opening? = s.opening?)
    (hexamples : s'.examples = s.examples) (hprose : SettledLines s'.prose)
    (hopen : s'.mode.TidyAfter s'.prose) : s'.Tidy where
  opening := by rw [hopening]; exact h.opening
  started := by rw [hopening, hexamples]; exact h.started
  examples := by rw [hexamples]; exact h.examples
  firstIntro := by rw [hexamples]; exact h.firstIntro
  prose := hprose
  openPart := hopen

/-- A bare tag may follow what is not empty and no tag that it could be the value of. -/
theorem mayFollow_bareTagLine {a l : Text} (hl : BareTagLine l)
    (h : BareTagLine a → IsTagLine l) : MayFollow a l :=
  ⟨fun _ hnil => not_bareTagLine_nil (hnil ▸ hl), fun ha => .inr (h ha)⟩

/-- Closing a tag leaves the prose settled. -/
theorem Tidy.closeTag_prose {s : Scan} (h : s.Tidy) : SettledLines s.closeTag.prose := by
  cases hmode : s.mode with
  | prose => rw [closeTag_of_prose hmode]; exact h.prose
  | fence f =>
    rw [closeTag_of_ne fun t ht => by rw [hmode] at ht; cases ht]
    exact h.prose
  | tag t =>
    cases hv : isBlankText t.value with
    | false => rw [closeTag_of_value hmode hv]; exact h.prose
    | true =>
      have hopen := h.openPart
      rw [hmode] at hopen
      obtain ⟨raw, hraw, hnl, hbare, hlast⟩ := hopen hv
      rw [closeTag_of_blank hmode hv]
      dsimp only
      rw [hraw]
      exact h.prose.concat hnl (.inr (.inr hbare))
        fun a ha => mayFollow_bareTagLine hbare (hlast a ha)

/-- Where the line before is no bare tag, a line that is not empty may follow. -/
theorem mayFollow_of_not_bareTagLine {a l : Text} (ha : ¬BareTagLine a) (hl : l ≠ []) :
    MayFollow a l :=
  ⟨fun _ => hl, fun hbare => absurd hbare ha⟩

/-- What is shown of a line is a line. -/
theorem newline_not_mem_shownLine {l : Text} (h : '\n' ∉ l) : '\n' ∉ shownLine l := fun hmem =>
  h ((trimEnd_isPrefix l).subset ((stripDirectives_sublist _).subset
    ((trimEnd_isPrefix _).subset hmem)))

/-- The prose after a line: as before where nothing is shown of the line, and else with what is
shown. -/
theorem addProse_prose_cases (s : Scan) {l : Text} (hl : isBlankText l = false) :
    (shownLine l = [] ∧ (s.addProse l).prose = s.prose) ∨
      (shownLine l ≠ [] ∧ (s.addProse l).prose = s.prose ++ [shownLine l]) := by
  rw [addProse_prose]
  by_cases hshown : shownLine l = []
  · refine .inl ⟨hshown, if_pos ?_⟩
    have hblank : isBlankText (stripDirectives (trimEnd l)).1 = true := trimEnd_eq_nil_iff.1 hshown
    rw [hblank, Bool.true_and, Bool.not_eq_true', List.isEmpty_eq_false_iff]
    intro hids
    -- without directives all of the line is shown, and the line is not blank
    have hfree := stripDirectives_of_free (directiveFree_of_ids_eq_nil hids)
    rw [hfree, isBlankText_trimEnd, hl] at hblank
    cases hblank
  · refine .inr ⟨hshown, if_neg ?_⟩
    have hblank : isBlankText (stripDirectives (trimEnd l)).1 = false := by
      rw [← Bool.not_eq_true, ← trimEnd_eq_nil_iff]
      exact hshown
    rw [hblank, Bool.false_and]
    exact Bool.false_ne_true

/-- A line of prose leaves the scan tidy where what is shown of it is prose that may follow. -/
theorem Tidy.addProse {s r : Scan} (h : s.Tidy) (hopening : r.opening? = s.opening?)
    (hexamples : r.examples = s.examples) (hprose : SettledLines r.prose)
    (hmode : r.mode = .prose) {l : Text} (hnl : '\n' ∉ l) (hblank : isBlankText l = false)
    (hshown : shownLine l = [] ∧ (∀ a ∈ r.prose.getLast?, ¬BareTagLine a) ∨
      ProseLine (shownLine l) ∧ ∀ a ∈ r.prose.getLast?, MayFollow a (shownLine l)) :
    (r.addProse l).Tidy := by
  refine h.of_parts hopening hexamples ?_ ?_
  · rcases r.addProse_prose_cases hblank with ⟨-, heq⟩ | ⟨hne, heq⟩
    · rw [heq]; exact hprose
    · rcases hshown with ⟨hnil, -⟩ | ⟨hline, hfollow⟩
      · exact absurd hnil hne
      · rw [heq]
        exact hprose.concat (newline_not_mem_shownLine hnl) (.inr (.inl hline)) hfollow
  · rw [addProse_mode, hmode]
    rcases r.addProse_prose_cases hblank with ⟨hnil, heq⟩ | ⟨hne, heq⟩
    · rcases hshown with ⟨-, hlast⟩ | ⟨hline, -⟩
      · rw [heq]; exact hlast
      · exact absurd hnil hline.ne_nil
    · rcases hshown with ⟨hnil, -⟩ | ⟨hline, -⟩
      · exact absurd hnil hne
      · rw [heq]
        intro a ha
        rw [List.getLast?_concat] at ha
        cases ha
        exact hline.not_bareTagLine

/-- The example that a closed code block becomes is settled. -/
theorem Tidy.exampleOf {s : Scan} (h : s.Tidy) {f : OpenFence} {l : Text}
    (hmode : s.mode = .fence f) (hclose : f.opening.closedBy l = true) :
    SettledExample (s.exampleOf f l) := by
  have hopen := h.openPart
  rw [hmode] at hopen
  obtain ⟨hfirst, hbody⟩ := hopen
  refine ⟨?_, f.opening, f.firstLine, f.body, trim l, hfirst, hbody, trim_trim l, ?_, rfl, rfl,
    rfl⟩
  · dsimp only [Scan.exampleOf]
    split
    · exact settledProse_proseText h.prose
    · exact ⟨rfl, settledLines_singleton_nil⟩
  · rw [FenceOpening.closedBy, trim_trim]
    exact hclose

/-- A tag is opened as one that may be read back. -/
theorem Tidy.openTag {s : Scan} (h : s.Tidy) {l name value : Text} {key : TagKey} {d : Text}
    (hnl : '\n' ∉ l) (hout : s.Outside) (hkind : (s.reading l).kind = .tag name value)
    (hkey : TagKey.ofName? name = some key) :
    (Mode.tag ⟨key, value, d, [trimEnd l]⟩).TidyAfter s.closeTag.prose := by
  intro hv
  have hvalue : value = [] := by
    rw [Line.kind_eq_tag_iff] at hkind
    rw [← trim_value_of_blockTag? hkind]
    exact trim_eq_nil_iff.2 hv
  rw [hvalue] at hkind
  have hofText : (s.reading l).kind = (Line.ofText l).kind := by
    cases hmode : s.mode with
    | prose => rw [reading_of_prose hmode]
    | fence f => exact absurd hmode (hout f)
    | tag t =>
      rw [reading_of_tag hmode] at hkind ⊢
      rw [Line.kind_eq_tag_iff, Line.whole_rest] at hkind
      rw [Line.ofText_eq_whole (directiveAt?_of_blockTag? hkind)]
  have hbare : BareTagLine (trimEnd l) := by
    refine ⟨trimEnd_trimEnd l, name, key, ?_, hkey⟩
    rw [Line.kind_ofText_congr (trim_trimEnd l), ← hofText, hkind]
  refine ⟨trimEnd l, rfl, fun hmem => hnl ((trimEnd_isPrefix l).subset hmem), hbare,
    fun a ha hlast => ?_⟩
  cases hmode : s.mode with
  | prose =>
    -- in the prose the line before is no bare tag
    have hopen := h.openPart
    rw [hmode] at hopen
    rw [closeTag_of_prose hmode] at ha
    exact absurd hlast (hopen a ha)
  | fence f => exact absurd hmode (hout f)
  | tag t =>
    rw [reading_of_tag hmode, Line.kind_eq_tag_iff, Line.whole_rest] at hkind
    exact ⟨(name, []), by rw [trim_trimEnd, hkind]⟩

/-- The parts stay settled when a code block is closed. -/
theorem Tidy.closeFence {s : Scan} (h : s.Tidy) {f : OpenFence} {l : Text}
    (hmode : s.mode = .fence f) (hclose : f.opening.closedBy l = true) :
    Tidy { s with
      prose := []
      opening? := some (s.opening?.getD (proseText s.prose))
      examples := s.examples ++ [s.exampleOf f l]
      mode := .prose } where
  opening text htext := by
    cases htext
    cases hopening : s.opening? with
    | none => exact settledProse_proseText h.prose
    | some text => exact h.opening text hopening
  started := by simp
  examples e he := by
    rcases List.mem_append.1 he with he | he
    · exact h.examples e he
    · rw [List.mem_singleton.1 he]
      exact h.exampleOf hmode hclose
  firstIntro e he := by
    dsimp only at he
    cases hes : s.examples with
    | nil =>
      -- the example is the first, and the prose before it is the text
      rw [hes] at he
      cases he
      rw [Scan.exampleOf, h.started.2 hes]
      rfl
    | cons e' es =>
      rw [hes] at he
      exact h.firstIntro e (by rw [hes]; exact he)
  prose := settledLines_nil
  openPart a ha := by cases ha

/-- A blank line leaves the scan tidy: it ends the open tag, and any line may follow it. -/
theorem Tidy.addBlank {s : Scan} (h : s.Tidy) (hout : s.Outside) : s.closeTag.addBlank.Tidy := by
  have hclosed := h.closeTag_prose
  refine h.of_parts (by simp) (by simp) ?_ ?_
  · rw [addBlank_prose]
    split
    · exact hclosed
    · next hlast =>
      refine hclosed.concat (by simp) (.inl rfl) fun a ha => ⟨fun hnil => ?_, fun _ => .inl rfl⟩
      rw [hnil] at ha
      exact absurd ha hlast
  · rw [addBlank_mode, closeTag_mode hout, addBlank_prose]
    split
    · next hlast =>
      intro a ha
      rw [hlast] at ha
      cases ha
      exact not_bareTagLine_nil
    · intro a ha
      rw [List.getLast?_concat] at ha
      cases ha
      exact not_bareTagLine_nil

/-- A line of prose in the open may be shown as nothing, and else it follows what is no bare tag. -/
theorem Tidy.shown_of_prose {s : Scan} (h : s.Tidy) (hmode : s.mode = .prose) {l : Text}
    (hline : shownLine l = [] ∨ ProseLine (shownLine l)) :
    shownLine l = [] ∧ (∀ a ∈ s.prose.getLast?, ¬BareTagLine a) ∨
      ProseLine (shownLine l) ∧ ∀ a ∈ s.prose.getLast?, MayFollow a (shownLine l) := by
  have hopen := h.openPart
  rw [hmode] at hopen
  rcases hline with hnil | hline
  · exact .inl ⟨hnil, hopen⟩
  · exact .inr ⟨hline, fun a ha => mayFollow_of_not_bareTagLine (hopen a ha) hline.ne_nil⟩

/-- A tag of another name leaves the scan tidy: what is shown of it still ends the open tag. -/
theorem Tidy.addUnknownTag {s : Scan} (h : s.Tidy) {l name value : Text} (hnl : '\n' ∉ l)
    (hblank : isBlankText l = true → l = []) (hkeep : s.KeepsLine l) (hout : s.Outside)
    (hkind : (s.reading l).kind = .tag name value) (hkey : TagKey.ofName? name = none)
    (notices : List Notice) : ({ s.closeTag with notices := notices }.addProse l).Tidy := by
  have hnot : isBlankText l = false := by
    by_contra hb
    rw [hblank (by simpa using hb)] at hkind
    have htag := Line.kind_eq_tag_iff.1 hkind
    have hrest := List.suffix_nil.1 (s.reading_rest_isSuffix [])
    rw [hrest] at htag
    cases htag
  refine h.addProse (r := { s.closeTag with notices := notices }) (closeTag_opening? s)
    (closeTag_examples s) h.closeTag_prose (closeTag_mode hout) hnl hnot ?_
  have hreads : s.ReadsProse l := ⟨hout, .inr ⟨name, value, hkind, hkey⟩⟩
  dsimp only
  cases hmode : s.mode with
  | fence f => exact absurd hmode (hout f)
  | prose =>
    rw [closeTag_of_prose hmode]
    exact h.shown_of_prose hmode (hkeep.prose hreads)
  | tag t =>
    have htag := hkeep.tag hreads t hmode
    rcases hkeep.prose hreads with hnil | hline
    · obtain ⟨found, hfound⟩ := htag
      rw [hnil] at hfound
      cases hfound
    · exact .inr ⟨hline, fun a ha => ⟨fun _ => hline.ne_nil, fun _ => .inr htag⟩⟩

/-- **A line that shows no markup leaves the scan tidy.** -/
theorem Tidy.step {s : Scan} (h : s.Tidy) {l : Text} (hnl : '\n' ∉ l)
    (hblank : isBlankText l = true → l = []) (hkeep : s.KeepsLine l) : (s.step l).Tidy := by
  have hstep := s.step_spec l
  generalize s.step l = s' at hstep ⊢
  cases hstep with
  | code f hmode hopen =>
    refine h.of_parts rfl rfl h.prose ?_
    have htidy := h.openPart
    rw [hmode] at htidy
    refine ⟨htidy.1, fun m hm => ?_⟩
    rcases List.mem_append.1 hm with hm | hm
    · exact htidy.2 m hm
    · rw [List.mem_singleton.1 hm]
      exact ⟨hnl, hkeep.code f hmode hopen, hblank, hopen⟩
  | close f hmode hclose => exact h.closeFence hmode hclose
  | fence opening hout hkind =>
    refine h.of_parts (closeTag_opening? s) (closeTag_examples s) h.closeTag_prose ?_
    exact ⟨openingLine_of_reading hnl hkind, fun m hm => by cases hm⟩
  | tag key name value hout hkind hkey =>
    exact h.of_parts (closeTag_opening? s) (closeTag_examples s) h.closeTag_prose
      (h.openTag hnl hout hkind hkey)
  | unknownTag name value hout hkind hkey =>
    exact h.addUnknownTag hnl hblank hkeep hout hkind hkey _
  | blank hout hkind => exact h.addBlank hout
  | continued t hmode hkind =>
    refine h.of_parts rfl rfl h.prose fun hv => ?_
    have hplain := (Line.kind_eq_plain_iff.1 hkind).2.2
    rw [Line.whole_raw] at hplain
    rw [isBlankText_append, isBlankText_cons, isBlankText_trim, hplain, Bool.and_false,
      Bool.and_false] at hv
    cases hv
  | prose hmode hkind =>
    have hreads : s.ReadsProse l :=
      ⟨outside_of_prose hmode, .inl ⟨hmode, by rw [reading_of_prose hmode, hkind]⟩⟩
    exact h.addProse rfl rfl h.prose hmode hnl (Line.kind_eq_plain_iff.1 hkind).2.2
      (h.shown_of_prose hmode (hkeep.prose hreads))

/-- **Lines that show no markup leave the scan tidy.** -/
theorem Tidy.run {s : Scan} (h : s.Tidy) {ls : List Text} (hnl : ∀ l ∈ ls, '\n' ∉ l)
    (hblank : ∀ l ∈ ls, isBlankText l = true → l = []) (hkeep : s.KeepsLines ls) :
    (s.run ls).Tidy := by
  induction ls generalizing s with
  | nil => exact h
  | cons l ls ih =>
    obtain ⟨hfirst, hrest⟩ := keepsLines_cons_iff.1 hkeep
    have hstep := h.step (hnl l (List.mem_cons_self ..)) (hblank l (List.mem_cons_self ..)) hfirst
    exact ih hstep (fun m hm => hnl m (List.mem_cons_of_mem _ hm))
      (fun m hm => hblank m (List.mem_cons_of_mem _ hm)) hrest

/-- At the end of the text the prose is a settled end. -/
theorem Tidy.finish_prose {s : Scan} (h : s.Tidy) : SettledTail s.finish.prose := by
  rcases s.outside_or_fence with hout | ⟨f, hmode⟩
  · rw [finish_of_outside hout]
    exact .inl h.closeTag_prose
  · have hopen := h.openPart
    rw [hmode] at hopen
    rw [finish_of_fence hmode]
    exact .inr ⟨s.prose, f.opening, f.firstLine, f.body, rfl, h.prose, hopen⟩

/-- **The description that a tidy scan has read is settled.** -/
theorem Tidy.settled_description {s : Scan} (h : s.Tidy) : s.finish.description.Settled := by
  have hend := settledEnd_proseText h.finish_prose
  unfold description
  rw [finish_opening?, finish_examples]
  cases hopening : s.opening? with
  | none =>
    have hes := h.started.1 hopening
    exact ⟨fun _ => ⟨hend, rfl⟩, fun hne => absurd hes hne, h.examples, h.firstIntro⟩
  | some text =>
    have hne : s.examples ≠ [] := fun hes => by
      rw [h.started.2 hes] at hopening
      cases hopening
    exact ⟨fun hes => absurd hes hne, fun _ => ⟨h.opening text hopening, hend⟩, h.examples,
      h.firstIntro⟩

end Scan

/-- **The description of a text that leaves no markup is settled.** -/
theorem settled_of_leavesNoMarkup {t : Text} (h : LeavesNoMarkup t) :
    (extract t).description.Settled :=
  (Scan.tidy_start.run (fun _ hl => newline_not_mem_of_mem_contentLines hl)
    (fun _ hl => eq_nil_of_mem_contentLines hl) h).settled_description

end ComponentPages
