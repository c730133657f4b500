import ComponentPages.Proofs.Tidy

/-!
# Reading what is shown

What is shown of a text is a text, and may be read in its turn. This finds nothing new where it is
the text of a settled description, and only there.

- **`Stable`** — what is shown of the text is shown of itself, and names no tag.
- **`keepsLines_of_untagged`** — where no tag is found, no line shows markup.
- **`noReturn_of_count`** — where no carriage return is lost, none stands at the end of a line.
- **`stable_of_no_directive`** — ordinary texts are stable.
- **`stable_iff`** — the texts for which this holds.
-/

namespace ComponentPages

/-- What is shown of the text is shown of itself, and no tag is found in it. -/
def Stable (t : Text) : Prop :=
  (extract (extract t).cleanText).cleanText = (extract t).cleanText ∧
    (extract (extract t).cleanText).tags = .empty

instance (t : Text) : Decidable (Stable t) := inferInstanceAs (Decidable (_ ∧ _))

/-! ## Texts without tags -/

namespace Scan

variable {s : Scan} {l : Text}

/-- A line without directives shows no markup. -/
theorem keepsLine_of_free (hfree : s.ReadsProse l → DirectiveFree (trimEnd l))
    (hret : l.getLast? ≠ some '\r') : s.KeepsLine l := by
  -- such a line is read and shown as it stands
  have hwhole (h : s.ReadsProse l) : s.reading l = Line.whole l := by
    unfold reading
    split
    · rfl
    · exact Line.ofText_eq_whole ((hfree h).of_isSuffix (trim_suffix_trimEnd l)).directiveAt?
  have hshown (h : s.ReadsProse l) : shownLine l = trimEnd l := by
    rw [shownLine, stripDirectives_of_free (hfree h), trimEnd_trimEnd]
  refine ⟨fun h => .inr ?_, fun h t hmode => ?_, fun f _ _ => hret⟩
  · have hline := hwhole h
    have hclean := hfree h
    rw [hshown h]
    rcases h.2 with ⟨-, hkind⟩ | ⟨name, value, hkind, hkey⟩
    · rw [hline, Line.kind_eq_plain_iff, Line.whole_rest, Line.whole_raw] at hkind
      obtain ⟨hfence, htag, hblank⟩ := hkind
      refine ⟨trimEnd_trimEnd l, fun hnil => ?_, hclean, ?_, fun name value hb => ?_⟩
      · rw [trimEnd_eq_nil_iff.1 hnil] at hblank
        cases hblank
      · rw [trim_trimEnd, hfence]
      · rw [trim_trimEnd, htag] at hb
        cases hb
    · rw [hline, Line.kind_eq_tag_iff, Line.whole_rest] at hkind
      refine ⟨trimEnd_trimEnd l, fun hnil => ?_, hclean, ?_, fun name' value' hb => ?_⟩
      · rw [← trim_trimEnd, hnil] at hkind
        cases hkind
      · rw [trim_trimEnd, fenceOpening?_of_blockTag? hkind]
      · rw [trim_trimEnd, hkind] at hb
        cases hb
        exact hkey
  · rw [hshown h]
    rcases h.2 with ⟨hprose, -⟩ | ⟨name, value, hkind, -⟩
    · rw [hprose] at hmode
      cases hmode
    · rw [reading_of_tag hmode, Line.kind_eq_tag_iff, Line.whole_rest] at hkind
      exact ⟨(name, value), by rw [trim_trimEnd, hkind]⟩

/-- A line of prose names the platforms of its directives. -/
theorem step_tags_of_readsProse (h : s.ReadsProse l) :
    (s.step l).tags = s.closeTag.tags.addPlatforms (stripDirectives (trimEnd l)).2 := by
  obtain ⟨hout, ⟨hmode, hkind⟩ | ⟨name, value, hkind, hkey⟩⟩ := h
  · rw [reading_of_prose hmode] at hkind
    rw [step_of_plain hmode hkind, addProse_tags, closeTag_of_prose hmode]
  · rw [step_of_unknownTag hout hkind hkey, addProse_tags]

/-- A line of prose after which there are still no tags has no directive. -/
theorem directiveFree_of_readsProse (h : s.ReadsProse l) (htags : (s.step l).tags = .empty) :
    DirectiveFree (trimEnd l) := by
  rw [step_tags_of_readsProse h] at htags
  apply directiveFree_of_ids_eq_nil
  by_contra hne
  obtain ⟨id, ids, hids⟩ := List.exists_cons_of_ne_nil hne
  obtain ⟨list, hlist⟩ := exists_mem_splitIds_of_mem_ids (hids ▸ List.mem_cons_self ..)
  rw [hids] at htags
  refine TagSet.addPlatforms_ne_empty _ ?_ ids htags
  rw [trim_of_mem_splitIds hlist]
  exact (mem_splitIds hlist).1

/-- **Where no tag is found, no line shows markup.** -/
theorem keepsLines_of_untagged {ls : List Text} (htags : (s.run ls).tags = .empty)
    (hret : ∀ l ∈ ls, l.getLast? ≠ some '\r') : s.KeepsLines ls := by
  induction ls generalizing s with
  | nil => exact s.keepsLines_nil
  | cons l ls ih =>
    -- what is recorded stays, so nothing was recorded on the way
    have hstep : (s.step l).tags = .empty := by
      have hextends := extends_run (s.step l) ls
      rw [run_cons] at htags
      rw [htags] at hextends
      exact hextends.eq_empty
    have hfirst : s.KeepsLine l := keepsLine_of_free
      (fun h => directiveFree_of_readsProse h hstep) (hret l (List.mem_cons_self ..))
    exact keepsLines_cons_iff.2 ⟨hfirst, ih htags fun m hm => hret m (List.mem_cons_of_mem _ hm)⟩

end Scan

/-! ## Carriage returns -/

/-- Making line ends uniform only drops characters. -/
theorem unixLines_sublist (s : Text) : (unixLines s).Sublist s := by
  fun_induction unixLines s with
  | case1 rest ih => exact (ih.cons_cons '\n').cons '\r'
  | case2 c rest hpair ih => exact ih.cons_cons c
  | case3 => exact List.Sublist.refl _

/-- A carriage return that a line feed follows is lost. -/
theorem count_unixLines_lt {s : Text} (h : ['\r', '\n'] <:+: s) :
    (unixLines s).count '\r' < s.count '\r' := by
  fun_induction unixLines s with
  | case1 rest ih =>
    have hle := (unixLines_sublist rest).count_le '\r'
    rw [List.count_cons_self, List.count_cons_of_ne (by decide),
      List.count_cons_of_ne (by decide)]
    omega
  | case2 c rest hpair ih =>
    rcases List.infix_cons_iff.1 h with hfirst | hrest
    · obtain ⟨more, hmore⟩ := hfirst
      obtain ⟨rfl, rfl⟩ := List.cons.inj hmore
      exact absurd rfl (hpair more rfl)
    · have hlt := ih hrest
      rw [List.count_cons, List.count_cons]
      omega
  | case3 => cases List.infix_nil.1 h

/-- **Where no carriage return is lost**, no line of a trimmed text ends in one. -/
theorem noReturn_of_count {s : Text} (htrim : trim s = s)
    (hcount : s.count '\r' ≤ (unixLines s).count '\r') :
    ∀ l ∈ lines s, l.getLast? ≠ some '\r' := by
  intro l hl hret
  obtain ⟨before, after, hlines⟩ := List.append_of_mem hl
  obtain ⟨init, rfl⟩ := List.getLast?_eq_some_iff.1 hret
  have hs : s = joinLines (before ++ (init ++ ['\r']) :: after) := by
    rw [← hlines, joinLines_lines]
  have hjoin (tail : Text) (htail : joinLines ((init ++ ['\r']) :: after) = init ++ '\r' :: tail) :
      ∃ front, s = front ++ '\r' :: tail := by
    by_cases hbefore : before = []
    · rw [hbefore, List.nil_append, htail] at hs
      exact ⟨init, hs⟩
    · rw [joinLines_append hbefore (by simp), htail] at hs
      exact ⟨joinLines before ++ '\n' :: init, by rw [hs, List.append_assoc, List.cons_append]⟩
  by_cases hafter : after = []
  · -- the text would end in a blank
    obtain ⟨front, hfront⟩ := hjoin [] (by rw [hafter, joinLines_singleton])
    have hlast : s.getLast? = some '\r' := by rw [hfront, List.getLast?_concat]
    cases isBlank_getLast_of_trimEnd (trim_eq_self_iff.1 htrim).2 hlast
  · -- a carriage return would be lost
    obtain ⟨front, hfront⟩ := hjoin ('\n' :: joinLines after)
      (by rw [joinLines_cons _ hafter, List.append_assoc, List.singleton_append])
    have hpair : ['\r', '\n'] <:+: s := ⟨front, joinLines after, by rw [hfront]; simp⟩
    have hlt := count_unixLines_lt hpair
    omega

/-! ## The texts that are stable -/

/-- A text that is shown as it is, and in which no tag is found, leaves no markup. -/
theorem leavesNoMarkup_of_shown {c : Text} (hclean : (extract c).cleanText = c)
    (htags : (extract c).tags = .empty) : LeavesNoMarkup c := by
  have htrim : trim c = c := by rw [← hclean, trim_cleanText]
  have hcount := count_cleanText_le (c := '\r') (by decide) c
  rw [hclean] at hcount
  have hret := noReturn_of_count htrim hcount
  refine Scan.keepsLines_of_untagged ?_ fun l hl => ?_
  · have hextends := Scan.extends_closeTag (Scan.start.run (contentLines c))
    rw [← Scan.finish_tags, show (Scan.start.run (contentLines c)).finish.tags = .empty from htags]
      at hextends
    exact hextends.eq_empty
  · rw [contentLines_of_trim htrim, unixLineList_eq_self hret, List.mem_map] at hl
    obtain ⟨m, hm, rfl⟩ := hl
    rw [outdentLine_zero]
    split
    · simp
    · exact hret m hm

/-- A text is stable where what is shown of it is the text of a settled description. -/
theorem stable_of_settled {t : Text} {d : Description} (hd : d.Settled)
    (hjoined : d.joined = (extract t).cleanText) : Stable t := by
  obtain ⟨hdescription, htags⟩ := hd.extract_joined
  rw [Stable, ← hjoined]
  exact ⟨congrArg Description.joined hdescription, htags⟩

/-- A text is stable where no line shows markup that it did not have. -/
theorem stable_of_leavesNoMarkup {t : Text} (h : LeavesNoMarkup t) : Stable t :=
  stable_of_settled (settled_of_leavesNoMarkup h) rfl

/-- **A text without directives and carriage returns is stable**, whatever its tags and code blocks
are. -/
theorem stable_of_no_directive {t : Text} (hdirective : ¬directiveOpening <:+: t)
    (hret : '\r' ∉ t) : Stable t := by
  refine stable_of_leavesNoMarkup fun before l after hlines => ?_
  obtain ⟨k, hk, -, hwithin⟩ := exists_of_mem_contentLines (t := t) (l := l) (by simp [hlines])
  have hline : l <:+: t := hwithin.trans (infix_of_mem_lines hk)
  refine Scan.keepsLine_of_free (fun _ => directiveFree_of_not_infix fun hopening => ?_) ?_
  · exact hdirective ((hopening.trans (trimEnd_isPrefix l).isInfix).trans hline)
  · exact fun hlast => hret (hline.subset (List.mem_of_getLast? hlast))

/-- **The texts that are stable**: what is shown of them is the text of a settled description. So it
is where no line shows markup that it did not have. -/
theorem stable_iff (t : Text) :
    (Stable t ↔ ∃ d : Description, d.Settled ∧ d.joined = (extract t).cleanText) ∧
      (LeavesNoMarkup t → Stable t) := by
  refine ⟨⟨?_, ?_⟩, stable_of_leavesNoMarkup⟩
  · rintro ⟨hclean, htags⟩
    have hmarkup := leavesNoMarkup_of_shown hclean htags
    exact ⟨(extract (extract t).cleanText).description, settled_of_leavesNoMarkup hmarkup, hclean⟩
  · rintro ⟨d, hd, hjoined⟩
    exact stable_of_settled hd hjoined

/-- A directive that is taken out of the name of a tag leaves another name. -/
theorem not_stable_directive_in_name : ¬Stable "@type{@platform tv} x".toList := by
  decide +kernel

/-- A carriage return at the end of a line of code is shown, and is lost when it is read again. -/
theorem not_stable_return_in_code : ¬Stable "```\na\r\r\n```".toList := by
  decide +kernel

end ComponentPages
