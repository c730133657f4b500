import ComponentPages.Markdown.Page
import ComponentPages.Proofs.Lines

/-!
# Finishing a page

The last pass over a page shortens its runs of line feeds to two. It goes over code as it goes over
prose: where a text stands on the page, the shortened text stands on the finished page.

- **`collapseFrom_append`** — a text whose end is no line feed is shortened on its own.
- **`collapseFrom_append_line`** — a line keeps the texts around it apart.
- **`TightFeeds`**, **`tightFeeds_finishPage`** — a page has no three line feeds in a row.
- **`collapseFrom_eq_self`** — a text without them stays as it is.
- **`infix_finishPage`** — parts of a page and of the finished page.
-/

namespace ComponentPages

/-! ## Runs of line feeds -/

/-- Any other character ends a run of line feeds. -/
theorem collapseFrom_cons_of_ne {c : Char} (hc : c ≠ '\n') (run : Nat) (s : Text) :
    collapseFrom run (c :: s) = c :: collapseFrom 0 s := by
  rw [collapseFrom, if_neg hc]

/-- The first two line feeds of a run stay. -/
theorem collapseFrom_newline_of_lt {run : Nat} (h : run < 2) (s : Text) :
    collapseFrom run ('\n' :: s) = '\n' :: collapseFrom (run + 1) s := by
  rw [collapseFrom, if_pos rfl, if_pos h]

/-- All others of the run are left out. -/
theorem collapseFrom_newline_of_le {run : Nat} (h : 2 ≤ run) (s : Text) :
    collapseFrom run ('\n' :: s) = collapseFrom run s := by
  rw [collapseFrom, if_pos rfl, if_neg (Nat.not_lt.2 h)]

/-- The text before a character that is no line feed and the text after it do not meet. -/
theorem collapseFrom_append_cons {c : Char} (hc : c ≠ '\n') (run : Nat) (s t : Text) :
    collapseFrom run (s ++ c :: t) = collapseFrom run s ++ c :: collapseFrom 0 t := by
  induction s generalizing run with
  | nil => exact collapseFrom_cons_of_ne hc run t
  | cons d s ih =>
    rw [List.cons_append]
    by_cases hd : d = '\n'
    · rw [hd]
      by_cases hrun : run < 2
      · rw [collapseFrom_newline_of_lt hrun, collapseFrom_newline_of_lt hrun, ih,
          List.cons_append]
      · rw [collapseFrom_newline_of_le (Nat.not_lt.1 hrun),
          collapseFrom_newline_of_le (Nat.not_lt.1 hrun), ih]
    · rw [collapseFrom_cons_of_ne hd, collapseFrom_cons_of_ne hd, ih, List.cons_append]

/-- **A text whose end is no line feed** and the text after it are shortened on their own. -/
theorem collapseFrom_append {s : Text} {c : Char} (hlast : s.getLast? = some c) (hc : c ≠ '\n')
    (run : Nat) (t : Text) :
    collapseFrom run (s ++ t) = collapseFrom run s ++ collapseFrom 0 t := by
  obtain ⟨init, rfl⟩ := List.getLast?_eq_some_iff.1 hlast
  rw [List.append_assoc, List.singleton_append, collapseFrom_append_cons hc,
    collapseFrom_append_cons hc, collapseFrom, List.append_assoc, List.singleton_append]

/-- A line is not shortened. -/
theorem collapseFrom_of_not_mem {l : Text} (h : '\n' ∉ l) (run : Nat) : collapseFrom run l = l := by
  induction l generalizing run with
  | nil => rfl
  | cons c l ih =>
    rw [List.mem_cons, not_or] at h
    rw [collapseFrom_cons_of_ne (Ne.symm h.1), ih h.2]

/-- **A line keeps the text before it and the text after it apart.** -/
theorem collapseFrom_append_line {l : Text} (hnl : '\n' ∉ l) (hne : l ≠ []) (run : Nat)
    (s t : Text) :
    collapseFrom run (s ++ (l ++ t)) = collapseFrom run s ++ (l ++ collapseFrom 0 t) := by
  have hlast := List.getLast?_eq_some_getLast hne
  have hlastne : l.getLast hne ≠ '\n' := fun heq => hnl (heq ▸ List.getLast_mem hne)
  have hline : collapseFrom 0 (l ++ t) = l ++ collapseFrom 0 t := by
    rw [collapseFrom_append hlast hlastne, collapseFrom_of_not_mem hnl]
  obtain ⟨c, rest, rfl⟩ := List.exists_cons_of_ne_nil hne
  have hc : c ≠ '\n' := fun heq => hnl (heq ▸ List.mem_cons_self ..)
  rw [List.cons_append, collapseFrom_append_cons hc, ← collapseFrom_cons_of_ne hc 0,
    ← List.cons_append, hline]

/-- A text that ends in a line feed still does, the line feeds before it included. -/
theorem getLast?_collapseFrom_newline (run : Nat) (s : Text) :
    (List.replicate run '\n' ++ collapseFrom run (s ++ ['\n'])).getLast? = some '\n' := by
  induction s generalizing run with
  | nil =>
    rcases Nat.lt_or_ge run 2 with hlt | hge
    · rw [List.nil_append, collapseFrom_newline_of_lt hlt, collapseFrom]
      exact List.getLast?_concat ..
    · obtain ⟨n, rfl⟩ : ∃ n, run = n + 1 := ⟨run - 1, by omega⟩
      rw [List.nil_append, collapseFrom_newline_of_le hge, collapseFrom, List.append_nil,
        List.replicate_succ']
      exact List.getLast?_concat ..
  | cons c s ih =>
    rw [List.cons_append]
    by_cases hc : c = '\n'
    · rw [hc]
      rcases Nat.lt_or_ge run 2 with hlt | hge
      · have hrest := ih (run + 1)
        rwa [List.replicate_succ', List.append_assoc, List.singleton_append,
          ← collapseFrom_newline_of_lt hlt] at hrest
      · rw [collapseFrom_newline_of_le hge]
        exact ih run
    · have hrest := ih 0
      rw [List.replicate_zero, List.nil_append] at hrest
      rw [collapseFrom_cons_of_ne hc, List.getLast?_append, List.getLast?_cons, hrest]
      rfl

/-- No three line feeds in a row. -/
def TightFeeds (s : Text) : Prop := ¬['\n', '\n', '\n'] <:+: s

instance (s : Text) : Decidable (TightFeeds s) := inferInstanceAs (Decidable (¬_))

/-- A part of a text has no more line feeds in a row than the text. -/
theorem TightFeeds.of_isInfix {s t : Text} (h : TightFeeds t) (hs : s <:+: t) : TightFeeds s :=
  fun hfeeds => h (hfeeds.trans hs)

/-- Two line feeds are not three. -/
theorem tightFeeds_replicate {n : Nat} (h : n ≤ 2) : TightFeeds (List.replicate n '\n') := by
  intro hfeeds
  have hlength := hfeeds.length_le
  rw [List.length_replicate] at hlength
  exact absurd (hlength.trans h) (by decide)

/-- A character that is no line feed keeps the runs before and after it apart. -/
theorem TightFeeds.append_cons {c : Char} (hc : c ≠ '\n') {s t : Text} (hs : TightFeeds s)
    (ht : TightFeeds t) : TightFeeds (s ++ c :: t) := fun hfeeds =>
  (infix_append_cons (by simpa using hc) hfeeds).elim hs ht

/-- The line feeds that count as read and those that follow are no more than two. -/
theorem tightFeeds_collapseFrom {run : Nat} (hrun : run ≤ 2) (s : Text) :
    TightFeeds (List.replicate run '\n' ++ collapseFrom run s) := by
  induction s generalizing run with
  | nil =>
    rw [collapseFrom, List.append_nil]
    exact tightFeeds_replicate hrun
  | cons c s ih =>
    by_cases hc : c = '\n'
    · rw [hc]
      rcases Nat.lt_or_ge run 2 with hlt | hge
      · have hrest := ih hlt
        rwa [List.replicate_succ', List.append_assoc, List.singleton_append,
          ← collapseFrom_newline_of_lt hlt] at hrest
      · rw [collapseFrom_newline_of_le hge]
        exact ih hrun
    · rw [collapseFrom_cons_of_ne hc]
      exact (tightFeeds_replicate hrun).append_cons hc (ih (Nat.zero_le 2))

/-- **A text without three line feeds in a row stays as it is.** -/
theorem collapseFrom_eq_self {run : Nat} (hrun : run ≤ 2) {s : Text}
    (h : TightFeeds (List.replicate run '\n' ++ s)) : collapseFrom run s = s := by
  induction s generalizing run with
  | nil => rfl
  | cons c s ih =>
    by_cases hc : c = '\n'
    · rw [hc] at h ⊢
      have hrest : TightFeeds (List.replicate (run + 1) '\n' ++ s) := by
        rwa [List.replicate_succ', List.append_assoc, List.singleton_append]
      rcases Nat.lt_or_ge run 2 with hlt | hge
      · rw [collapseFrom_newline_of_lt hlt, ih hlt hrest]
      · -- a third line feed would follow two
        obtain rfl : run = 2 := Nat.le_antisymm hrun hge
        exact absurd ⟨[], s, rfl⟩ hrest
    · rw [collapseFrom_cons_of_ne hc, ih (Nat.zero_le 2) (h.of_isInfix ?_)]
      exact ((List.suffix_cons c s).trans (List.suffix_append _ _)).isInfix

/-- A text is shortened where there is something to shorten. -/
theorem collapseFrom_eq_self_iff {s : Text} : collapseFrom 0 s = s ↔ TightFeeds s := by
  constructor
  · intro h
    have htight := tightFeeds_collapseFrom (Nat.zero_le 2) s
    rwa [List.replicate_zero, List.nil_append, h] at htight
  · exact fun h => collapseFrom_eq_self (Nat.zero_le 2) h

/-! ## Trimmed parts -/

/-- A character that is not blank is no line feed. -/
theorem ne_newline_of_not_blank {c : Char} (h : isBlank c = false) : c ≠ '\n' := by
  rintro rfl
  cases h

/-- The last character of a trimmed text is not blank. -/
theorem exists_getLast?_of_trimEnd {s : Text} (h : trimEnd s = s) (hne : s ≠ []) :
    ∃ c, s.getLast? = some c ∧ isBlank c = false :=
  ⟨s.getLast hne, List.getLast?_eq_some_getLast hne,
    isBlank_getLast_of_trimEnd h (List.getLast?_eq_some_getLast hne)⟩

/-- A text that ends in a character that is not blank keeps its end. -/
theorem trimEnd_eq_self_of_getLast? {s : Text} {c : Char} (hlast : s.getLast? = some c)
    (hc : isBlank c = false) : trimEnd s = s := by
  obtain ⟨init, rfl⟩ := List.getLast?_eq_some_iff.1 hlast
  exact dropEndWhile_concat_of_neg init hc

/-- The end of a text without blanks at its end is shortened without being lost. -/
theorem getLast?_collapseFrom {s : Text} {c : Char} (hlast : s.getLast? = some c) (hc : c ≠ '\n')
    (run : Nat) : (collapseFrom run s).getLast? = some c := by
  obtain ⟨init, rfl⟩ := List.getLast?_eq_some_iff.1 hlast
  rw [collapseFrom_append_cons hc, collapseFrom]
  exact List.getLast?_concat ..

/-- A trimmed part of a text stays a part where the end of the text is trimmed. -/
theorem infix_trimEnd {p s : Text} (h : p <:+: s) (hp : trimEnd p = p) (hne : p ≠ []) :
    p <:+: trimEnd s := by
  obtain ⟨before, after, rfl⟩ := h
  cases hafter : isBlankText after with
  | true =>
    obtain ⟨c, hlast, hc⟩ := exists_getLast?_of_trimEnd hp hne
    have hend : trimEnd (before ++ p) = before ++ p :=
      trimEnd_eq_self_of_getLast? (by rw [List.getLast?_append_of_ne_nil _ hne, hlast]) hc
    rw [trimEnd_append_of_blank _ hafter, hend]
    exact (List.suffix_append before p).isInfix
  | false =>
    rw [trimEnd_append _ hafter]
    exact ⟨before, trimEnd after, rfl⟩

/-- **A trimmed part of a page** is a part of the finished page once it is shortened. -/
theorem infix_finishPage {p s : Text} (h : p <:+: s) (hp : trim p = p) (hne : p ≠ []) :
    collapseFrom 0 p <:+: finishPage s := by
  obtain ⟨hstart, hend⟩ := trim_eq_self_iff.1 hp
  obtain ⟨d, hlast, hd⟩ := exists_getLast?_of_trimEnd hend hne
  obtain ⟨c, rest, rfl⟩ := List.exists_cons_of_ne_nil hne
  have hc : c ≠ '\n' := ne_newline_of_not_blank (isBlank_of_trimStart_cons hstart)
  have hshort := getLast?_collapseFrom hlast (ne_newline_of_not_blank hd) 0
  have hwithin : collapseFrom 0 (c :: rest) <:+: collapseFrom 0 s := by
    obtain ⟨before, after, rfl⟩ := h
    refine ⟨collapseFrom 0 before, collapseFrom 0 after, ?_⟩
    have hlast' : (before ++ c :: rest).getLast? = some d := by
      rw [List.getLast?_append_of_ne_nil _ hne, hlast]
    rw [collapseFrom_append hlast' (ne_newline_of_not_blank hd), collapseFrom_append_cons hc,
      collapseFrom_cons_of_ne hc]
  refine (infix_trimEnd hwithin (trimEnd_eq_self_of_getLast? hshort hd) ?_).trans
    (List.prefix_append _ _).isInfix
  rw [collapseFrom_cons_of_ne hc]
  exact List.cons_ne_nil _ _

/-- **A finished page has no three line feeds in a row.** -/
theorem tightFeeds_finishPage (s : Text) : TightFeeds (finishPage s) := by
  have hbody : TightFeeds (trimEnd (collapseFrom 0 s)) :=
    (tightFeeds_collapseFrom (Nat.zero_le 2) s).of_isInfix (trimEnd_isPrefix _).isInfix
  intro hfeeds
  rcases List.infix_concat_iff.1 hfeeds with hend | hinside
  · -- the body would end in a line feed
    have hlast : (trimEnd (collapseFrom 0 s)).getLast? = some '\n' := by
      obtain ⟨before, hbefore⟩ := hend
      have hsplit : before ++ ['\n', '\n'] ++ ['\n'] = trimEnd (collapseFrom 0 s) ++ ['\n'] := by
        rw [← hbefore]
        simp
      rw [← List.append_cancel_right hsplit]
      simp
    exact absurd (isBlank_getLast_of_trimEnd (trimEnd_trimEnd _) hlast) (by decide)
  · exact hbody hinside

end ComponentPages
