import ComponentPages.Proofs.Finishing
import Mathlib.Data.List.SplitBy

/-!
# Finished pages

The last pass over a page does three things and no more: runs of three or more line feeds become
two, the blanks at the end go, and one line feed is put there. A finished page stays as it is when
it is finished once more.

- **`runs`**, **`shortenRuns`** — the longest runs of a text, and the text with those shortened that
  are of line feeds; **`collapseFrom_eq_shortenRuns`** — the pass over the text does the same.
- **`trimEnd_collapseFrom`** — the blanks at the end may go before or after.
- **`filter_collapseFrom`** — no character but a line feed is touched.
- **`EndsInOneFeed`**, **`finishPage_finishPage`** — the end of a finished page.
- **`tightFeeds_renderMarkdown_and_finishPage`** — all of it together.
-/

namespace ComponentPages

/-! ## Runs of equal characters -/

/-- The longest runs of equal characters of a text, in order. -/
def runs (s : Text) : List Text := s.splitBy fun c d => c == d

/-- Three or more line feeds become two, and any other run stays. -/
def shortenRun (run : Text) : Text :=
  if run.head? = some '\n' ∧ 3 ≤ run.length then ['\n', '\n'] else run

/-- The text with every longest run of three or more line feeds cut to two. -/
def shortenRuns (s : Text) : Text := (runs s).flatMap shortenRun

/-- Put together, the runs are the text. -/
@[simp] theorem flatten_runs (s : Text) : (runs s).flatten = s := List.flatten_splitBy _ s

/-- A run is one character over and over. -/
theorem exists_eq_replicate_of_mem_runs {s run : Text} (h : run ∈ runs s) :
    ∃ n c, run = List.replicate (n + 1) c := by
  have hchain : run.IsChain (· = ·) := by simpa using List.isChain_of_mem_splitBy h
  obtain ⟨c, rest, rfl⟩ := List.exists_cons_of_ne_nil (List.ne_nil_of_mem_splitBy h)
  exact ⟨rest.length, c, List.isChain_eq_iff_eq_replicate.1 hchain c rfl⟩

/-- Neighbouring runs are of different characters. -/
theorem isChain_runs (s : Text) : (runs s).IsChain fun run next => run.getLast? ≠ next.head? := by
  refine (List.isChain_getLast_head_splitBy _ s).imp fun run next h => ?_
  obtain ⟨hrun, hnext, hne⟩ := h
  rw [List.getLast?_eq_some_getLast hrun, List.head?_eq_some_head hnext]
  simpa using hne

/-- A run of line feeds keeps two of them at most. -/
theorem shortenRun_replicate_newline (n : Nat) :
    shortenRun (List.replicate (n + 1) '\n') = List.replicate (min (n + 1) 2) '\n' := by
  match n with
  | 0 => rfl
  | 1 => rfl
  | n + 2 =>
    rw [shortenRun, if_pos ⟨rfl, by simp⟩, Nat.min_eq_right (by omega)]
    rfl

/-- A run of another character stays. -/
theorem shortenRun_replicate_of_ne {c : Char} (hc : c ≠ '\n') (n : Nat) :
    shortenRun (List.replicate n c) = List.replicate n c := by
  refine if_neg fun h => hc ?_
  have hmem : '\n' ∈ List.replicate n c := List.mem_of_mem_head? h.1
  exact (List.eq_of_mem_replicate hmem).symm

/-- Line feeds at the front are counted on from those before them, up to the character that ends
the run. -/
theorem collapseFrom_replicate_append {t : Text} (ht : t.head? ≠ some '\n') (run n : Nat) :
    collapseFrom run (List.replicate n '\n' ++ t) =
      List.replicate (min n (2 - run)) '\n' ++ collapseFrom 0 t := by
  induction n generalizing run with
  | zero =>
    rw [Nat.zero_min, List.replicate_zero, List.nil_append, List.nil_append]
    cases t with
    | nil => rfl
    | cons c t =>
      have hc : c ≠ '\n' := fun heq => ht (by rw [heq]; rfl)
      rw [collapseFrom_cons_of_ne hc, collapseFrom_cons_of_ne hc]
  | succ n ih =>
    rw [List.replicate_succ, List.cons_append]
    rcases Nat.lt_or_ge run 2 with hlt | hge
    · have hcount : min (n + 1) (2 - run) = min n (2 - (run + 1)) + 1 := by omega
      rw [collapseFrom_newline_of_lt hlt, ih, hcount, List.replicate_succ, List.cons_append]
    · have hcount : min (n + 1) (2 - run) = min n (2 - run) := by omega
      rw [collapseFrom_newline_of_le hge, ih, hcount]

/-- A text is shortened run by run. -/
theorem collapseFrom_flatten {rs : List Text}
    (hruns : ∀ run ∈ rs, ∃ n c, run = List.replicate (n + 1) c)
    (hapart : rs.IsChain fun run next => run.getLast? ≠ next.head?) :
    collapseFrom 0 rs.flatten = rs.flatMap shortenRun := by
  induction rs with
  | nil => rfl
  | cons run rs ih =>
    have hrest := ih (fun next hnext => hruns next (List.mem_cons_of_mem _ hnext)) hapart.tail
    obtain ⟨n, c, rfl⟩ := hruns run (List.mem_cons_self ..)
    have hlast : (List.replicate (n + 1) c).getLast? = some c := by
      rw [List.replicate_succ']
      exact List.getLast?_concat ..
    rw [List.flatten_cons, List.flatMap_cons, ← hrest]
    by_cases hc : c = '\n'
    · subst hc
      -- the next run begins with another character
      have hnext : rs.flatten.head? ≠ some '\n' := by
        cases rs with
        | nil => simp
        | cons next rs =>
          obtain ⟨m, d, rfl⟩ := hruns next (by simp)
          have hne := (List.isChain_cons_cons.1 hapart).1
          rw [hlast] at hne
          simpa [List.replicate_succ, eq_comm] using hne
      rw [collapseFrom_replicate_append hnext, shortenRun_replicate_newline]
    · have hnone : '\n' ∉ List.replicate (n + 1) c := fun hmem =>
        hc (List.eq_of_mem_replicate hmem).symm
      rw [collapseFrom_append hlast hc, collapseFrom_of_not_mem hnone,
        shortenRun_replicate_of_ne hc]

/-- **One pass over a text** shortens its longest runs of line feeds. -/
theorem collapseFrom_eq_shortenRuns (s : Text) : collapseFrom 0 s = shortenRuns s := by
  have h := collapseFrom_flatten (fun run hrun => exists_eq_replicate_of_mem_runs hrun)
    (isChain_runs s)
  rwa [flatten_runs] at h

/-! ## Blanks at the end -/

/-- Shortening drops line feeds and nothing else. -/
theorem filter_collapseFrom (run : Nat) (s : Text) :
    (collapseFrom run s).filter (· != '\n') = s.filter (· != '\n') := by
  induction s generalizing run with
  | nil => rfl
  | cons c s ih =>
    by_cases hc : c = '\n'
    · subst hc
      rw [List.filter_cons_of_neg (by simp)]
      rcases Nat.lt_or_ge run 2 with hlt | hge
      · rw [collapseFrom_newline_of_lt hlt, List.filter_cons_of_neg (by simp), ih]
      · rw [collapseFrom_newline_of_le hge, ih]
    · rw [collapseFrom_cons_of_ne hc, List.filter_cons_of_pos (by simpa using hc),
        List.filter_cons_of_pos (by simpa using hc), ih]

/-- A blank text stays blank. -/
theorem isBlankText_collapseFrom {s : Text} (h : isBlankText s = true) (run : Nat) :
    isBlankText (collapseFrom run s) = true := by
  refine List.all_eq_true.2 fun c hc => ?_
  by_cases hfeed : c = '\n'
  · rw [hfeed]
    rfl
  · -- any other character is one of the text
    have hkept : c ∈ (collapseFrom run s).filter (· != '\n') :=
      List.mem_filter.2 ⟨hc, by simpa using hfeed⟩
    rw [filter_collapseFrom] at hkept
    exact List.all_eq_true.1 h c (List.mem_of_mem_filter hkept)

/-- **The blanks at the end** may go before the runs are shortened or after that. -/
theorem trimEnd_collapseFrom (s : Text) :
    trimEnd (collapseFrom 0 s) = collapseFrom 0 (trimEnd s) := by
  obtain ⟨back, hback, hs⟩ := exists_trimEnd_append_blank s
  by_cases hne : trimEnd s = []
  · rw [hne]
    exact trimEnd_eq_nil_iff.2 (isBlankText_collapseFrom (trimEnd_eq_nil_iff.1 hne) 0)
  · obtain ⟨c, hlast, hc⟩ := exists_getLast?_of_trimEnd (trimEnd_trimEnd s) hne
    have hfeed : c ≠ '\n' := ne_newline_of_not_blank hc
    calc trimEnd (collapseFrom 0 s)
        = trimEnd (collapseFrom 0 (trimEnd s) ++ collapseFrom 0 back) := by
          rw [← collapseFrom_append hlast hfeed, ← hs]
      _ = trimEnd (collapseFrom 0 (trimEnd s)) :=
          trimEnd_append_of_blank _ (isBlankText_collapseFrom hback 0)
      _ = collapseFrom 0 (trimEnd s) :=
          trimEnd_eq_self_of_getLast? (getLast?_collapseFrom hlast hfeed 0) hc

/-! ## The finished page -/

/-- The text ends in a line feed, and none stands before it. -/
def EndsInOneFeed (s : Text) : Prop := ∃ body, s = body ++ ['\n'] ∧ body.getLast? ≠ some '\n'

/-- **A finished page ends in one line feed.** -/
theorem endsInOneFeed_finishPage (s : Text) : EndsInOneFeed (finishPage s) := by
  refine ⟨_, rfl, fun hlast => ?_⟩
  exact absurd (isBlank_getLast_of_trimEnd (trimEnd_trimEnd _) hlast) (by decide)

/-- **A finished page is finished**: finishing it once more changes nothing. -/
theorem finishPage_finishPage (s : Text) : finishPage (finishPage s) = finishPage s := by
  have htight : collapseFrom 0 (finishPage s) = finishPage s :=
    collapseFrom_eq_self_iff.2 (tightFeeds_finishPage s)
  rw [finishPage, htight, finishPage, trimEnd_append_of_blank _ (by rfl), trimEnd_trimEnd]

/-- Of the characters that are no line feeds, a finished page has those of the text without blanks
at its end. -/
theorem filter_finishPage (s : Text) :
    (finishPage s).filter (· != '\n') = (trimEnd s).filter (· != '\n') := by
  rw [finishPage, trimEnd_collapseFrom, List.filter_append, filter_collapseFrom]
  simp

/-- **Every page in Markdown is tight and ends in one line feed.** What finishing does is the same
for every text: its longest runs of three or more line feeds are cut to two, the blanks at its end
are dropped, and one line feed is added; a second time it does nothing, and all other characters
before the blanks at the end stay in order. -/
theorem tightFeeds_renderMarkdown_and_finishPage :
    (∀ (config : Config) (doc : PageDoc),
      TightFeeds (doc.renderMarkdown config) ∧ EndsInOneFeed (doc.renderMarkdown config)) ∧
    ∀ s, finishPage (finishPage s) = finishPage s ∧
      finishPage s = trimEnd (shortenRuns s) ++ ['\n'] ∧
      (finishPage s).filter (· != '\n') = (trimEnd s).filter (· != '\n') := by
  refine ⟨fun config doc => ?_, fun s => ?_⟩
  · exact ⟨tightFeeds_finishPage _, endsInOneFeed_finishPage _⟩
  · exact ⟨finishPage_finishPage s, by rw [finishPage, collapseFrom_eq_shortenRuns],
      filter_finishPage s⟩

/-- Line feeds with a blank between them are two runs. -/
example : finishPage "a\n\n\n\nb\n\n \nc\n\n\n ".toList = "a\n\nb\n\n \nc\n".toList := by decide

end ComponentPages
