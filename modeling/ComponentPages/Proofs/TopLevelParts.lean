import ComponentPages.Default.TopLevel

/-!
# Where a text is split at the top level

A text has no separator at the top level, or it is a part without one, a separator and a rest. All
that is to be known about the parts follows from this.

- **`Uncut`** — no separator stands at the top level; **`topLevel_induction`** is the induction
  along the parts.
- **`splitTopLevel_of_uncut`**, **`splitTopLevel_append`** — the parts in the two cases.
- **`CutBetween`**, **`cutBetween_splitTopLevel_iff`** — the places of the cuts.
-/

namespace ComponentPages

namespace Nesting

@[simp] theorem run_nil (n : Nesting) : n.run [] = n := rfl

@[simp] theorem run_cons (n : Nesting) (c : Char) (s : Text) : n.run (c :: s) = (n.next c).run s :=
  rfl

@[simp] theorem run_append (n : Nesting) (s t : Text) : n.run (s ++ t) = (n.run s).run t :=
  List.foldl_append

theorem isTop_iff {n : Nesting} : n.isTop = true ↔ n.depth = 0 ∧ n.quote = none := by
  simp [isTop]

/-- Whether the last character was a backslash does not depend on what is open. -/
theorem escaped_next (n : Nesting) (c : Char) : (n.next c).escaped = (c == '\\') := by
  unfold next
  repeat' split
  all_goals rfl

end Nesting

/-! ## Neutral characters and cuts -/

/-- A character that means nothing for what is open. -/
structure IsNeutral (sep : Char) : Prop where
  isMark : Nesting.isMark sep = false
  ne_backslash : sep ≠ '\\'

theorem isNeutral_comma : IsNeutral ',' := ⟨rfl, by decide⟩

theorem isNeutral_colon : IsNeutral ':' := ⟨rfl, by decide⟩

/-- No separator stands at the top level, given what is open before the text. -/
def Uncut (sep : Char) (n : Nesting) (s : Text) : Prop :=
  ∀ before after, s = before ++ sep :: after → (n.run before).isTop = false

/-- A cut between two texts: some parts put together are the one, and the others the other. -/
def CutBetween (sep : Char) (parts : List Text) (before after : Text) : Prop :=
  ∃ front back, front ≠ [] ∧ back ≠ [] ∧ parts = front ++ back ∧
    joinWith [sep] front = before ∧ joinWith [sep] back = after

/-- A single part is not cut. -/
theorem not_cutBetween_singleton {sep : Char} {part before after : Text} :
    ¬CutBetween sep [part] before after := by
  rintro ⟨front, back, hfront, hback, hparts, -, -⟩
  rcases List.append_eq_singleton_iff.1 hparts.symm with ⟨rfl, -⟩ | ⟨-, rfl⟩
  · exact hfront rfl
  · exact hback rfl

/-- The cuts of more parts: after the first of them, or between the others. -/
theorem cutBetween_cons_iff {sep : Char} {part before after : Text} {parts : List Text}
    (hparts : parts ≠ []) :
    CutBetween sep (part :: parts) before after ↔
      (before = part ∧ after = joinWith [sep] parts) ∨
        ∃ more, before = part ++ sep :: more ∧ CutBetween sep parts more after := by
  constructor
  · rintro ⟨front, back, hfront, hback, heq, rfl, rfl⟩
    obtain ⟨first, front, rfl⟩ := List.exists_cons_of_ne_nil hfront
    obtain ⟨rfl, rfl⟩ := List.cons.inj heq
    cases front with
    | nil => exact .inl ⟨joinWith_singleton _ _, rfl⟩
    | cons next front =>
      refine .inr ⟨joinWith [sep] (next :: front), ?_, next :: front, back,
        List.cons_ne_nil _ _, hback, rfl, rfl, rfl⟩
      rw [joinWith_cons_cons, List.append_assoc, List.singleton_append]
  · rintro (⟨rfl, rfl⟩ | ⟨more, rfl, front, back, hfront, hback, rfl, rfl, rfl⟩)
    · exact ⟨[before], parts, List.cons_ne_nil _ _, hparts, rfl, joinWith_singleton _ _, rfl⟩
    · refine ⟨part :: front, back, List.cons_ne_nil _ _, hback, rfl, ?_, rfl⟩
      obtain ⟨next, front, rfl⟩ := List.exists_cons_of_ne_nil hfront
      rw [joinWith_cons_cons, List.append_assoc, List.singleton_append]

/-- There is always a first part. -/
theorem splitTopLevel_ne_nil (sep : Char) (s : Text) : splitTopLevel sep s ≠ [] :=
  splitFrom_ne_nil sep .top s

section Parts

variable {sep : Char} (hsep : IsNeutral sep) {n : Nesting} {s part rest : Text}

theorem uncut_nil : Uncut sep n [] := fun before _ h => by
  cases before <;> cases h

/-- A text without the separator has none at the top level. -/
theorem uncut_of_not_mem (h : sep ∉ s) : Uncut sep n s := fun before _ hs =>
  absurd (hs ▸ List.mem_append_right before (List.mem_cons_self ..)) h

include hsep

/-- A neutral character at the top level leaves nothing open and no backslash behind. -/
theorem next_neutral (h : n.isTop = true) : n.next sep = .top := by
  obtain ⟨hdepth, hquote⟩ := Nesting.isTop_iff.1 h
  have hmark := hsep.isMark
  simp only [Nesting.isMark, Bool.or_eq_false_iff] at hmark
  simp [Nesting.next, Nesting.top, hquote, hmark, hdepth, hsep.ne_backslash]

/-- A text is split at a separator where nothing is open. -/
theorem splitsAt_separator : n.splitsAt sep sep = n.isTop := by
  simp [Nesting.splitsAt, hsep.isMark]

theorem uncut_cons_iff {c : Char} :
    Uncut sep n (c :: s) ↔ n.splitsAt sep c = false ∧ Uncut sep (n.next c) s := by
  constructor
  · refine fun h => ⟨?_, fun before after hs => h (c :: before) after (by rw [hs]; rfl)⟩
    by_cases hc : c = sep
    · subst hc
      rw [splitsAt_separator hsep]
      exact h [] s rfl
    · simp [Nesting.splitsAt, hc]
  · rintro ⟨hc, h⟩ before after hs
    cases before with
    | nil =>
      obtain ⟨rfl, -⟩ := List.cons.inj hs
      rwa [splitsAt_separator hsep] at hc
    | cons d before =>
      obtain ⟨rfl, rfl⟩ := List.cons.inj hs
      exact h before after rfl

theorem uncut_append_iff {t : Text} :
    Uncut sep n (s ++ t) ↔ Uncut sep n s ∧ Uncut sep (n.run s) t := by
  induction s generalizing n with
  | nil => exact ⟨fun h => ⟨uncut_nil, h⟩, fun h => h.2⟩
  | cons c s ih =>
    rw [List.cons_append, uncut_cons_iff hsep, uncut_cons_iff hsep, ih, Nesting.run_cons, and_assoc]

/-- A text without a separator at the top level is one part. -/
theorem splitFrom_of_uncut (h : Uncut sep n s) : splitFrom sep n s = [s] := by
  induction s generalizing n with
  | nil => rfl
  | cons c s ih =>
    obtain ⟨hc, hs⟩ := (uncut_cons_iff hsep).1 h
    rw [splitFrom, hc, if_neg Bool.false_ne_true, ih hs]
    rfl

/-- The first part ends at the first separator at the top level. -/
theorem splitFrom_append (h : Uncut sep n part) (htop : (n.run part).isTop = true) :
    splitFrom sep n (part ++ sep :: rest) = part :: splitTopLevel sep rest := by
  induction part generalizing n with
  | nil =>
    rw [Nesting.run_nil] at htop
    rw [List.nil_append, splitFrom, splitsAt_separator hsep, if_pos htop, next_neutral hsep htop]
    rfl
  | cons c part ih =>
    obtain ⟨hc, hpart⟩ := (uncut_cons_iff hsep).1 h
    rw [List.cons_append, splitFrom, hc, if_neg Bool.false_ne_true, ih hpart htop]
    rfl

/-- There is no separator at the top level, or there is a first one. -/
theorem exists_first_cut (n : Nesting) (s : Text) :
    Uncut sep n s ∨
      ∃ part rest, s = part ++ sep :: rest ∧ Uncut sep n part ∧ (n.run part).isTop = true := by
  induction s generalizing n with
  | nil => exact .inl uncut_nil
  | cons c s ih =>
    cases hc : n.splitsAt sep c with
    | true =>
      simp only [Nesting.splitsAt, Bool.and_eq_true, beq_iff_eq] at hc
      obtain ⟨⟨rfl, htop⟩, -⟩ := hc
      exact .inr ⟨[], s, rfl, uncut_nil, htop⟩
    | false =>
      rcases ih (n.next c) with hs | ⟨part, rest, rfl, hpart, htop⟩
      · exact .inl ((uncut_cons_iff hsep).2 ⟨hc, hs⟩)
      · exact .inr ⟨c :: part, rest, rfl, (uncut_cons_iff hsep).2 ⟨hc, hpart⟩, htop⟩

/-- **Induction along the parts of a text**: it is one part, or it is a part, a separator at the top
level and the rest. -/
theorem topLevel_induction {motive : Text → Prop} (uncut : ∀ s, Uncut sep .top s → motive s)
    (cut : ∀ part rest, Uncut sep .top part → (Nesting.top.run part).isTop = true → motive rest →
      motive (part ++ sep :: rest)) (s : Text) : motive s := by
  rcases exists_first_cut hsep .top s with hs | ⟨part, rest, hs, hpart, htop⟩
  · exact uncut s hs
  · have hshorter : rest.length < s.length := by
      rw [hs, List.length_append, List.length_cons]
      omega
    rw [hs]
    exact cut part rest hpart htop (topLevel_induction uncut cut rest)
termination_by s.length

theorem splitTopLevel_of_uncut (h : Uncut sep .top s) : splitTopLevel sep s = [s] :=
  splitFrom_of_uncut hsep h

/-- A text is one part just where it has no separator at the top level. -/
theorem splitTopLevel_eq_singleton_iff : splitTopLevel sep s = [s] ↔ Uncut sep .top s := by
  refine ⟨fun h => ?_, splitTopLevel_of_uncut hsep⟩
  rcases exists_first_cut hsep .top s with hs | ⟨part, rest, rfl, hpart, htop⟩
  · exact hs
  · have hparts : part :: splitTopLevel sep rest = [part ++ sep :: rest] :=
      (splitFrom_append hsep hpart htop).symm.trans h
    exact absurd (List.cons.inj hparts).2 (splitTopLevel_ne_nil sep rest)

theorem splitTopLevel_append (h : Uncut sep .top part)
    (htop : (Nesting.top.run part).isTop = true) (rest : Text) :
    splitTopLevel sep (part ++ sep :: rest) = part :: splitTopLevel sep rest :=
  splitFrom_append hsep h htop

/-! ## The parts together -/

/-- Nothing but the separators between the parts is lost. -/
theorem joinWith_splitTopLevel (s : Text) : joinWith [sep] (splitTopLevel sep s) = s := by
  induction s using topLevel_induction hsep with
  | uncut s h => rw [splitTopLevel_of_uncut hsep h, joinWith_singleton]
  | cut part rest hpart htop ih =>
    obtain ⟨next, more, hmore⟩ := List.exists_cons_of_ne_nil (splitTopLevel_ne_nil sep rest)
    rw [splitTopLevel_append hsep hpart htop, hmore, joinWith_cons_cons, ← hmore, ih,
      List.append_assoc, List.singleton_append]

/-- **A text is cut at the separators where nothing is open**, and nowhere else. -/
theorem cutBetween_splitTopLevel_iff {before after : Text} :
    CutBetween sep (splitTopLevel sep s) before after ↔
      s = before ++ sep :: after ∧ (Nesting.top.run before).isTop = true := by
  induction s using topLevel_induction hsep generalizing before with
  | uncut s h =>
    rw [splitTopLevel_of_uncut hsep h]
    refine iff_of_false not_cutBetween_singleton ?_
    rintro ⟨hs, htop⟩
    rw [h before after hs] at htop
    cases htop
  | cut part rest hpart htop ih =>
    rw [splitTopLevel_append hsep hpart htop,
      cutBetween_cons_iff (splitTopLevel_ne_nil sep rest), joinWith_splitTopLevel hsep]
    have hrun (more : Text) : Nesting.top.run (part ++ sep :: more) = Nesting.top.run more := by
      rw [Nesting.run_append, Nesting.run_cons, next_neutral hsep htop]
    constructor
    · rintro (⟨rfl, rfl⟩ | ⟨more, rfl, hcut⟩)
      · exact ⟨rfl, htop⟩
      · obtain ⟨rfl, hmore⟩ := ih.1 hcut
        exact ⟨by simp, by rwa [hrun]⟩
    · rintro ⟨hs, hbefore⟩
      rcases List.append_eq_append_iff.1 hs with ⟨more, rfl, hmore⟩ | ⟨more, rfl, hmore⟩
      · cases more with
        | nil =>
          obtain ⟨-, rfl⟩ := List.cons.inj hmore
          exact .inl ⟨List.append_nil _, rfl⟩
        | cons c more =>
          obtain ⟨rfl, rfl⟩ := List.cons.inj hmore
          rw [hrun] at hbefore
          exact .inr ⟨more, rfl, ih.2 ⟨rfl, hbefore⟩⟩
      · cases more with
        | nil =>
          obtain ⟨-, rfl⟩ := List.cons.inj hmore
          exact .inl ⟨(List.append_nil _).symm, rfl⟩
        | cons c more =>
          -- the first part has no separator at the top level
          obtain ⟨rfl, -⟩ := List.cons.inj hmore
          rw [hpart before more rfl] at hbefore
          cases hbefore

end Parts

end ComponentPages
