import ComponentPages.Description.Line
import ComponentPages.Proofs.Trimming

/-!
# Directives in a text

What a directive looks like, what is left of a text without its directives, and what a line is that
a directive stands in front of.

- **`directiveAt?_eq_some_iff`** — the form of a directive.
- **`splitIds_trim`** — blanks around a list of ids do not matter.
- **`DirectiveFree`** — no directive begins anywhere in the text; such a text is left alone
  (`stripDirectives_of_free`), and it is the only one that names no platform
  (`directiveFree_of_ids_eq_nil`).
- **`stripDirectives_sublist`** — taking directives out only ever drops characters.
- **`stripDirectives_leading`**, **`afterLeading_leading`**, **`directives_leading`** — one more
  directive in front of a text.
-/

namespace ComponentPages

/-! ## Characters -/

/-- No word character of ASCII is blank. -/
theorem not_isBlank_of_isAsciiWord {c : Char} (h : isAsciiWord c = true) : isBlank c = false := by
  have hrange : (48 ≤ c.toNat ∧ c.toNat ≤ 57) ∨ (65 ≤ c.toNat ∧ c.toNat ≤ 90) ∨
      (97 ≤ c.toNat ∧ c.toNat ≤ 122) ∨ c.toNat = 95 := by
    delta isAsciiWord Char.isAlphanum Char.isAlpha Char.isUpper Char.isLower Char.isDigit at h
    simp only [Bool.or_eq_true, Bool.and_eq_true, decide_eq_true_eq, beq_iff_eq,
      ge_iff_le, UInt32.le_iff_toNat_le] at h
    rcases h with ((⟨h, h'⟩ | ⟨h, h'⟩) | ⟨h, h'⟩) | rfl
    · exact .inr (.inl ⟨h, h'⟩)
    · exact .inr (.inr (.inl ⟨h, h'⟩))
    · exact .inl ⟨h, h'⟩
    · exact .inr (.inr (.inr rfl))
  by_contra hb
  simp only [isBlank, Bool.not_eq_false, Bool.or_eq_true, Bool.and_eq_true, decide_eq_true_eq,
    beq_iff_eq] at hb
  omega

/-- No word character of ASCII separates ids. -/
theorem not_separatesIds_of_isAsciiWord {c : Char} (h : isAsciiWord c = true) :
    separatesIds c = false := by
  have hcomma : c ≠ ',' := by rintro rfl; cases h
  simp [separatesIds, not_isBlank_of_isAsciiWord h, hcomma]

/-! ## One directive -/

@[simp] theorem directiveAt?_nil : directiveAt? [] = none := rfl

/-- A directive begins with a brace. -/
theorem directiveAt?_cons_of_ne {c : Char} (h : c ≠ '\x7b') (s : Text) :
    directiveAt? (c :: s) = none := by
  have hpart : afterPart? directiveOpening (c :: s) = none := if_neg fun he => h he.symm
  rw [directiveAt?, hpart]

/-- **The form of a directive**: the opening, blanks, an id list that begins with a word character,
and the closing brace. -/
theorem directiveAt?_eq_some_iff {s ids rest : Text} :
    directiveAt? s = some (ids, rest) ↔
      ∃ blanks first tail, s = directiveOpening ++ (blanks ++ (ids ++ '\x7d' :: rest)) ∧
        blanks ≠ [] ∧ blanks.all isBlank = true ∧ ids = first :: tail ∧
        startsIdList first = true ∧ ids.all inIdList = true := by
  constructor
  · intro h
    unfold directiveAt? at h
    split at h
    · next blank after hs =>
      dsimp only at h
      split at h
      · next first rest' hfirst hrest =>
        split at h
        · next hcond =>
          rw [Bool.and_eq_true] at hcond
          cases h
          have hafter : after = after.takeWhile isBlank ++
              ((after.dropWhile isBlank).takeWhile inIdList ++ '\x7d' :: rest) := by
            rw [← hrest, List.takeWhile_append_dropWhile, List.takeWhile_append_dropWhile]
          obtain ⟨list, hlist⟩ := List.head?_eq_some_iff.1 hfirst
          have hids : inIdList first = true := by
            rw [inIdList, show isAsciiWord first = true from hcond.2]; rfl
          refine ⟨blank :: after.takeWhile isBlank, first, list.takeWhile inIdList, ?_,
            List.cons_ne_nil _ _, ?_, ?_, hcond.2, List.all_takeWhile⟩
          · rw [eq_append_of_afterPart? hs, List.cons_append, ← hafter]
          · rw [List.all_cons, hcond.1, Bool.true_and]; exact List.all_takeWhile
          · rw [hlist, List.takeWhile_cons_of_pos hids]
        · cases h
      · cases h
    · cases h
  · rintro ⟨blanks, first, tail, rfl, hne, hblanks, rfl, hfirst, hids⟩
    obtain ⟨blank, blanks, rfl⟩ := List.exists_cons_of_ne_nil hne
    rw [List.all_cons, Bool.and_eq_true] at hblanks
    have hdrop : (blanks ++ (first :: tail ++ '\x7d' :: rest)).dropWhile isBlank =
        first :: tail ++ '\x7d' :: rest := by
      rw [List.dropWhile_append_of_pos (by simpa using hblanks.2), List.cons_append,
        List.dropWhile_cons_of_neg (by rw [not_isBlank_of_isAsciiWord hfirst]; simp)]
    have hclose : ¬inIdList '\x7d' = true := by decide
    unfold directiveAt?
    rw [afterPart?_append, List.cons_append]
    dsimp only
    rw [hdrop, List.takeWhile_append_of_pos (by simpa using hids),
      List.dropWhile_append_of_pos (by simpa using hids), List.takeWhile_cons_of_neg hclose,
      List.dropWhile_cons_of_neg hclose, List.append_nil]
    simp [hblanks.1, hfirst]

/-- What follows a directive does not matter to it. -/
theorem directiveAt?_append {s ids rest : Text} (h : directiveAt? s = some (ids, rest))
    (t : Text) : directiveAt? (s ++ t) = some (ids, rest ++ t) := by
  rw [directiveAt?_eq_some_iff] at h ⊢
  obtain ⟨blanks, first, tail, rfl, hform⟩ := h
  exact ⟨blanks, first, tail, by simp, hform⟩

/-- A directive names a platform at least. -/
theorem splitIds_ne_nil_of_directiveAt? {s ids rest : Text}
    (h : directiveAt? s = some (ids, rest)) : splitIds ids ≠ [] := by
  obtain ⟨_, first, tail, _, _, _, rfl, hfirst, _⟩ := directiveAt?_eq_some_iff.1 h
  rw [splitIds, if_neg (by rw [not_separatesIds_of_isAsciiWord hfirst]; simp)]
  exact List.cons_ne_nil _ _

/-- Nothing of a directive that stands alone is trimmed. -/
theorem trim_directive {d ids : Text} (h : directiveAt? d = some (ids, [])) : trim d = d := by
  obtain ⟨blanks, first, tail, rfl, -⟩ := directiveAt?_eq_some_iff.1 h
  rw [trim_eq_self_iff]
  refine ⟨trimStart_cons_of_not_blank (c := '\x7b') rfl _, ?_⟩
  rw [← List.append_assoc, ← List.append_assoc, trimEnd_append _ (by rfl)]
  rfl

/-! ## Ids -/

/-- Each id is a run of characters that do not separate ids. -/
theorem mem_splitIds {list id : Text} (h : id ∈ splitIds list) :
    id ≠ [] ∧ ∀ c ∈ id, separatesIds c = false := by
  fun_induction splitIds list with
  | case1 => cases h
  | case2 c rest _ ih => exact ih h
  | case3 c rest hc ih =>
    rcases List.mem_cons.1 h with rfl | h
    · refine ⟨List.cons_ne_nil _ _, fun d hd => ?_⟩
      rcases List.mem_cons.1 hd with rfl | hd
      · simpa using hc
      · simpa using List.mem_takeWhile_imp hd
    · exact ih h

/-- Nothing of an id is trimmed. -/
theorem trim_of_mem_splitIds {list id : Text} (h : id ∈ splitIds list) : trim id = id := by
  refine trim_eq_self_of_not_blank fun c hc => ?_
  have hid := (mem_splitIds h).2 c hc
  rw [separatesIds, Bool.or_eq_false_iff] at hid
  exact hid.2

/-- Blanks at the end of a list make no id. -/
theorem splitIds_of_blank {s : Text} (h : isBlankText s = true) : splitIds s = [] := by
  induction s with
  | nil => rw [splitIds]
  | cons c s ih =>
    rw [isBlankText_cons, Bool.and_eq_true] at h
    rw [splitIds, if_pos (by rw [separatesIds, h.1, Bool.or_true]), ih h.2]

theorem splitIds_append_of_blank (s : Text) {t : Text} (h : isBlankText t = true) :
    splitIds (s ++ t) = splitIds s := by
  fun_induction splitIds s with
  | case1 => exact splitIds_of_blank h
  | case2 c rest hc ih => rw [List.cons_append, splitIds, if_pos hc, ih]
  | case3 c rest hc ih =>
    have hstop : t.takeWhile (fun d => !separatesIds d) = [] ∧
        t.dropWhile (fun d => !separatesIds d) = t := by
      cases t with
      | nil => exact ⟨rfl, rfl⟩
      | cons b t =>
        rw [isBlankText_cons, Bool.and_eq_true] at h
        have hb : ¬(!separatesIds b) = true := by simp [separatesIds, h.1]
        exact ⟨List.takeWhile_cons_of_neg hb, List.dropWhile_cons_of_neg hb⟩
    rw [List.cons_append, splitIds, if_neg hc]
    by_cases hall : ∀ d ∈ rest, (!separatesIds d) = true
    · -- the last id reaches up to the blanks
      rw [List.takeWhile_append_of_pos hall, List.dropWhile_append_of_pos hall, hstop.1, hstop.2,
        List.append_nil, splitIds_of_blank h, List.takeWhile_eq_self_iff.2 hall,
        List.dropWhile_eq_nil_iff.2 hall, splitIds]
    · have hdrop : ¬(rest.dropWhile fun d => !separatesIds d).isEmpty = true := by
        rw [List.isEmpty_iff, List.dropWhile_eq_nil_iff]
        exact hall
      have htake : ¬(rest.takeWhile fun d => !separatesIds d).length = rest.length := fun hlen =>
        hall (List.takeWhile_eq_self_iff.1 ((List.takeWhile_prefix _).eq_of_length hlen))
      rw [List.takeWhile_append, if_neg htake, List.dropWhile_append, if_neg hdrop, ih]

theorem splitIds_blank_append {s : Text} (h : isBlankText s = true) (t : Text) :
    splitIds (s ++ t) = splitIds t := by
  induction s with
  | nil => rfl
  | cons c s ih =>
    rw [isBlankText_cons, Bool.and_eq_true] at h
    rw [List.cons_append, splitIds, if_pos (by rw [separatesIds, h.1, Bool.or_true]), ih h.2]

/-- **Blanks around a list make no difference to its ids.** -/
theorem splitIds_trim (s : Text) : splitIds (trim s) = splitIds s := by
  obtain ⟨front, hfront, hs⟩ := exists_blank_append_trimStart s
  obtain ⟨back, hback, hstart⟩ := exists_trimEnd_append_blank (trimStart s)
  calc splitIds (trim s)
      = splitIds (trimEnd (trimStart s) ++ back) := (splitIds_append_of_blank _ hback).symm
    _ = splitIds (trimStart s) := by rw [← hstart]
    _ = splitIds (front ++ trimStart s) := (splitIds_blank_append hfront _).symm
    _ = splitIds s := by rw [← hs]

/-! ## Texts without directives -/

/-- No directive begins anywhere in the text. -/
def DirectiveFree (s : Text) : Prop := ∀ v, v <:+ s → directiveAt? v = none

@[simp] theorem directiveFree_nil : DirectiveFree [] := by
  intro v hv
  rw [List.suffix_nil.1 hv, directiveAt?_nil]

/-- The end of a text without directives has none. -/
theorem DirectiveFree.of_isSuffix {s t : Text} (h : DirectiveFree s) (ht : t <:+ s) :
    DirectiveFree t :=
  fun v hv => h v (hv.trans ht)

/-- None begins at the front. -/
theorem DirectiveFree.directiveAt? {s : Text} (h : DirectiveFree s) : directiveAt? s = none :=
  h s (List.suffix_refl s)

/-- None begins at the front, and none later. -/
theorem directiveFree_cons_iff {c : Char} {s : Text} :
    DirectiveFree (c :: s) ↔ ComponentPages.directiveAt? (c :: s) = none ∧ DirectiveFree s := by
  constructor
  · exact fun h => ⟨h.directiveAt?, h.of_isSuffix (List.suffix_cons c s)⟩
  · rintro ⟨hfirst, hs⟩ v hv
    rcases List.suffix_cons_iff.1 hv with rfl | hv
    · exact hfirst
    · exact hs v hv

/-- A text without the opening of a directive has no directive. -/
theorem directiveFree_of_not_infix {s : Text} (h : ¬directiveOpening <:+: s) :
    DirectiveFree s := by
  intro v hv
  cases hd : directiveAt? v with
  | none => rfl
  | some found =>
    obtain ⟨ids, rest⟩ := found
    obtain ⟨blanks, first, tail, rfl, -⟩ := directiveAt?_eq_some_iff.1 hd
    exact absurd ((List.prefix_append _ _).isInfix.trans hv.isInfix) h

/-- A text without directives is cut nowhere. -/
theorem cutDirectives_of_free {s : Text} (h : DirectiveFree s) : cutDirectives s = ⟨s, []⟩ := by
  induction s with
  | nil => exact cutDirectives_nil
  | cons c s ih =>
    obtain ⟨hfirst, hs⟩ := directiveFree_cons_iff.1 h
    rw [cutDirectives_of_none hfirst, ih hs, Cut.push]

/-- **A text without directives is left alone**, and names no platform. -/
theorem stripDirectives_of_free {s : Text} (h : DirectiveFree s) : stripDirectives s = (s, []) := by
  rw [stripDirectives, cutDirectives_of_free h]
  rfl

/-- A text that is cut nowhere has no directive. -/
theorem directiveFree_of_pieces_eq_nil {s : Text} (h : (cutDirectives s).pieces = []) :
    DirectiveFree s := by
  fun_induction cutDirectives s with
  | case1 s ids rest hd ih => cases h
  | case2 h' => exact directiveFree_nil
  | case3 c rest hd ih => exact directiveFree_cons_iff.2 ⟨hd, ih h⟩

theorem directiveFree_iff {s : Text} : DirectiveFree s ↔ (cutDirectives s).pieces = [] :=
  ⟨fun h => by rw [cutDirectives_of_free h], directiveFree_of_pieces_eq_nil⟩

instance (s : Text) : Decidable (DirectiveFree s) := decidable_of_iff _ directiveFree_iff.symm

/-- Each piece of a cut text begins with a directive, and so names a platform. -/
theorem splitIds_ne_nil_of_mem_pieces {s : Text} {piece : Text × Text}
    (h : piece ∈ (cutDirectives s).pieces) : splitIds piece.1 ≠ [] := by
  fun_induction cutDirectives s with
  | case1 s ids rest hd ih =>
    rcases List.mem_cons.1 h with rfl | h
    · exact splitIds_ne_nil_of_directiveAt? hd
    · exact ih h
  | case2 h' => cases h
  | case3 c rest hd ih => exact ih h

/-- **Only a text without directives names no platform.** -/
theorem directiveFree_of_ids_eq_nil {s : Text} (h : (stripDirectives s).2 = []) :
    DirectiveFree s := by
  apply directiveFree_of_pieces_eq_nil
  by_contra hne
  obtain ⟨piece, pieces, hpieces⟩ := List.exists_cons_of_ne_nil hne
  have hids : splitIds piece.1 = [] := by
    have hall : (cutDirectives s).ids = [] := h
    rw [Cut.ids, hpieces, List.map_cons, List.flatMap_cons, List.append_eq_nil_iff] at hall
    exact hall.1
  exact splitIds_ne_nil_of_mem_pieces (hpieces ▸ List.mem_cons_self ..) hids

/-- Each platform that a text names is an id of a list in it. -/
theorem exists_mem_splitIds_of_mem_ids {s id : Text} (h : id ∈ (stripDirectives s).2) :
    ∃ list, id ∈ splitIds list := by
  obtain ⟨list, -, hid⟩ := List.mem_flatMap.1 (show id ∈ (cutDirectives s).ids from h)
  exact ⟨list, hid⟩

/-! ## What is left of a text -/

/-- Two gaps put together hold nothing new. -/
theorem closeGap_sublist (before gap : Text) : (closeGap before gap).Sublist (before ++ gap) := by
  unfold closeGap
  split
  · exact (List.rdropWhile_prefix isIndent before).sublist.append_right gap
  · split
    · exact (List.dropWhile_sublist _).append_left before
    · exact List.Sublist.refl _

/-- Any number of gaps put together hold nothing new. -/
theorem foldl_closeGap_sublist (before : Text) (gaps : List Text) :
    (gaps.foldl closeGap before).Sublist (before ++ gaps.flatten) := by
  induction gaps generalizing before with
  | nil => simp
  | cons gap gaps ih =>
    rw [List.foldl_cons, List.flatten_cons, ← List.append_assoc]
    exact (ih (closeGap before gap)).trans ((closeGap_sublist before gap).append_right _)

/-- The gaps between the directives of a text are parts of it, in order. -/
theorem gaps_sublist (s : Text) :
    ((cutDirectives s).before ++ ((cutDirectives s).pieces.map Prod.snd).flatten).Sublist s := by
  fun_induction cutDirectives s with
  | case1 s ids rest hd ih =>
    obtain ⟨blanks, first, tail, rfl, -⟩ := directiveAt?_eq_some_iff.1 hd
    refine ih.trans (List.IsSuffix.sublist ?_)
    exact ⟨directiveOpening ++ (blanks ++ (ids ++ ['\x7d'])), by simp⟩
  | case2 h' => exact List.Sublist.refl _
  | case3 c rest hd ih => exact ih.cons_cons c

/-- **Taking directives out only drops characters.** -/
theorem stripDirectives_sublist (s : Text) : ((stripDirectives s).1).Sublist s :=
  (foldl_closeGap_sublist _ _).trans (gaps_sublist s)

/-- The first gap is the beginning of the text. -/
theorem cutDirectives_before_isPrefix (s : Text) : (cutDirectives s).before <+: s := by
  fun_induction cutDirectives s with
  | case1 s ids rest hd ih => exact List.nil_prefix
  | case2 h' => exact List.nil_prefix
  | case3 c rest hd ih => exact List.cons_prefix_cons.2 ⟨rfl, ih⟩

/-! ## A directive in front -/

/-- **A directive and a space in front of a text** leave the same text behind, and name their
platforms before those of the text. -/
theorem stripDirectives_leading {d ids : Text} (hd : directiveAt? d = some (ids, [])) {s : Text}
    (hs : trimStart s = s) :
    stripDirectives (d ++ ' ' :: s) =
      ((stripDirectives s).1, splitIds ids ++ (stripDirectives s).2) := by
  have hcut : cutDirectives (d ++ ' ' :: s) = ((cutDirectives s).push ' ').mark ids := by
    rw [cutDirectives_of_some (directiveAt?_append hd (' ' :: s)), List.nil_append,
      cutDirectives_of_none (directiveAt?_cons_of_ne (by decide) s)]
  -- nothing stands before the gap, so the space goes; the gap itself begins with no blank
  have hgap : closeGap [] (' ' :: (cutDirectives s).before) = (cutDirectives s).before := by
    have hbefore := trimStart_eq_self_of_isPrefix (cutDirectives_before_isPrefix s) hs
    show (cutDirectives s).before.dropWhile isIndent = (cutDirectives s).before
    cases hb : (cutDirectives s).before with
    | nil => rfl
    | cons c b =>
      rw [hb] at hbefore
      refine List.dropWhile_cons_of_neg fun hc => ?_
      have hblank := isBlank_of_trimStart_cons hbefore
      rw [isBlank_of_isIndent hc] at hblank
      cases hblank
  rw [stripDirectives, hcut]
  simp only [Cut.text, Cut.ids, Cut.mark, Cut.push, List.map_cons, List.foldl_cons,
    List.flatMap_cons, hgap, stripDirectives]

/-- Where a line begins with no directive, nothing is set apart. -/
theorem afterLeading_of_none {s : Text} (h : directiveAt? s = none) : afterLeading s = s := by
  rw [afterLeading]
  split
  · next h' => rw [h] at h'; cases h'
  · rfl

/-- What is left of a line is its end. -/
theorem afterLeading_suffix (s : Text) : afterLeading s <:+ s := by
  fun_induction afterLeading s with
  | case1 s ids rest hd ih =>
    obtain ⟨blanks, first, tail, rfl, -⟩ := directiveAt?_eq_some_iff.1 hd
    refine ih.trans ((trimStart_suffix rest).trans ?_)
    exact ⟨directiveOpening ++ (blanks ++ (ids ++ ['\x7d'])), by simp⟩
  | case2 s hd => exact List.suffix_refl s

/-- Nothing is set apart of a line that begins with no directive. -/
theorem splitLeading_of_none {s : Text} (h : directiveAt? s = none) : splitLeading s = ([], s) := by
  simp only [splitLeading, afterLeading_of_none h, Nat.sub_self, List.take_zero, trimEnd_nil]

/-- A directive at the front is set apart, with the blanks after it. -/
theorem afterLeading_of_directive {d ids : Text} (hd : directiveAt? d = some (ids, []))
    (s : Text) : afterLeading (d ++ s) = afterLeading (trimStart s) := by
  have hfirst := directiveAt?_append hd s
  rw [afterLeading]
  split
  · next ids' rest h =>
    rw [hfirst] at h
    cases h
    rfl
  · next h => rw [hfirst] at h; cases h

/-- **A directive and a space in front of a line** are set apart from what the line is without
them. -/
theorem afterLeading_leading {d ids : Text} (hd : directiveAt? d = some (ids, [])) {s : Text}
    (hs : trimStart s = s) : afterLeading (d ++ ' ' :: s) = afterLeading s := by
  rw [afterLeading_of_directive hd, ← List.singleton_append, trimStart_append_of_blank (by rfl),
    hs]

/-- A directive in front of a line joins the directives that the line begins with. -/
theorem directives_leading {d ids : Text} (hd : directiveAt? d = some (ids, [])) {s : Text}
    (hs : trimStart s = s) :
    (splitLeading (d ++ ' ' :: s)).1 =
      if (splitLeading s).1.isEmpty then d else d ++ ' ' :: (splitLeading s).1 := by
  have hle := (afterLeading_suffix s).length_le
  have htake : (d ++ ' ' :: s).take ((d ++ ' ' :: s).length - (afterLeading s).length) =
      d ++ ' ' :: s.take (s.length - (afterLeading s).length) := by
    rw [show (d ++ ' ' :: s).length - (afterLeading s).length =
      d.length + (s.length - (afterLeading s).length + 1) by
        rw [List.length_append, List.length_cons]; omega]
    rw [List.take_length_add_append, List.take_succ_cons]
  have hparts (t : Text) :
      (splitLeading t).1 = trimEnd (t.take (t.length - (afterLeading t).length)) := rfl
  rw [hparts, hparts, afterLeading_leading hd hs, htake]
  cases hblank : isBlankText (s.take (s.length - (afterLeading s).length)) with
  | true =>
    have hspace : isBlankText (' ' :: s.take (s.length - (afterLeading s).length)) = true := by
      rw [isBlankText_cons, hblank]; rfl
    rw [trimEnd_eq_nil_iff.2 hblank, trimEnd_append_of_blank d hspace,
      (trim_eq_self_iff.1 (trim_directive hd)).2]
    rfl
  | false =>
    have hne : trimEnd (s.take (s.length - (afterLeading s).length)) ≠ [] := by
      rw [Ne, trimEnd_eq_nil_iff, hblank]
      exact Bool.false_ne_true
    rw [if_neg (by rwa [List.isEmpty_iff]), ← List.singleton_append, ← List.append_assoc,
      trimEnd_append _ hblank, List.append_assoc, List.singleton_append]

end ComponentPages
