import ComponentPages.Proofs.DirectivesWithin

/-!
# Gaps between directives

A text is made of its directives and of the gaps between them. Taking the directives out loses
nothing else but spaces and tabs at the ends of the gaps.

- **`directive_induction`** — a text has no directive, or begins with a gap, a directive and a rest.
- **`directiveSpans`** — the places of the directives; **`mem_directiveSpans_iff`** says that none
  is missing, and **`spansFrom_inOrder`** that they do not overlap.
- **`stripAlong?`** — directives taken out by their places, with every slice checked;
  **`stripAlong?_eq`** says that no slice is out of bounds and nothing else comes out.
- **`KeptOf`**, **`exists_keptOf_closeGap`** — what is kept of a gap, one gap after another.
- **`stripDirectives_gaps`** — nothing is lost but directives.
-/

namespace ComponentPages

/-! ## The first directive -/

section First

variable {gap d ids rest t : Text}

/-- No directive begins in the gap when `t` follows it. -/
def NoneBegins (gap t : Text) : Prop := ∀ w, w <:+ gap → w ≠ [] → directiveAt? (w ++ t) = none

/-- No directive begins in a gap with one more character in front, where none begins at that
character. -/
theorem NoneBegins.cons {c : Char} (h : NoneBegins gap t)
    (hc : directiveAt? (c :: (gap ++ t)) = none) : NoneBegins (c :: gap) t := by
  intro w hw hne
  rcases List.suffix_cons_iff.1 hw with rfl | hw
  · exact hc
  · exact h w hw hne

theorem NoneBegins.of_cons {c : Char} (h : NoneBegins (c :: gap) t) :
    directiveAt? (c :: (gap ++ t)) = none ∧ NoneBegins gap t :=
  ⟨h (c :: gap) (List.suffix_refl _) (List.cons_ne_nil _ _),
    fun w hw hne => h w (hw.trans (List.suffix_cons c gap)) hne⟩

/-- No directive begins in a text without directives when nothing follows it. -/
theorem DirectiveFree.noneBegins (h : DirectiveFree gap) : NoneBegins gap [] := by
  intro w hw _
  rw [List.append_nil]
  exact h w hw

/-- The leftmost directive of a text, if it has any. -/
theorem exists_first_directive (s : Text) :
    DirectiveFree s ∨ ∃ gap d ids rest, s = gap ++ (d ++ rest) ∧
      directiveAt? d = some (ids, []) ∧ NoneBegins gap (d ++ rest) := by
  induction s with
  | nil => exact .inl directiveFree_nil
  | cons c s ih =>
    cases hat : directiveAt? (c :: s) with
    | some found =>
      obtain ⟨ids, rest⟩ := found
      obtain ⟨d, hd, heq⟩ := exists_directive_append hat
      refine .inr ⟨[], d, ids, rest, heq, hd, fun w hw hne => ?_⟩
      exact absurd (List.suffix_nil.1 hw) hne
    | none =>
      rcases ih with hfree | ⟨gap, d, ids, rest, rfl, hd, hgap⟩
      · exact .inl (directiveFree_cons_iff.2 ⟨hat, hfree⟩)
      · exact .inr ⟨c :: gap, d, ids, rest, rfl, hd, hgap.cons hat⟩

/-- **Induction along the directives of a text**: it has none, or it is a gap, the leftmost of them
and the rest. -/
@[elab_as_elim]
theorem directive_induction {motive : Text → Prop} (free : ∀ s, DirectiveFree s → motive s)
    (first : ∀ gap d ids rest, directiveAt? d = some (ids, []) → NoneBegins gap (d ++ rest) →
      motive rest → motive (gap ++ (d ++ rest))) (s : Text) : motive s := by
  rcases exists_first_directive s with hfree | ⟨gap, d, ids, rest, hs, hd, hgap⟩
  · exact free s hfree
  · have hshorter : rest.length < s.length := by
      have hpos := List.length_pos_of_ne_nil (ne_nil_of_directive hd)
      rw [hs, List.length_append, List.length_append]
      omega
    rw [hs]
    exact first gap d ids rest hd hgap (directive_induction free first rest)
termination_by s.length

/-- A text is cut nowhere in its first gap. -/
theorem cutDirectives_append (h : NoneBegins gap t) :
    cutDirectives (gap ++ t) = ⟨gap ++ (cutDirectives t).before, (cutDirectives t).pieces⟩ := by
  induction gap with
  | nil => rfl
  | cons c gap ih =>
    obtain ⟨hc, hgap⟩ := h.of_cons
    rw [List.cons_append, cutDirectives_of_none hc, ih hgap]
    rfl

/-- **The cut at the leftmost directive.** -/
theorem cutDirectives_first (hd : directiveAt? d = some (ids, []))
    (hgap : NoneBegins gap (d ++ rest)) :
    cutDirectives (gap ++ (d ++ rest)) =
      ⟨gap, (ids, (cutDirectives rest).before) :: (cutDirectives rest).pieces⟩ := by
  rw [cutDirectives_append hgap, cutDirectives_of_some (directiveAt?_append hd rest),
    List.nil_append, Cut.mark, List.append_nil]

/-- Where the first gap ends, the text ends or a directive begins. -/
theorem exists_before_append (s : Text) :
    ∃ more, s = (cutDirectives s).before ++ more ∧ (more = [] ∨ ∃ e, more = '\x7b' :: e) := by
  rcases exists_first_directive s with hfree | ⟨gap, d, ids, rest, rfl, hd, hgap⟩
  · exact ⟨[], by rw [cutDirectives_of_free hfree, List.append_nil], .inl rfl⟩
  · obtain ⟨e, rfl, -⟩ := exists_cons_of_directive hd
    exact ⟨'\x7b' :: e ++ rest, by rw [cutDirectives_first hd hgap], .inr ⟨e ++ rest, rfl⟩⟩

/-- A directive within a text is the leftmost one, or it stands after that. -/
theorem eq_or_exists_of_append_eq {d' list front rest' : Text}
    (hd : directiveAt? d = some (ids, [])) (hgap : NoneBegins gap (d ++ rest))
    (hd' : directiveAt? d' = some (list, [])) (h : gap ++ (d ++ rest) = front ++ (d' ++ rest')) :
    (front = gap ∧ d' = d ∧ rest' = rest) ∨
      ∃ more, front = gap ++ (d ++ more) ∧ rest = more ++ (d' ++ rest') := by
  rcases List.append_eq_append_iff.1 h with ⟨past, rfl, hpast⟩ | ⟨past, rfl, hpast⟩
  · rcases List.append_eq_append_iff.1 hpast with ⟨more, rfl, hrest⟩ | ⟨left, hleft, hrest⟩
    · exact .inr ⟨more, rfl, hrest⟩
    · cases past with
      | nil =>
        -- both begin at the same place
        have hat := directiveAt?_append hd rest
        rw [hpast, List.nil_append, directiveAt?_append hd'] at hat
        cases hat
        exact .inl ⟨List.append_nil gap, (List.append_cancel_right hpast).symm, rfl⟩
      | cons c past =>
        obtain ⟨e, rfl, he⟩ := exists_cons_of_directive hd
        cases left with
        | nil =>
          rw [List.append_nil] at hleft
          exact .inr ⟨[], by rw [List.append_nil, hleft], hrest.symm⟩
        | cons b left =>
          -- the brace of the second would stand within the first
          obtain ⟨e', rfl, -⟩ := exists_cons_of_directive hd'
          rw [List.cons_append, List.cons_append] at hrest
          obtain rfl := (List.cons.inj hrest).1
          refine absurd ?_ he
          rw [(List.cons.inj hleft).2]
          exact List.mem_append_right _ (List.mem_cons_self ..)
  · cases past with
    | nil =>
      have hat := directiveAt?_append hd' rest'
      rw [hpast, List.nil_append, directiveAt?_append hd] at hat
      cases hat
      exact .inl ⟨(List.append_nil front).symm, List.append_cancel_right hpast, rfl⟩
    | cons c past =>
      -- it would begin in the gap
      have hnone := hgap (c :: past) (List.suffix_append front _) (List.cons_ne_nil _ _)
      rw [← hpast, directiveAt?_append hd'] at hnone
      cases hnone

end First

/-! ## The places of the directives -/

/-- Where a directive stands in a text, counted in characters, and its id list. -/
structure Span where
  start : Nat
  stop : Nat
  list : Text
deriving DecidableEq, Repr

/-- The places of the directives of a text that begins at `pos`, found from left to right. -/
def spansFrom (pos : Nat) (s : Text) : List Span :=
  match _h : directiveAt? s with
  | some (ids, rest) =>
    let stop := pos + (s.length - rest.length)
    ⟨pos, stop, ids⟩ :: spansFrom stop rest
  | none =>
    match s with
    | [] => []
    | _ :: rest => spansFrom (pos + 1) rest
termination_by s.length
decreasing_by
  · exact length_lt_of_directiveAt? _h
  · simp

/-- The places of the directives of a text. -/
def directiveSpans (s : Text) : List Span := spansFrom 0 s

/-- The span is that of a directive within a text that begins at `pos`. -/
def Span.Marks (f : Span) (pos : Nat) (s : Text) : Prop :=
  ∃ front d rest, s = front ++ (d ++ rest) ∧ directiveAt? d = some (f.list, []) ∧
    f.start = pos + front.length ∧ f.stop = f.start + d.length

section Spans

variable {gap d ids rest s t : Text} {f : Span}

@[simp] theorem spansFrom_nil (pos : Nat) : spansFrom pos [] = [] := by
  rw [spansFrom]; rfl

theorem spansFrom_of_none {c : Char} (h : directiveAt? (c :: s) = none) (pos : Nat) :
    spansFrom pos (c :: s) = spansFrom (pos + 1) s := by
  rw [spansFrom]
  split
  · next h' => rw [h] at h'; cases h'
  · rfl

theorem spansFrom_of_directive (hd : directiveAt? d = some (ids, [])) (pos : Nat) :
    spansFrom pos (d ++ rest) =
      ⟨pos, pos + d.length, ids⟩ :: spansFrom (pos + d.length) rest := by
  have hat := directiveAt?_append hd rest
  rw [spansFrom]
  split
  · next h =>
    rw [hat] at h
    cases h
    rw [List.nil_append, List.length_append, Nat.add_sub_cancel]
  · next h => rw [hat] at h; cases h

/-- No place is found in the first gap. -/
theorem spansFrom_append (h : NoneBegins gap t) (pos : Nat) :
    spansFrom pos (gap ++ t) = spansFrom (pos + gap.length) t := by
  induction gap generalizing pos with
  | nil => rfl
  | cons c gap ih =>
    obtain ⟨hc, hgap⟩ := h.of_cons
    rw [List.cons_append, spansFrom_of_none hc, ih hgap, List.length_cons, Nat.add_right_comm,
      Nat.add_assoc]

theorem spansFrom_of_free (h : DirectiveFree s) (pos : Nat) : spansFrom pos s = [] := by
  rw [← List.append_nil s, spansFrom_append h.noneBegins, spansFrom_nil]

/-- **The place of the leftmost directive** comes before those of the rest. -/
theorem spansFrom_first (hd : directiveAt? d = some (ids, []))
    (hgap : NoneBegins gap (d ++ rest)) (pos : Nat) :
    spansFrom pos (gap ++ (d ++ rest)) =
      ⟨pos + gap.length, pos + gap.length + d.length, ids⟩ ::
        spansFrom (pos + gap.length + d.length) rest := by
  rw [spansFrom_append hgap, spansFrom_of_directive hd]

theorem mem_spansFrom_iff {pos : Nat} : f ∈ spansFrom pos s ↔ f.Marks pos s := by
  induction s using directive_induction generalizing pos with
  | free s hfree =>
    rw [spansFrom_of_free hfree]
    refine ⟨fun h => (by cases h), ?_⟩
    rintro ⟨front, d, rest, rfl, hd, -⟩
    exact absurd (List.infix_append' front d rest) (hfree.not_isInfix hd)
  | first gap d ids rest hd hgap ih =>
    rw [spansFrom_first hd hgap, List.mem_cons, ih]
    constructor
    · rintro (rfl | ⟨front, d', rest', rfl, hd', hstart, hstop⟩)
      · exact ⟨gap, d, rest, rfl, hd, rfl, rfl⟩
      · refine ⟨gap ++ (d ++ front), d', rest', by simp, hd', ?_, hstop⟩
        rw [hstart, List.length_append, List.length_append]
        omega
    · rintro ⟨front, d', rest', heq, hd', hstart, hstop⟩
      rcases eq_or_exists_of_append_eq hd hgap hd' heq with ⟨rfl, rfl, rfl⟩ | ⟨more, rfl, hrest⟩
      · left
        rw [hd] at hd'
        cases hd'
        obtain ⟨start, stop, list⟩ := f
        dsimp only at hstart hstop
        rw [hstop, hstart]
      · refine .inr ⟨more, d', rest', hrest, hd', ?_, hstop⟩
        rw [hstart, List.length_append, List.length_append]
        omega

/-- **No directive is missing**: the places are those of all directives within the text. -/
theorem mem_directiveSpans_iff : f ∈ directiveSpans s ↔ f.Marks 0 s := mem_spansFrom_iff

/-- **The directives stand one after another** and do not overlap. -/
theorem spansFrom_inOrder (pos : Nat) (s : Text) :
    (spansFrom pos s).Pairwise fun f g => f.stop ≤ g.start := by
  induction s using directive_induction generalizing pos with
  | free s hfree =>
    rw [spansFrom_of_free hfree]
    exact .nil
  | first gap d ids rest hd hgap ih =>
    rw [spansFrom_first hd hgap]
    refine .cons (fun g hg => ?_) (ih _)
    obtain ⟨front, d', rest', -, -, hstart, -⟩ := mem_spansFrom_iff.1 hg
    rw [hstart]
    exact Nat.le_add_right _ _

/-- The id lists of the directives are those at their places. -/
theorem map_list_spansFrom (pos : Nat) (s : Text) :
    (spansFrom pos s).map Span.list = (cutDirectives s).pieces.map Prod.fst := by
  induction s using directive_induction generalizing pos with
  | free s hfree => rw [spansFrom_of_free hfree, cutDirectives_of_free hfree]; rfl
  | first gap d ids rest hd hgap ih =>
    rw [spansFrom_first hd hgap, cutDirectives_first hd hgap, List.map_cons, List.map_cons, ih]

end Spans

/-! ## The gaps between the places -/

/-- What a text holds between the spans, from the position `last` on. -/
def gapsFrom (s : Text) (last : Nat) : List Span → List Text
  | [] => [s.drop last]
  | f :: fs => (s.take f.start).drop last :: gapsFrom s f.stop fs

/-- What a text holds before, between and after its directives. -/
def gapsBetween (s : Text) : List Text := gapsFrom s 0 (directiveSpans s)

/-- The gaps of a text are those at which it is cut. -/
theorem gapsFrom_spansFrom (pre t : Text) :
    gapsFrom (pre ++ t) pre.length (spansFrom pre.length t) =
      (cutDirectives t).before :: (cutDirectives t).pieces.map Prod.snd := by
  induction t using directive_induction generalizing pre with
  | free t hfree =>
    rw [spansFrom_of_free hfree, cutDirectives_of_free hfree, gapsFrom, List.drop_left]
    rfl
  | first gap d ids rest hd hgap ih =>
    have hrest := ih (pre ++ (gap ++ d))
    rw [List.length_append, List.length_append, ← Nat.add_assoc] at hrest
    have hslice : ((pre ++ (gap ++ (d ++ rest))).take (pre.length + gap.length)).drop pre.length =
        gap := by
      rw [List.take_length_add_append, List.drop_left, List.take_left]
    rw [spansFrom_first hd hgap, cutDirectives_first hd hgap, gapsFrom, hslice, List.map_cons,
      ← hrest]
    simp only [List.append_assoc]

theorem gapsBetween_eq (s : Text) :
    gapsBetween s = (cutDirectives s).before :: (cutDirectives s).pieces.map Prod.snd :=
  gapsFrom_spansFrom [] s

/-- A text without directives is its only gap. -/
theorem gapsBetween_of_free {s : Text} (h : DirectiveFree s) : gapsBetween s = [s] := by
  rw [gapsBetween_eq, cutDirectives_of_free h]
  rfl

/-- The gap before the leftmost directive comes before those of the rest. -/
theorem gapsBetween_first {gap d ids rest : Text} (hd : directiveAt? d = some (ids, []))
    (hgap : NoneBegins gap (d ++ rest)) :
    gapsBetween (gap ++ (d ++ rest)) = gap :: gapsBetween rest := by
  rw [gapsBetween_eq, gapsBetween_eq, cutDirectives_first hd hgap, List.map_cons]

/-! ## Taking directives out by their places -/

/-- The part of a text between two positions, if they are in order and within the text. -/
def slice? (s : Text) (first last : Nat) : Option Text :=
  if first ≤ last ∧ last ≤ s.length then some ((s.take last).drop first) else none

/-- The text `out` with what follows in `s` from the position `last` on, but for the directives that
stand at the given places: the gaps are copied one after another, spaces are dropped from `out`
where punctuation follows, and passed over in `s` where `out` ends in one. -/
def stripFrom? (s out : Text) (last : Nat) : List Span → Option Text
  | [] => return out ++ (← slice? s last s.length)
  | f :: fs => do
    let before := out ++ (← slice? s last f.start)
    let rest ← slice? s f.stop s.length
    if beginsHugging rest then stripFrom? s (dropEndWhile isIndent before) f.stop fs
    else if before.isEmpty || endsIndented before then
      stripFrom? s before (f.stop + (rest.takeWhile isIndent).length) fs
    else stripFrom? s before f.stop fs

/-- The text without its directives, by their places, if no slice is out of bounds. -/
def stripAlong? (s : Text) : Option Text := stripFrom? s [] 0 (directiveSpans s)

/-- A slice between two parts of a text is what stands there, from some character of it on. -/
theorem slice?_middle (pre s post : Text) {k : Nat} (hk : k ≤ s.length) :
    slice? (pre ++ (s ++ post)) (pre.length + k) (pre.length + s.length) = some (s.drop k) := by
  rw [slice?, if_pos, List.take_length_add_append, List.take_left, List.drop_length_add_append]
  constructor
  · omega
  · rw [List.length_append, List.length_append]
    omega

/-- A slice at the end of a text is what stands there, from some character of it on. -/
theorem slice?_end (pre s : Text) {k : Nat} (hk : k ≤ s.length) :
    slice? (pre ++ s) (pre.length + k) (pre ++ s).length = some (s.drop k) := by
  have h := slice?_middle pre s [] hk
  rwa [List.append_nil, ← List.length_append] at h

/-- Whether punctuation follows is decided by the first gap. -/
theorem beginsHugging_before (s : Text) :
    beginsHugging (cutDirectives s).before = beginsHugging s := by
  obtain ⟨more, hs, hmore⟩ := exists_before_append s
  cases hbefore : (cutDirectives s).before with
  | cons c gap => rw [hs, hbefore]; rfl
  | nil =>
    rw [hbefore, List.nil_append] at hs
    rcases hmore with rfl | ⟨e, rfl⟩
    · rw [hs]
    · rw [hs]; rfl

/-- The spaces and tabs that a text begins with are those that its first gap begins with. -/
theorem takeWhile_before (s : Text) :
    (cutDirectives s).before.takeWhile isIndent = s.takeWhile isIndent := by
  obtain ⟨more, hs, hmore⟩ := exists_before_append s
  have hstop : more.takeWhile isIndent = [] := by
    rcases hmore with rfl | ⟨e, rfl⟩
    · rfl
    · rfl
  generalize (cutDirectives s).before = gap at hs ⊢
  rw [hs]
  clear hs
  induction gap with
  | nil => exact hstop.symm
  | cons c gap ih =>
    rw [List.cons_append, List.takeWhile_cons, List.takeWhile_cons, ih]

/-- **No slice is out of bounds** when the directives are taken out from left to right, and the gaps
are put together one after another. -/
theorem stripFrom?_spansFrom (t pre out : Text) {k : Nat}
    (hk : k ≤ (cutDirectives t).before.length) :
    stripFrom? (pre ++ t) out (pre.length + k) (spansFrom pre.length t) =
      some (((cutDirectives t).pieces.map Prod.snd).foldl closeGap
        (out ++ (cutDirectives t).before.drop k)) := by
  induction t using directive_induction generalizing pre out k with
  | free t hfree =>
    rw [cutDirectives_of_free hfree] at hk ⊢
    rw [spansFrom_of_free hfree, stripFrom?, slice?_end pre t hk]
    rfl
  | first gap d ids rest hd hgap ih =>
    rw [cutDirectives_first hd hgap] at hk ⊢
    have hstop : (pre ++ (gap ++ d)).length = pre.length + gap.length + d.length := by
      rw [List.length_append, List.length_append, Nat.add_assoc]
    have hs : pre ++ (gap ++ (d ++ rest)) = pre ++ (gap ++ d) ++ rest := by
      simp only [List.append_assoc]
    -- the text is read up to the directive, and what follows it is looked at
    have hslice := slice?_middle pre gap (d ++ rest) hk
    have hrest := slice?_end (pre ++ (gap ++ d)) rest (Nat.zero_le _)
    have hgo (out' : Text) {j : Nat} (hj : j ≤ (cutDirectives rest).before.length) :=
      ih (pre ++ (gap ++ d)) out' hj
    simp only [← hs, hstop, Nat.add_zero, List.drop_zero] at hrest hgo
    rw [spansFrom_first hd hgap, stripFrom?, hslice]
    simp only [Option.bind_eq_bind, Option.bind_some, hrest]
    rw [List.map_cons, List.foldl_cons, closeGap, beginsHugging_before]
    have hgo₀ (out' : Text) := hgo out' (Nat.zero_le _)
    simp only [Nat.add_zero, List.drop_zero] at hgo₀
    split
    · exact hgo₀ _
    · split
      · -- the spaces that are passed over are those that the first gap begins with
        have hspaces := List.takeWhile_append_dropWhile (p := isIndent)
          (l := (cutDirectives rest).before)
        rw [takeWhile_before] at hspaces
        rw [hgo _ (by rw [← hspaces, List.length_append]; omega)]
        congr 3
        nth_rewrite 1 [← hspaces]
        exact List.drop_left
      · exact hgo₀ _

/-- **Taking directives out by their places** gives the text without its directives. -/
theorem stripAlong?_eq (s : Text) : stripAlong? s = some (stripDirectives s).1 :=
  stripFrom?_spansFrom s [] [] (Nat.zero_le _)

/-! ## What is kept of the gaps -/

/-- All of a gap is kept but spaces and tabs at its ends. -/
def KeptOf (kept gap : Text) : Prop :=
  ∃ front back, gap = front ++ (kept ++ back) ∧ front.all isIndent = true ∧
    back.all isIndent = true

theorem KeptOf.refl (gap : Text) : KeptOf gap gap := ⟨[], [], by simp, rfl, rfl⟩

/-- Spaces may be dropped at the beginning. -/
theorem keptOf_dropWhile (gap : Text) : KeptOf (gap.dropWhile isIndent) gap :=
  ⟨gap.takeWhile isIndent, [], by rw [List.append_nil, List.takeWhile_append_dropWhile],
    List.all_takeWhile, rfl⟩

/-- What is kept of a gap may lose the spaces and tabs at its end. -/
theorem KeptOf.dropEnd {kept gap : Text} (h : KeptOf kept gap) :
    KeptOf (dropEndWhile isIndent kept) gap := by
  obtain ⟨front, back, rfl, hfront, hback⟩ := h
  have hkept : dropEndWhile isIndent kept ++ kept.rtakeWhile isIndent = kept :=
    List.rdropWhile_append_rtakeWhile
  refine ⟨front, kept.rtakeWhile isIndent ++ back, ?_, hfront, ?_⟩
  · rw [← List.append_assoc (dropEndWhile isIndent kept), hkept]
  · rw [List.all_append, hback, Bool.and_true, List.all_eq_true]
    exact fun c hc => List.mem_rtakeWhile_imp hc

/-- The end of two texts is that of the second, unless nothing is left of it. -/
theorem dropEndWhile_append (p : Char → Bool) (s t : Text) :
    dropEndWhile p (s ++ t) =
      if dropEndWhile p t = [] then dropEndWhile p s else s ++ dropEndWhile p t := by
  simp only [dropEndWhile, List.reverse_append, List.dropWhile_append, List.isEmpty_iff,
    List.reverse_eq_nil_iff]
  split
  · rfl
  · rw [List.reverse_append, List.reverse_reverse]

/-- Spaces that are dropped at the end of all that is kept may belong to more than one gap. -/
theorem exists_keptOf_dropEnd {kept gaps : List Text} (h : List.Forall₂ KeptOf kept gaps) :
    ∃ kept', List.Forall₂ KeptOf kept' gaps ∧
      kept'.flatten = dropEndWhile isIndent kept.flatten := by
  induction h with
  | nil => exact ⟨[], .nil, rfl⟩
  | @cons k gap kept gaps hk h ih =>
    obtain ⟨kept', hkept', hflatten⟩ := ih
    rw [List.flatten_cons, dropEndWhile_append, ← hflatten]
    split
    · next hnil =>
      refine ⟨_, .cons hk.dropEnd hkept', ?_⟩
      rw [List.flatten_cons, hnil, List.append_nil]
    · exact ⟨_, .cons hk hkept', List.flatten_cons⟩

/-- **One more gap**: all of it is kept, and all of those before, but for spaces at the ends. -/
theorem exists_keptOf_closeGap {kept gaps : List Text} (h : List.Forall₂ KeptOf kept gaps)
    (gap : Text) :
    ∃ kept', List.Forall₂ KeptOf kept' (gaps ++ [gap]) ∧
      kept'.flatten = closeGap kept.flatten gap := by
  have hadd {ks : List Text} (hks : List.Forall₂ KeptOf ks gaps) {k : Text} (hk : KeptOf k gap) :
      List.Forall₂ KeptOf (ks ++ [k]) (gaps ++ [gap]) :=
    List.rel_append hks (.cons hk .nil)
  unfold closeGap
  split
  · obtain ⟨kept', hkept', hflatten⟩ := exists_keptOf_dropEnd h
    exact ⟨_, hadd hkept' (.refl gap), by rw [List.flatten_concat, hflatten]⟩
  · split
    · exact ⟨_, hadd h (keptOf_dropWhile gap), List.flatten_concat⟩
    · exact ⟨_, hadd h (.refl gap), List.flatten_concat⟩

/-- Of any number of gaps all is kept but spaces and tabs at their ends. -/
theorem exists_keptOf_foldl (gaps : List Text) {kept before : List Text}
    (h : List.Forall₂ KeptOf kept before) :
    ∃ kept', List.Forall₂ KeptOf kept' (before ++ gaps) ∧
      kept'.flatten = gaps.foldl closeGap kept.flatten := by
  induction gaps generalizing kept before with
  | nil => exact ⟨kept, by rwa [List.append_nil], rfl⟩
  | cons gap gaps ih =>
    obtain ⟨kept', hkept', hflatten⟩ := exists_keptOf_closeGap h gap
    obtain ⟨all, hall, hfold⟩ := ih hkept'
    refine ⟨all, by rwa [List.append_assoc, List.singleton_append] at hall, ?_⟩
    rw [hfold, hflatten, List.foldl_cons]

/-- All of every gap is kept but spaces and tabs at its ends. -/
theorem exists_keptOf_stripDirectives (s : Text) :
    ∃ kept, List.Forall₂ KeptOf kept (gapsBetween s) ∧ (stripDirectives s).1 = kept.flatten := by
  obtain ⟨kept, hkept, hflatten⟩ := exists_keptOf_foldl ((cutDirectives s).pieces.map Prod.snd)
    (.cons (.refl (cutDirectives s).before) .nil)
  refine ⟨kept, ?_, ?_⟩
  · rw [gapsBetween_eq]
    exact hkept
  · rw [hflatten, List.flatten_singleton]
    rfl

/-- Only a text without directives has no place of any. -/
theorem directiveFree_of_directiveSpans_eq_nil {s : Text} (h : directiveSpans s = []) :
    DirectiveFree s := by
  have hlists := map_list_spansFrom 0 s
  rw [show spansFrom 0 s = [] from h] at hlists
  exact directiveFree_of_pieces_eq_nil (List.map_eq_nil_iff.1 hlists.symm)

/-- **Taking the directives out of a text loses nothing but them**: they are all directives of the
text, one after another; taking them out by their places meets no slice that is out of bounds; the
ids are those of their lists; and all of every gap is kept but spaces and tabs at its ends, the gap
as it is where it is the only one. -/
theorem stripDirectives_gaps (s : Text) :
    (∀ f, f ∈ directiveSpans s ↔ f.Marks 0 s) ∧
    (directiveSpans s).Pairwise (fun f g => f.stop ≤ g.start) ∧
    stripAlong? s = some (stripDirectives s).1 ∧
    (stripDirectives s).2 = (directiveSpans s).flatMap (fun f => splitIds f.list) ∧
    ∃ kept, List.Forall₂ KeptOf kept (gapsBetween s) ∧ (stripDirectives s).1 = kept.flatten ∧
      (directiveSpans s = [] → kept = gapsBetween s) := by
  refine ⟨fun f => mem_directiveSpans_iff, spansFrom_inOrder 0 s, stripAlong?_eq s, ?_, ?_⟩
  · show (cutDirectives s).ids = _
    rw [Cut.ids, ← map_list_spansFrom 0 s, List.flatMap_map]
    rfl
  · by_cases hnone : directiveSpans s = []
    · have hfree := directiveFree_of_directiveSpans_eq_nil hnone
      rw [gapsBetween_of_free hfree, stripDirectives_of_free hfree]
      exact ⟨[s], .cons (.refl s) .nil, List.flatten_singleton.symm, fun _ => rfl⟩
    · obtain ⟨kept, hkept, hflatten⟩ := exists_keptOf_stripDirectives s
      exact ⟨kept, hkept, hflatten, fun h => absurd h hnone⟩

end ComponentPages
