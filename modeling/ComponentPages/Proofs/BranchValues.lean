import ComponentPages.Proofs.CompactJson
import ComponentPages.Proofs.LiteralCuts
import ComponentPages.Proofs.PlatformChoices

/-!
# Brackets in the values of branches

A default value that is balanced is split into values that are, where it is cut between whole
pieces. The text of a JSON string is another matter: it is shown without its quotation marks.

- **`Balanced.of_mem_splitTopLevel`**, **`balanced_inside`** — the parts of balanced text, and what
  stands in its braces.
- **`platformBranches?_cases`** — where the branches of a value come from.
- **`HasWholePieces`** — the pieces around and between the values are whole.
- **`balanced_or_isTextMember`** — there each branch has a balanced value, or the text of a string.
-/

namespace ComponentPages

/-! ## Parts of balanced text -/

section Parts

variable {sep : Char} {front s back : Text}

theorem Balanced.closesOwn (h : Balanced s) : ClosesOwn s :=
  let ⟨_, hrun⟩ := balanced_iff.1 h
  Option.isSome_iff_exists.2 ⟨_, hrun⟩

/-- Whole text in front makes no difference. -/
theorem balanced_append_iff (hfront : Whole front) : Balanced (front ++ s) ↔ Balanced s := by
  rw [balanced_iff, balanced_iff, Reading.run?_append, whole_iff.1 hfront, Option.bind_some]

/-- A text that is balanced with text without brackets behind it is balanced. -/
theorem Balanced.of_append (hback : Unmarked back) (h : Balanced (s ++ back)) : Balanced s := by
  obtain ⟨place, hrun⟩ := balanced_iff.1 h
  rw [Reading.run?_append, Option.bind_eq_some_iff] at hrun
  obtain ⟨r, hr, hrest⟩ := hrun
  exact ⟨r, hr, (Reading.awaited_of_run? hback hrest).symm⟩

theorem unmarked_of_isBlankText (h : isBlankText s = true) : Unmarked s := fun c hc =>
  isMark_eq_false_of (p := isBlank) (by decide) (List.all_eq_true.1 h c hc)

/-- A text is the trimmed text between blanks. -/
theorem exists_blanks_around (s : Text) :
    ∃ front back, Unmarked front ∧ Unmarked back ∧ s = front ++ trim s ++ back := by
  obtain ⟨front, hfront, hs⟩ := exists_blank_append_trimStart s
  obtain ⟨back, hback, hstart⟩ := exists_trimEnd_append_blank (trimStart s)
  refine ⟨front, back, unmarked_of_isBlankText hfront, unmarked_of_isBlankText hback, ?_⟩
  rw [List.append_assoc, trim, ← hstart, ← hs]

theorem Balanced.trim (h : Balanced s) : Balanced (trim s) := by
  obtain ⟨front, back, hfront, hback, hs⟩ := exists_blanks_around s
  rw [hs, List.append_assoc, balanced_append_iff hfront.whole] at h
  exact h.of_append hback

/-- What ends in a backslash still does when whole text stands in front. -/
theorem EndsInBackslash.prepend (hfront : Whole front) (h : EndsInBackslash s) :
    EndsInBackslash (front ++ s) := by
  obtain ⟨mark, awaited, body, upto, after, ⟨before, rfl, hbefore, hmark, hbody⟩, hlast, rfl⟩ := h
  refine ⟨mark, awaited, body, front ++ (before ++ mark :: body), after,
    ⟨front ++ before, by simp, ?_, hmark, hbody⟩, hlast, by simp⟩
  rw [Reading.run?_append, whole_iff.1 hfront]
  exact hbefore

/-- **The parts of balanced text are balanced** where no literal ends in a backslash. -/
theorem Balanced.of_mem_splitTopLevel (hsep : IsNeutral sep) (h : Balanced s)
    (hends : ¬EndsInBackslash s) : ∀ part ∈ splitTopLevel sep s, Balanced part := by
  induction s using topLevel_induction hsep with
  | uncut s hs =>
    rw [splitTopLevel_of_uncut hsep hs]
    exact List.forall_mem_singleton.2 h
  | cut part rest hpart htop ih =>
    have hwhole : Whole part := (isTop_iff_whole h.closesOwn hends).1 htop
    have hfront : Whole (part ++ [sep]) := hwhole.append (.char hsep.isMark .nil)
    have htext : part ++ sep :: rest = (part ++ [sep]) ++ rest := by simp
    rw [htext] at h hends
    rw [splitTopLevel_append hsep hpart htop, List.forall_mem_cons]
    exact ⟨hwhole.balanced, ih ((balanced_append_iff hfront).1 h)
      fun hrest => hends (hrest.prepend hfront)⟩

/-- **What stands in braces is balanced** where the text is, unless the braces do not belong
together. -/
theorem balanced_inside {awaited : List Char} {inside : Text}
    (hfront : Reading.start.run? front = some ⟨awaited, .outside⟩)
    (hback : back.countP Nesting.closes ≤ awaited.length)
    (h : Balanced (front ++ inBraces inside ++ back)) (hown : ClosesOwn inside) :
    Balanced inside := by
  obtain ⟨r, hr⟩ := Option.isSome_iff_exists.1 hown
  obtain ⟨place, hrun⟩ := balanced_iff.1 h
  have htext : front ++ inBraces inside ++ back =
      front ++ '\x7b' :: (inside ++ '\x7d' :: back) := by
    simp [inBraces]
  have hinside : Reading.run? ⟨'\x7d' :: awaited, .outside⟩ inside =
      some (r.atop ('\x7d' :: awaited)) := Reading.run?_atop hr ('\x7d' :: awaited)
  rw [htext, Reading.run?_append, hfront, Option.bind_some, Reading.run?_cons,
    Reading.next?_opening rfl, Option.bind_some, Reading.run?_append, hinside, Option.bind_some]
    at hrun
  -- behind it there are just as many closing brackets as are awaited around it
  have hcount := Reading.length_awaited_le_of_run? hrun
  have hcloses : Nesting.closes '\x7d' = true := rfl
  simp only [Reading.atop, List.length_append, List.length_cons, List.length_nil,
    List.countP_cons, hcloses, if_true] at hcount
  exact ⟨r, hr, List.length_eq_zero_iff.1 (by omega)⟩

end Parts

/-! ## Where the branches come from -/

/-- The object whose entries are the branches of a value, if the value is no comparison. -/
def chosenObject? (value : Text) : Option Text :=
  match comparison? value with
  | some _ => none
  | none => (selectedObject? value).or (if isBraced value then some value else none)

/-- A branch whose value is the text of a JSON string. -/
def IsTextMember (value : Text) (b : Branch) : Prop :=
  ∃ object members, chosenObject? value = some object ∧
    Json.parse object = .ok (.object members) ∧ (b.platform, .string b.value) ∈ members

section Branches

variable {labels : List PlatformLabel} {value rest object inside platform : Text}
  {branches : List Branch} {b : Branch}

/-- The branches of a value are the values of a comparison or the entries of an object. -/
theorem platformBranches?_cases (h : platformBranches? labels value = some branches) :
    (∃ platform rest, comparison? value = some (platform, rest) ∧
      comparisonBranches? platform rest = some branches) ∨
    ∃ object, chosenObject? value = some object ∧
      (jsonBranches? object = some branches ∨
        jsonBranches? object = none ∧ objectBranches? object = some branches) := by
  have hobject {object : Text} (hknown : knownBranches? labels object = some branches) :
      jsonBranches? object = some branches ∨
        jsonBranches? object = none ∧ objectBranches? object = some branches := by
    unfold knownBranches? at hknown
    split at hknown
    · next found hfound =>
      obtain ⟨-, rfl⟩ := Option.ite_none_right_eq_some.1 hknown |>.imp_right Option.some.inj
      exact Option.or_eq_some_iff.1 hfound
    · cases hknown
  unfold platformBranches? at h
  split at h
  · next platform rest hcomparison => exact .inl ⟨platform, rest, hcomparison, h⟩
  next hcomparison =>
    refine .inr ?_
    simp only [chosenObject?, hcomparison]
    split at h
    · next object hselected => exact ⟨object, by simp [hselected], hobject h⟩
    next hselected =>
      obtain ⟨hbraced, hknown⟩ := Option.ite_none_right_eq_some.1 h
      exact ⟨value, by simp [hselected, hbraced], hobject hknown⟩

/-- The object of a selection stands in its parentheses, with blanks around it or not. -/
theorem exists_around_of_selectedObject? (h : selectedObject? value = some object) :
    ∃ inside front back, object = inBraces inside ∧ Unmarked front ∧ Unmarked back ∧
      value = ("Platform.select(".toList ++ front) ++ object ++ (back ++ [')']) := by
  unfold selectedObject? at h
  split at h
  · next inner hinner =>
    obtain ⟨hlast, hrest⟩ := Option.ite_none_right_eq_some.1 h
    obtain ⟨hbraced, hobject⟩ := Option.ite_none_right_eq_some.1 hrest
    obtain ⟨init, rfl⟩ := List.getLast?_eq_some_iff.1 hlast
    rw [List.dropLast_concat] at hbraced hobject
    obtain ⟨front, back, hfront, hback, hinit⟩ := exists_blanks_around init
    obtain ⟨inside, hinside⟩ := isBraced_iff.1 hbraced
    rw [Option.some.inj hobject] at hinit hinside
    refine ⟨inside, front, back, hinside, hfront, hback, ?_⟩
    rw [eq_append_of_afterPart? hinner, hinit]
    simp only [List.append_assoc]
  · cases h

/-- What stands around the chosen object closes no more brackets behind it than it opens in
front. -/
theorem exists_around_of_chosenObject? (h : chosenObject? value = some object) :
    ∃ inside front back awaited, object = inBraces inside ∧ value = front ++ object ++ back ∧
      Reading.start.run? front = some ⟨awaited, .outside⟩ ∧
      back.countP Nesting.closes ≤ awaited.length := by
  unfold chosenObject? at h
  split at h
  · cases h
  · rcases Option.or_eq_some_iff.1 h with hselected | ⟨-, hwhole⟩
    · obtain ⟨inside, front, back, hobject, hfront, hback, hvalue⟩ :=
        exists_around_of_selectedObject? hselected
      refine ⟨inside, _, _, [')'], hobject, hvalue, ?_, ?_⟩
      · rw [Reading.run?_append]
        exact Reading.run?_whole hfront.whole
      · have hnone : back.countP Nesting.closes = 0 := List.countP_eq_zero.2 fun c hc => by
          rw [(isMark_eq_false_iff.1 (hback c hc)).2.2]
          exact Bool.false_ne_true
        rw [List.countP_append, hnone]
        exact Nat.le_refl 1
    · obtain ⟨hbraced, rfl⟩ := Option.ite_none_right_eq_some.1 hwhole |>.imp_right Option.some.inj
      obtain ⟨inside, hinside⟩ := isBraced_iff.1 hbraced
      exact ⟨inside, [], [], [], hinside, by simp, rfl, Nat.le_refl 0⟩

/-- Both values of a comparison are trimmed parts of what follows the question mark. -/
theorem exists_part_of_comparisonBranches? (h : comparisonBranches? platform rest = some branches)
    (hb : b ∈ branches) : ∃ part ∈ splitTopLevel ':' rest, b.value = trim part := by
  unfold comparisonBranches? at h
  split at h
  · next other yes no hother hparts =>
    rw [hparts]
    obtain ⟨-, rfl⟩ := Option.ite_none_left_eq_some.1 h |>.imp_right Option.some.inj
    rcases List.mem_pair.1 hb with rfl | rfl
    · exact ⟨yes, List.mem_cons_self .., rfl⟩
    · exact ⟨no, List.mem_cons_of_mem _ (List.mem_cons_self ..), rfl⟩
  · cases h

/-- A value in an object is what follows the key of an entry, trimmed. -/
theorem exists_entry_of_objectBranches? (h : objectBranches? (inBraces inside) = some branches)
    (hb : b ∈ branches) : ∃ entry ∈ splitTopLevel ',' inside, ∃ key after,
      splitOnce? entry = some (key, after) ∧ b.value = trim after := by
  rw [objectBranches?_inBraces] at h
  obtain ⟨entry, hentry, hbranch⟩ := exists_of_mem_mapM_some h hb
  refine ⟨entry, List.mem_of_mem_filter hentry, ?_⟩
  unfold objectEntry? at hbranch
  split at hbranch
  · next key after hsplit =>
    obtain ⟨-, hvalue⟩ := Option.ite_none_left_eq_some.1 hbranch
    cases hvalue
    exact ⟨key, after, hsplit, rfl⟩
  · cases hbranch

/-- A value in a JSON object is a text, or a value on one line. -/
theorem exists_member_of_jsonBranches? (h : jsonBranches? object = some branches)
    (hb : b ∈ branches) : ∃ members, Json.parse object = .ok (.object members) ∧
      ((b.platform, .string b.value) ∈ members ∨ ∃ v, b.value = Json.compact v) := by
  unfold jsonBranches? at h
  split at h
  · next members hparse =>
    cases h
    obtain ⟨⟨platform, v⟩, hmember, rfl⟩ := List.mem_map.1 hb
    refine ⟨members, hparse, ?_⟩
    cases v with
    | string s => exact .inl (OrderedMap.mem_of_mem_ofList hmember)
    | null | bool | number | array | object => exact .inr ⟨_, rfl⟩
  · cases h

/-- A text that is split at its first colon has the one side before and the other side after it. -/
theorem eq_append_of_splitOnce? {s key after : Text} (h : splitOnce? s = some (key, after)) :
    s = key ++ ':' :: after := by
  unfold splitOnce? at h
  split at h
  · next c rest hdrop =>
    cases h
    have hcolon : c = ':' := by
      simpa [hdrop] using List.head?_dropWhile_not (fun c => c != ':') s
    rw [hcolon] at hdrop
    rw [← hdrop, List.takeWhile_append_dropWhile]
  · cases h

end Branches

/-! ## Values -/

/-- The pieces of a value around and between the values of its branches are whole. -/
inductive HasWholePieces (value : Text) : Prop
  /-- In a comparison the parentheses and quotation marks in front of the values are closed. -/
  | comparison {platform front rest : Text} (h : comparison? value = some (platform, rest))
      (hvalue : value = front ++ rest) (hfront : Whole front) (hrest : ¬EndsInBackslash rest)
  /-- JSON is read by its grammar. -/
  | json {object : Text} (h : chosenObject? value = some object)
      (hjson : (jsonBranches? object).isSome = true)
  /-- In an object nothing between the braces closes a bracket that was opened before, and in each
  entry the key is whole. -/
  | entries {inside : Text} (h : chosenObject? value = some (inBraces inside))
      (hown : ClosesOwn inside) (hinside : ¬EndsInBackslash inside)
      (hkeys : ∀ entry ∈ splitTopLevel ',' inside, ∀ keyed ∈ splitOnce? entry, Whole keyed.1)

/-- **Branches of balanced values are balanced** where the pieces are whole, but for the texts of
JSON strings. -/
theorem balanced_or_isTextMember {labels : List PlatformLabel} {value : Text}
    {branches : List Branch} (hvalue : Balanced value) (hpieces : HasWholePieces value)
    (h : platformBranches? labels value = some branches) :
    ∀ b ∈ branches, Balanced b.value ∨ IsTextMember value b := by
  intro b hb
  rcases platformBranches?_cases h with
    ⟨platform, rest, hcomparison, hbranches⟩ | ⟨object, hobject, hjson | ⟨hnone, hentries⟩⟩
  -- what follows a comparison that is whole is balanced, and so are its parts
  · obtain ⟨part, hpart, hb⟩ := exists_part_of_comparisonBranches? hbranches hb
    cases hpieces with
    | comparison hfound hparts hfront hends =>
      cases hcomparison.symm.trans hfound
      rw [hparts, balanced_append_iff hfront] at hvalue
      rw [hb]
      exact .inl (hvalue.of_mem_splitTopLevel isNeutral_colon hends part hpart).trim
    | json hchosen | entries hchosen =>
      simp [chosenObject?, hcomparison] at hchosen
  -- a JSON value that is no string is written anew
  · obtain ⟨members, hparse, hmember | ⟨v, hb⟩⟩ := exists_member_of_jsonBranches? hjson hb
    · exact .inr ⟨object, members, hobject, hparse, hmember⟩
    · rw [hb]
      exact .inl (Json.whole_compact v).balanced
  -- what stands in the braces is balanced, so are the entries, and what follows their keys
  · cases hpieces with
    | comparison hfound => simp [chosenObject?, hfound] at hobject
    | json hchosen hjson =>
      cases hobject.symm.trans hchosen
      simp [hnone] at hjson
    | entries hchosen hown hends hkeys =>
      cases hobject.symm.trans hchosen
      obtain ⟨entry, hentry, key, after, hsplit, hb⟩ := exists_entry_of_objectBranches? hentries hb
      obtain ⟨_, front, back, awaited, -, hparts, hfront, hback⟩ :=
        exists_around_of_chosenObject? hchosen
      rw [hparts] at hvalue
      have hbetween := balanced_inside hfront hback hvalue hown
      have hbalanced := hbetween.of_mem_splitTopLevel isNeutral_comma hends entry hentry
      have hkey : Whole (key ++ [':']) :=
        (hkeys entry hentry (key, after) hsplit).append (.char rfl .nil)
      have hafter : entry = (key ++ [':']) ++ after := by
        rw [eq_append_of_splitOnce? hsplit, List.append_assoc, List.singleton_append]
      rw [hafter, balanced_append_iff hkey] at hbalanced
      rw [hb]
      exact .inl hbalanced.trim

/-- A selection between a list and a call, with brackets in literals. -/
theorem balanced_or_isTextMember_selection :
    let value :=
      "Platform.select(\x7bios: [1, ')'], android: f(\x7ba: 1, b: \"\x7d\"\x7d)\x7d)".toList
    let branches : List Branch := [⟨"ios".toList, "[1, ')']".toList⟩,
      ⟨"android".toList, "f(\x7ba: 1, b: \"\x7d\"\x7d)".toList⟩]
    Balanced value ∧ HasWholePieces value ∧
      platformBranches? builtinPlatforms value = some branches ∧
      ∀ b ∈ branches, Balanced b.value ∨ IsTextMember value b := by
  intro value branches
  have hvalue : Balanced value := by decide
  let inside := "ios: [1, ')'], android: f(\x7ba: 1, b: \"\x7d\"\x7d)".toList
  have hobject : chosenObject? value = some (inBraces inside) := by decide
  have hown : ClosesOwn inside := by decide
  have hpieces : HasWholePieces value :=
    .entries hobject hown ((tellsLiterals_iff hown).1 (by decide)) (by decide)
  have hbranches : platformBranches? builtinPlatforms value = some branches := by decide +kernel
  exact ⟨hvalue, hpieces, hbranches, balanced_or_isTextMember hvalue hpieces hbranches⟩

/-- A balanced value with a branch that is not. -/
def HasUnbalancedBranch (value : Text) : Prop :=
  Balanced value ∧ ∃ branches ∈ platformBranches? builtinPlatforms value,
    ∃ b ∈ branches, ¬Balanced b.value

instance (value : Text) : Decidable (HasUnbalancedBranch value) :=
  inferInstanceAs (Decidable (_ ∧ ∃ branches ∈ platformBranches? builtinPlatforms value,
    ∃ b ∈ branches, ¬Balanced b.value))

/-- A value whose pieces are not whole can have a branch that is not balanced: one example for JSON,
and one for each condition on the pieces. -/
theorem hasUnbalancedBranch_pieces :
    -- the texts of JSON strings
    HasUnbalancedBranch "\x7b\"ios\": \"(\", \"android\": \")\"\x7d".toList ∧
      -- a comparison in the same parentheses as its values
      HasUnbalancedBranch "(Platform.OS === 'ios' ? 0 : 1)".toList ∧
      -- a platform in quotation marks that are not alike
      HasUnbalancedBranch "Platform.OS === 'ios\" ? ) : '0".toList ∧
      -- two selections
      HasUnbalancedBranch
        "Platform.select({ios: 0}) || Platform.select({ios: 1})".toList ∧
      -- a bracket in a key
      HasUnbalancedBranch "\x7b'ios: )': 1\x7d".toList ∧
      -- a literal that ends in an escaped backslash
      HasUnbalancedBranch "\x7bios: ['\\\\', '], android: ', 3]\x7d".toList := by
  decide +kernel

end ComponentPages
