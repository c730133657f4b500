import ComponentPages.Markdown.Prop
import ComponentPages.Proofs.PageBatches
import ComponentPages.Proofs.TopLevelParts
import ComponentPages.Proofs.Trimming

/-!
# Ways to write a choice between platforms

A default value can choose between two platforms by a comparison, by a selection and by an object.
With the same values they are the same choice.

- **`ChoiceForm`**, **`ChoiceForm.text`** — the ways to write it.
- **`IsBranchText`** — what can be written as the value for one platform.
- **`platformBranches?_text`** — each way gives the two values, in order.
- **`sameChoice_of_forms`** — so that the default value of a property is shown alike.
-/

namespace ComponentPages

/-- A way to write a choice between two platforms. -/
inductive ChoiceForm where
  /-- A comparison with a platform, by three equals signs or by two, with the platform in double
  quotation marks or in single ones, in parentheses or not. -/
  | comparison (strict double inParentheses : Bool)
  /-- A selection among the entries of an object. -/
  | selection
  /-- An object alone. -/
  | object
deriving DecidableEq, Repr

/-- A text in braces. -/
def inBraces (s : Text) : Text := '\x7b' :: s ++ ['\x7d']

/-- An entry of an object: a key and a value. -/
def entryText (key value : Text) : Text := key ++ ": ".toList ++ value

namespace ChoiceForm

/-- A comparison with a platform. -/
def comparisonText (strict double : Bool) (platform : Text) : Text :=
  let mark := if double then '"' else '\''
  "Platform.OS ".toList ++ (if strict then "===" else "==").toList ++
    ' ' :: mark :: platform ++ [mark]

/-- An object with an entry for each of two platforms. -/
def objectText (p q a b : Text) : Text :=
  inBraces (entryText p a ++ ", ".toList ++ entryText q b)

/-- The choice of `a` on platform `p` and of `b` on platform `q`. -/
def text (form : ChoiceForm) (p q a b : Text) : Text :=
  match form with
  | comparison strict double inParentheses =>
    let condition := comparisonText strict double p
    (if inParentheses then '(' :: condition ++ [')'] else condition) ++
      " ? ".toList ++ a ++ " : ".toList ++ b
  | selection => "Platform.select(".toList ++ objectText p q a b ++ [')']
  | object => objectText p q a b

end ChoiceForm

/-- One of the two platforms of a comparison, and the other. -/
def IsPlatformPair (p q : Text) : Prop :=
  (p = "ios".toList ∧ q = "android".toList) ∨ (p = "android".toList ∧ q = "ios".toList)

/-- What can be written as the value for one platform: a trimmed text without a colon or a comma
outside of quotation marks and brackets, at whose end nothing is open. -/
structure IsBranchText (s : Text) : Prop where
  ne_nil : s ≠ []
  trimmed : trim s = s
  colons : Uncut ':' .top s
  commas : Uncut ',' .top s
  closed : (Nesting.top.run s).isTop = true

/-! ## Blanks around values -/

/-- A text between characters that are not blank is trimmed. -/
theorem trim_eq_self_of_ends {c : Char} {s t : Text} (hc : isBlank c = false) (ht : trimEnd t = t)
    (hblank : isBlankText t = false) : trim (c :: s ++ t) = c :: s ++ t := by
  rw [trim_eq_self_iff, List.cons_append, trimStart_cons_of_not_blank hc, ← List.cons_append,
    trimEnd_append _ hblank, ht]
  exact ⟨rfl, rfl⟩

namespace IsBranchText

variable {s : Text} (h : IsBranchText s)

include h

theorem isBlankText_eq_false : isBlankText s = false := by
  have hne := h.ne_nil
  rw [← h.trimmed, Ne, trim_eq_nil_iff, Bool.not_eq_true] at hne
  exact hne

theorem trim_space_cons : trim (' ' :: s) = s := h.trimmed

theorem trim_between_spaces : trim (' ' :: s ++ [' ']) = s := by
  rw [trim_eq_trimStart_trimEnd, trimEnd_append_of_blank _ rfl, ← trim_eq_trimStart_trimEnd]
  exact h.trimmed

end IsBranchText

theorem isNeutral_space : IsNeutral ' ' := ⟨rfl, by decide⟩

namespace IsBranchText

variable {s : Text} (h : IsBranchText s)

include h

/-- Behind what leaves nothing open, a value is cut nowhere and leaves nothing open. -/
theorem uncut_append {sep : Char} (front : Text) (hsep : sep = ',' ∨ sep = ':')
    (hfront : Uncut sep .top front) (htop : Nesting.top.run front = .top) :
    Uncut sep .top (front ++ s) ∧ (Nesting.top.run (front ++ s)).isTop = true := by
  rw [Nesting.run_append, htop]
  rcases hsep with rfl | rfl
  · exact ⟨(uncut_append_iff isNeutral_comma).2 ⟨hfront, by rw [htop]; exact h.commas⟩, h.closed⟩
  · exact ⟨(uncut_append_iff isNeutral_colon).2 ⟨hfront, by rw [htop]; exact h.colons⟩, h.closed⟩

/-- A blank after a value does not change that. -/
theorem uncut_between_spaces : Uncut ':' .top (' ' :: s ++ [' ']) ∧
    (Nesting.top.run (' ' :: s ++ [' '])).isTop = true := by
  obtain ⟨huncut, htop⟩ := h.uncut_append [' '] (.inr rfl)
    (uncut_of_not_mem (by decide)) rfl
  refine ⟨(uncut_append_iff isNeutral_colon).2 ⟨huncut, uncut_of_not_mem (by decide)⟩, ?_⟩
  rw [Nesting.run_append]
  exact congrArg Nesting.isTop (next_neutral isNeutral_space htop)

end IsBranchText

/-! ## Comparisons -/

section Comparisons

variable {p q a b : Text} (ha : IsBranchText a) (hb : IsBranchText b)

include ha hb

/-- The branches of a comparison are its two values. -/
theorem comparisonBranches?_eq (hq : otherPlatform? p = some q) :
    comparisonBranches? p ((' ' :: a ++ [' ']) ++ ':' :: ' ' :: b) = some [⟨p, a⟩, ⟨q, b⟩] := by
  obtain ⟨hcut, htop⟩ := ha.uncut_between_spaces
  obtain ⟨huncut, -⟩ := hb.uncut_append [' '] (.inr rfl)
    (uncut_of_not_mem (by decide)) rfl
  have hparts : splitTopLevel ':' ((' ' :: a ++ [' ']) ++ ':' :: ' ' :: b) =
      [' ' :: a ++ [' '], ' ' :: b] := by
    rw [splitTopLevel_append isNeutral_colon hcut htop]
    exact congrArg _ (splitTopLevel_of_uncut isNeutral_colon huncut)
  have hblank : (isBlankText (' ' :: a ++ [' ']) || isBlankText (' ' :: b)) = false := by
    simp [ha.isBlankText_eq_false, hb.isBlankText_eq_false]
  simp only [comparisonBranches?, hq, hparts, hblank, Bool.false_eq_true, if_false]
  rw [ha.trim_between_spaces, hb.trim_space_cons]

end Comparisons

/-! ## Objects -/

/-- What begins with a brace and neither a member nor the end of an object is no JSON object. -/
theorem jsonBranches?_eq_none {c : Char} (hspace : isJsonSpace c = false) (hquote : c ≠ '"')
    (hbrace : c ≠ '\x7d') (s : Text) : jsonBranches? ('\x7b' :: c :: s) = none := by
  have hskip : skipSpace (c :: s) = c :: s := skipSpace_cons s hspace
  unfold jsonBranches?
  split
  · next members hparse =>
    obtain ⟨rest, hread, -⟩ := Json.parse_eq_ok_iff.1 hparse
    have hvalue := reads_json_iff.1 hread
    rw [skipSpace_cons _ rfl] at hvalue
    cases hvalue with
    | object hobject =>
      obtain ⟨below, members, -, -, hmembers⟩ := reads_object_iff.1 hobject
      cases members with
      | nil =>
        rw [reads_members_nil_iff, hskip] at hmembers
        exact absurd (List.cons.inj hmembers).1 hbrace
      | cons m members =>
        obtain ⟨t, left, hstart, -⟩ := reads_members_cons_iff.1 hmembers
        rw [hskip] at hstart
        exact absurd (List.cons.inj hstart).1 hquote
  · rfl

theorem isBraced_iff {s : Text} : isBraced s = true ↔ ∃ inside, s = inBraces inside := by
  rw [isBraced, Bool.and_eq_true, beq_iff_eq, beq_iff_eq]
  constructor
  · rintro ⟨hhead, hlast⟩
    cases s with
    | nil => cases hhead
    | cons c rest =>
      obtain rfl : c = '\x7b' := Option.some.inj hhead
      rcases List.eq_nil_or_concat' rest with rfl | ⟨inside, d, rfl⟩
      · cases hlast
      · rw [← List.cons_append, List.getLast?_concat] at hlast
        obtain rfl : d = '\x7d' := Option.some.inj hlast
        exact ⟨inside, rfl⟩
  · rintro ⟨inside, rfl⟩
    exact ⟨rfl, List.getLast?_concat⟩

theorem trim_inBraces (inside : Text) : trim (inBraces inside) = inBraces inside :=
  trim_eq_self_of_ends rfl rfl rfl

/-- The entries of an object are the parts between its commas. -/
theorem objectBranches?_inBraces (inside : Text) : objectBranches? (inBraces inside) =
    ((splitTopLevel ',' inside).filter fun e => !isBlankText e).mapM objectEntry? := by
  have hbody : (inBraces inside).tail.dropLast = inside := List.dropLast_concat
  simp only [objectBranches?, trim_inBraces, isBraced_iff.2 ⟨inside, rfl⟩, if_true, hbody]

/-- A text is split into the text in front of its first colon and the text after it. -/
theorem splitOnce?_append {key : Text} (h : ':' ∉ key) (value : Text) :
    splitOnce? (key ++ ':' :: value) = some (key, value) := by
  have hkey : ∀ c ∈ key, (c != ':') = true := fun c hc => by
    rw [bne_iff_ne]
    rintro rfl
    exact h hc
  simp [splitOnce?, List.dropWhile_append_of_pos hkey, List.takeWhile_append_of_pos hkey]

/-- A name of a platform as the key of an entry, with a blank in front of it or not. -/
structure IsKeyOf (p key : Text) : Prop where
  commas : ',' ∉ key
  colons : ':' ∉ key
  closed : Nesting.top.run (key ++ ": ".toList) = .top
  unquoted : unquote key = p
  ne_nil : p ≠ []

theorem IsPlatformPair.isKeyOf {p q : Text} (h : IsPlatformPair p q) :
    IsKeyOf p p ∧ IsKeyOf q (' ' :: q) := by
  rcases h with ⟨rfl, rfl⟩ | ⟨rfl, rfl⟩
  · exact ⟨by constructor <;> decide, by constructor <;> decide⟩
  · exact ⟨by constructor <;> decide, by constructor <;> decide⟩

section Objects

variable {p key a : Text} (hkey : IsKeyOf p key) (ha : IsBranchText a)

include hkey ha

theorem objectEntry?_entryText : objectEntry? (entryText key a) = some ⟨p, a⟩ := by
  have hentry : entryText key a = key ++ ':' :: ' ' :: a := by simp [entryText]
  rw [hentry, objectEntry?, splitOnce?_append hkey.colons]
  simp [hkey.unquoted, ha.trim_space_cons, hkey.ne_nil, ha.ne_nil]

/-- An entry is cut nowhere and leaves nothing open. -/
theorem uncut_entryText : Uncut ',' .top (entryText key a) ∧
    (Nesting.top.run (entryText key a)).isTop = true :=
  ha.uncut_append _ (.inl rfl) (uncut_of_not_mem (by simp [hkey.commas])) hkey.closed

omit hkey in
theorem isBlankText_entryText : isBlankText (entryText key a) = false := by
  rw [entryText, isBlankText_append, ha.isBlankText_eq_false, Bool.and_false]

end Objects

section Forms

variable {p q a b : Text} (hpair : IsPlatformPair p q) (ha : IsBranchText a) (hb : IsBranchText b)

include hpair ha hb

/-- The branches of an object are the values of its two entries. -/
theorem objectBranches?_objectText :
    objectBranches? (ChoiceForm.objectText p q a b) = some [⟨p, a⟩, ⟨q, b⟩] := by
  obtain ⟨hp, hq⟩ := hpair.isKeyOf
  obtain ⟨hcut, htop⟩ := uncut_entryText hp ha
  -- the blank after the comma belongs to the second entry
  have hinside : entryText p a ++ ", ".toList ++ entryText q b =
      entryText p a ++ ',' :: entryText (' ' :: q) b := by simp [entryText]
  have hparts : splitTopLevel ',' (entryText p a ++ ',' :: entryText (' ' :: q) b) =
      [entryText p a, entryText (' ' :: q) b] := by
    rw [splitTopLevel_append isNeutral_comma hcut htop,
      splitTopLevel_of_uncut isNeutral_comma (uncut_entryText hq hb).1]
  rw [ChoiceForm.objectText, objectBranches?_inBraces, hinside, hparts]
  simp [isBlankText_entryText ha, isBlankText_entryText hb, objectEntry?_entryText hp ha,
    objectEntry?_entryText hq hb]

omit ha hb in
/-- An object with names as its keys is no JSON. -/
theorem jsonBranches?_objectText : jsonBranches? (ChoiceForm.objectText p q a b) = none := by
  rcases hpair with ⟨rfl, rfl⟩ | ⟨rfl, rfl⟩
  · exact jsonBranches?_eq_none rfl (by decide) (by decide) _
  · exact jsonBranches?_eq_none rfl (by decide) (by decide) _

/-- The object gives its entries where both platforms are known. -/
theorem knownBranches?_objectText {labels : List PlatformLabel}
    (hp : isKnownPlatform labels p = true) (hq : isKnownPlatform labels q = true) :
    knownBranches? labels (ChoiceForm.objectText p q a b) = some [⟨p, a⟩, ⟨q, b⟩] := by
  simp [knownBranches?, jsonBranches?_objectText hpair, objectBranches?_objectText hpair ha hb, hp,
    hq]

end Forms

/-! ## The choice -/

/-- A selection is among the entries of the object in its parentheses. -/
theorem selectedObject?_inBraces (inside : Text) :
    selectedObject? ("Platform.select(".toList ++ inBraces inside ++ [')']) =
      some (inBraces inside) := by
  rw [selectedObject?, List.append_assoc, afterPart?_append]
  simp only [List.getLast?_concat, if_true, List.dropLast_concat, trim_inBraces,
    isBraced_iff.2 ⟨inside, rfl⟩]

/-- A selection is no comparison. -/
theorem comparison?_selection (rest : Text) :
    comparison? ("Platform.select(".toList ++ rest) = none := rfl

/-- An object alone is neither a comparison nor a selection. -/
theorem no_selector_inBraces (inside : Text) :
    comparison? (inBraces inside) = none ∧ selectedObject? (inBraces inside) = none := ⟨rfl, rfl⟩

/-- A comparison is found in each of its spellings. -/
theorem comparison?_comparisonText {p q : Text} (hpair : IsPlatformPair p q)
    (strict double inParentheses : Bool) (rest : Text) :
    let condition := ChoiceForm.comparisonText strict double p
    comparison? ((if inParentheses then '(' :: condition ++ [')'] else condition) ++
      " ?".toList ++ rest) = some (p, rest) ∧ otherPlatform? p = some q := by
  rcases hpair with ⟨rfl, rfl⟩ | ⟨rfl, rfl⟩
  · exact ⟨by cases strict <;> cases double <;> cases inParentheses <;> rfl, rfl⟩
  · exact ⟨by cases strict <;> cases double <;> cases inParentheses <;> rfl, rfl⟩

/-- The blanks around the two values of a comparison belong to the texts that are cut apart. -/
theorem blanks_around_values (condition a b : Text) :
    condition ++ " ? ".toList ++ a ++ " : ".toList ++ b =
      condition ++ " ?".toList ++ ((' ' :: a ++ [' ']) ++ ':' :: ' ' :: b) := by
  simp

section Choice

variable {p q a b : Text} (hpair : IsPlatformPair p q) (ha : IsBranchText a) (hb : IsBranchText b)

include hpair ha hb

/-- **Each way to write the choice gives the two values**, in order. -/
theorem platformBranches?_text {labels : List PlatformLabel}
    (hp : isKnownPlatform labels p = true) (hq : isKnownPlatform labels q = true)
    (form : ChoiceForm) :
    platformBranches? labels (form.text p q a b) = some [⟨p, a⟩, ⟨q, b⟩] := by
  have hknown := knownBranches?_objectText hpair ha hb hp hq
  cases form with
  | comparison strict double inParentheses =>
    obtain ⟨hcomparison, hother⟩ := comparison?_comparisonText hpair strict double inParentheses
      ((' ' :: a ++ [' ']) ++ ':' :: ' ' :: b)
    have htext : (ChoiceForm.comparison strict double inParentheses).text p q a b =
        (if inParentheses then '(' :: ChoiceForm.comparisonText strict double p ++ [')']
          else ChoiceForm.comparisonText strict double p) ++ " ?".toList ++
          ((' ' :: a ++ [' ']) ++ ':' :: ' ' :: b) := blanks_around_values _ a b
    simp only [platformBranches?, htext, hcomparison]
    exact comparisonBranches?_eq ha hb hother
  | selection =>
    have htext : ChoiceForm.selection.text p q a b =
        "Platform.select(".toList ++ ChoiceForm.objectText p q a b ++ [')'] := rfl
    have hcomparison : comparison? (ChoiceForm.selection.text p q a b) = none := by
      rw [htext, List.append_assoc, comparison?_selection]
    have hselected : selectedObject? (ChoiceForm.selection.text p q a b) =
        some (ChoiceForm.objectText p q a b) := by
      rw [htext, ChoiceForm.objectText, selectedObject?_inBraces]
    simp only [platformBranches?, hcomparison, hselected, hknown]
  | object =>
    have htext : ChoiceForm.object.text p q a b = ChoiceForm.objectText p q a b := rfl
    obtain ⟨hcomparison, hselected⟩ :=
      no_selector_inBraces (entryText p a ++ ", ".toList ++ entryText q b)
    have hbraced : isBraced (ChoiceForm.objectText p q a b) = true := isBraced_iff.2 ⟨_, rfl⟩
    rw [← ChoiceForm.objectText] at hcomparison hselected
    simp only [platformBranches?, htext, hcomparison, hselected, hbraced, if_true, hknown]

omit hpair ha in
/-- The text of a choice has no blanks around it. -/
theorem nonBlank?_text (form : ChoiceForm) :
    nonBlank? (form.text p q a b) = some (form.text p q a b) := by
  have hends {c : Char} {s t : Text} (hc : isBlank c = false) (ht : trimEnd t = t)
      (hblank : isBlankText t = false) : nonBlank? (c :: s ++ t) = some (c :: s ++ t) := by
    rw [nonBlank?, trim_eq_self_of_ends hc ht hblank, List.cons_append, isBlankText_cons, hc]
    rfl
  cases form with
  | comparison strict double inParentheses =>
    have hb' := (trim_eq_self_iff.1 hb.trimmed).2
    cases inParentheses
    · exact hends rfl hb' hb.isBlankText_eq_false
    · exact hends rfl hb' hb.isBlankText_eq_false
  | selection => exact hends rfl rfl rfl
  | object => exact hends rfl rfl rfl

/-- **A choice between two platforms is the same in each way to write it**: the branches are the two
values, in order, and the default value of a property is shown alike. -/
theorem sameChoice_of_forms {config : Config} (hp : isKnownPlatform config.platforms p = true)
    (hq : isKnownPlatform config.platforms q = true) :
    (∀ form : ChoiceForm,
      platformBranches? config.platforms (form.text p q a b) = some [⟨p, a⟩, ⟨q, b⟩]) ∧
      ∀ (d : PropDoc) (form form' : ChoiceForm),
        defaultColumn? config { d with defaultValue := some (form.text p q a b) } =
          defaultColumn? config { d with defaultValue := some (form'.text p q a b) } := by
  have hbranches := platformBranches?_text hpair ha hb hp hq
  refine ⟨hbranches, fun d form form' => ?_⟩
  have hcell (form : ChoiceForm) (isColor : Bool) :
      sourceDefault config.platforms isColor (form.text p q a b) =
        joinSegments ([⟨p, a⟩, ⟨q, b⟩].map (branchDefault config.platforms isColor)) := by
    simp only [sourceDefault, hbranches form]
  simp only [defaultColumn?, Option.bind_some, nonBlank?_text hb, Option.map_some, PropDoc.isColor,
    hcell]

end Choice

/-- Values may hold colons, commas and a brace in brackets and in quotation marks. -/
theorem sameChoice_of_forms_nestedValues :
    let a := "[1, \x7btop: ', '\x7d]".toList
    let b := "f('b: \x7d', 2)".toList
    (∀ form : ChoiceForm, platformBranches? builtinPlatforms
      (form.text "ios".toList "android".toList a b) =
        some [⟨"ios".toList, a⟩, ⟨"android".toList, b⟩]) ∧
      ∀ (d : PropDoc) (form form' : ChoiceForm),
        defaultColumn? .builtin
            { d with defaultValue := some (form.text "ios".toList "android".toList a b) } =
          defaultColumn? .builtin
            { d with defaultValue := some (form'.text "ios".toList "android".toList a b) } := by
  intro a b
  have ha : IsBranchText a := {
    ne_nil := by decide
    trimmed := by decide
    colons := (splitTopLevel_eq_singleton_iff isNeutral_colon).1 (by decide)
    commas := (splitTopLevel_eq_singleton_iff isNeutral_comma).1 (by decide)
    closed := by decide }
  have hb : IsBranchText b := {
    ne_nil := by decide
    trimmed := by decide
    colons := (splitTopLevel_eq_singleton_iff isNeutral_colon).1 (by decide)
    commas := (splitTopLevel_eq_singleton_iff isNeutral_comma).1 (by decide)
    closed := by decide }
  have hknown : ∀ p ∈ ["ios".toList, "android".toList],
      isKnownPlatform Config.builtin.platforms p = true := by decide
  exact sameChoice_of_forms (.inl ⟨rfl, rfl⟩) ha hb (hknown _ (by simp)) (hknown _ (by simp))

end ComponentPages
