import ComponentPages.Proofs.DirectiveNotices
import ComponentPages.Proofs.RecordedTags

/-!
# Texts that look like they hold a directive

A text is marked where it holds the two characters that an inline directive begins with, whether it
holds a directive or not. Neither blanks nor the case of letters make a mark or take one away, and
neither does cutting a list of ids: so an id or a value that is recorded of a tag is marked where
the value is after its directives are taken out.

- **`Marked`** — the two characters stand in the text; of such a text a notice tells
  (`brokenDirectives_eq_nil_iff`).
- **`marked_append_iff`**, **`exists_marked_splitIds_iff`** — parts of a marked text.
- **`TagSet.Unmarked`**, **`TagSet.unmarked_record_iff`** — what is recorded of a tag.
-/

namespace ComponentPages

/-! ## Texts that look like they hold a directive -/

/-- The text holds the two characters that an inline directive begins with. -/
def Marked (s : Text) : Prop := "\x7b@".toList <:+: s

instance (s : Text) : Decidable (Marked s) := inferInstanceAs (Decidable (_ <:+: s))

section Marked

variable {s t : Text} {c : Char}

theorem not_marked_nil : ¬Marked [] := by decide

/-- A text of which no notice tells is not marked. -/
theorem brokenDirectives_eq_nil_iff : brokenDirectives s = [] ↔ ¬Marked s := by
  rw [Marked, ← occurs_iff_infix, brokenDirectives]
  split
  · next h => exact iff_of_false (List.cons_ne_nil _ _) (not_not_intro h)
  · next h => exact iff_of_true rfl h

/-- The blanks at the ends of a text are not of its marks. -/
theorem marked_trim_iff : Marked (trim s) ↔ Marked s := infix_trim_iff (by decide)

theorem marked_trimEnd_iff : Marked (trimEnd s) ↔ Marked s := infix_trimEnd_iff (by decide)

/-- A mark is at the front of a text or behind its first character. -/
theorem marked_cons_iff : Marked (c :: s) ↔ (c = '\x7b' ∧ s.head? = some '@') ∨ Marked s := by
  rw [Marked, Marked, List.infix_cons_iff]
  refine or_congr_left ?_
  change '\x7b' :: ['@'] <+: c :: s ↔ _
  rw [List.cons_prefix_cons, eq_comm]
  cases s with
  | nil => simp
  | cons d s => simp [List.cons_prefix_cons, eq_comm]

/-- A mark of two texts one after the other is in one of them, if it cannot begin at the end of the
first. -/
theorem marked_append_iff (ht : t.head? ≠ some '@') :
    Marked (s ++ t) ↔ Marked s ∨ Marked t := by
  induction s with
  | nil => simp [not_marked_nil]
  | cons c s ih =>
    have hhead : (s ++ t).head? = some '@' ↔ s.head? = some '@' := by
      cases s with
      | nil => simp [ht]
      | cons d s => rfl
    rw [List.cons_append, marked_cons_iff, marked_cons_iff, ih, hhead, or_assoc]

/-- **A marked list of ids has a marked id**: neither character of a mark separates ids. -/
theorem exists_marked_splitIds_iff : (∃ id ∈ splitIds s, Marked id) ↔ Marked s := by
  fun_induction splitIds s with
  | case1 => simp [not_marked_nil]
  | case2 c rest hc ih =>
    have hne : c ≠ '\x7b' := by rintro rfl; cases hc
    rw [ih, marked_cons_iff, or_iff_right fun h => hne h.1]
  | case3 c rest hc ih =>
    have hhead : (rest.dropWhile fun d => !separatesIds d).head? ≠ some '@' := fun hat => by
      have hnot := List.head?_dropWhile_not (fun d => !separatesIds d) rest
      rw [hat] at hnot
      exact absurd hnot (by decide)
    rw [List.exists_mem_cons_iff, ih, ← marked_append_iff hhead, List.cons_append,
      List.takeWhile_append_dropWhile]

/-- No other character than itself becomes one of a mark in lower case. -/
theorem toLower_eq_iff_of_mark {m : Char} (hm : m = '\x7b' ∨ m = '@') : c.toLower = m ↔ c = m := by
  by_cases hascii : c.toNat < 0x80
  · have hall : ∀ n < 0x80, ((Char.ofNat n).toLower = m ↔ Char.ofNat n = m) := by
      rcases hm with rfl | rfl
      · decide
      · decide
    have hc := hall c.toNat hascii
    rwa [Char.ofNat_toNat] at hc
  · -- only letters of ASCII are changed
    have hupper : ¬(c.val ≥ 'A'.val ∧ c.val ≤ 'Z'.val) := fun h => by
      have hle : c.toNat ≤ 'Z'.toNat := h.2
      exact hascii (Nat.lt_of_le_of_lt hle (by decide))
    rw [show c.toLower = c from dif_neg hupper]

/-- The case of letters does not matter to the marks of a text. -/
theorem marked_asciiLower_iff : Marked (asciiLower s) ↔ Marked s := by
  induction s with
  | nil => rfl
  | cons c s ih =>
    have hhead : (s.map Char.toLower).head? = some '@' ↔ s.head? = some '@' := by
      cases s with
      | nil => rfl
      | cons d s => simp [toLower_eq_iff_of_mark (.inr rfl)]
    change Marked (c.toLower :: asciiLower s) ↔ _
    rw [marked_cons_iff, marked_cons_iff, ih, toLower_eq_iff_of_mark (.inl rfl)]
    exact or_congr_left (and_congr_right fun _ => hhead)

/-- The lines of a text that is shown are marked where the lines it is written with are. -/
theorem forall_not_marked_lines_proseText_iff {ls : List Text} (hnl : ∀ l ∈ ls, '\n' ∉ l) :
    (∀ m ∈ lines (Scan.proseText ls), ¬Marked m) ↔ ∀ l ∈ ls, ¬Marked l :=
  forall_not_infix_lines_proseText_iff (by decide) (by decide) hnl

/-- The ids of directives are not marked. -/
theorem not_marked_of_mem_ids {id : Text} (h : id ∈ (stripDirectives s).2) : ¬Marked id := by
  intro hm
  have hword := (plainWord_of_mem_ids h).word '\x7b' (hm.subset (by decide))
  cases hword

end Marked

/-! ## Tags that are recorded without a mark -/

/-- A mark of an id that is added is there afterwards: where the id is left out, it is there in some
case of its letters. -/
theorem forall_not_marked_addId_iff {ids : List Text} {id : Text} :
    (∀ known ∈ TagSet.addId ids id, ¬Marked known) ↔
      (∀ known ∈ ids, ¬Marked known) ∧ ¬Marked id := by
  dsimp only [TagSet.addId]
  split
  · next hleft =>
    refine (and_iff_left_of_imp fun hknown => ?_).symm
    rw [← marked_trim_iff]
    rcases Bool.or_eq_true_iff.1 hleft with hnil | hthere
    · rw [List.isEmpty_iff.1 hnil]
      exact not_marked_nil
    · obtain ⟨known, hmem, hsame⟩ := List.any_eq_true.1 hthere
      rw [← marked_asciiLower_iff, ← sameIgnoringCase_iff.1 hsame, marked_asciiLower_iff]
      exact hknown known hmem
  · rw [List.forall_mem_append, List.forall_mem_singleton, marked_trim_iff]

namespace TagSet

variable {t : TagSet}

/-- No platform id and no value of the tags is marked. -/
def Unmarked (t : TagSet) : Prop :=
  (∀ id ∈ t.platform, ¬Marked id) ∧ ∀ v ∈ t.values, ¬Marked v

/-- Ids that are added must not be marked. -/
theorem unmarked_addPlatforms_iff {ids : List Text} :
    (t.addPlatforms ids).Unmarked ↔ t.Unmarked ∧ ∀ id ∈ ids, ¬Marked id := by
  induction ids generalizing t with
  | nil => simp
  | cons id ids ih =>
    have hone : (t.addPlatform id).Unmarked ↔ t.Unmarked ∧ ¬Marked id := by
      rw [Unmarked, Unmarked, and_right_comm]
      exact and_congr_left' forall_not_marked_addId_iff
    rw [addPlatforms_cons, ih, hone, List.forall_mem_cons, and_assoc]

/-- The ids that directives name are not. -/
theorem unmarked_addNamed_iff (s : Text) :
    (t.addPlatforms (stripDirectives s).2).Unmarked ↔ t.Unmarked := by
  rw [unmarked_addPlatforms_iff]
  exact and_iff_left fun _ => not_marked_of_mem_ids

/-- **A tag is recorded without a mark** where none is left of its value when the directives are
taken out. -/
theorem unmarked_record_iff (key : TagKey) (value : Text) :
    (Scan.record t key value).Unmarked ↔ t.Unmarked ∧ ¬Marked (stripDirectives value).1 := by
  have hvalue (hkey : key ≠ .platform)
      (hplatform : (Scan.record t key value).platform = t.platform) :
      (Scan.record t key value).Unmarked ↔ t.Unmarked ∧ ¬Marked (stripDirectives value).1 := by
    have htrim : Marked (Scan.platformValue value).value ↔ Marked (stripDirectives value).1 :=
      marked_trim_iff
    rw [Unmarked, Unmarked, forall_mem_values_record_iff, hplatform, and_assoc]
    rw [htrim, forall_prop_of_true hkey]
  cases key with
  | platform =>
    have hids : (∀ id ∈ splitIds (stripDirectives value).1, ¬Marked id) ↔
        ¬Marked (stripDirectives value).1 := by
      simpa using not_congr (exists_marked_splitIds_iff (s := (stripDirectives value).1))
    rw [← hids]
    refine unmarked_addPlatforms_iff.trans (and_congr_right fun _ => ?_)
    rw [List.forall_mem_append]
    exact and_iff_left fun _ => not_marked_of_mem_ids
  | default => exact hvalue (by simp) rfl
  | type => exact hvalue (by simp) rfl

end TagSet

end ComponentPages
