import ComponentPages.Json.Printer
import ComponentPages.Proofs.JsonContext

/-!
# Written values as input

Arrays and objects whose parts are written one after another are read as these parts, with any white
space around them. So a value that is written on several lines is read as it was, unless there are
numbers in it.

- **`WritesValue`** — a text writes a value, whatever follows it.
- **`reads_items_joinWith`**, **`reads_members_joinWith`** — written arrays and objects.
- **`Json.NumberFree`** — a value without numbers.
- **`reads_prettyAt`**, **`eq_of_reads_pretty`** — such a value is read as it was written, and as
  nothing else.
- **`Json.pretty_inj`** — values without numbers that are written alike are the same.
-/

namespace ComponentPages

variable {mode : Strictness}

/-! ## Arrays -/

/-- A list with its separator in front of each part but the first. -/
theorem joinWith_cons (sep part : Text) (parts : List Text) :
    joinWith sep (part :: parts) = part ++ parts.flatMap (sep ++ ·) := by
  induction parts generalizing part with
  | nil => rw [joinWith_singleton, List.flatMap_nil, List.append_nil]
  | cons next parts ih =>
    rw [joinWith_cons_cons, ih, List.flatMap_cons, List.append_assoc, List.append_assoc]

section Arrays

variable {depth : Nat} {space closing rest : Text} {texts : List Text}

/-- A text writes a value, with white space behind it, in front of anything that follows it. -/
def WritesValue (mode : Strictness) (depth : Nat) (s : Text) (v : Json) : Prop :=
  ∃ blank, skipSpace blank = [] ∧
    ∀ more ≠ [], Reads (readJson mode depth) (s ++ more) v (blank ++ more)

/-- Where something is behind white space, there is a text. -/
theorem ne_nil_of_skipSpace {s r : Text} {c : Char} (h : skipSpace s = c :: r) : s ≠ [] := by
  rintro rfl
  cases h

/-- A written item is read in front of the other items. -/
theorem reads_items_of_writesValue {s t : Text} {v : Json} {vs : List Json}
    (hspace : skipSpace space = []) (hv : WritesValue mode depth s v) (ht : t ≠ [])
    (hvs : ∀ blank, skipSpace blank = [] →
      Reads (readMoreItems (readJson mode depth)) (blank ++ t) vs rest) :
    Reads (readItems (readJson mode depth)) (space ++ (s ++ t)) (v :: vs) rest := by
  obtain ⟨blank, hblank, hread⟩ := hv
  have hfirst := hread t ht
  rw [← reads_json_skipSpace_iff] at hfirst
  obtain ⟨c, u, hc⟩ := List.exists_cons_of_ne_nil hfirst.ne_nil
  refine reads_items_cons_iff.2 ⟨c, u, blank ++ t, ?_, ?_, hc ▸ hfirst, hvs blank hblank⟩
  · rw [skipSpace_append_of_eq_nil hspace, hc]
  · rintro rfl
    rw [reads_json_iff, skipSpace_skipSpace, hc] at hfirst
    exact not_readsValue_bracket _ _ _ hfirst

theorem reads_moreItems_flatMap {values : List Json} (hspace : skipSpace space = [])
    (hclosing : skipSpace closing = ']' :: rest)
    (h : List.Forall₂ (WritesValue mode depth) texts values) {blank : Text}
    (hblank : skipSpace blank = []) : Reads (readMoreItems (readJson mode depth))
      (blank ++ (texts.flatMap (',' :: space ++ ·) ++ closing)) values rest := by
  induction h generalizing blank with
  | nil =>
    rw [reads_moreItems_nil_iff, skipSpace_append_of_eq_nil hblank]
    exact hclosing
  | @cons s v texts values hs _ ih =>
    refine reads_moreItems_cons_iff.2
      ⟨space ++ (s ++ (texts.flatMap (',' :: space ++ ·) ++ closing)), ?_, ?_⟩
    · rw [skipSpace_append_of_eq_nil hblank, List.flatMap_cons]
      simp [skipSpace_cons, isJsonSpace]
    · apply reads_items_of_writesValue hspace hs
      · exact List.append_ne_nil_of_right_ne_nil _ (ne_nil_of_skipSpace hclosing)
      · intro blank hblank
        exact ih hblank

/-- **A written array** is read: values with commas and white space between them, up to the bracket.
-/
theorem reads_items_joinWith {values : List Json} (hspace : skipSpace space = [])
    (hclosing : skipSpace closing = ']' :: rest)
    (h : List.Forall₂ (WritesValue mode depth) texts values) :
    Reads (readItems (readJson mode depth)) (space ++ joinWith (',' :: space) texts ++ closing)
      values rest := by
  cases h with
  | nil =>
    rw [reads_items_nil_iff, joinWith_nil, List.append_nil, skipSpace_append_of_eq_nil hspace]
    exact hclosing
  | @cons s v texts values hs hall =>
    rw [joinWith_cons, List.append_assoc, List.append_assoc]
    apply reads_items_of_writesValue hspace hs
    · exact List.append_ne_nil_of_right_ne_nil _ (ne_nil_of_skipSpace hclosing)
    · intro blank hblank
      exact reads_moreItems_flatMap hspace hclosing hall hblank

end Arrays

section Objects

variable {α : Type} {member : Reader α} {space closing rest : Text} {texts : List Text}

/-- A text writes a member with the quotation mark of its key, in front of anything that follows. -/
def WritesMember (member : Reader α) (s : Text) (a : α) : Prop :=
  ∃ t, s = '"' :: t ∧ ∀ more ≠ [], Reads member (t ++ more) a more

theorem reads_moreMembers_flatMap {members before : List α} (hspace : skipSpace space = [])
    (hclosing : skipSpace closing = '\x7d' :: rest)
    (h : List.Forall₂ (WritesMember member) texts members) :
    Reads (readMoreMembers (fun _ => member) before)
      (texts.flatMap (',' :: space ++ ·) ++ closing) members rest := by
  induction h generalizing before with
  | nil => exact reads_moreMembers_nil_iff.2 hclosing
  | @cons s a texts members hs _ ih =>
    obtain ⟨t, rfl, hread⟩ := hs
    have hne : texts.flatMap (',' :: space ++ ·) ++ closing ≠ [] :=
      List.append_ne_nil_of_right_ne_nil _ (ne_nil_of_skipSpace hclosing)
    refine reads_moreMembers_cons_iff.2
      ⟨space ++ ('"' :: t ++ (texts.flatMap (',' :: space ++ ·) ++ closing)), _, _, ?_, ?_,
        hread _ hne, ih⟩
    · rw [List.flatMap_cons]
      simp [skipSpace_cons, isJsonSpace]
    · rw [skipSpace_append_of_eq_nil hspace]
      rfl

/-- **A written object** is read: members with commas and white space between them, up to the brace.
-/
theorem reads_members_joinWith {members : List α} (hspace : skipSpace space = [])
    (hclosing : skipSpace closing = '\x7d' :: rest)
    (h : List.Forall₂ (WritesMember member) texts members) :
    Reads (readMembers fun _ => member) (space ++ joinWith (',' :: space) texts ++ closing)
      members rest := by
  cases h with
  | nil =>
    rw [reads_members_nil_iff, joinWith_nil, List.append_nil, skipSpace_append_of_eq_nil hspace]
    exact hclosing
  | @cons s a texts members hs hall =>
    obtain ⟨t, rfl, hread⟩ := hs
    have hne : texts.flatMap (',' :: space ++ ·) ++ closing ≠ [] :=
      List.append_ne_nil_of_right_ne_nil _ (ne_nil_of_skipSpace hclosing)
    refine reads_members_cons_iff.2 ⟨_, _, ?_, hread _ hne,
      reads_moreMembers_flatMap hspace hclosing hall⟩
    rw [joinWith_cons, List.append_assoc, List.append_assoc, skipSpace_append_of_eq_nil hspace]
    rfl

end Objects

/-! ## Values on several lines -/

namespace Json

/-- A value in which no number occurs. -/
inductive NumberFree : Json → Prop
  | null : NumberFree .null
  | bool (b : Bool) : NumberFree (.bool b)
  | string (s : Text) : NumberFree (.string s)
  | array {items : List Json} (h : ∀ v ∈ items, NumberFree v) : NumberFree (.array items)
  | object {members : List (Text × Json)} (h : ∀ m ∈ members, NumberFree m.2) :
      NumberFree (.object members)

theorem prettyItems_eq_map (level : Nat) (items : List Json) :
    prettyItems level items = items.map (prettyAt level) := by
  induction items with
  | nil => rfl
  | cons v items ih => rw [prettyItems, ih, List.map_cons]

theorem prettyMembers_eq_map (level : Nat) (members : List (Text × Json)) :
    prettyMembers level members =
      members.map fun m => quoted m.1 ++ ": ".toList ++ prettyAt level m.2 := by
  induction members with
  | nil => rfl
  | cons m members ih => rw [prettyMembers, ih, List.map_cons]

end Json

@[simp]
theorem skipSpace_newLine (level : Nat) : skipSpace (Json.newLine level) = [] := by
  unfold skipSpace Json.newLine
  rw [List.dropWhile_eq_nil_iff]
  intro c hc
  rcases List.mem_cons.1 hc with rfl | hc
  · rfl
  · rw [List.eq_of_mem_replicate hc]
    rfl

/-- The parts between brackets, with the text that follows. -/
theorem exists_bracketed_append_eq (opening closing : Char) (hclosing : isJsonSpace closing = false)
    (level : Nat) (parts : List Text) (rest : Text) :
    ∃ space tail, skipSpace space = [] ∧ skipSpace tail = closing :: rest ∧
      Json.bracketed opening closing level parts ++ rest =
        opening :: (space ++ joinWith (',' :: space) parts ++ tail) := by
  cases parts with
  | nil => exact ⟨[], closing :: rest, rfl, skipSpace_cons rest hclosing, rfl⟩
  | cons part parts =>
    refine ⟨Json.newLine (level + 1), Json.newLine level ++ closing :: rest, skipSpace_newLine _,
      ?_, ?_⟩
    · rw [skipSpace_append_of_eq_nil (skipSpace_newLine level), skipSpace_cons rest hclosing]
    · simp [Json.bracketed]

/-- **A value without numbers is read as it was written.** -/
theorem reads_prettyAt {v : Json} (hv : v.NumberFree) {depth : Nat} (hdepth : v.nesting ≤ depth)
    (level : Nat) (rest : Text) :
    Reads (readJson .strict depth) (v.prettyAt level ++ rest) v rest := by
  induction hv generalizing depth level rest with
  | null =>
    rw [reads_json_iff]
    exact .nullWord rfl
  | bool b =>
    rw [reads_json_iff]
    cases b with
    | true => exact .trueWord rfl
    | false => exact .falseWord rfl
  | string s =>
    have htext : quoted s ++ rest = '"' :: (s.flatMap escapeChar ++ '"' :: rest) := by
      simp [quoted]
    rw [reads_json_iff, Json.prettyAt, htext]
    exact .string (reads_escaped s rest)
  | @array items h ih =>
    rw [Json.nesting] at hdepth
    obtain ⟨below, rfl⟩ := Nat.exists_eq_add_of_le' (Nat.le_of_add_left_le hdepth)
    obtain ⟨space, tail, hspace, htail, htext⟩ :=
      exists_bracketed_append_eq '[' ']' rfl level (Json.prettyItems (level + 1) items) rest
    rw [reads_json_iff, Json.prettyAt, htext, skipSpace_cons _ (by rfl)]
    refine .array (reads_array_iff.2 ⟨below, items, rfl, rfl,
      reads_items_joinWith hspace htail ?_⟩)
    rw [Json.prettyItems_eq_map, List.forall₂_map_left_iff, List.forall₂_same]
    intro w hw
    have := Json.nesting_le_of_mem_items hw
    exact ⟨[], rfl, fun more _ => ih w hw (by omega) (level + 1) more⟩
  | @object members h ih =>
    rw [Json.nesting] at hdepth
    obtain ⟨below, rfl⟩ := Nat.exists_eq_add_of_le' (Nat.le_of_add_left_le hdepth)
    obtain ⟨space, tail, hspace, htail, htext⟩ :=
      exists_bracketed_append_eq '\x7b' '\x7d' rfl level (Json.prettyMembers (level + 1) members)
        rest
    rw [reads_json_iff, Json.prettyAt, htext, skipSpace_cons _ (by rfl)]
    refine .object (reads_object_iff.2 ⟨below, members, rfl, rfl,
      reads_members_joinWith hspace htail ?_⟩)
    rw [Json.prettyMembers_eq_map, List.forall₂_map_left_iff, List.forall₂_same]
    intro m hm
    have := Json.nesting_le_of_mem_members hm
    refine ⟨m.1.flatMap escapeChar ++ '"' :: ':' :: ([' '] ++ m.2.prettyAt (level + 1)), ?_, ?_⟩
    · simp [quoted]
    · intro more _
      have hblank : skipSpace [' '] = [] := rfl
      refine reads_member_iff.2 ⟨_, _, ?_, skipSpace_cons _ (by rfl),
        (reads_json_blank_append_iff hblank).2 (ih m hm (by omega) (level + 1) more)⟩
      rw [List.append_assoc]
      exact reads_escaped m.1 _

/-- **A written value is read as nothing else**, whatever the number of levels that are left. -/
theorem eq_of_reads_pretty {v w : Json} (hv : v.NumberFree) (hw : w.isNumber = false) {depth : Nat}
    {after rest : Text} (h : Reads (readJson .strict depth) (v.pretty ++ after) w rest) :
    w = v := by
  -- at a depth that both fit in, the text is read as the one and as the other
  have hread := reads_json_append h (Nat.le_max_right v.nesting w.nesting)
    (fun hnumber => by rw [hw] at hnumber; cases hnumber) []
  have hwritten := reads_prettyAt hv (Nat.le_max_left v.nesting w.nesting) 0 after
  rw [List.append_nil, List.append_nil] at hread
  exact (hread.unique hwritten).1

/-- **Values without numbers that are written alike are the same.** -/
theorem Json.pretty_inj {v w : Json} (hv : v.NumberFree) (hw : w.NumberFree) :
    v.pretty = w.pretty ↔ v = w := by
  constructor
  · intro h
    have hv := reads_prettyAt hv (Nat.le_max_left v.nesting w.nesting) 0 []
    have hw := reads_prettyAt hw (Nat.le_max_right v.nesting w.nesting) 0 []
    unfold Json.pretty at h
    rw [h] at hv
    exact (hv.unique hw).1
  · exact congrArg Json.pretty

end ComponentPages
