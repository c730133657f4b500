import ComponentPages.Proofs.BytePositions
import ComponentPages.Proofs.TopLevelParts

/-!
# The parts of an expression cannot be split again

An expression is its top-level parts with the separator between them, and each of them is one part
by itself: where a part ends nothing is open, so the next one is scanned like a text of its own.

- **`PartsOf`** — what the parts of a text are; **`splitTopLevel_eq_iff`** says that there is one
  list of them, the one into which the text is split.
- **`splitAlong?`** — the parts as slices between byte positions, in one loop over the characters;
  **`splitAlong?_eq`** says that no slice is refused and that these are the parts.
- **`splitTopLevel_atomic`** — nothing is lost, and the parts are atomic.
-/

namespace ComponentPages

/-! ## What the parts of a text are -/

/-- The parts of a text: put together they are the text, none of them has a separator at its top
level, and nothing is open where one ends and another follows. -/
structure PartsOf (sep : Char) (s : Text) (parts : List Text) : Prop where
  ne_nil : parts ≠ []
  joined : joinWith [sep] parts = s
  uncut : ∀ part ∈ parts, Uncut sep .top part
  closed : ∀ part ∈ parts.dropLast, (Nesting.top.run part).isTop = true

section Parts

variable {sep : Char}

/-- A text without a separator at the top level is its only part. -/
theorem partsOf_singleton {s : Text} (h : Uncut sep .top s) : PartsOf sep s [s] where
  ne_nil := List.cons_ne_nil _ _
  joined := joinWith_singleton _ _
  uncut := List.forall_mem_singleton.2 h
  closed := by simp

/-- A part that is put in front of a text, with a separator, is the first of its parts. -/
theorem PartsOf.cons {part rest : Text} {parts : List Text} (hpart : Uncut sep .top part)
    (htop : (Nesting.top.run part).isTop = true) (h : PartsOf sep rest parts) :
    PartsOf sep (part ++ sep :: rest) (part :: parts) where
  ne_nil := List.cons_ne_nil _ _
  joined := by
    obtain ⟨next, more, hparts⟩ := List.exists_cons_of_ne_nil h.ne_nil
    rw [hparts, joinWith_cons_cons, ← hparts, h.joined, List.append_assoc, List.singleton_append]
  uncut := List.forall_mem_cons.2 ⟨hpart, h.uncut⟩
  closed := by
    rw [List.dropLast_cons_of_ne_nil h.ne_nil]
    exact List.forall_mem_cons.2 ⟨htop, h.closed⟩

/-- What follows the first part has the others for its parts. -/
theorem PartsOf.tail {part next s : Text} {more : List Text}
    (h : PartsOf sep s (part :: next :: more)) :
    s = part ++ sep :: joinWith [sep] (next :: more) ∧ Uncut sep .top part ∧
      (Nesting.top.run part).isTop = true ∧
      PartsOf sep (joinWith [sep] (next :: more)) (next :: more) := by
  obtain ⟨-, hjoined, huncut, hclosed⟩ := h
  rw [joinWith_cons_cons, List.append_assoc, List.singleton_append] at hjoined
  rw [List.dropLast_cons_of_ne_nil (List.cons_ne_nil _ _)] at hclosed
  rw [List.forall_mem_cons] at huncut hclosed
  exact ⟨hjoined.symm, huncut.1, hclosed.1, List.cons_ne_nil _ _, rfl, huncut.2, hclosed.2⟩

variable (hsep : IsNeutral sep)

include hsep

/-- A text is split into its parts. -/
theorem partsOf_splitTopLevel (s : Text) : PartsOf sep s (splitTopLevel sep s) := by
  induction s using topLevel_induction hsep with
  | uncut s h =>
    rw [splitTopLevel_of_uncut hsep h]
    exact partsOf_singleton h
  | cut part rest hpart htop ih =>
    rw [splitTopLevel_append hsep hpart htop]
    exact ih.cons hpart htop

/-- **A text has one list of parts**, and it is split into these. -/
theorem splitTopLevel_eq_iff {s : Text} {parts : List Text} :
    splitTopLevel sep s = parts ↔ PartsOf sep s parts := by
  refine ⟨fun h => h ▸ partsOf_splitTopLevel hsep s, fun h => ?_⟩
  induction parts generalizing s with
  | nil => exact absurd rfl h.ne_nil
  | cons part parts ih =>
    cases parts with
    | nil =>
      have hs : part = s := (joinWith_singleton _ _).symm.trans h.joined
      exact hs ▸ splitTopLevel_of_uncut hsep (h.uncut part (List.mem_singleton_self _))
    | cons next more =>
      obtain ⟨rfl, hpart, htop, hrest⟩ := h.tail
      rw [splitTopLevel_append hsep hpart htop, ih hrest]

/-- A part is one part by itself. -/
theorem splitTopLevel_of_mem {s part : Text} (h : part ∈ splitTopLevel sep s) :
    splitTopLevel sep part = [part] :=
  splitTopLevel_of_uncut hsep ((partsOf_splitTopLevel hsep s).uncut part h)

/-- After a part that another one follows, and the separator between them, the scan is where it was
at the beginning. -/
theorem run_concat_of_mem_dropLast {s part : Text} (h : part ∈ (splitTopLevel sep s).dropLast) :
    Nesting.top.run (part ++ [sep]) = .top := by
  have htop := (partsOf_splitTopLevel hsep s).closed part h
  rw [Nesting.run_append, Nesting.run_cons, Nesting.run_nil, next_neutral hsep htop]

end Parts

/-! ## The loop over the characters -/

/-- The parts of `s` from the byte position `start` on, as slices of it: `place` is the position at
which the loop has come to `rest`, with `n` open there. -/
def splitLoop? (sep : Char) (s : Text) (start : Nat) (n : Nesting) (place : Nat) :
    (rest : Text) → Option (List Text)
  | [] => do return [← byteSlice? s start (utf8Length s)]
  | c :: rest => do
    if n.splitsAt sep c then
      let part ← byteSlice? s start place
      let parts ← splitLoop? sep s (place + c.utf8Size) (n.next c) (place + c.utf8Size) rest
      return part :: parts
    else splitLoop? sep s start (n.next c) (place + c.utf8Size) rest

/-- The parts of a text by their byte positions, if no slice is refused. -/
def splitAlong? (sep : Char) (s : Text) : Option (List Text) := splitLoop? sep s 0 .top 0 s

/-- A text in front of the first part. -/
def prependFirst (s : Text) (parts : List Text) : List Text := s.foldr pushFirst parts

theorem prependFirst_cons (s part : Text) (parts : List Text) :
    prependFirst s (part :: parts) = (s ++ part) :: parts := by
  induction s with
  | nil => rfl
  | cons c s ih =>
    change pushFirst c (prependFirst s (part :: parts)) = _
    rw [ih]
    rfl

/-- The last character of a text that is put in front of the parts goes there first. -/
theorem prependFirst_concat (s : Text) (c : Char) (parts : List Text) :
    prependFirst (s ++ [c]) parts = prependFirst s (pushFirst c parts) :=
  List.foldr_append

/-- **No slice is refused**: the loop is at the end of the text `front ++ part`, of which `part` is
not cut off yet, and gives the parts of what is left with `part` in front of the first of them. -/
theorem splitLoop?_eq (sep : Char) (front part rest : Text) (n : Nesting) :
    splitLoop? sep (front ++ part ++ rest) (utf8Length front) n (utf8Length (front ++ part)) rest =
      some (prependFirst part (splitFrom sep n rest)) := by
  induction rest generalizing front part n with
  | nil =>
    have hslice := byteSlice?_append front part []
    rw [List.append_nil] at hslice ⊢
    rw [splitLoop?, hslice, splitFrom, prependFirst_cons, List.append_nil]
    rfl
  | cons c rest ih =>
    have hs : front ++ part ++ c :: rest = front ++ part ++ [c] ++ rest := by simp
    have hplace : utf8Length (front ++ part) + c.utf8Size = utf8Length (front ++ part ++ [c]) := by
      rw [utf8Length_append (front ++ part), utf8Length_cons, utf8Length_nil, Nat.add_zero]
    rw [splitLoop?, splitFrom, hplace]
    split
    -- the part is cut off, and the next one begins after the separator
    · have hrest := ih (front ++ part ++ [c]) [] (n.next c)
      rw [List.append_nil, ← hs] at hrest
      rw [byteSlice?_append, hrest, prependFirst_cons, List.append_nil]
      rfl
    -- the part goes on with the character
    · have hrest := ih front (part ++ [c]) (n.next c)
      rw [← List.append_assoc, ← hs] at hrest
      rw [hrest, prependFirst_concat]

/-- **The slices are the parts.** -/
theorem splitAlong?_eq (sep : Char) (s : Text) :
    splitAlong? sep s = some (splitTopLevel sep s) :=
  splitLoop?_eq sep [] [] s .top

/-! ## Atomic parts -/

/-- **Nothing is lost, and the parts are atomic.** Commas and colons stand between the parts and
nowhere at the top level of a part, so each part is its own only part. That is because the scan is
back where it began whenever it cuts, which leaves one way to cut a text. The positions of the cuts
are right in bytes too. -/
theorem splitTopLevel_atomic {sep : Char} (hsep : sep = ',' ∨ sep = ':') (body : Text) :
    joinWith [sep] (splitTopLevel sep body) = body ∧
    (∀ part ∈ splitTopLevel sep body, splitTopLevel sep part = [part]) ∧
    (∀ part ∈ (splitTopLevel sep body).dropLast, Nesting.top.run (part ++ [sep]) = .top) ∧
    (∀ parts, splitTopLevel sep body = parts ↔ PartsOf sep body parts) ∧
    splitAlong? sep body = some (splitTopLevel sep body) := by
  have hneutral : IsNeutral sep := by
    rcases hsep with rfl | rfl
    · exact isNeutral_comma
    · exact isNeutral_colon
  exact ⟨joinWith_splitTopLevel hneutral body, fun _ => splitTopLevel_of_mem hneutral,
    fun _ => run_concat_of_mem_dropLast hneutral, fun _ => splitTopLevel_eq_iff hneutral,
    splitAlong?_eq sep body⟩

/-- Separators in quotes and in brackets, after brackets that close nothing, and characters of more
than one byte. -/
theorem splitTopLevel_atomic_quotes :
    (',' = ',' ∨ ',' = ':') ∧
    splitTopLevel ',' "é)],'🎨, \\', ü',[a,b".toList =
      ["é)]".toList, "'🎨, \\', ü'".toList, "[a,b".toList] ∧
    joinWith [','] (splitTopLevel ',' "é)],'🎨, \\', ü',[a,b".toList) =
      "é)],'🎨, \\', ü',[a,b".toList ∧
    (∀ part ∈ splitTopLevel ',' "é)],'🎨, \\', ü',[a,b".toList,
      splitTopLevel ',' part = [part]) ∧
    splitAlong? ',' "é)],'🎨, \\', ü',[a,b".toList =
      some ["é)]".toList, "'🎨, \\', ü'".toList, "[a,b".toList] := by
  have hparts : splitTopLevel ',' "é)],'🎨, \\', ü',[a,b".toList =
      ["é)]".toList, "'🎨, \\', ü'".toList, "[a,b".toList] := by decide +kernel
  obtain ⟨hjoined, hatomic, -, -, hslices⟩ :=
    splitTopLevel_atomic (.inl (Eq.refl ',')) "é)],'🎨, \\', ü',[a,b".toList
  exact ⟨.inl rfl, hparts, hjoined, hatomic, hslices.trans (congrArg some hparts)⟩

end ComponentPages
