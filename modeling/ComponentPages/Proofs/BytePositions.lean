import ComponentPages.Text.Basic

/-!
# Byte positions

A position that is counted in bytes is a place to cut a text at only if a character begins there or
the text ends. What the bytes of a beginning of the text add up to is such a place.

- **`utf8Length_append`** — the bytes of two texts add up.
- **`cutAtByte?`**, **`byteSlice?`** — a text cut at a byte position, and what stands between two of
  them, if they are in order and neither is inside a character.
- **`byteSlice?_append`** — the slice that a part of a text takes up.
-/

namespace ComponentPages

/-! ## Lengths in bytes -/

@[simp] theorem utf8Length_nil : utf8Length [] = 0 := rfl

@[simp] theorem utf8Length_cons (c : Char) (s : Text) :
    utf8Length (c :: s) = c.utf8Size + utf8Length s := rfl

@[simp] theorem utf8Length_append (s t : Text) :
    utf8Length (s ++ t) = utf8Length s + utf8Length t := by
  induction s with
  | nil => simp
  | cons c s ih => simp [ih, Nat.add_assoc]

/-! ## Cuts and slices -/

/-- A text before a byte position and from there on, if a character begins there or the text
ends. -/
def cutAtByte? : Nat → Text → Option (Text × Text)
  | 0, s => some ([], s)
  | _ + 1, [] => none
  | n + 1, c :: s =>
    if c.utf8Size ≤ n + 1 then
      (cutAtByte? (n + 1 - c.utf8Size) s).map fun (front, back) => (c :: front, back)
    else none

/-- What stands between two byte positions of a text, if they are in order and neither is inside a
character. -/
def byteSlice? (s : Text) (first last : Nat) : Option Text := do
  let (front, _) ← cutAtByte? last s
  let (_, part) ← cutAtByte? first front
  return part

/-- A character begins after the bytes of the text before it. -/
theorem cutAtByte?_append (front back : Text) :
    cutAtByte? (utf8Length front) (front ++ back) = some (front, back) := by
  induction front with
  | nil => rw [utf8Length_nil, List.nil_append, cutAtByte?]
  | cons c front ih =>
    obtain ⟨n, hn⟩ : ∃ n, utf8Length (c :: front) = n + 1 :=
      Nat.exists_eq_add_one.2 (Nat.add_pos_left c.utf8Size_pos _)
    have hrest : n + 1 - c.utf8Size = utf8Length front := by
      rw [← hn, utf8Length_cons, Nat.add_sub_cancel_left]
    have hfits : c.utf8Size ≤ n + 1 := by
      rw [← hn, utf8Length_cons]
      exact Nat.le_add_right _ _
    rw [hn, List.cons_append, cutAtByte?, if_pos hfits, hrest, ih, Option.map_some]

/-- The slice between the positions where a part begins and where it ends. -/
theorem byteSlice?_append (front part back : Text) :
    byteSlice? (front ++ part ++ back) (utf8Length front) (utf8Length (front ++ part)) =
      some part := by
  rw [byteSlice?, cutAtByte?_append]
  change (cutAtByte? (utf8Length front) (front ++ part)).bind _ = _
  rw [cutAtByte?_append]
  rfl

end ComponentPages
