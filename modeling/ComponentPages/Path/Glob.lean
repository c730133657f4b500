import ComponentPages.Text.Basic

/-!
# Wildcard patterns

Patterns for file names: `?` for any character, `*` for any text, brackets for one character out of
a set, and two stars, alone between slashes, for directories to any depth.

- **`GlobToken`**, **`GlobPattern`** — patterns as lists of tokens.
- **`GlobPattern.ofText?`** — the pattern that a text writes, if it is one.
- **`GlobPattern.standsFor`** — the names that a pattern stands for, told token by token
  (`standsFor_nil`, `standsFor_text`, `standsFor_char`).
- **`GlobPattern.ofPath?`** — the patterns between the slashes of a path.
-/

namespace ComponentPages

/-- A character or a range of characters in brackets. -/
inductive CharSpec where
  | single (c : Char)
  | range (first last : Char)
deriving DecidableEq, Repr

/-- Whether a character is meant. -/
def CharSpec.holds : CharSpec → Char → Bool
  | single d, c => c == d
  | range first last, c => first ≤ c && c ≤ last

/-- An element of a pattern. -/
inductive GlobToken where
  /-- A character that stands for itself. -/
  | char (c : Char)
  /-- Any character. -/
  | anyChar
  /-- Any text. -/
  | anyText
  /-- Directories to any depth. -/
  | anyDepth
  /-- A character of a set. -/
  | oneOf (specs : List CharSpec)
  /-- A character that is not in a set. -/
  | noneOf (specs : List CharSpec)
deriving DecidableEq, Repr

/-- A pattern. -/
abbrev GlobPattern := List GlobToken

/-! ## Reading patterns -/

/-- The characters and ranges between brackets. -/
def charSpecs : Text → List CharSpec
  | first :: '-' :: last :: rest => .range first last :: charSpecs rest
  | c :: rest => .single c :: charSpecs rest
  | [] => []

/-- The content of a set after its opening bracket, and the text after its closing one. The first
character of the content may be a closing bracket. -/
def setContent? : Text → Option (Text × Text)
  | [] => none
  | first :: rest =>
    match rest.dropWhile (· != ']') with
    | _ :: after => some (first :: rest.takeWhile (· != ']'), after)
    | [] => none

/-- The set after an opening bracket, and the text after it. -/
def charSet? : Text → Option (GlobToken × Text)
  | '!' :: rest =>
    (setContent? rest).map fun (content, after) => (.noneOf (charSpecs content), after)
  | s => (setContent? s).map fun (content, after) => (.oneOf (charSpecs content), after)

/-- What follows a set is shorter than what follows its opening bracket. -/
theorem length_lt_of_setContent? {s content after : Text}
    (h : setContent? s = some (content, after)) : after.length < s.length := by
  cases s with
  | nil => cases h
  | cons first rest =>
    simp only [setContent?] at h
    split at h
    · next d r hd =>
      cases h
      have := (List.dropWhile_sublist (l := rest) (· != ']')).length_le
      rw [hd] at this
      simp only [List.length_cons] at this ⊢
      omega
    · cases h

theorem length_lt_of_charSet? {s after : Text} {token : GlobToken}
    (h : charSet? s = some (token, after)) : after.length < s.length := by
  unfold charSet? at h
  split at h
  · next rest =>
    simp only [Option.map_eq_some_iff, Prod.mk.injEq] at h
    obtain ⟨⟨content, after'⟩, hc, -, rfl⟩ := h
    exact Nat.lt_succ_of_lt (length_lt_of_setContent? hc)
  · simp only [Option.map_eq_some_iff, Prod.mk.injEq] at h
    obtain ⟨⟨content, after'⟩, hc, -, rfl⟩ := h
    exact length_lt_of_setContent? hc

/-- The tokens of a pattern, given whether it is at its beginning or after a slash. Two stars have
to stand alone between slashes, and three never stand together. -/
def globTokens? (atStart : Bool) (s : Text) : Option (List GlobToken) :=
  match s with
  | [] => some []
  -- one character of any kind
  | '?' :: rest => (globTokens? false rest).map (.anyChar :: ·)
  -- stars in a row: two alone between slashes, never three
  | '*' :: '*' :: '*' :: _ => none
  | ['*', '*'] => if atStart then some [.anyDepth] else none
  | '*' :: '*' :: '/' :: rest =>
    if atStart then (globTokens? true rest).map (.anyDepth :: ·) else none
  | '*' :: '*' :: _ :: _ => none
  -- any text
  | '*' :: rest => (globTokens? false rest).map (.anyText :: ·)
  -- a set, which has to be closed
  | '[' :: rest =>
    match _h : charSet? rest with
    | some (token, after) => (globTokens? false after).map (token :: ·)
    | none => none
  | c :: rest => (globTokens? (c == '/') rest).map (.char c :: ·)
termination_by s.length
decreasing_by
  · simp
  · simp only [List.length_cons]; omega
  · simp
  · have h := length_lt_of_charSet? _h
    simp only [List.length_cons]
    omega
  · simp

/-- The pattern that a text writes. -/
def GlobPattern.ofText? (s : Text) : Option GlobPattern := globTokens? true s

/-! ## Matching -/

/-- Whether a token stands for a character. -/
def GlobToken.accepts : GlobToken → Char → Bool
  | char d, c => c == d
  | anyChar, _ => true
  | oneOf specs, c => specs.any fun spec => spec.holds c
  | noneOf specs, c => !specs.any fun spec => spec.holds c
  | anyText, _ => false
  | anyDepth, _ => false

/-- Whether a token stands for texts of any length. -/
def GlobToken.isText (t : GlobToken) : Bool := t == anyText || t == anyDepth

/-- For each place of a list, whether `true` stands there or later. -/
def orLater : List Bool → List Bool
  | [] => []
  | b :: bs =>
    let later := orLater bs
    (b || later.headD false) :: later

theorem length_orLater (bs : List Bool) : (orLater bs).length = bs.length := by
  induction bs with
  | nil => rfl
  | cons b bs ih => simp [orLater, ih]

namespace GlobPattern

/-- For a text, for what follows its first character, and so on to the empty text, whether a pattern
stands for it. The answers for a token are read off those for the tokens after it, so that each
token looks at each end of the text once, however many stars there are. -/
def matchingEnds : GlobPattern → Text → List Bool
  | [], s => s.map (fun _ => false) ++ [true]
  | t :: ts, s =>
    let later := matchingEnds ts s
    if t.isText then orLater later
    else List.zipWith (fun c rest => t.accepts c && rest) s later.tail ++ [false]

/-- Whether a pattern stands for a name. -/
def standsFor (p : GlobPattern) (s : Text) : Bool := (p.matchingEnds s).headD false

/-- As many answers as the text has ends. -/
theorem length_matchingEnds (p : GlobPattern) (s : Text) :
    (p.matchingEnds s).length = s.length + 1 := by
  induction p with
  | nil => simp [matchingEnds]
  | cons t ts ih =>
    simp only [matchingEnds]
    split
    · rw [length_orLater, ih]
    · simp [ih]

/-- The first answer is that for the text itself. -/
theorem matchingEnds_eq_cons (p : GlobPattern) (s : Text) :
    p.matchingEnds s = p.standsFor s :: (p.matchingEnds s).tail := by
  have h := length_matchingEnds p s
  unfold standsFor
  cases hs : p.matchingEnds s with
  | nil => simp [hs] at h
  | cons b bs => rfl

/-- All answers but the first are those for what follows the first character of the text. -/
theorem tail_matchingEnds_cons (p : GlobPattern) (c : Char) (s : Text) :
    (p.matchingEnds (c :: s)).tail = p.matchingEnds s := by
  induction p generalizing c s with
  | nil => rfl
  | cons t ts ih =>
    simp only [matchingEnds]
    split
    · rw [matchingEnds_eq_cons ts (c :: s), ih]; rfl
    · rw [ih]
      cases s with
      | nil =>  rw [matchingEnds_eq_cons ts []]; rfl
      | cons d rest => rw [matchingEnds_eq_cons ts (d :: rest)]; simp [List.zipWith]

/-- The empty pattern stands for the empty text alone. -/
theorem standsFor_nil (s : Text) : standsFor [] s = s.isEmpty := by
  cases s <;> rfl

/-- A token for texts of any length stands for no text at all, or for a first character and more. -/
theorem standsFor_text {t : GlobToken} (h : t.isText) (ts : GlobPattern) (s : Text) :
    standsFor (t :: ts) s =
      (standsFor ts s || match s with
        | [] => false
        | _ :: rest => standsFor (t :: ts) rest) := by
  rw [standsFor, matchingEnds, if_pos h, matchingEnds_eq_cons, orLater]
  cases s with
  | nil =>
    have hn : (ts.matchingEnds []).tail = [] :=
      List.length_eq_zero_iff.1 (by simp [length_matchingEnds])
    rw [hn]; rfl
  | cons c rest => rw [tail_matchingEnds_cons]; simp [standsFor, matchingEnds, h]

/-- A token that stands for no text stands for one character. -/
theorem standsFor_char {t : GlobToken} (h : t.isText = false) (ts : GlobPattern) (s : Text) :
    standsFor (t :: ts) s =
      match s with
      | [] => false
      | c :: rest => t.accepts c && standsFor ts rest := by
  simp only [standsFor, matchingEnds, h, Bool.false_eq_true, if_false]
  cases s with
  | nil => rfl
  | cons c rest => rw [tail_matchingEnds_cons, matchingEnds_eq_cons]; rfl

end GlobPattern

/-- The only name that a pattern without wildcards stands for. -/
def GlobPattern.literal? : GlobPattern → Option Text
  | [] => some []
  | .char c :: ts => (GlobPattern.literal? ts).map (c :: ·)
  | _ :: _ => none

/-- Whether a pattern stands for directories to any depth. -/
def GlobPattern.isAnyDepth (p : GlobPattern) : Bool := p == [.anyDepth]

/-- Whether a pattern begins with a dot, so that it may stand for the directory itself and the one
above. -/
def GlobPattern.beginsWithDot (p : GlobPattern) : Bool := p.head? == some (.char '.')

/-! ## Paths -/

/-- The texts between slashes, without an empty one at the end. -/
def slashParts (s : Text) : List Text :=
  let parts := splitOn '/' s
  if parts.getLast? = some [] then parts.dropLast else parts

/-- The patterns between the slashes of a path after its leading slash, if the path is a valid
pattern as a whole and in each of its parts. -/
def GlobPattern.ofPath? (path : Text) : Option (List GlobPattern) :=
  match GlobPattern.ofText? path with
  | none => none
  | some _ =>
    let relative := if path.head? = some '/' then path.tail else path
    let parts := if relative.isEmpty then [[]] else slashParts relative
    parts.mapM GlobPattern.ofText?

end ComponentPages
