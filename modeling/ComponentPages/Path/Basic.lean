import ComponentPages.Text.Basic

/-!
# Paths

A path is a text with slashes. What it names is decided by its parts.

- **`PathPart`**, **`pathParts`** — the parts of a path without those that mean nothing.
- **`comparePaths`** — the order of paths, part by part.
- **`joinPath`** — a name inside a directory.
- **`hasExtension`** — the ending of a file name.
-/

namespace ComponentPages

/-- A part of a path. -/
inductive PathPart where
  /-- The top of the file system. -/
  | root
  /-- The working directory, written out in front of a path. -/
  | here
  /-- One directory up. -/
  | up
  /-- A name. -/
  | name (n : Text)
deriving DecidableEq, Repr

/-- The texts between the slashes of a path, empty ones left out. -/
def pathSteps (path : Text) : List Text := (splitOn '/' path).filter fun s => !s.isEmpty

/-- Whether a path begins at the top of the file system. -/
def isRooted (path : Text) : Bool := path.head? == some '/'

/-- Whether a path ends in a slash. -/
def endsInSlash (path : Text) : Bool := path.getLast? == some '/'

/-- The part that a step is, unless it is a dot. -/
def partOfStep? (step : Text) : Option PathPart :=
  if step = ['.'] then none
  else if step = ['.', '.'] then some .up
  else some (.name step)

/-- The parts of a path. Dots and repeated slashes mean nothing, but for a dot in front. -/
def pathParts (path : Text) : List PathPart :=
  let steps := pathSteps path
  let first :=
    if isRooted path then [.root]
    else if steps.head? = some ['.'] then [.here]
    else []
  first ++ steps.filterMap partOfStep?

/-! ## Order -/

/-- The rank of the kinds of parts. -/
def PathPart.rank : PathPart → Nat
  | root => 0
  | here => 1
  | up => 2
  | name _ => 3

/-- The order of texts by code points. -/
def compareTexts (s t : Text) : Ordering :=
  if s = t then .eq else if textLE s t then .lt else .gt

/-- The order of parts: by kind, and names by their code points. -/
def PathPart.compare : PathPart → PathPart → Ordering
  | name s, name t => compareTexts s t
  | p, q => Ord.compare p.rank q.rank

/-- The order of lists of parts: by the first part that differs, a shorter list first. -/
def compareParts : List PathPart → List PathPart → Ordering
  | [], [] => .eq
  | [], _ :: _ => .lt
  | _ :: _, [] => .gt
  | p :: ps, q :: qs => (p.compare q).then (compareParts ps qs)

/-- The order of paths, part by part. -/
def comparePaths (p q : Text) : Ordering := compareParts (pathParts p) (pathParts q)

/-- Paths in order, each once. Of several spellings of one path the first stays. -/
def sortPaths (paths : List Text) : List Text :=
  dropRepeats (paths.mergeSort fun p q => (comparePaths p q).isLE)
where
  /-- The list without elements that name the same as the one before. -/
  dropRepeats : List Text → List Text
    | [] => []
    | [p] => [p]
    | p :: q :: rest =>
      if pathParts p = pathParts q then dropRepeats (p :: rest) else p :: dropRepeats (q :: rest)

/-! ## Names -/

/-- The path of a name inside a directory. -/
def joinPath (directory name : Text) : Text :=
  if directory.isEmpty || endsInSlash directory then directory ++ name
  else directory ++ '/' :: name

/-- Whether a file name ends in a dot and the extension, after something else. -/
def hasExtension (extension name : Text) : Bool :=
  match afterPart? (extension.reverse ++ ['.']) name.reverse with
  | some (_ :: _) => true
  | _ => false

/-- Whether an id can be the name of a file inside a directory. -/
def isSafeName (id : Text) : Bool :=
  !id.isEmpty && id != ['.'] && id != ['.', '.'] &&
    !id.any fun c => c == '/' || c == '\\' || c == '\x00'

end ComponentPages
