import ComponentPages.Command.Host
import ComponentPages.Path.Glob

/-!
# Input files

The files that the arguments of the command stand for.

- **`matchingPaths`** — the paths that a pattern stands for.
- **`expandArgument`** — the files of one argument: a file itself, the JSON files of a directory, or
  the files that a pattern stands for.
- **`expandArguments`** — the files of all arguments in order, each once.
-/

namespace ComponentPages

variable {m : Type → Type} [Monad m]

/-- The elements of a list that satisfy a condition that has to be asked for. -/
def filterAsking {α : Type} (p : α → m Bool) : List α → m (List α)
  | [] => pure []
  | a :: as => do
    let keep ← p a
    let rest ← filterAsking p as
    return if keep then a :: rest else rest

/-- The results of all elements of a list, one after another. -/
def collect {α β : Type} (f : α → m (List β)) : List α → m (List β)
  | [] => pure []
  | a :: as => do
    let first ← f a
    let rest ← collect f as
    return first ++ rest

namespace Host

variable (h : Host m)

/-- The names in a directory in order, none if there are none to be had. -/
def namesIn (directory : Text) : m (List Text) := do
  match ← h.listDirectory directory with
  | .ok names => return names.mergeSort textLE
  | .error _ => return []

end Host

/-- Whether a path is that of the working directory. -/
def isWorkingDirectory (path : Text) : Bool := pathParts path == [.here]

/-- The path of a name in a directory that a pattern has led to. -/
def stepInto (directory name : Text) : Text :=
  if isWorkingDirectory directory then name else joinPath directory name

/-- How many directories a path can lead through: each takes a letter and a slash. -/
def maxPathSteps : Nat := 2048

/-- The names that stand for the directory above and for a directory itself. -/
def dotNames : List Text := [['.', '.'], ['.']]

/-- The paths below a directory, to any depth, whose names a pattern stands for, with what `further`
finds from each: from a directory first, then below it. -/
def anyDepth (h : Host m) (p : GlobPattern) (further : Text → m (List Text)) :
    (fuel : Nat) → (directory : Text) → m (List Text)
  | 0, _ => pure []
  | fuel + 1, directory => do
    let names ← h.namesIn directory
    collect (fun name => do
      let path := stepInto directory name
      let here ← if p.standsFor name then further path else pure []
      let below ← if ← h.isDirectory path then anyDepth h p further fuel path else pure []
      return here ++ below) names

/-- The paths that patterns lead to, one name each, from a path that is reached already, in the
order of the names. The order tells which of two spellings of a path is the first. Patterns that end
in directories to any depth lead to no files and are left out. -/
def matchingPaths (h : Host m) : List GlobPattern → Text → m (List Text)
  | [], path => pure [path]
  | p :: patterns, path =>
    match p.literal? with
    -- a plain name is asked for without a look into the directory
    | some name => do
      let next := stepInto path name
      let exists? ← if dotNames.contains name then h.isDirectory path else h.hasPath next
      if exists? then matchingPaths h patterns next else pure []
    | none =>
      if p.isAnyDepth then
        match patterns with
        | [] => pure []
        | q :: rest => do
          if ← h.isDirectory path then
            -- any depth twice in a row is any depth
            if q.isAnyDepth then matchingPaths h (q :: rest) path
            else anyDepth h q (matchingPaths h rest) maxPathSteps path
          else pure []
      else do
        if ← h.isDirectory path then
          -- the directory above and the directory itself are not among its names, and come first
          let dots ←
            if p.beginsWithDot then
              collect (fun name =>
                if p.standsFor name then matchingPaths h patterns (joinPath path name) else pure [])
                dotNames
            else pure []
          let names ← h.namesIn path
          let found ← collect (fun name =>
            if p.standsFor name then matchingPaths h patterns (stepInto path name) else pure [])
            names
          return dots ++ found
        else pure []

/-- The files that a pattern stands for. A pattern that ends in a slash stands for directories
alone. -/
def matchingFiles (h : Host m) (pattern : Text) (patterns : List GlobPattern) : m (List Text) := do
  if endsInSlash pattern then return []
  let start : Text := if isRooted pattern then ['/'] else ['.']
  filterAsking h.isFile (← matchingPaths h patterns start)

/-- The JSON files in a directory. -/
def jsonFilesIn (h : Host m) (directory : Text) (names : List Text) : m (List Text) :=
  filterAsking h.isFile
    ((names.filter (hasExtension "json".toList)).map (joinPath directory))

/-- The files that one argument stands for. -/
def expandArgument (h : Host m) (arg : Text) : ExceptT Failure m (List Text) := do
  if ← h.isFile arg then
    return [arg]
  else if ← h.isDirectory arg then
    match ← h.listDirectory arg with
    | .ok names => (jsonFilesIn h arg names : m (List Text))
    | .error e => throw (.listDirectory arg e)
  else
    match GlobPattern.ofPath? arg with
    | none => throw (.invalidPattern arg)
    | some patterns =>
      let files ← (matchingFiles h arg patterns : m (List Text))
      if files.isEmpty then h.log (.noFiles arg)
      return files

/-- The files that the arguments stand for, in the order of the arguments. -/
def expandAll (h : Host m) : List Text → ExceptT Failure m (List Text)
  | [] => pure []
  | arg :: args => do
    let first ← expandArgument h arg
    let rest ← expandAll h args
    return first ++ rest

/-- The files that the arguments stand for, in the order of their paths, each once. -/
def expandArguments (h : Host m) (args : List Text) : ExceptT Failure m (List Text) := do
  return sortPaths (← expandAll h args)

end ComponentPages
