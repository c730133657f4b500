import ComponentPages.Command.FileError
import ComponentPages.Path.PlaceMap

/-!
# Disks

Files and directories as a value: what stands at each place below the top, without links from one
place to another.

- **`Content`**, **`Node`**, **`Disk`** — the types.
- **`Disk.at?`**, **`Disk.put`** — what stands at a place, tied by **`at?_put`**.
- **`Disk.locate`** — the place that a path names, found by a walk (**`walk_nil`**,
  **`walk_cons`**).
- **`Disk.readText`**, **`Disk.writeText`**, **`Disk.makeDirectory`**, **`Disk.makeDirectories`** —
  what can be done at a path.
- **`Disk.changes`** — what is new or different on another disk.
-/

namespace ComponentPages

/-- The content of a file. -/
inductive Content where
  /-- Text. -/
  | text (s : Text)
  /-- Bytes that are not text. -/
  | bytes (b : List UInt8)
deriving DecidableEq, Repr

/-- What can stand at a place. -/
inductive Node where
  | file (content : Content)
  | directory
deriving DecidableEq, Repr

/-- What stands at each place, and the working directory. The top itself is a directory. -/
structure Disk where
  nodes : PlaceMap Node
  workingDirectory : Place
deriving Repr

/-- The longest name, in bytes. -/
def maxNameLength : Nat := 255

/-- The longest path, in bytes. -/
def maxPathLength : Nat := 4095

namespace Disk

/-! ## Places -/

/-- What stands at a place. -/
def at? (d : Disk) (place : Place) : Option Node :=
  if place = [] then some .directory else d.nodes.get? place

/-- Whether a directory stands at a place. -/
def isDirectoryAt (d : Disk) (place : Place) : Bool := d.at? place == some .directory

/-- The disk with a node put at a place below the top. -/
def put (d : Disk) (place : Place) (node : Node) : Disk :=
  { d with nodes := d.nodes.insert place node }

/-- A put node is found at its place, and every other place keeps what it has. -/
theorem at?_put (d : Disk) {place : Place} (node : Node) (h : place ≠ []) (p : Place) :
    (d.put place node).at? p = if p = place then some node else d.at? p := by
  by_cases hp : p = []
  · subst hp; simp [at?, Ne.symm h]
  · simp [at?, put, hp, PlaceMap.get?_insert _ h]

/-! ## Paths -/

/-- Where a walk over a disk has come to: the names on the way there, the last one first, what
stands there, and what stands below. -/
structure Position where
  way : List Text
  node : Option Node
  below : PlaceMap Node

/-- The position at a place. -/
def positionAt (d : Disk) (place : Place) : Position :=
  ⟨place.reverse, d.at? place, d.nodes.under place⟩

/-- The position at a name below. It is found without a look at the way. -/
def Position.enter (p : Position) (name : Text) : Position :=
  ⟨name :: p.way, p.below.get? [name], p.below.under [name]⟩

/-- The place that some steps lead to from a position. A way down is never looked over again from
the top; `walk_cons` tells the steps one by one. -/
def walkFrom (d : Disk) (p : Position) : (steps : List Text) → Except FileError Place
  | [] => .ok p.way.reverse
  | step :: steps =>
    match p.node with
    | none => .error .notFound
    | some (.file _) => .error .notDirectory
    | some .directory =>
      if step = ['.'] then d.walkFrom p steps
      else if step = ['.', '.'] then d.walkFrom (d.positionAt p.way.tail.reverse) steps
      else if maxNameLength < utf8Length step then .error .nameTooLong
      else d.walkFrom (p.enter step) steps

/-- The place that some steps lead to from a place. -/
def walk (d : Disk) (place : Place) (steps : List Text) : Except FileError Place :=
  d.walkFrom (d.positionAt place) steps

/-- To enter a name is to go to the place with the name at its end. -/
theorem enter_positionAt (d : Disk) (place : Place) (name : Text) :
    (d.positionAt place).enter name = d.positionAt (place ++ [name]) := by
  simp [positionAt, Position.enter, at?, PlaceMap.get?_under, PlaceMap.under_under]

@[simp] theorem walk_nil (d : Disk) (place : Place) : d.walk place [] = .ok place := by
  simp [walk, walkFrom, positionAt]

/-- Every step needs a directory to stand in: a dot stays there, two dots go up, and a name goes
down. What the last name stands for need not exist. -/
theorem walk_cons (d : Disk) (place : Place) (step : Text) (steps : List Text) :
    d.walk place (step :: steps) =
      match d.at? place with
      | none => .error .notFound
      | some (.file _) => .error .notDirectory
      | some .directory =>
        if step = ['.'] then d.walk place steps
        else if step = ['.', '.'] then d.walk place.dropLast steps
        else if maxNameLength < utf8Length step then .error .nameTooLong
        else d.walk (place ++ [step]) steps := by
  simp only [walk, walkFrom, enter_positionAt]
  simp [positionAt]

/-- The place that a path names. -/
def locate (d : Disk) (path : Text) : Except FileError Place :=
  if path.isEmpty then .error .notFound
  else if maxPathLength < utf8Length path then .error .nameTooLong
  else d.walk (if isRooted path then [] else d.workingDirectory) (pathSteps path)

/-- What stands under a path. A path that ends in a slash only names directories. -/
def nodeAt (d : Disk) (path : Text) : Except FileError (Place × Node) := do
  let place ← d.locate path
  match d.at? place with
  | none => throw .notFound
  | some .directory => return (place, .directory)
  | some (.file content) =>
    if endsInSlash path then throw .notDirectory else return (place, .file content)

/-- Whether something stands under a path. -/
def hasPath (d : Disk) (path : Text) : Bool :=
  match d.nodeAt path with
  | .ok _ => true
  | .error _ => false

/-- Whether a file stands under a path. -/
def isFile (d : Disk) (path : Text) : Bool :=
  match d.nodeAt path with
  | .ok (_, .file _) => true
  | _ => false

/-- Whether a directory stands under a path. -/
def isDirectory (d : Disk) (path : Text) : Bool :=
  match d.nodeAt path with
  | .ok (_, .directory) => true
  | _ => false

/-! ## Reading and writing -/

/-- The text in the file under a path. -/
def readText (d : Disk) (path : Text) : Except FileError Text := do
  match ← d.nodeAt path with
  | (_, .directory) => throw .isDirectory
  | (_, .file (.bytes _)) => throw .notText
  | (_, .file (.text s)) => return s

/-- The names of what stands in the directory under a path. -/
def listDirectory (d : Disk) (path : Text) : Except FileError (List Text) := do
  match ← d.nodeAt path with
  | (_, .file _) => throw .notDirectory
  | (place, .directory) =>
    return (d.nodes.under place).names

/-- The disk with a text in the file under a path, which is made if there is none. -/
def writeText (d : Disk) (path s : Text) : Except FileError Disk := do
  let place ← d.locate path
  if d.isDirectoryAt place || endsInSlash path then throw .isDirectory
  return d.put place (.file (.text s))

/-- The disk with a new directory under a path. -/
def makeDirectory (d : Disk) (path : Text) : Except FileError Disk := do
  let place ← d.locate path
  match d.at? place with
  | some _ => throw .alreadyExists
  | none => return d.put place .directory

/-- The text of a path with some parts. -/
def partsPath : List PathPart → Text
  | .root :: parts => '/' :: joinWith ['/'] (parts.map partText)
  | parts => joinWith ['/'] (parts.map partText)
where
  /-- The text of a part. -/
  partText : PathPart → Text
    | .root => []
    | .here => ['.']
    | .up => ['.', '.']
    | .name n => n

/-- The disk with a directory under a path, which is made if there is none. -/
def ensureDirectory (d : Disk) (path : Text) : Except FileError Disk :=
  match d.makeDirectory path with
  | .ok e => .ok e
  | .error .alreadyExists => if d.isDirectory path then .ok d else .error .alreadyExists
  | .error failure => .error failure

/-- What is left of a disk after a step: one that fails leaves it as it was. -/
def after (d : Disk) : (step : Except FileError Disk) → Disk × Except FileError Unit
  | .ok e => (e, .ok ())
  | .error failure => (d, .error failure)

/-- A directory under a path, made with `above` if the directories above it are missing. What
`above` has made stays, whether the directory can be made then or not. -/
def makeWith (above : Disk → Disk × Except FileError Unit) (d : Disk) (path : Text) :
    Disk × Except FileError Unit :=
  match d.ensureDirectory path with
  -- what is above is made first, and then the directory is tried again
  | .error .notFound =>
    match above d with
    | (e, .ok ()) => e.after (e.ensureDirectory path)
    | (e, .error failure) => (e, .error failure)
  | step => d.after step

/-- The directory that some parts of a path lead to, the last part first, with all directories
above it. -/
def makeParts (d : Disk) : List PathPart → Disk × Except FileError Unit
  | [] => (d, .ok ())
  | [.root] => (d, .ok ())
  | part :: above => makeWith (fun d => d.makeParts above) d (partsPath (part :: above).reverse)

/-- The directory under a path with all directories above it. What could be made stays, if the rest
could not. -/
def makeDirectories (d : Disk) (path : Text) : Disk × Except FileError Unit :=
  match (pathParts path).reverse with
  | [] => (d, .ok ())
  | [.root] => (d, .ok ())
  | _ :: above => makeWith (fun d => d.makeParts above) d path

/-! ## Changes -/

/-- What stands on the disk `e` and does not stand there, or not so, on the disk `d`. -/
def changes (d e : Disk) : List (Place × Node) :=
  e.nodes.toList.filter fun (place, node) => d.at? place != some node

end Disk

end ComponentPages
