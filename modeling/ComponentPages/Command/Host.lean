import ComponentPages.Command.Disk
import ComponentPages.Command.Report

/-!
# Hosts

What the command needs of the machine it runs on. The command is written against this interface, so
that it can run on a real machine as well as on a disk that is a value.

- **`Host`** — the operations, in any monad.
- **`Machine`**, **`Host.onDisk`** — a machine that is a value.
-/

namespace ComponentPages

/-- What the command can do to the world. -/
structure Host (m : Type → Type) where
  /-- The text in a file. -/
  readText : Text → m (Except FileError Text)
  /-- Whether anything stands under a path. -/
  hasPath : Text → m Bool
  /-- Whether a file stands under a path. -/
  isFile : Text → m Bool
  /-- Whether a directory stands under a path. -/
  isDirectory : Text → m Bool
  /-- The names in a directory, in any order. -/
  listDirectory : Text → m (Except FileError (List Text))
  /-- Makes a directory and those above it. -/
  makeDirectories : Text → m (Except FileError Unit)
  /-- Puts a text into a file. -/
  writeText : Text → Text → m (Except FileError Unit)
  /-- All of the standard input. -/
  readInput : m (Except FileError Text)
  /-- Appends to the standard output. -/
  print : Text → m Unit
  /-- Tells of an event. -/
  log : LogEvent → m Unit

/-- A machine that is a value: its disk, what comes in, and what has gone out. -/
structure Machine where
  disk : Disk
  input : Content
  output : Text
  /-- The events that were told, whatever their level. -/
  events : List LogEvent

namespace Host

/-- Looks at the disk of a machine. -/
def look {α : Type} (f : Disk → α) : StateM Machine α := fun m => (f m.disk, m)

/-- Changes the disk of a machine. -/
def change (f : Disk → Disk × Except FileError Unit) : StateM Machine (Except FileError Unit) :=
  fun m =>
    let (disk, result) := f m.disk
    (result, { m with disk })

/-- The host that works on a machine that is a value. -/
def onDisk : Host (StateM Machine) where
  readText path := look (·.readText path)
  hasPath path := look (·.hasPath path)
  isFile path := look (·.isFile path)
  isDirectory path := look (·.isDirectory path)
  listDirectory path := look (·.listDirectory path)
  makeDirectories path := change (·.makeDirectories path)
  writeText path s := change fun d => d.after (d.writeText path s)
  readInput := fun m =>
    match m.input with
    | .text s => (.ok s, m)
    | .bytes _ => (.error .notText, m)
  print s := fun m => ((), { m with output := m.output ++ s })
  log e := fun m => ((), { m with events := m.events ++ [e] })

end Host

end ComponentPages
