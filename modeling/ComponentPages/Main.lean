import ComponentPages.Command.Run

/-!
# The command line

The outer layer of the command: the host that is the real machine, and the entry point. Nothing is
decided here.
-/

namespace ComponentPages

/-- A text of the machine. -/
def ofMachine (s : String) : Text := s.toList

/-- A text for the machine. -/
def toMachine (s : Text) : String := String.ofList s

/-- The file error that an error of the machine is. -/
def fileErrorOf (e : IO.Error) : FileError :=
  match e with
  | .noFileOrDirectory .. => .notFound
  | .inappropriateType _ 20 _ => .notDirectory
  | .inappropriateType _ 21 _ => .isDirectory
  | .alreadyExists .. => .alreadyExists
  | .invalidArgument _ 36 _ => .nameTooLong
  | e => .other (ofMachine (toString e))

/-- The result of an action that may fail. -/
def attempt {α : Type} (action : IO α) : IO (Except FileError α) := do
  match ← action.toBaseIO with
  | .ok a => return .ok a
  | .error e => return .error (fileErrorOf e)

/-- The text that bytes write. -/
def decodeText (bytes : ByteArray) : Except FileError Text :=
  match String.fromUTF8? bytes with
  | some s => .ok (ofMachine s)
  | none => .error .notText

/-- Whether something of a kind stands under a path. -/
def standsAt (path : Text) (directory file : Bool) : IO Bool := do
  match ← (IO.FS.realPath (toMachine path)).toBaseIO with
  | .error _ => return false
  | .ok real =>
    if ← real.isDir then return directory
    if ← real.pathExists then return file
    return false

/-- The names in a directory. -/
def namesAt (path : Text) : IO (List Text) := do
  let real ← IO.FS.realPath (toMachine path)
  return (← real.readDir).toList.map fun entry => ofMachine entry.fileName

/-- Makes a directory and those above it. Where that fails, the directory alone is tried for the
error to report. -/
def makeDirectoriesAt (path : Text) : IO (Except FileError Unit) := do
  match ← attempt (IO.FS.createDirAll (toMachine path)) with
  | .ok () => return .ok ()
  | .error _ => attempt (IO.FS.createDir (toMachine path))

/-- The real machine, telling events up to a level on the standard error. -/
def realHost (threshold : LogLevel) : Host IO where
  readText path := do
    match ← attempt (IO.FS.readBinFile (toMachine path)) with
    | .ok bytes => return decodeText bytes
    | .error e => return .error e
  hasPath path := standsAt path true true
  isFile path := standsAt path false true
  isDirectory path := standsAt path true false
  listDirectory path := attempt (namesAt path)
  makeDirectories path := makeDirectoriesAt path
  writeText path s := attempt (IO.FS.writeFile (toMachine path) (toMachine s))
  readInput := do
    let stdin ← IO.getStdin
    match ← attempt stdin.readBinToEnd with
    | .ok bytes => return decodeText bytes
    | .error e => return .error e
  print s := IO.print (toMachine s)
  log e := if e.isTold threshold then IO.eprintln (toMachine e.text) else pure ()

/-- The level that a word names. -/
def levelOf (word : Option String) : LogLevel :=
  match word with
  | some "off" => .off
  | some "error" => .error
  | some "info" | some "debug" | some "trace" => .info
  | _ => .warn

/-- How the command is used. -/
def usage : String :=
  "Usage: compdoc [OPTIONS] [FILES]...\n\n" ++
  "  -o, --output <DIR>     output directory (required when files are given)\n" ++
  "  -c, --config <FILE>    JSON file with type links and platform labels\n" ++
  "  -f, --format <FORMAT>  markdown (default) or json\n"

/-- The lines that report why the command stopped. -/
def failureLines (messages : List Text) : List String :=
  match messages with
  | [] => []
  | message :: causes =>
    ("Error: " ++ toMachine message) ::
      (if causes.isEmpty then []
        else "" :: "Caused by:" :: causes.map fun c => "    " ++ toMachine c)

end ComponentPages

open ComponentPages in
/-- The command. -/
def main (args : List String) : IO UInt32 := do
  match Arguments.read (args.map String.toList) with
  | .misused =>
    IO.eprint usage
    return 2
  | .help =>
    IO.print usage
    return 0
  | .run options =>
    let threshold := levelOf (← IO.getEnv "COMPDOC_LOG")
    match ← (runOptions (realHost threshold) options).run with
    | .ok () => return 0
    | .error failure =>
      for line in failureLines failure.messages do
        IO.eprintln line
      return 1
