import ComponentPages.Command.Arguments
import ComponentPages.Command.Expand
import ComponentPages.Metadata.Schema

/-!
# The command

Without files the command reads pages from the standard input and prints them. With files it writes
every page of every file into the output directory, and leaves out files and pages that cannot be
used.

- **`runOptions`** — the command on some host.
- **`Outcome`**, **`runOnDisk`** — the command on a machine that is a value, and what comes of it.
-/

namespace ComponentPages

variable {m : Type → Type} [Monad m]

/-- The value of a result, or a failure made of its error. -/
def orFail {α ε : Type} (failure : ε → Failure) (result : Except ε α) : ExceptT Failure m α :=
  match result with
  | .ok a => pure a
  | .error e => throw (failure e)

/-- The configuration of the command. -/
def loadConfig (h : Host m) (path : Option Text) : ExceptT Failure m Config :=
  match path with
  | none => pure .builtin
  | some path => do
    let text ← orFail (.readConfig path) (← h.readText path)
    orFail (fun _ => .invalidConfig path) (Config.parse text)

/-- The format of the command. -/
def chooseFormat (name : Text) : ExceptT Failure m Format :=
  match Format.ofName? name with
  | some format => pure format
  | none => throw (.unknownFormat name)

/-! ## Standard input -/

/-- Prints pages one after another, up to the first that cannot be made. -/
def printPages (h : Host m) (config : Config) (format : Format) :
    List Metadata.Page → ExceptT Failure m Unit
  | [] => pure ()
  | page :: pages => do
    let text ← orFail (.renderPage page.id) (page.render config format)
    h.print text
    printPages h config format pages

/-- The command without files. -/
def runInput (h : Host m) (config : Config) (formatName : Text) : ExceptT Failure m Unit := do
  let text ← orFail .readInput (← h.readInput)
  let pages ← orFail (fun _ => .parseInput) (Metadata.parsePages text)
  let format ← chooseFormat formatName
  printPages h config format pages

/-! ## Files -/

/-- Where and how the pages of files are written. -/
structure Target where
  directory : Text
  config : Config
  format : Format

/-- The path of the file for a page. -/
def Target.pathOf (t : Target) (id : Text) : Text :=
  joinPath t.directory (id ++ '.' :: t.format.extension)

/-- Writes a page of a file, or tells why it is left out. -/
def writePage (h : Host m) (t : Target) (file : Text) (page : Metadata.Page) :
    ExceptT Failure m Unit :=
  match page.render t.config t.format with
  | .error e => h.log (.failedPage file page.id e)
  | .ok text =>
    if isSafeName page.id then do
      let path := t.pathOf page.id
      orFail (.writeFile path) (← h.writeText path text)
      h.log (.wrote page.id path)
    else h.log (.unsafeId file page.id)

/-- Writes the pages of a file in order. -/
def writePages (h : Host m) (t : Target) (file : Text) :
    List Metadata.Page → ExceptT Failure m Unit
  | [] => pure ()
  | page :: pages => do
    writePage h t file page
    writePages h t file pages

/-- Writes the pages of a file, or tells that it holds none. -/
def writeFile (h : Host m) (t : Target) (file : Text) : ExceptT Failure m Unit := do
  let text ← orFail (.readFile file) (← h.readText file)
  match Metadata.parsePages text with
  | .ok pages => writePages h t file pages
  | .error _ => h.log (.unparsable file)

/-- Writes the pages of files in order. -/
def writeFiles (h : Host m) (t : Target) : List Text → ExceptT Failure m Unit
  | [] => pure ()
  | file :: files => do
    writeFile h t file
    writeFiles h t files

/-- The command with files. -/
def runFiles (h : Host m) (config : Config) (o : Options) : ExceptT Failure m Unit := do
  match o.output with
  | none => throw .noOutput
  | some directory =>
    orFail (.makeOutput directory) (← h.makeDirectories directory)
    let format ← chooseFormat o.formatName
    let files ← expandArguments h o.files
    writeFiles h ⟨directory, config, format⟩ files

/-! ## The command -/

/-- The command with some options. -/
def runOptions (h : Host m) (o : Options) : ExceptT Failure m Unit := do
  let config ← loadConfig h o.config
  if o.files.isEmpty then runInput h config o.formatName else runFiles h config o

/-- What comes of the command on a machine that is a value. -/
structure Outcome where
  /-- Why it stopped, if it failed. -/
  failure : Option Failure
  /-- The machine afterwards. -/
  machine : Machine

/-- The command on a machine that is a value. -/
def runOnDisk (o : Options) (disk : Disk) (input : Content) : Outcome :=
  match (runOptions Host.onDisk o).run ⟨disk, input, [], []⟩ with
  | (.ok (), machine) => ⟨none, machine⟩
  | (.error e, machine) => ⟨some e, machine⟩

/-- The exit status of an outcome. -/
def Outcome.exitCode (r : Outcome) : Nat := if r.failure.isSome then 1 else 0

/-- The exit status of arguments that cannot be understood. -/
def misuseExitCode : Nat := 2

/-- The lines that an outcome has told at a level. -/
def Outcome.logLines (r : Outcome) (threshold : LogLevel) : List Text :=
  (r.machine.events.filter (LogEvent.isTold threshold)).flatMap fun e => lines e.text

end ComponentPages
