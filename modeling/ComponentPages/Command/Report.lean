import ComponentPages.Command.FileError
import ComponentPages.Page.Render

/-!
# Reports of the command

- **`LogEvent`** — what the command tells while it goes on.
- **`Failure`** — why it stops.
-/

namespace ComponentPages

/-! ## Events -/

/-- The levels of events, and none of them. -/
inductive LogLevel where
  | off
  | error
  | warn
  | info
deriving DecidableEq, Repr

/-- The rank of a level. -/
def LogLevel.rank : LogLevel → Nat
  | off => 0
  | error => 1
  | warn => 2
  | info => 3

/-- What is told while the command goes on. -/
inductive LogEvent where
  /-- A pattern stands for no file. -/
  | noFiles (pattern : Text)
  /-- A file does not hold pages and is left out. -/
  | unparsable (file : Text)
  /-- A page cannot be made and is left out. -/
  | failedPage (file page : Text) (error : DocError)
  /-- The id of a page is no name of a file, and the page is left out. -/
  | unsafeId (file page : Text)
  /-- A page is written. -/
  | wrote (page path : Text)
deriving DecidableEq, Repr

namespace LogEvent

/-- The level of an event. -/
def level : LogEvent → LogLevel
  | wrote _ _ => .info
  | _ => .warn

/-- The text of an event. -/
def text : LogEvent → Text
  | noFiles pattern => "WARN no files matched pattern=".toList ++ pattern
  | unparsable file => "WARN skipping unparsable file file=".toList ++ file
  | failedPage file page error =>
    "WARN skipping page file=".toList ++ file ++ " page=".toList ++ page ++
      " error=".toList ++ error.message
  | unsafeId file page =>
    "WARN skipping page with unsafe id file=".toList ++ file ++ " page=".toList ++ page
  | wrote page path => "INFO wrote page page=".toList ++ page ++ " path=".toList ++ path

/-- Whether an event is told at a level. -/
def isTold (threshold : LogLevel) (e : LogEvent) : Bool := e.level.rank ≤ threshold.rank

end LogEvent

/-! ## Failures -/

/-- Why the command stops. -/
inductive Failure where
  | readConfig (path : Text) (cause : FileError)
  | invalidConfig (path : Text)
  | readInput (cause : FileError)
  | parseInput
  | unknownFormat (name : Text)
  | renderPage (id : Text) (cause : DocError)
  | noOutput
  | makeOutput (path : Text) (cause : FileError)
  | listDirectory (path : Text) (cause : FileError)
  | invalidPattern (pattern : Text)
  | readFile (path : Text) (cause : FileError)
  | writeFile (path : Text) (cause : FileError)
deriving DecidableEq, Repr

/-- The sentences that report a failure: what was tried, and why it failed. -/
def Failure.messages : Failure → List Text
  | readConfig path cause => ["failed to read config ".toList ++ path, cause.message]
  | invalidConfig path => ["invalid config ".toList ++ path]
  | readInput cause => ["failed to read stdin".toList, cause.message]
  | parseInput => ["failed to parse stdin as docgen JSON".toList]
  | unknownFormat name => [Format.unknownMessage name]
  | renderPage id cause => ["failed to render page ".toList ++ id, cause.message]
  | noOutput => ["--output is required when files are given".toList]
  | makeOutput path cause => ["failed to create output directory: ".toList ++ path, cause.message]
  | listDirectory path cause => ["failed to read directory: ".toList ++ path, cause.message]
  | invalidPattern pattern => ["invalid glob pattern: ".toList ++ pattern]
  | readFile path cause => ["failed to read ".toList ++ path, cause.message]
  | writeFile path cause => ["failed to write ".toList ++ path, cause.message]

end ComponentPages
