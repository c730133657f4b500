import ComponentPages.Text.Basic

/-!
# Command-line arguments

- **`Options`** — what a command line asks for.
- **`Arguments.read`** — the reading of a command line: options at most once each, in any place
  among the files, and nothing but files after two dashes.
-/

namespace ComponentPages

/-- What a command line asks for. -/
structure Options where
  /-- Files, directories and patterns, in order. -/
  files : List Text
  /-- The output directory. -/
  output : Option Text
  /-- The configuration file. -/
  config : Option Text
  /-- The name of the format. -/
  format : Option Text
deriving DecidableEq, Repr

/-- The name of the format, where none is given that of Markdown. -/
def Options.formatName (o : Options) : Text := o.format.getD "markdown".toList

/-- The reading of a command line. -/
inductive Arguments where
  /-- The command is to run. -/
  | run (options : Options)
  /-- The usage is asked for. -/
  | help
  /-- The arguments cannot be understood. -/
  | misused
deriving DecidableEq, Repr

/-- The three options. -/
inductive OptionName where
  | output
  | config
  | format
deriving DecidableEq, Repr

namespace Arguments

/-- The option of a letter. -/
def ofLetter? (c : Char) : Option OptionName :=
  if c = 'o' then some .output
  else if c = 'c' then some .config
  else if c = 'f' then some .format
  else none

/-- The option of a word. -/
def ofWord? (word : Text) : Option OptionName :=
  if word = "output".toList then some .output
  else if word = "config".toList then some .config
  else if word = "format".toList then some .format
  else none

/-- An argument that is an option or the two dashes. A single dash is a file. -/
def isOptionLike (arg : Text) : Bool :=
  match arg with
  | '-' :: _ :: _ => true
  | _ => false

/-- The options with the value of one set, unless it is set already or must not be empty. -/
def setOption? (o : Options) (name : OptionName) (value : Text) : Option Options :=
  match name with
  | .output =>
    if o.output.isSome || value.isEmpty then none else some { o with output := some value }
  | .config =>
    if o.config.isSome || value.isEmpty then none else some { o with config := some value }
  | .format => if o.format.isSome then none else some { o with format := some value }

/-- What an argument is. -/
inductive Kind where
  /-- Two dashes. -/
  | separator
  /-- A file. -/
  | file
  /-- An option with its value. -/
  | attached (name : OptionName) (value : Text)
  /-- An option with its value in the next argument. -/
  | separate (name : OptionName)
  /-- A request for the usage. -/
  | help
  /-- Something else that begins with a dash. -/
  | unknown
deriving DecidableEq, Repr

/-- What an argument is that begins with two dashes. -/
def longKind (body : Text) : Kind :=
  let word := body.takeWhile (· != '=')
  match body.dropWhile (· != '=') with
  | _ :: value =>
    match ofWord? word with
    | some name => .attached name value
    | none => .unknown
  | [] =>
    match ofWord? word with
    | some name => .separate name
    | none => if word = "help".toList then .help else .unknown

/-- What an argument is that begins with a dash and a letter. -/
def shortKind (c : Char) (rest : Text) : Kind :=
  match ofLetter? c with
  | some name =>
    match rest with
    | [] => .separate name
    | '=' :: value => .attached name value
    | value => .attached name value
  | none => if c = 'h' then .help else .unknown

/-- What an argument is. -/
def kindOf (arg : Text) : Kind :=
  match arg with
  | ['-', '-'] => .separator
  | '-' :: '-' :: body => longKind body
  | '-' :: c :: rest => shortKind c rest
  | _ => .file

/-- The reading of arguments after those that gave the options so far. -/
def readFrom (o : Options) : List Text → Arguments
  | [] => .run o
  | arg :: rest =>
    match kindOf arg with
    | .separator => .run { o with files := o.files ++ rest }
    | .file => readFrom { o with files := o.files ++ [arg] } rest
    | .attached name value =>
      match setOption? o name value with
      | some o => readFrom o rest
      | none => .misused
    | .separate name =>
      match rest with
      | [] => .misused
      -- an option cannot be the value of another
      | value :: rest =>
        if isOptionLike value then .misused
        else
          match setOption? o name value with
          | some o => readFrom o rest
          | none => .misused
    | .help => .help
    | .unknown => .misused

/-- The reading of a command line. -/
def read (args : List Text) : Arguments := readFrom ⟨[], none, none, none⟩ args

end Arguments

end ComponentPages
