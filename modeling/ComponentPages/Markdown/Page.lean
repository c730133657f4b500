import ComponentPages.Markdown.Method

/-!
# Pages in Markdown

A whole page: front matter, the description with its examples, and the reference with the sections
of properties and methods.

- **`tabbedPair?`** — the two examples that are shown under tabs.
- **`descriptionParts`** — the description.
- **`finishPage`** — blank lines in a row become one, and the page ends with one line end.
- **`PageDoc.renderMarkdown`** — the page.
- **`PageDoc.notices`** — what is reported while it is made.
-/

namespace ComponentPages

/-! ## Examples -/

/-- The switch between the two tabs. -/
def toggler : Text := joinLines <| [
  "<div class=\"toggler\">",
  "  <ul role=\"tablist\" class=\"toggle-syntax\">",
  "    <li id=\"functional\" class=\"button-functional\" aria-selected=\"false\" role=\"tab\"" ++
    " tabindex=\"0\" aria-controls=\"functionaltab\" onclick=\"displayTabs('syntax', 'functional')\">",
  "      Function Component Example",
  "    </li>",
  "    <li id=\"classical\" class=\"button-classical\" aria-selected=\"false\" role=\"tab\"" ++
    " tabindex=\"0\" aria-controls=\"classicaltab\" onclick=\"displayTabs('syntax', 'classical')\">",
  "      Class Component Example",
  "    </li>",
  "  </ul>",
  "</div>"].map String.toList

/-- What opens the tab of the function component. -/
def functionalBlock : Text := "<block class='functional syntax' />".toList

/-- What opens the tab of the class component. -/
def classBlock : Text := "<block class='classical syntax' />".toList

/-- What closes the tabs. -/
def endBlock : Text := "<block class='endBlock syntax' />".toList

/-- Every percent-encoded space as a space. -/
def decodeSpaces : Text → Text
  | '%' :: '2' :: '0' :: rest => ' ' :: decodeSpaces rest
  | c :: rest => c :: decodeSpaces rest
  | [] => []

/-- The first word of a text. -/
def firstWord (s : Text) : Text := (trimStart s).takeWhile fun c => !isBlank c

/-- The name of a runnable example, if it has one. -/
def snackName? (e : Example) : Option Text := do
  let rest ← afterPart? "SnackPlayer".toList e.language
  let name ← afterFirst? "name=".toList rest
  return decodeSpaces (firstWord name)

/-- Whether the name of an example contains a text. -/
def isNamed (part : String) (e : Example) : Bool :=
  match snackName? e with
  | some name => occurs part.toList name
  | none => false

/-- Whether an example shows a function component. -/
def isFunctional (e : Example) : Bool := isNamed "Function Component Example" e

/-- Whether an example shows a class component. -/
def isClass (e : Example) : Bool := isNamed "Class Component Example" e

/-- The function and the class component example, if there is exactly one of each. -/
def tabbedPair? (examples : List Example) : Option (Example × Example) :=
  match examples.filter isFunctional, examples.filter isClass with
  | [functional], [classical] => some (functional, classical)
  | _, _ => none

/-- The blocks of the examples: a pair under tabs comes first, all else in order. -/
def exampleParts (examples : List Example) : List Text :=
  match tabbedPair? examples with
  -- the intros of both come before the tabs
  | some (functional, classical) =>
    sectionOf functional.intro ++ sectionOf classical.intro ++
      [toggler, functionalBlock, functional.raw, classBlock, classical.raw, endBlock] ++
      (examples.filter fun e => !isFunctional e && !isClass e).flatMap Example.sections
  | none => examples.flatMap Example.sections

/-- The blocks of a description: its prose, its examples under a heading, its footer. -/
def descriptionParts (d : Description) : List Text :=
  sectionOf d.text ++
    (if d.examples.isEmpty then [] else "## Example".toList :: exampleParts d.examples) ++
    sectionOf d.footer

/-! ## The page -/

/-- The front matter. -/
def frontMatter (p : PageDoc) : Text :=
  "---\nid: ".toList ++ p.id ++ "\ntitle: ".toList ++ p.title ++ "\n---".toList

/-- The blocks of the reference, where there are properties or methods. -/
def referenceParts (config : Config) (c : ComponentDoc) : List Text :=
  match (renderProps? config c).toList ++ (renderMethods? config c).toList with
  | [] => []
  | sections => "---".toList :: "# Reference".toList :: sections

/-- The blocks of a page. -/
def pageParts (config : Config) (p : PageDoc) : List Text :=
  frontMatter p :: (sectionOf (joinSections (descriptionParts p.component.description)) ++
    referenceParts config p.component)

/-- The text with at most two line feeds in a row, after `run` of them. -/
def collapseFrom (run : Nat) : Text → Text
  | [] => []
  | c :: rest =>
    if c = '\n' then
      if run < 2 then c :: collapseFrom (run + 1) rest else collapseFrom run rest
    else c :: collapseFrom 0 rest

/-- The text with one blank line for each run of them, without blanks at its end, and with one line
end. -/
def finishPage (s : Text) : Text := trimEnd (collapseFrom 0 s) ++ ['\n']

/-- The page in Markdown. -/
def PageDoc.renderMarkdown (config : Config) (p : PageDoc) : Text :=
  finishPage (joinSections (pageParts config p))

/-- What is reported while a page is shown in Markdown. -/
def PageDoc.notices (config : Config) (p : PageDoc) : List Notice :=
  (if p.component.description.examples.isEmpty then [.emptyPart .examples] else []) ++
    propsNotices config p.component ++ methodsNotices config p.component

end ComponentPages
