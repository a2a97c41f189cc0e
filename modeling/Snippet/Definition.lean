import Snippet.Loop

/-!
# Function definitions

The functions that a snippet defines, each with its name and its body, and which of them call
themselves. A body is cut out of the mask, so that no comment and no literal takes part.

Where blocks are told by indentation, the body of a definition is what follows the colon on the
line of its header, and the lines after it that are indented further than the header. Blank lines do
not count. In the other languages the body is what stands between the braces after the header.
-/

namespace Snippet

open Pattern

/-- A function definition. -/
structure Definition where
  /-- The name that is defined. -/
  name : Text
  /-- The masked text of the body. -/
  body : Text
  deriving DecidableEq

/-! ### Definitions by indentation -/

/-- The header of a definition at the start of a line: indentation and name are its groups. -/
def indentedHeader : Pattern :=
  lineStart ++ group 1 (many fun c => c == ' ' || c == '\t') ++
    optional (lit "async" ++ someBlanks) ++ lit "def" ++ someBlanks ++ group 2 name ++ next '('

/-- The lines that belong to a block whose header is indented by `indent`: all up to the first one
that is not indented further, without the blank ones. -/
def blockLines (indent : Nat) (lines : List Text) : List Text :=
  (lines.filter fun line => !Text.isBlankText line).takeWhile (indent < Text.indent ·)

/-- What stands behind the first colon, or all if there is none. -/
def afterColon (text : Text) : Text :=
  match Text.breakOn [':'] text with
  | (_, []) => text
  | (_, _ :: rest) => rest

/-- The definition with a given header in a mask with the given lines. The line of the header is
counted in line feeds, while the lines of the mask may end in other ways, too. -/
def indentedDefinition (mask : Text) (lines : List Text) (header : Match) : Definition :=
  let number := (mask.take header.start.offset).count '\n'
  let lineOffset := (lines.take number).flatten.length
  let headerRest := (lines.getD number []).drop (header.stop.offset - lineOffset)
  let indent := (header.groups.text 1).length
  ⟨header.groups.text 2,
    afterColon headerRest ++ (blockLines indent (lines.drop (number + 1))).flatten⟩

/-- The definitions in a mask whose blocks are told by indentation. -/
def indentedDefinitions (mask : Text) : List Definition :=
  let lines := Text.lines mask
  (indentedHeader.matchesIn mask).map (indentedDefinition mask lines)

/-! ### Definitions by braces -/

/-- A parameter list without brackets in it. -/
def parameters : Pattern := char '(' ++ many (fun c => c != '(' && c != ')') ++ char ')'

/-- The header of a definition: a name, parameters, and what may stand before the brace. -/
def bracedHeader : Pattern :=
  edge ++ group 1 name ++ blanks ++ parameters ++ blanks ++
    optional (lit "const" ++ blanks) ++
    optional (lit "throws" ++ someBlanks ++
      (let listed := fun c => isWord c || c == '.' || c == ',' || isBlank c
       one listed ++ fewest listed)) ++
    next '\x7b'

/-- The header of a function that is assigned to a declared variable. -/
def assignedHeader : Pattern :=
  edge ++ firstOf [lit "const", lit "let", lit "var"] ++ someBlanks ++
    group 1 (one (fun c => isNameStart c || c == '$') ++ many (fun c => isWord c || c == '$')) ++
    next '=' ++ blanks ++ optional (lit "async" ++ blanks) ++ optional (lit "function" ++ blanks) ++
    parameters ++ blanks ++ optional (lit "=>" ++ blanks) ++ char '\x7b'

/-- Words that stand before parentheses and a brace without being names of functions. -/
def controlWords : List String :=
  ["if", "for", "while", "switch", "catch", "return", "do", "else", "sizeof", "synchronized",
    "function", "try", "new"]

/-- The definition with a given header, unless the header is that of a control statement. -/
def bracedDefinition? (header : Match) : Option Definition :=
  let name := header.groups.text 1
  if controlWords.contains (String.ofList name) then none
  else
    let inside := header.stop.rest
    let body := match Bracket.curly.closing? 1 0 inside with
      | some length => inside.take length
      | none => inside
    some ⟨name, body⟩

/-- The definitions in a mask with braces: first those with a plain header, then those that are
assigned. -/
def bracedDefinitions (mask : Text) : List Definition :=
  (bracedHeader.matchesIn mask ++ assignedHeader.matchesIn mask).filterMap bracedDefinition?

/-! ### Recursion -/

/-- A call of `name` that is not part of a longer name. -/
def callOfName (name : Text) : Pattern :=
  notAfter (fun c => isWord c || c == '$') ++ lit (String.ofList name) ++ next '('

/-- Whether a definition calls its own name in its body. -/
def Definition.isRecursive (definition : Definition) : Bool :=
  (callOfName definition.name).occursIn definition.body

namespace Language

/-- The functions that a snippet defines. -/
def definitions (language : Language) (code : Text) : List Definition :=
  if language.usesBraces then bracedDefinitions (language.mask code)
  else indentedDefinitions (language.mask code)

/-- The names of the functions that call themselves, each once. -/
def recursiveNames (language : Language) (code : Text) : List Text :=
  (((language.definitions code).filter (·.isRecursive)).map (·.name)).foldl
    (fun names name => if name ∈ names then names else names ++ [name]) []

/-- Whether a snippet defines a function that calls itself. -/
def hasRecursion (language : Language) (code : Text) : Bool :=
  !(language.recursiveNames code).isEmpty

end Language

end Snippet
