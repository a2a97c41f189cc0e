import Snippet.Vocabulary

/-!
# Literal output

A snippet whose print calls carry nothing but literals and bare names has an output that can be
read off its text. A quoted literal prints what it encodes, a number or a constant prints itself,
and a name prints an assignment of a placeholder value. Any other argument, or more than one of
them, leaves the output unknown.
-/

namespace Snippet

namespace Literal

/-- The value that stands for anything unknown. -/
def placeholder : Nat := 42

/-- The characters that an escape letter stands for. -/
def escapes : List (Char × Char) :=
  [('n', '\n'), ('t', '\t'), ('"', '"'), ('\'', '\''), ('\x60', '\x60'), ('\\', '\\')]

/-- The inside of a quoted literal with its escapes carried out; unknown ones stand for
themselves. -/
def unescape : Text → Text
  | [] => []
  | '\\' :: c :: rest =>
    match escapes.lookup c with
    | some meant => meant :: unescape rest
    | none => '\\' :: c :: unescape rest
  | c :: rest => c :: unescape rest

/-- The inside of a literal, from behind its opening mark `quote`, if the text ends where the
literal is closed. A literal with backticks that is filled in is none. -/
def inside? (quote : Char) : Text → Option Text
  | [] => none
  | '\\' :: c :: rest => (inside? quote rest).map fun body => '\\' :: c :: body
  | c :: rest =>
    if c = quote then if rest.isEmpty then some [] else none
    else if c = '\\' || (quote = '\x60' && c = '$') then none
    else (inside? quote rest).map (c :: ·)

/-- The text that a quoted literal encodes. -/
def quoted? : Text → Option Text
  | [] => none
  | c :: rest =>
    if c = '"' || c = '\'' || c = '\x60' then (inside? c rest).map unescape else none

/-- A text without its doubled percent signs. -/
def dropPercents : Text → Text
  | [] => []
  | '%' :: '%' :: rest => dropPercents rest
  | c :: rest => c :: dropPercents rest

/-- A text with each doubled percent sign made a single one. -/
def halvePercents : Text → Text
  | [] => []
  | '%' :: '%' :: rest => '%' :: halvePercents rest
  | c :: rest => c :: halvePercents rest

/-- Whether a percent sign with anything but another one after it occurs. -/
def hasDirective : Text → Bool
  | '%' :: c :: rest => c != '%' || hasDirective (c :: rest)
  | _ :: rest => hasDirective rest
  | [] => false

/-- The text that a format prints, if it has nothing to fill in. -/
def formatted? (format : Text) : Option Text :=
  if hasDirective (dropPercents format) then none else some (halvePercents format)

/-- Whether a text is a run of digits. -/
def isDigits (text : Text) : Bool :=
  !text.isEmpty && text.all isDecimal

/-- Whether a text is a decimal number, possibly negative, possibly with digits after a point. -/
def isNumber (text : Text) : Bool :=
  let size := match text with
    | '-' :: rest => rest
    | _ => text
  match Text.breakOn ['.'] size with
  | (whole, []) => isDigits whole
  | (whole, _ :: fraction) => isDigits whole && isDigits fraction

/-- The words that print themselves. -/
def constants : List String :=
  ["True", "False", "None", "true", "false", "null", "undefined"]

/-- Whether a text is a name. -/
def isName : Text → Bool
  | [] => false
  | c :: rest => isNameStart c && rest.all isWord

/-- The text that an argument prints, where it can be told. -/
def plain? (argument : Text) : Option Text :=
  match quoted? argument with
  | some text => some text
  | none =>
    if isNumber argument || constants.contains (String.ofList argument) then some argument
    else if isName argument then
      some (argument ++ " = ".toList ++ (toString placeholder).toList)
    else none

/-- The text that a call prints, where it can be told. -/
def ofCall? (call : PrintCall) : Option Text :=
  match call.arguments with
  | [argument] =>
    let text? := if call.routine.takesFormat then (quoted? argument).bind formatted?
      else plain? argument
    text?.map fun text => text ++ (if call.endsLine then ['\n'] else [])
  | _ => none

/-- What some calls print together, without line feeds at the end, unless that is blank. -/
def ofCalls? (calls : List PrintCall) : Option Text :=
  if calls.isEmpty then none
  else do
    let pieces ← calls.mapM ofCall?
    let output := Text.dropEndWhile (· == '\n') pieces.flatten
    if Text.isBlankText output then none else some output

end Literal

/-- The output of a snippet that only prints literals and bare names. -/
def Language.literalOutput? (language : Language) (code : Text) : Option Text :=
  Literal.ofCalls? (language.printCalls code)

end Snippet
