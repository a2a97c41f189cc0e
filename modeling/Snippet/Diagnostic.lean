import Snippet.Language.Marks
import Snippet.Mask

/-!
# Shallow diagnostics

A few checks of a snippet's form, each for some languages. They are made in a fixed order, and the
first complaint is the only one.
-/

namespace Snippet

open Pattern

/-- A complaint about the form of a snippet. -/
inductive Diagnostic where
  | mismatchedBraces
  | missingClass
  | missingMainMethod
  | missingMainFunction
  | missingStreamHeader
  | missingPrintHeader
  | missingColon
  | unclosedParenthesis
  | endlessLoop
  deriving DecidableEq, Repr

/-- The wording of a complaint. -/
def Diagnostic.message : Diagnostic → String
  | mismatchedBraces => "error: mismatched curly braces"
  | missingClass => "error: class declaration missing"
  | missingMainMethod => "error: main method missing"
  | missingMainFunction => "error: main function missing"
  | missingStreamHeader => "error: iostream header missing for cout"
  | missingPrintHeader => "error: stdio.h header missing for printf"
  | missingColon => "SyntaxError: expected \":\""
  | unclosedParenthesis => "SyntaxError: unexpected EOF while parsing"
  | endlessLoop => "error: potential infinite loop detected"

/-- A check of the form of a snippet. -/
inductive FormRule where
  | braceBalance
  | javaStructure
  | cMain
  | cppHeaders
  | cHeaders
  | pythonBlockColon
  | pythonPrintParens
  | unboundedLoop
  deriving DecidableEq, Repr

namespace FormRule

/-- The checks, in the order in which they are made. -/
def all : List FormRule :=
  [braceBalance, javaStructure, cMain, cppHeaders, cHeaders, pythonBlockColon,
    pythonPrintParens, unboundedLoop]

/-- The checks that are made; an entry point is only asked for on demand. -/
def standard (requireMain : Bool) : List FormRule :=
  all.filter fun rule => rule != cMain || requireMain

/-- The name of a check. -/
def name : FormRule → String
  | braceBalance => "brace-balance"
  | javaStructure => "java-structure"
  | cMain => "c-main"
  | cppHeaders => "cpp-headers"
  | cHeaders => "c-headers"
  | pythonBlockColon => "python-block-colon"
  | pythonPrintParens => "python-print-parens"
  | unboundedLoop => "unbounded-loop"

/-- The languages that a check is for, by their tags' alphabetical order. -/
def languages : FormRule → List Language
  | braceBalance => [.c, .cpp, .java, .javascript]
  | javaStructure => [.java]
  | cMain => [.c, .cpp]
  | cppHeaders => [.cpp]
  | cHeaders => [.c]
  | pythonBlockColon | pythonPrintParens => [.python]
  | unboundedLoop => [.c, .cpp, .java, .javascript, .python]

/-- The start of an entry point of a class. -/
def classMain : Pattern :=
  edge ++ firstOf [lit "public" ++ someBlanks ++ lit "static",
    lit "static" ++ someBlanks ++ lit "public"] ++
    someBlanks ++ lit "void" ++ someBlanks ++ lit "main" ++ next '('

/-- A word that opens a block or a clause, and a blank. -/
def blockWord : Pattern :=
  edge ++ firstOf [lit "def", lit "if", lit "for"] ++ one isBlank

/-- A loop without an end of its own. -/
def endless : Pattern :=
  firstOf [edge ++ lit "while" ++ someBlanks ++ lit "True" ++ next ':',
    edge ++ lit "while" ++ next '(' ++ blanks ++ firstOf [lit "true", lit "1"] ++ next ')',
    edge ++ lit "for" ++ next '(' ++ next ';' ++ next ';' ++ next ')']

/-- A word by which a loop may be left. -/
def loopExit : Pattern :=
  firstOf (["break", "return", "exit", "throw", "raise", "sys.exit", "process.exit"].map keyword)

/-- The complaint of a check about a snippet with a given mask. -/
def check (rule : FormRule) (code mask : Text) : Option Diagnostic :=
  match rule with
  | braceBalance =>
    if mask.count '\x7b' ≠ mask.count '\x7d' then some .mismatchedBraces else none
  | javaStructure =>
    if !(keyword "class").occursIn mask then some .missingClass
    else if (edge ++ lit "public" ++ someBlanks ++ lit "class" ++ edge).occursIn mask &&
        !classMain.occursIn mask then some .missingMainMethod
    else none
  | cMain =>
    if !(Language.callOf "main").occursIn mask then some .missingMainFunction else none
  | cppHeaders =>
    if (keyword "cout").occursIn mask && !Text.occurs "iostream".toList code
    then some .missingStreamHeader else none
  | cHeaders =>
    if (Language.callOf "printf").occursIn mask && !Text.occurs "stdio.h".toList code
    then some .missingPrintHeader else none
  | pythonBlockColon =>
    if blockWord.occursIn mask && !mask.contains ':' then some .missingColon else none
  | pythonPrintParens =>
    if (Language.callOf "print").occursIn mask && mask.count '(' != mask.count ')'
    then some .unclosedParenthesis else none
  | unboundedLoop =>
    if endless.occursIn mask && !loopExit.occursIn mask then some .endlessLoop else none

end FormRule

/-- The first complaint about a snippet, if there is one. -/
def Language.diagnose (language : Language) (requireMain : Bool) (code : Text) :
    Option Diagnostic :=
  let rules := (FormRule.standard requireMain).filter (language ∈ ·.languages)
  let mask := language.mask code
  rules.findSome? (·.check code mask)

end Snippet
