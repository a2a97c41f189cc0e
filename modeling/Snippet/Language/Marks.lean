import Snippet.Language.Basic
import Snippet.Pattern.Match

/-!
# The marks of a language

What the analysis knows about each language: how it starts a line comment, whether it has braces,
which routines print, by what marks printing and reading are recognised, and what is said of a
program that prints nothing by itself.
-/

namespace Snippet

/-- A way to print. -/
inductive Routine where
  | print
  | systemPrintln
  | systemPrintf
  | systemPrint
  | printf
  | puts
  | consoleLog
  /-- Insertion into the standard output stream. -/
  | stream
  deriving DecidableEq, Repr

namespace Routine

/-- The name under which a routine is called. -/
def name : Routine → String
  | print => "print"
  | systemPrintln => "System.out.println"
  | systemPrintf => "System.out.printf"
  | systemPrint => "System.out.print"
  | printf => "printf"
  | puts => "puts"
  | consoleLog => "console.log"
  | stream => "cout"

/-- Whether the routine ends the line after what it prints. -/
def endsLine : Routine → Bool
  | print | systemPrintln | puts | consoleLog => true
  | _ => false

/-- Whether the routine reads its argument as a format. -/
def takesFormat : Routine → Bool
  | systemPrintf | printf => true
  | _ => false

end Routine

namespace Language

open Pattern

/-- What opens a comment that ends with the line. -/
def commentOpener : Language → Text
  | python => ['#']
  | _ => ['/', '/']

/-- Whether blocks stand in braces; such a language also has block comments. -/
def usesBraces : Language → Bool
  | python => false
  | _ => true

/-- The name of a language as it is written in prose. -/
def displayName : Language → String
  | python => "Python"
  | java => "Java"
  | cpp => "C++"
  | c => "C"
  | javascript => "JavaScript"

/-- The printing routines that are called like functions, in the order in which they are looked
for. -/
def routines : Language → List Routine
  | python => [.print]
  | java => [.systemPrintln, .systemPrintf, .systemPrint]
  | cpp => [.printf]
  | c => [.printf, .puts]
  | javascript => [.consoleLog]

/-- A call of something: its name at an edge, and an opening parenthesis. -/
def callOf (s : String) : Pattern := edge ++ lit s ++ next '('

/-- The marks of a program that prints. -/
def printMark : Language → Pattern
  | python => callOf "print"
  | java =>
    edge ++ lit "System.out.print" ++ optional (firstOf [lit "ln", lit "f"]) ++ next '('
  | cpp => firstOf [edge ++ lit "cout" ++ blanks ++ lit "<<", callOf "printf"]
  | c => firstOf [callOf "printf", callOf "puts"]
  | javascript => callOf "console.log"

/-- The marks of a program that waits for input. -/
def inputMark : Language → Pattern
  | python => firstOf [callOf "input", keyword "sys.stdin"]
  | java => firstOf [keyword "Scanner", keyword "System.in", callOf "readLine"]
  | cpp => firstOf [edge ++ lit "cin" ++ blanks ++ lit ">>", callOf "getline", callOf "scanf"]
  | c => firstOf [callOf "scanf", callOf "fgets", callOf "gets", callOf "getchar"]
  | javascript => firstOf [callOf "prompt", keyword "readline", keyword "process.stdin"]

/-- Whether arrays are shown in brackets, with commas. -/
def bracketsArrays : Language → Bool
  | cpp | c => false
  | _ => true

/-- What is said of a program in which nothing is recognised. -/
def defaultOutput : Language → String
  | python => "Program executed successfully (no print statements found)"
  | java => "Program compiled and ran successfully (no output statements found)"
  | cpp | c => "Program executed successfully (no output statements found)"
  | javascript => "Program executed successfully (no console output found)"

/-- What is said of a program that loops and prints nothing. -/
def loopOutput : Language → String
  | python => "Loop executed successfully (no print statements found)"
  | java =>
    "Program compiled and ran successfully (loop executed, no output statements found)"
  | cpp | c => "Loop executed successfully (no output statements found)"
  | javascript => "Loop executed successfully (no console output found)"

/-- What is said of a program that recurses and prints nothing. -/
def recursionOutput : Language → String
  | python => "Recursive function executed successfully (no print statements found)"
  | java => "Program compiled and ran successfully " ++
      "(recursive method executed, no output statements found)"
  | cpp | c => "Recursive function executed successfully (no output statements found)"
  | javascript => "Recursive function executed successfully (no console output found)"

/-- The pieces of a list, as an array of the language shows them. -/
def arrayText (language : Language) (pieces : List String) : String :=
  if language.bracketsArrays then "[" ++ ", ".intercalate pieces ++ "]"
  else " ".intercalate pieces

end Language

end Snippet
