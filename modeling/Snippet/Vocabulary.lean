import Snippet.Decimal.Numeral
import Snippet.Definition
import Snippet.Print

/-!
# Vocabulary of program shapes

Yes-or-no questions about a snippet, each answered by words and marks in its mask: is it about
Fibonacci numbers, does it swap elements, does it halve a range, and so on. Only `hasHelloLiteral`
reads the snippet itself, since what it looks for stands inside a literal.
-/

namespace Snippet

open Pattern

namespace Vocabulary

/-! ### Marks -/

/-- A word in lower case that no word character touches, in any letter case. -/
def anyKeyword (words : List String) : Pattern :=
  edge ++ firstOf (words.map anyCase) ++ edge

/-- A word, in any letter case, at the start of a longer one or alone. -/
def anyStem (s : String) : Pattern := edge ++ anyCase s

/-- An opening parenthesis behind a name that holds `fib`. -/
def fibonacciCall : Pattern := word ++ anyCase "fib" ++ word ++ next '('

/-- A call of a function whose name holds `fib`, with a numeral as its argument. -/
def fibonacciCallOfNumeral : Pattern :=
  edge ++ fibonacciCall ++ blanks ++ group 1 digits ++ next ')'

/-- The variable `n`, less a digit. -/
def nMinus (digit : Char) : Pattern :=
  edge ++ char 'n' ++ next '-' ++ next digit ++ edge

/-- The sum of two names. -/
def accumulation : Pattern := edge ++ name ++ next '+' ++ blanks ++ name ++ edge

/-- Words for stored results. -/
def memoWords : Pattern :=
  firstOf [anyCase "memo", anyCase "lru_cache", anyCase "@cache" ++ edge, anyKeyword ["cache"]]

/-- The parameter of an entry point, which is no array of the program's own. -/
def entryParameter : Pattern :=
  let brackets := next '[' ++ next ']'
  firstOf [lit "String" ++ brackets ++ blanks ++ lit "args",
    lit "String..." ++ blanks ++ lit "args",
    edge ++ lit "argv" ++ brackets,
    char '*' ++ blanks ++ lit "argv" ++ brackets]

/-- Words for arrays, and marks of their use. -/
def arrayMarks : Pattern :=
  firstOf [anyKeyword ["arr", "array", "arrays", "list", "lists", "vector", "arraylist", "nums",
      "numbers", "items"],
    one isWord ++ next '[',
    char '[' ++ next ']',
    char '=' ++ next '[',
    anyCase ".append" ++ next '(',
    anyCase ".push" ++ optional (anyCase "_back") ++ next '(']

/-- An element: a name with something in square brackets, on one line. -/
def element : Pattern :=
  someWord ++ char '[' ++
    (let inside := fun c => c != ']' && c != '\n'
     one inside ++ many inside) ++ char ']'

/-- An exchange of two values: through a variable, by a function, or at once in two forms. -/
def swap : Pattern :=
  firstOf [anyKeyword ["temp", "tmp"] ++ next '=',
    anyStem "swap" ++ next '(',
    group 1 element ++ next ',' ++ blanks ++ group 2 element ++ next '=' ++ blanks ++
      sameButCase 2 ++ next ',' ++ blanks ++ sameButCase 1,
    char '[' ++ blanks ++ group 3 element ++ next ',' ++ blanks ++ group 4 element ++ next ']' ++
      next '=' ++ next '[' ++ blanks ++ sameButCase 4 ++ next ',' ++ blanks ++ sameButCase 3 ++
      next ']']

/-- A comparison of neighbours in an array. -/
def adjacentCompare : Pattern :=
  let nextIndex := next '[' ++ blanks ++ someWord ++ next '+' ++ next '1' ++ next ']'
  let less := one fun c => c == '<' || c == '>'
  firstOf [someWord ++ next '[' ++ blanks ++ someWord ++ next ']' ++ blanks ++ less ++
      optional (char '=') ++ blanks ++ someWord ++ nextIndex,
    char '[' ++ blanks ++ someWord ++ next '+' ++ next '1' ++ next ']' ++ blanks ++ less]

/-- Words for a least element. -/
def minimumWords : Pattern :=
  firstOf [anyStem "min", anyCase "minimum", anyCase "smallest"]

/-- A product with `n`, or multiplication in place. -/
def timesN : Pattern :=
  firstOf [edge ++ char 'n' ++ next '*',
    char '*' ++ blanks ++ optional (char '(') ++ next 'n' ++ edge,
    lit "*="]

/-- An operator of arithmetic between two operands. -/
def arithmetic : Pattern :=
  (one fun c => isWord c || c == ')') ++ blanks ++
    (one fun c => "-+*/%".contains c) ++ blanks ++ one fun c => isWord c || c == '('

/-- A quote mark, and a greeting after it. -/
def hello : Pattern :=
  (one fun c => c == '"' || c == '\'' || c == '\x60') ++ blanks ++ lit "Hello"

end Vocabulary

namespace Language

open Vocabulary

/-- Whether a snippet waits for input. -/
def hasBlockingInput (language : Language) (code : Text) : Bool :=
  language.inputMark.occursIn (language.mask code)

/-- Whether a snippet mentions Fibonacci. -/
def mentionsFibonacci (language : Language) (code : Text) : Bool :=
  (anyCase "fib").occursIn (language.mask code)

/-- Whether both predecessors of `n` occur. -/
def hasFibonacciSubtraction (language : Language) (code : Text) : Bool :=
  let mask := language.mask code
  (nMinus '1').occursIn mask && (nMinus '2').occursIn mask

/-- Whether a snippet mentions Fibonacci and adds up terms in one of the usual ways. -/
def hasFibonacciShape (language : Language) (code : Text) : Bool :=
  language.mentionsFibonacci code &&
    (language.hasFibonacciSubtraction code || accumulation.occursIn (language.mask code))

/-- Whether a snippet looks like the doubly recursive definition. -/
def hasRecursiveFibonacci (language : Language) (code : Text) : Bool :=
  language.mentionsFibonacci code && language.hasFibonacciSubtraction code &&
    (keyword "return").occursIn (language.mask code)

/-- Whether a snippet speaks of arrays, its entry point apart. -/
def hasArrayVocabulary (language : Language) (code : Text) : Bool :=
  arrayMarks.occursIn (entryParameter.replaceIn [' '] (language.mask code))

/-- Whether a snippet keeps the results it has computed. -/
def hasMemoization (language : Language) (code : Text) : Bool :=
  let mask := language.mask code
  memoWords.occursIn mask ||
    ((anyKeyword ["dp"]).occursIn mask && language.hasArrayVocabulary code)

/-- Whether a snippet has a middle between a left and a right bound. -/
def hasBinarySearch (language : Language) (code : Text) : Bool :=
  let mask := language.mask code
  (anyStem "mid").occursIn mask && (anyKeyword ["left", "lo", "low"]).occursIn mask &&
    (anyKeyword ["right", "hi", "high"]).occursIn mask

/-- Whether a snippet merges, or divides and conquers. -/
def hasDivideAndConquer (language : Language) (code : Text) : Bool :=
  let mask := language.mask code
  (anyCase "merge").occursIn mask ||
    ((anyCase "divide").occursIn mask && (anyCase "conquer").occursIn mask)

/-- Whether a snippet is called greedy, or sorts and picks a maximum. -/
def hasGreedyChoice (language : Language) (code : Text) : Bool :=
  let mask := language.mask code
  (anyCase "greedy").occursIn mask ||
    ((anyCase "sort").occursIn mask && (anyStem "max").occursIn mask &&
      (edge ++ firstOf [anyCase "pick", anyCase "select", anyCase "choose"]).occursIn mask)

/-- Whether a snippet exchanges two values. -/
def hasSwap (language : Language) (code : Text) : Bool :=
  swap.occursIn (language.mask code)

/-- Whether a snippet compares neighbours in an array. -/
def hasAdjacentCompare (language : Language) (code : Text) : Bool :=
  adjacentCompare.occursIn (language.mask code)

/-- Whether a snippet speaks of bubbles. -/
def mentionsBubble (language : Language) (code : Text) : Bool :=
  (anyCase "bubble").occursIn (language.mask code)

/-- Whether a snippet speaks of a least element. -/
def hasMinimumSearch (language : Language) (code : Text) : Bool :=
  minimumWords.occursIn (language.mask code)

/-- Whether a snippet speaks of factorials and multiplies by `n`. -/
def hasFactorialShape (language : Language) (code : Text) : Bool :=
  let mask := language.mask code
  (anyCase "factorial").occursIn mask && timesN.occursIn mask

/-- Whether a snippet calculates. -/
def hasArithmetic (language : Language) (code : Text) : Bool :=
  arithmetic.occursIn (language.mask code)

end Language

/-- Whether a literal of a snippet opens with a greeting. -/
def hasHelloLiteral (code : Text) : Bool :=
  Vocabulary.hello.occursIn code

/-! ### The argument of a Fibonacci call -/

namespace Language

/-- The numeral in the first call of a function whose name holds `fib`. The arguments of print calls
come first, unmasked, so that a call inside a literal that is filled in counts. -/
def fibonacciNumeral? (language : Language) (code : Text) : Option Text :=
  let printed := (language.printCalls code).flatMap (·.arguments)
  let found := match printed.findSome? Vocabulary.fibonacciCallOfNumeral.search? with
    | some found => some found
    | none => Vocabulary.fibonacciCallOfNumeral.search? (language.mask code)
  found.map (·.groups.text 1)

/-- The number in the first call of a function whose name holds `fib`. -/
def fibonacciArgument (language : Language) (code : Text) : Except NumeralError (Option Nat) :=
  match language.fibonacciNumeral? code with
  | none => .ok none
  | some digits => (Numeral.read digits).map some

end Language

end Snippet
