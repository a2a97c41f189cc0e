import Snippet.Literal
import Snippet.LoopSearch

/-!
# What kind of program a snippet is

An ordered chain of detectors looks at a snippet, and the first one that recognises something
decides what the snippet is taken for. What is found carries what the output needs to know.

Detectors are a closed list of names; a chain is any list of them.
-/

namespace Snippet

/-- The kinds of program that are told apart. -/
inductive Case where
  | blockingInput
  | literalOutput
  | fibonacci
  | bubbleSort
  | selectionSort
  | helloWorld
  | iterationOutput
  | factorial
  | loop
  | recursion
  | default
  deriving DecidableEq, Repr

namespace Case

/-- The kinds, in the order in which they are listed. -/
def all : List Case :=
  [blockingInput, literalOutput, fibonacci, bubbleSort, selectionSort, helloWorld,
    iterationOutput, factorial, loop, recursion, default]

/-- The tag of a kind. -/
def tag : Case → String
  | blockingInput => "blocking_input"
  | literalOutput => "literal_output"
  | fibonacci => "fibonacci"
  | bubbleSort => "bubble_sort"
  | selectionSort => "selection_sort"
  | helloWorld => "hello_world"
  | iterationOutput => "iteration_output"
  | factorial => "factorial"
  | loop => "loop"
  | recursion => "recursion"
  | default => "default"

end Case

/-- What a snippet is found to be. -/
inductive Finding where
  /-- It waits for input, and may calculate with it. -/
  | blockingInput (arithmetic : Bool)
  /-- It prints a text that is known. -/
  | literalOutput (text : Text)
  /-- It computes a Fibonacci number, and may print it as an argument of its own. -/
  | fibonacci (n : Int) (wrapped : Bool)
  | bubbleSort
  | selectionSort
  | helloWorld
  | iterationOutput
  | factorial
  | loop
  | recursion
  /-- Nothing was recognised. -/
  | default

/-- The kind of program of a finding. -/
def Finding.case : Finding → Case
  | blockingInput _ => .blockingInput
  | literalOutput _ => .literalOutput
  | fibonacci _ _ => .fibonacci
  | bubbleSort => .bubbleSort
  | selectionSort => .selectionSort
  | helloWorld => .helloWorld
  | iterationOutput => .iterationOutput
  | factorial => .factorial
  | loop => .loop
  | recursion => .recursion
  | default => .default

/-- A detector, named for what it recognises. -/
inductive Detector where
  | blockingInput
  | literalOutput
  | fibonacci
  | bubbleSort
  | selectionSort
  | helloWorld
  | iterationOutput
  | factorial
  | loop
  | recursion
  deriving DecidableEq, Repr

namespace Detector

/-- The standard chain. -/
def standard : List Detector :=
  [blockingInput, literalOutput, fibonacci, bubbleSort, selectionSort, helloWorld,
    iterationOutput, factorial, loop, recursion]

/-- The name of a detector. -/
def name : Detector → String
  | blockingInput => "blocking-input"
  | literalOutput => "literal-output"
  | fibonacci => "fibonacci"
  | bubbleSort => "bubble-sort"
  | selectionSort => "selection-sort"
  | helloWorld => "hello-world"
  | iterationOutput => "iteration-output"
  | factorial => "factorial"
  | loop => "loop"
  | recursion => "recursion"

/-- The detector of a name. -/
def ofName? (name : String) : Option Detector :=
  standard.find? (·.name == name)

/-- The kind of program that a detector recognises. -/
def case : Detector → Case
  | blockingInput => .blockingInput
  | literalOutput => .literalOutput
  | fibonacci => .fibonacci
  | bubbleSort => .bubbleSort
  | selectionSort => .selectionSort
  | helloWorld => .helloWorld
  | iterationOutput => .iterationOutput
  | factorial => .factorial
  | loop => .loop
  | recursion => .recursion

/-- What sort of detector it is: one that also extracts something has a sort of its own. -/
def sort : Detector → String
  | blockingInput => "BlockingInputDetector"
  | literalOutput => "LiteralOutputDetector"
  | fibonacci => "FibonacciDetector"
  | _ => "PredicateDetector"

/-- A detector as it is listed. -/
def shown (detector : Detector) : String :=
  "<" ++ detector.sort ++ " " ++ detector.name ++ ">"

/-- Whether the detector recognises a snippet. -/
def recognises (detector : Detector) (language : Language) (code : Text) : Bool :=
  match detector with
  | blockingInput => language.hasBlockingInput code
  | literalOutput => (language.literalOutput? code).isSome
  | fibonacci => language.hasFibonacciShape code
  | bubbleSort => language.hasNestedLoops code && language.hasSwap code &&
      (language.hasAdjacentCompare code || language.mentionsBubble code)
  | selectionSort => language.hasNestedLoops code &&
      (language.hasMinimumSearch code || language.hasSwap code)
  | helloWorld => language.hasPrint code && hasHelloLiteral code
  | iterationOutput => language.hasPrint code &&
      (language.hasArrayVocabulary code || language.hasLoop code)
  | factorial => language.hasFactorialShape code
  | loop => language.hasLoop code
  | recursion => language.hasRecursion code

/-- Whether the detector recognises a snippet, where loops are searched for with so many frames. -/
def recognisesWithin (detector : Detector) (frames : Nat) (language : Language) (code : Text) :
    Except StackError Bool :=
  match detector with
  | bubbleSort => do
    let nested ← language.hasNestedLoopsWithin frames code
    return nested && language.hasSwap code &&
      (language.hasAdjacentCompare code || language.mentionsBubble code)
  | selectionSort => do
    let nested ← language.hasNestedLoopsWithin frames code
    return nested && (language.hasMinimumSearch code || language.hasSwap code)
  | iterationOutput =>
    if language.hasPrint code && !language.hasArrayVocabulary code then
      language.hasLoopWithin frames code
    else .ok (language.hasPrint code)
  | loop => language.hasLoopWithin frames code
  | other => .ok (other.recognises language code)

/-- The Fibonacci number that is meant where none is named. -/
def defaultFibonacciArgument : Nat := 10

/-- Whether a snippet prints a call of a function whose name holds `fib`. -/
def printsFibonacciCall (language : Language) (code : Text) : Bool :=
  (language.printCalls code).any fun call =>
    call.arguments.any Vocabulary.fibonacciCall.occursIn

/-- What the detector finds in a snippet that it recognises. -/
def extract (detector : Detector) (language : Language) (code : Text) :
    Except NumeralError Finding :=
  match detector with
  | blockingInput => .ok (.blockingInput (language.hasArithmetic code))
  | literalOutput => .ok (.literalOutput ((language.literalOutput? code).getD []))
  | fibonacci => do
    let n ← language.fibonacciArgument code
    return .fibonacci (n.getD defaultFibonacciArgument) (printsFibonacciCall language code)
  | bubbleSort => .ok .bubbleSort
  | selectionSort => .ok .selectionSort
  | helloWorld => .ok .helloWorld
  | iterationOutput => .ok .iterationOutput
  | factorial => .ok .factorial
  | loop => .ok .loop
  | recursion => .ok .recursion

end Detector

/-- What a chain of detectors says of a snippet. -/
structure Classification where
  /-- The detector that recognised the snippet, if one did. -/
  detector : Option Detector
  /-- What it found. -/
  finding : Finding

namespace Classification

/-- The name of the detector that decided. -/
def detectorName (found : Classification) : String :=
  match found.detector with
  | some detector => detector.name
  | none => "default"

end Classification

/-- What a chain says of a snippet: the first detector that recognises it decides. Here loops are
found however deep they are nested. -/
def classify (chain : List Detector) (language : Language) (code : Text) :
    Except NumeralError Classification :=
  match chain.find? (·.recognises language code) with
  | none => .ok ⟨none, .default⟩
  | some detector => (detector.extract language code).map (⟨some detector, ·⟩)

/-- Why a chain says nothing of a snippet. -/
inductive ClassificationError where
  /-- A number in the snippet cannot be read. -/
  | numeral (e : NumeralError)
  /-- The search for loops broke off. -/
  | stack (e : StackError)

/-- What a chain says of a snippet, where loops are searched for with so many frames. -/
def classifyWithin (frames : Nat) (chain : List Detector) (language : Language) (code : Text) :
    Except ClassificationError Classification :=
  match chain.findM? (·.recognisesWithin frames language code) with
  | .error e => .error (.stack e)
  | .ok none => .ok ⟨none, .default⟩
  | .ok (some detector) =>
    ((detector.extract language code).map (⟨some detector, ·⟩)).mapError .numeral

end Snippet
