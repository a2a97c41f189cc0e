import Snippet.Finding

/-!
# Made-up output

The text that a program of a recognised kind would print. Sorting and iterating are shown on fixed
samples; a Fibonacci number is really computed, up to a greatest argument.
-/

namespace Snippet

/-- The second of two terms after `k` steps, each of which goes on to the next two: the second one,
and the sum of both. -/
def sequenceTerm (a b : Nat) : Nat → Nat
  | 0 => b
  | k + 1 => sequenceTerm b (a + b) k

/-- The Fibonacci number of `n`, which is zero for a negative `n`. The first two numbers are known,
and the second of them is the one before the first step. -/
def fibonacci (n : Int) : Nat :=
  if n ≤ 0 then 0
  else if n = 1 then 1
  else sequenceTerm 0 1 (n - 1).toNat

/-- The product of `product` and the `k` numbers after `n`. -/
def productAfter (product n : Nat) : Nat → Nat
  | 0 => product
  | k + 1 => productAfter (product * (n + 1)) (n + 1) k

/-- The factorial of `n`, which is one for a negative `n`. The first factor that counts is two. -/
def factorial (n : Int) : Nat := productAfter 1 1 (n - 1).toNat

/-- Why no output can be made up. -/
inductive SynthesisError where
  /-- A known text was asked for, but there is none. -/
  | noText
  /-- The Fibonacci argument is greater than the greatest one that is supported. -/
  | argumentTooLarge (n maximum : Int)
  /-- A number could not be read or written. -/
  | numeral (e : NumeralError)

/-- What is reported about the error. -/
def SynthesisError.message : SynthesisError → String
  | noText => "literal output requested without extracted text"
  | argumentTooLarge n maximum =>
    "fibonacci argument " ++ toString n ++ " exceeds the supported maximum of " ++
      toString maximum
  | numeral e => e.message

namespace Synthesis

/-- The greatest Fibonacci argument, unless another one is set. -/
def defaultMaximum : Int := 10000

/-- The sample on which sorting is shown. -/
def sortSample : List Nat := [5, 1, 4, 2, 8]

/-- The sample on which iterating is shown. -/
def iterationSample : List Nat := [1, 2, 3, 4, 5]

/-- The argument on which a factorial is shown. -/
def factorialSample : Nat := 5

/-- What a program prints that waits for input. -/
def inputText (arithmetic : Bool) : String :=
  "Simulated input: " ++ toString Literal.placeholder ++
    (if arithmetic then "\nResult: " ++ toString (Literal.placeholder * 2) else "")

/-- A number as it stands in a text. -/
def written (n : Int) : Except SynthesisError String :=
  (Numeral.write n).mapError .numeral

/-- What a program prints that computes a Fibonacci number. The argument and the greatest one are
written, too, where they are named, and a number that is too long for that is what is reported. -/
def fibonacciText (maximum n : Int) (wrapped : Bool) : Except SynthesisError String :=
  if maximum < n then do
    let _ ← written n
    let _ ← written maximum
    throw (.argumentTooLarge n maximum)
  else if wrapped then written (fibonacci n)
  else do
    let argument ← written n
    let value ← written (fibonacci n)
    return "Fibonacci(" ++ argument ++ ") = " ++ value

/-- What a program prints that sorts. -/
def sortText (language : Language) : String :=
  "Original array: " ++ language.arrayText (sortSample.map toString) ++
    "\nSorted array: " ++ language.arrayText ((sortSample.mergeSort (· ≤ ·)).map toString)

/-- What a program prints that computes a factorial. -/
def factorialText (language : Language) : String :=
  let n := toString factorialSample
  let value := toString (factorial factorialSample)
  match language with
  | .python | .javascript => "factorial(" ++ n ++ ") = " ++ value
  | .java => "Factorial of " ++ n ++ " is: " ++ value
  | .cpp | .c => "Factorial of " ++ n ++ " = " ++ value

end Synthesis

open Synthesis in
/-- The output of a program of a recognised kind. -/
def synthesize (maximum : Int) (language : Language) : Finding → Except SynthesisError String
  | .blockingInput arithmetic => .ok (inputText arithmetic)
  | .literalOutput text => if text.isEmpty then .error .noText else .ok (String.ofList text)
  | .fibonacci n wrapped => fibonacciText maximum n wrapped
  | .bubbleSort | .selectionSort => .ok (sortText language)
  | .helloWorld => .ok "Hello, World!"
  | .iterationOutput => .ok (language.arrayText (iterationSample.map toString))
  | .factorial => .ok (factorialText language)
  | .loop => .ok language.loopOutput
  | .recursion => .ok language.recursionOutput
  | .default => .ok language.defaultOutput

end Snippet
