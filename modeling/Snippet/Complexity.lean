import Snippet.Growth
import Snippet.LoopSearch
import Snippet.Vocabulary

/-!
# The growth of a snippet

An ordered list of rules, each with a shape that it looks for and the profile that the shape
implies. The first rule whose shape is there decides; without one the cost is constant.
-/

namespace Snippet

/-- A rule that tells the growth of a snippet from its shape. -/
inductive GrowthRule where
  | fibonacciRecursion
  | memoization
  | binarySearch
  | divideAndConquer
  | greedy
  | nestedLoops
  | singleLoop
  deriving DecidableEq, Repr

namespace GrowthRule

/-- The rules in their standard order. -/
def standard : List GrowthRule :=
  [fibonacciRecursion, memoization, binarySearch, divideAndConquer, greedy, nestedLoops,
    singleLoop]

/-- The name of a rule. -/
def name : GrowthRule → String
  | fibonacciRecursion => "fibonacci-recursion"
  | memoization => "memoization"
  | binarySearch => "binary-search"
  | divideAndConquer => "divide-and-conquer"
  | greedy => "greedy"
  | nestedLoops => "nested-loops"
  | singleLoop => "single-loop"

/-- The rule of a name. -/
def ofName? (name : String) : Option GrowthRule :=
  standard.find? (·.name == name)

/-- Whether a snippet has the shape that the rule looks for. -/
def applies (rule : GrowthRule) (language : Language) (code : Text) : Bool :=
  match rule with
  | fibonacciRecursion => language.hasRecursiveFibonacci code
  | memoization => language.hasMemoization code
  | binarySearch => language.hasBinarySearch code
  | divideAndConquer => language.hasDivideAndConquer code
  | greedy => language.hasGreedyChoice code
  | nestedLoops => language.hasNestedLoops code
  | singleLoop => language.hasLoop code

/-- Whether a snippet has the shape, where loops are searched for with so many frames. -/
def appliesWithin (rule : GrowthRule) (frames : Nat) (language : Language) (code : Text) :
    Except StackError Bool :=
  match rule with
  | nestedLoops => language.hasNestedLoopsWithin frames code
  | singleLoop => language.hasLoopWithin frames code
  | other => .ok (other.applies language code)

/-- The growth of the running time that the shape implies. -/
def time : GrowthRule → Timing
  | fibonacciRecursion => .uniform .exponential
  | memoization => .uniform .linear
  | binarySearch => ⟨.constant, .logarithmic, .logarithmic, by decide, by decide⟩
  | divideAndConquer => .uniform .linearithmic
  | greedy => .uniform .linearithmic
  | nestedLoops => .uniform .quadratic
  | singleLoop => .uniform .linear

/-- The growth of the memory that the shape implies. -/
def space : GrowthRule → Growth
  | fibonacciRecursion | memoization | divideAndConquer => .linear
  | binarySearch | greedy | nestedLoops | singleLoop => .constant

/-- The reasons for the profile. -/
def analysis : GrowthRule → String
  | fibonacciRecursion =>
    "The recursive implementation of Fibonacci has exponential time complexity: every call " ++
      "branches into two more calls, so the same values are recomputed over and over. The " ++
      "recursion is at most n frames deep, giving linear space. Consider dynamic programming " ++
      "or memoization to improve performance."
  | memoization =>
    "The code stores previously computed results, so each subproblem is solved once. With n " ++
      "subproblems this gives linear time, and the memo table or DP array holds n entries."
  | binarySearch =>
    "The search range is halved on every step, so at most log n comparisons are needed. The " ++
      "best case finds the target at the first midpoint. Only a few index variables are kept."
  | divideAndConquer =>
    "The input is split in half log n times and each level does linear work to merge the " ++
      "halves, giving n log n time. Merging needs an auxiliary buffer of size n."
  | greedy =>
    "The greedy strategy sorts the candidates once in n log n time and then makes a single " ++
      "linear pass picking the locally best option, which sorting dominates. Only the running " ++
      "choice is stored."
  | nestedLoops =>
    "The code contains nested loops, resulting in quadratic time complexity. Each iteration " ++
      "of the outer loop runs the inner loop over all elements. No extra memory grows with the " ++
      "input."
  | singleLoop =>
    "The code has linear time complexity as it processes each element once with a single " ++
      "loop. Space complexity is constant as it uses a fixed amount of memory regardless of " ++
      "input size."

/-- The profile that the shape implies. -/
def profile (rule : GrowthRule) : GrowthProfile := ⟨rule.time, rule.space, rule.analysis⟩

end GrowthRule

/-- The profile of a snippet in which no shape is found. -/
def GrowthProfile.constant : GrowthProfile where
  time := .uniform .constant
  space := .constant
  analysis :=
    "The code appears to have constant time complexity as it does not contain loops or " ++
      "recursive calls. It performs a fixed number of operations regardless of input size."

/-- The profile of a snippet by a list of rules: the first rule that applies decides. Here loops are
found however deep they are nested. -/
def growthProfile (rules : List GrowthRule) (language : Language) (code : Text) : GrowthProfile :=
  match rules.find? (·.applies language code) with
  | some rule => rule.profile
  | none => .constant

/-- The profile of a snippet, where loops are searched for with so many frames. -/
def growthProfileWithin (frames : Nat) (rules : List GrowthRule) (language : Language)
    (code : Text) : Except StackError GrowthProfile :=
  match rules.findM? (·.appliesWithin frames language code) with
  | .error e => .error e
  | .ok (some rule) => .ok rule.profile
  | .ok none => .ok .constant

end Snippet
