import Snippet.Complexity
import Snippet.Sample

/-!
# Advice about a snippet

An ordered list of pieces of advice. The first ones follow the main shape of the snippet: recursion
for Fibonacci numbers, nested loops, a single loop, or none of these. After them come remarks on the
idioms of the language, in a fixed order.
-/

namespace Snippet

open Pattern

/-- How a piece of advice is meant. -/
inductive AdviceKind where
  | suggestion
  | optimization
  | warning
  deriving DecidableEq, Repr

namespace AdviceKind

/-- The kinds, in the order in which they are listed. -/
def all : List AdviceKind := [suggestion, optimization, warning]

/-- The tag of a kind. -/
def tag : AdviceKind → String
  | suggestion => "suggestion"
  | optimization => "optimization"
  | warning => "warning"

end AdviceKind

/-- A piece of advice. -/
structure Advice where
  kind : AdviceKind
  title : String
  description : String
  /-- Why the advice holds. -/
  rationale : Option String := none
  /-- What following it changes. -/
  impact : Option String := none
  /-- Code that follows it. -/
  code : Option CodeSample := none
  deriving DecidableEq

namespace Advice

/-- A change of one class of growth into another, as it is written. -/
def change (before after : Growth) : String := before.label ++ " → " ++ after.label

/-! ### Advice by shape -/

/-- Advice on recursion for Fibonacci numbers whose worst case grows like `worst`. -/
def onFibonacci (language : Language) (worst : Growth) : List Advice :=
  [{ kind := .optimization
     title := "Use Memoization"
     description :=
      "The current recursive implementation recalculates the same values multiple times. " ++
        "Using memoization can reduce time complexity from " ++ worst.label ++ " to O(n)."
     rationale := some ("Each Fibonacci number depends only on the two before it, so caching " ++
        "them removes the repeated work.")
     impact := some (change worst .linear)
     code := some (Topic.memoization.sample language) },
   { kind := .optimization
     title := "Use Iteration Instead of Recursion"
     description :=
      "An iterative approach can be more efficient for calculating Fibonacci numbers, " ++
        "avoiding stack overhead and potential stack overflow for large inputs."
     rationale := some "Two running variables are enough to walk the sequence forward."
     impact := some (change worst .linear ++ " time, " ++ change .linear .constant ++ " space")
     code := some (Topic.iteration.sample language) },
   { kind := .warning
     title := "Stack Overflow Risk"
     description :=
      "The current recursive implementation may cause stack overflow for large values of n " ++
        "(typically n > 40-50 already takes seconds). Consider adding a guard for large inputs."
     rationale := some ("Every pending call keeps a stack frame alive until its children " ++
        "return.")
     code := some (Topic.depthGuard.sample language) }]

/-- Advice on nested loops whose worst case grows like `worst`. -/
def onNestedLoops (language : Language) (worst : Growth) : List Advice :=
  [{ kind := .optimization
     title := "Consider Time Complexity"
     description :=
      "The nested loops give " ++ worst.label ++ " time complexity, which grows quickly with " ++
        "input size. A hash-based lookup or sorting the data first can often bring this down " ++
        "to O(n) or O(n log n)."
     rationale := some ("The inner loop repeats its full work for every iteration of the " ++
        "outer loop.")
     impact := some (change worst .linearithmic) },
   { kind := .suggestion
     title := "Early Termination"
     description :=
      "Consider adding early termination conditions to your loops when the goal is achieved " ++
        "before iterating through all elements."
     rationale := some "Returning on the first match skips the remaining iterations entirely."
     code := some (Topic.earlyTermination.sample language) }]

/-- Advice on a single loop; `arrays` says whether the snippet speaks of arrays. -/
def onSingleLoop (language : Language) (worst : Growth) (arrays : Bool) : List Advice :=
  { kind := .suggestion
    title := "Handle Edge Cases"
    description :=
      "Make sure your loop handles edge cases correctly, such as empty collections or " ++
        "boundary conditions."
    rationale := some "A guard clause keeps the loop body free of special cases."
    code := some (Topic.edgeCaseGuard.sample language) } ::
  if arrays then
    [{ kind := .optimization
       title := "Consider Pre-allocation"
       description :=
        "When the final size of a collection is known, allocate it once instead of growing " ++
          "it element by element."
       rationale := some ("Growing a container repeatedly triggers reallocations and copies.")
       impact := some ("Fewer reallocations, still " ++ worst.label)
       code := some (Topic.preAllocation.sample language) }]
  else []

/-- Advice that fits every snippet. -/
def generic : List Advice :=
  [{ kind := .suggestion
     title := "Add Error Handling"
     description :=
      "Consider adding error handling to make your code more robust. This will help catch and " ++
        "manage unexpected inputs or runtime errors." },
   { kind := .suggestion
     title := "Add Documentation"
     description :=
      "Adding comments and documentation can make your code more maintainable and easier for " ++
        "others to understand." }]

/-- The advice that the main shape of a snippet calls for. -/
def byShape (language : Language) (code : Text) (worst : Growth) : List Advice :=
  if language.hasRecursiveFibonacci code then onFibonacci language worst
  else if language.hasNestedLoops code then onNestedLoops language worst
  else if language.hasLoop code then
    onSingleLoop language worst (language.hasArrayVocabulary code)
  else generic

/-- The advice that the main shape calls for, where loops are searched for with so many frames. -/
def byShapeWithin (frames : Nat) (language : Language) (code : Text) (worst : Growth) :
    Except StackError (List Advice) :=
  if language.hasRecursiveFibonacci code then .ok (onFibonacci language worst)
  else do
    if ← language.hasNestedLoopsWithin frames code then return onNestedLoops language worst
    if ← language.hasLoopWithin frames code then
      return onSingleLoop language worst (language.hasArrayVocabulary code)
    return generic

/-! ### Advice by idiom -/

/-- A range over the length of something. -/
def rangeOfLength : Pattern :=
  edge ++ lit "range" ++ next '(' ++ blanks ++ lit "len" ++ next '('

/-- A loop header whose index runs over a whole array or collection. -/
def indexLoop : Pattern :=
  edge ++ lit "for" ++ next '(' ++ blanks ++ lit "int" ++ someBlanks ++ group 1 someWord ++
    next '=' ++ next '0' ++ next ';' ++ blanks ++ same 1 ++ next '<' ++ blanks ++ someWord ++
    next '.' ++ blanks ++
    firstOf [lit "length" ++ edge, lit "size" ++ next '(' ++ next ')']

/-- An element being added to a vector. -/
def pushBack : Pattern := lit ".push_back" ++ next '('

/-- A vector being given its capacity. -/
def reserveCall : Pattern := lit ".reserve" ++ next '('

/-- A variable of function scope being declared. -/
def varDeclaration : Pattern :=
  keyword "var" ++ someBlanks ++ one fun c => isNameStart c || c == '$'

/-- Whether a vector grows inside of a loop with one of the given reaches. -/
def growsWithin (spans : List (Nat × Nat)) (mask : Text) : Bool :=
  (pushBack.matchesIn mask).any fun found =>
    spans.any fun (first, last) => first < found.start.offset && found.start.offset < last

/-- Whether a vector grows inside of a loop. -/
def growsInLoop (mask : Text) : Bool := growsWithin (loopSpans mask) mask

/-- Whether a snippet with a given mask lacks an idiom of its language. -/
def lacks (idiom : Idiom) (mask : Text) : Bool :=
  match idiom with
  | .enumerate => rangeOfLength.occursIn mask
  | .enhancedFor => indexLoop.occursIn mask
  | .reserve => !reserveCall.occursIn mask && growsInLoop mask
  | .letConst => varDeclaration.occursIn mask

/-- Whether a snippet lacks an idiom, where loops are searched for with so many frames. -/
def lacksWithin (frames : Nat) (idiom : Idiom) (mask : Text) : Except StackError Bool :=
  match idiom with
  | .reserve =>
    if reserveCall.occursIn mask then .ok false
    else (loopSpansWithin frames mask).map (growsWithin · mask)
  | other => .ok (lacks other mask)

/-- Advice to use an idiom. -/
def onIdiom (idiom : Idiom) : Advice :=
  match idiom with
  | .enumerate =>
    { kind := .suggestion
      title := "Use enumerate()"
      description :=
        "Iterating over range(len(...)) and indexing is less readable than enumerate()."
      code := some idiom.sample }
  | .enhancedFor =>
    { kind := .suggestion
      title := "Use Enhanced For Loop"
      description :=
        "When the index is only used to read elements, the enhanced for loop is shorter and " ++
          "avoids off-by-one errors."
      code := some idiom.sample }
  | .reserve =>
    { kind := .optimization
      title := "Reserve Vector Capacity"
      description :=
        "push_back inside a loop may reallocate the vector several times; call reserve() " ++
          "first when the size is known."
      impact := some "Amortised reallocations removed"
      code := some idiom.sample }
  | .letConst =>
    { kind := .suggestion
      title := "Prefer let/const"
      description :=
        "var is function-scoped and hoisted; let and const are block-scoped and catch " ++
          "accidental reassignment."
      code := some idiom.sample }

/-- Advice to format output. -/
def onOutput (language : Language) : Advice where
  kind := .suggestion
  title := "Format Output"
  description := "Use formatting to make your output more readable and structured."
  code := some (Topic.formatOutput.sample language)

/-- The advice that the idioms of the language call for. -/
def byIdiom (language : Language) (code : Text) : List Advice :=
  let mask := language.mask code
  (Idiom.all.filter fun idiom => idiom.language == language && lacks idiom mask).map onIdiom ++
    (if language.hasPrint code && !language.hasLoop code &&
        !language.hasRecursiveFibonacci code then [onOutput language] else [])

/-- Whether a snippet prints, without a loop and without recursion for Fibonacci numbers. -/
def onlyPrintsWithin (frames : Nat) (language : Language) (code : Text) : Except StackError Bool :=
  if language.hasPrint code then
    (language.hasLoopWithin frames code).map fun loop =>
      !loop && !language.hasRecursiveFibonacci code
  else .ok false

/-- The advice that the idioms call for, where loops are searched for with so many frames. -/
def byIdiomWithin (frames : Nat) (language : Language) (code : Text) :
    Except StackError (List Advice) := do
  let mask := language.mask code
  let lacking ← (Idiom.all.filter (·.language == language)).filterM (lacksWithin frames · mask)
  let output ← onlyPrintsWithin frames language code
  return lacking.map onIdiom ++ if output then [onOutput language] else []

end Advice

/-- The advice about a snippet whose worst case is said to grow like `worst`. Here loops are found
however deep they are nested. -/
def advise (language : Language) (code : Text) (worst : Growth) : List Advice :=
  Advice.byShape language code worst ++ Advice.byIdiom language code

/-- The advice about a snippet, where loops are searched for with so many frames. -/
def adviseWithin (frames : Nat) (language : Language) (code : Text) (worst : Growth) :
    Except StackError (List Advice) := do
  let shape ← Advice.byShapeWithin frames language code worst
  let idioms ← Advice.byIdiomWithin frames language code
  return shape ++ idioms

end Snippet
