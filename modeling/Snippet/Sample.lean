import Snippet.Language.Basic

/-!
# Replacement code

Short pieces of code that advice refers to. Some topics have a piece in every language, others are
about an idiom of one language.
-/

namespace Snippet

/-- A piece of code with the language it is written in. -/
structure CodeSample where
  language : Language
  source : String
  source_ne : source ≠ ""
  deriving DecidableEq

/-- Lines of code as one text. -/
def codeLines (sources : List String) : String := "\n".intercalate sources

/-- What a piece of code is about that every language has. -/
inductive Topic where
  | memoization
  | iteration
  | depthGuard
  | earlyTermination
  | edgeCaseGuard
  | preAllocation
  | formatOutput
  deriving DecidableEq, Repr

namespace Topic

/-- The topics. -/
def all : List Topic :=
  [memoization, iteration, depthGuard, earlyTermination, edgeCaseGuard, preAllocation, formatOutput]

/-- The name of a topic. -/
def name : Topic → String
  | memoization => "memoization"
  | iteration => "iteration"
  | depthGuard => "depth_guard"
  | earlyTermination => "early_termination"
  | edgeCaseGuard => "edge_case_guard"
  | preAllocation => "pre_allocation"
  | formatOutput => "format_output"

end Topic

/-- Fibonacci numbers with stored results. -/
def Topic.memoizationSource : Language → String
  | .python =>
    codeLines [
      "# Optimized with memoization",
      "def fibonacci(n, memo=\x7b\x7d):",
      "    if n in memo:",
      "        return memo[n]",
      "    if n <= 1:",
      "        return n",
      "    memo[n] = fibonacci(n-1, memo) + fibonacci(n-2, memo)",
      "    return memo[n]"]
  | .java =>
    codeLines [
      "// Optimized with memoization",
      "public static long fibonacci(int n, Map<Integer, Long> memo) \x7b",
      "    if (memo.containsKey(n)) return memo.get(n);",
      "    if (n <= 1) return n;",
      "    memo.put(n, fibonacci(n-1, memo) + fibonacci(n-2, memo));",
      "    return memo.get(n);",
      "\x7d"]
  | .cpp =>
    codeLines [
      "// Optimized with memoization",
      "long long fibonacci(int n, std::unordered_map<int, long long>& memo) \x7b",
      "    if (memo.find(n) != memo.end()) return memo[n];",
      "    if (n <= 1) return n;",
      "    memo[n] = fibonacci(n-1, memo) + fibonacci(n-2, memo);",
      "    return memo[n];",
      "\x7d"]
  | .c =>
    codeLines [
      "// Optimized with memoization (memo[] initialised to -1)",
      "long long fibonacci(int n, long long memo[]) \x7b",
      "    if (memo[n] != -1) return memo[n];",
      "    if (n <= 1) return n;",
      "    memo[n] = fibonacci(n-1, memo) + fibonacci(n-2, memo);",
      "    return memo[n];",
      "\x7d"]
  | .javascript =>
    codeLines [
      "// Optimized with memoization",
      "function fibonacci(n, memo = new Map()) \x7b",
      "  if (memo.has(n)) return memo.get(n);",
      "  if (n <= 1) return n;",
      "  const value = fibonacci(n - 1, memo) + fibonacci(n - 2, memo);",
      "  memo.set(n, value);",
      "  return value;",
      "\x7d"]

/-- Fibonacci numbers in a loop. -/
def Topic.iterationSource : Language → String
  | .python =>
    codeLines [
      "# Iterative implementation",
      "def fibonacci(n):",
      "    if n <= 1:",
      "        return n",
      "    a, b = 0, 1",
      "    for _ in range(2, n + 1):",
      "        a, b = b, a + b",
      "    return b"]
  | .java =>
    codeLines [
      "// Iterative implementation",
      "public static long fibonacci(int n) \x7b",
      "    if (n <= 1) return n;",
      "    long a = 0, b = 1;",
      "    for (int i = 2; i <= n; i++) \x7b",
      "        long c = a + b;",
      "        a = b;",
      "        b = c;",
      "    \x7d",
      "    return b;",
      "\x7d"]
  | .cpp =>
    codeLines [
      "// Iterative implementation",
      "long long fibonacci(int n) \x7b",
      "    if (n <= 1) return n;",
      "    long long a = 0, b = 1;",
      "    for (int i = 2; i <= n; i++) \x7b",
      "        long long c = a + b;",
      "        a = b;",
      "        b = c;",
      "    \x7d",
      "    return b;",
      "\x7d"]
  | .c =>
    codeLines [
      "// Iterative implementation",
      "long long fibonacci(int n) \x7b",
      "    if (n <= 1) return n;",
      "    long long a = 0, b = 1;",
      "    for (int i = 2; i <= n; i++) \x7b",
      "        long long c = a + b;",
      "        a = b;",
      "        b = c;",
      "    \x7d",
      "    return b;",
      "\x7d"]
  | .javascript =>
    codeLines [
      "// Iterative implementation",
      "function fibonacci(n) \x7b",
      "  if (n <= 1) return n;",
      "  let a = 0, b = 1;",
      "  for (let i = 2; i <= n; i++) \x7b",
      "    [a, b] = [b, a + b];",
      "  \x7d",
      "  return b;",
      "\x7d"]

/-- Recursive Fibonacci numbers with a greatest argument. -/
def Topic.depthGuardSource : Language → String
  | .python =>
    codeLines [
      "# Guard against deep recursion",
      "MAX_N = 900  # stays below the default recursion limit",
      "",
      "def fibonacci(n):",
      "    if n > MAX_N:",
      "        raise ValueError(f\"n=\x7bn\x7d is too large for a recursive solution\")",
      "    if n <= 1:",
      "        return n",
      "    return fibonacci(n-1) + fibonacci(n-2)"]
  | .java =>
    codeLines [
      "// Guard against deep recursion",
      "public static long fibonacci(int n) \x7b",
      "    if (n > 40) \x7b",
      "        throw new IllegalArgumentException(\"n is too large for a recursive solution\");",
      "    \x7d",
      "    if (n <= 1) return n;",
      "    return fibonacci(n-1) + fibonacci(n-2);",
      "\x7d"]
  | .cpp =>
    codeLines [
      "// Guard against deep recursion",
      "long long fibonacci(int n) \x7b",
      "    if (n > 40) \x7b",
      "        throw std::invalid_argument(\"n is too large for a recursive solution\");",
      "    \x7d",
      "    if (n <= 1) return n;",
      "    return fibonacci(n-1) + fibonacci(n-2);",
      "\x7d"]
  | .c =>
    codeLines [
      "// Guard against deep recursion",
      "long long fibonacci(int n) \x7b",
      "    if (n > 40) \x7b",
      "        fprintf(stderr, \"n is too large for a recursive solution\\n\");",
      "        return -1;",
      "    \x7d",
      "    if (n <= 1) return n;",
      "    return fibonacci(n-1) + fibonacci(n-2);",
      "\x7d"]
  | .javascript =>
    codeLines [
      "// Guard against deep recursion",
      "function fibonacci(n) \x7b",
      "  if (n > 40) \x7b",
      "    throw new RangeError(\"n is too large for a recursive solution\");",
      "  \x7d",
      "  if (n <= 1) return n;",
      "  return fibonacci(n - 1) + fibonacci(n - 2);",
      "\x7d"]

/-- A search that stops at the first hit. -/
def Topic.earlyTerminationSource : Language → String
  | .python =>
    codeLines [
      "# Stop as soon as the answer is known",
      "def contains_pair(arr, target):",
      "    for i in range(len(arr)):",
      "        for j in range(i + 1, len(arr)):",
      "            if arr[i] + arr[j] == target:",
      "                return True",
      "    return False"]
  | .java =>
    codeLines [
      "// Stop as soon as the answer is known",
      "public static boolean containsPair(int[] arr, int target) \x7b",
      "    for (int i = 0; i < arr.length; i++) \x7b",
      "        for (int j = i + 1; j < arr.length; j++) \x7b",
      "            if (arr[i] + arr[j] == target) return true;",
      "        \x7d",
      "    \x7d",
      "    return false;",
      "\x7d"]
  | .cpp =>
    codeLines [
      "// Stop as soon as the answer is known",
      "bool containsPair(const std::vector<int>& arr, int target) \x7b",
      "    for (size_t i = 0; i < arr.size(); i++) \x7b",
      "        for (size_t j = i + 1; j < arr.size(); j++) \x7b",
      "            if (arr[i] + arr[j] == target) return true;",
      "        \x7d",
      "    \x7d",
      "    return false;",
      "\x7d"]
  | .c =>
    codeLines [
      "// Stop as soon as the answer is known",
      "int contains_pair(const int arr[], int n, int target) \x7b",
      "    for (int i = 0; i < n; i++) \x7b",
      "        for (int j = i + 1; j < n; j++) \x7b",
      "            if (arr[i] + arr[j] == target) return 1;",
      "        \x7d",
      "    \x7d",
      "    return 0;",
      "\x7d"]
  | .javascript =>
    codeLines [
      "// Stop as soon as the answer is known",
      "function containsPair(arr, target) \x7b",
      "  for (let i = 0; i < arr.length; i++) \x7b",
      "    for (let j = i + 1; j < arr.length; j++) \x7b",
      "      if (arr[i] + arr[j] === target) return true;",
      "    \x7d",
      "  \x7d",
      "  return false;",
      "\x7d"]

/-- A sum that starts with a test for emptiness. -/
def Topic.edgeCaseGuardSource : Language → String
  | .python =>
    codeLines [
      "# Guard clause for empty input",
      "def total(arr):",
      "    if not arr:",
      "        return 0",
      "    result = 0",
      "    for value in arr:",
      "        result += value",
      "    return result"]
  | .java =>
    codeLines [
      "// Guard clause for empty input",
      "public static int total(int[] arr) \x7b",
      "    if (arr == null || arr.length == 0) return 0;",
      "    int result = 0;",
      "    for (int value : arr) \x7b",
      "        result += value;",
      "    \x7d",
      "    return result;",
      "\x7d"]
  | .cpp =>
    codeLines [
      "// Guard clause for empty input",
      "int total(const std::vector<int>& arr) \x7b",
      "    if (arr.empty()) return 0;",
      "    int result = 0;",
      "    for (int value : arr) \x7b",
      "        result += value;",
      "    \x7d",
      "    return result;",
      "\x7d"]
  | .c =>
    codeLines [
      "// Guard clause for empty input",
      "int total(const int *arr, int n) \x7b",
      "    if (arr == NULL || n <= 0) return 0;",
      "    int result = 0;",
      "    for (int i = 0; i < n; i++) \x7b",
      "        result += arr[i];",
      "    \x7d",
      "    return result;",
      "\x7d"]
  | .javascript =>
    codeLines [
      "// Guard clause for empty input",
      "function total(arr) \x7b",
      "  if (!Array.isArray(arr) || arr.length === 0) return 0;",
      "  let result = 0;",
      "  for (const value of arr) \x7b",
      "    result += value;",
      "  \x7d",
      "  return result;",
      "\x7d"]

/-- A collection that gets its size at once. -/
def Topic.preAllocationSource : Language → String
  | .python =>
    codeLines [
      "# Build the list in one pass instead of repeated append",
      "squares = [i * i for i in range(n)]"]
  | .java =>
    codeLines [
      "// Size the list up front",
      "List<Integer> squares = new ArrayList<>(n);",
      "for (int i = 0; i < n; i++) \x7b",
      "    squares.add(i * i);",
      "\x7d"]
  | .cpp =>
    codeLines [
      "// Reserve capacity before filling",
      "std::vector<int> squares;",
      "squares.reserve(n);",
      "for (int i = 0; i < n; i++) \x7b",
      "    squares.push_back(i * i);",
      "\x7d"]
  | .c =>
    codeLines [
      "// Allocate the whole buffer once",
      "int *squares = malloc(n * sizeof *squares);",
      "if (squares == NULL) return -1;",
      "for (int i = 0; i < n; i++) \x7b",
      "    squares[i] = i * i;",
      "\x7d"]
  | .javascript =>
    codeLines [
      "// Allocate the array at its final length",
      "const squares = Array.from(\x7b length: n \x7d, (_, i) => i * i);"]

/-- Output by a format. -/
def Topic.formatOutputSource : Language → String
  | .python =>
    codeLines [
      "# Formatted output",
      "print(f\"The result is: \x7bresult\x7d\")"]
  | .java =>
    codeLines [
      "// Formatted output",
      "System.out.printf(\"The result is: %d%n\", result);"]
  | .cpp =>
    codeLines [
      "// Formatted output",
      "std::cout << \"The result is: \" << result << std::endl;"]
  | .c =>
    codeLines [
      "// Formatted output",
      "printf(\"The result is: %d\\n\", result);"]
  | .javascript =>
    codeLines [
      "// Formatted output",
      "console.log(`The result is: $\x7bresult\x7d`);"]

namespace Topic

/-- The code on a topic in a language. -/
def source : Topic → Language → String
  | memoization => memoizationSource
  | iteration => iterationSource
  | depthGuard => depthGuardSource
  | earlyTermination => earlyTerminationSource
  | edgeCaseGuard => edgeCaseGuardSource
  | preAllocation => preAllocationSource
  | formatOutput => formatOutputSource

theorem source_ne (topic : Topic) (language : Language) : topic.source language ≠ "" := by
  cases topic <;> cases language <;> decide

/-- The piece of code on a topic in a language. -/
def sample (topic : Topic) (language : Language) : CodeSample :=
  ⟨language, topic.source language, topic.source_ne language⟩

end Topic

/-- An idiom that one language has and others lack. -/
inductive Idiom where
  | enumerate
  | enhancedFor
  | reserve
  | letConst
  deriving DecidableEq, Repr

namespace Idiom

/-- The idioms. -/
def all : List Idiom := [enumerate, enhancedFor, reserve, letConst]

/-- The name of an idiom. -/
def name : Idiom → String
  | enumerate => "enumerate"
  | enhancedFor => "enhanced_for"
  | reserve => "reserve"
  | letConst => "let_const"

/-- The language that has the idiom. -/
def language : Idiom → Language
  | enumerate => .python
  | enhancedFor => .java
  | reserve => .cpp
  | letConst => .javascript

/-- Code with the idiom. -/
def source : Idiom → String
  | enumerate =>
    codeLines [
      "# Iterate with enumerate instead of indexing",
      "for i, value in enumerate(arr):",
      "    print(i, value)"]
  | enhancedFor =>
    codeLines [
      "// Enhanced for loop",
      "for (int value : arr) \x7b",
      "    System.out.println(value);",
      "\x7d"]
  | reserve =>
    codeLines [
      "// Reserve once, then push_back without reallocations",
      "std::vector<int> values;",
      "values.reserve(n);",
      "for (int i = 0; i < n; i++) \x7b",
      "    values.push_back(i);",
      "\x7d"]
  | letConst =>
    codeLines [
      "// Block-scoped declarations",
      "const values = [1, 2, 3];",
      "for (let i = 0; i < values.length; i++) \x7b",
      "  console.log(values[i]);",
      "\x7d"]

theorem source_ne (idiom : Idiom) : idiom.source ≠ "" := by
  cases idiom <;> decide

/-- The piece of code with an idiom. -/
def sample (idiom : Idiom) : CodeSample := ⟨idiom.language, idiom.source, idiom.source_ne⟩

end Idiom

/-- The piece of code of a given name in a language, if there is one. -/
def CodeSample.named? (name : String) (language : Language) : Option CodeSample :=
  match Topic.all.find? (·.name == name) with
  | some topic => some (topic.sample language)
  | none =>
    (Idiom.all.find? fun idiom => idiom.name == name && idiom.language == language).map
      (·.sample)

end Snippet
