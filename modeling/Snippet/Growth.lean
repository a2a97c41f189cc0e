/-!
# Classes of growth

How the cost of a program grows with its input, in six classes from constant to exponential, and
the cost in the best, the average and the worst case.
-/

namespace Snippet

/-- A class of growth. -/
inductive Growth where
  | constant
  | logarithmic
  | linear
  | linearithmic
  | quadratic
  | exponential
  deriving DecidableEq, Repr

namespace Growth

/-- The classes, from the slowest growth to the fastest. -/
def all : List Growth :=
  [constant, logarithmic, linear, linearithmic, quadratic, exponential]

/-- The place of a class among all of them. -/
def rank : Growth → Nat
  | constant => 0
  | logarithmic => 1
  | linear => 2
  | linearithmic => 3
  | quadratic => 4
  | exponential => 5

/-- The usual label of a class. -/
def label : Growth → String
  | constant => "O(1)"
  | logarithmic => "O(log n)"
  | linear => "O(n)"
  | linearithmic => "O(n log n)"
  | quadratic => "O(n²)"
  | exponential => "O(2^n)"

/-- The class of a label. -/
def ofLabel? (label : String) : Option Growth :=
  all.find? (·.label == label)

instance : LE Growth := ⟨fun a b => a.rank ≤ b.rank⟩

instance : LT Growth := ⟨fun a b => a.rank < b.rank⟩

instance (a b : Growth) : Decidable (a ≤ b) := inferInstanceAs (Decidable (a.rank ≤ b.rank))

instance (a b : Growth) : Decidable (a < b) := inferInstanceAs (Decidable (a.rank < b.rank))

/-- The classes of a list, slowest growth first. -/
def sorted (classes : List Growth) : List Growth :=
  classes.mergeSort fun a b => a ≤ b

/-- The fastest growth in a list. -/
def fastest? (classes : List Growth) : Option Growth :=
  classes.foldl (fun best c =>
    match best with
    | none => some c
    | some b => if b < c then some c else some b) none

theorem ofLabel?_label (growth : Growth) : ofLabel? growth.label = some growth := by
  cases growth <;> decide

theorem le_refl (growth : Growth) : growth ≤ growth := Nat.le_refl _

theorem le_trans {a b c : Growth} (h : a ≤ b) (h' : b ≤ c) : a ≤ c := Nat.le_trans h h'

theorem le_total (a b : Growth) : a ≤ b ∨ b ≤ a := Nat.le_total a.rank b.rank

theorem le_antisymm {a b : Growth} (h : a ≤ b) (h' : b ≤ a) : a = b := by
  revert h h'
  cases a <;> cases b <;> decide

end Growth

/-- The growth of the running time in the best, the average and the worst case, each no slower than
the one before. -/
structure Timing where
  best : Growth
  average : Growth
  worst : Growth
  best_le : best ≤ average := by decide
  average_le : average ≤ worst := by decide
  deriving DecidableEq

/-- The same growth in all cases. -/
def Timing.uniform (growth : Growth) : Timing where
  best := growth
  average := growth
  worst := growth
  best_le := growth.le_refl
  average_le := growth.le_refl

/-- What is said of the cost of a snippet. -/
structure GrowthProfile where
  /-- The growth of the running time. -/
  time : Timing
  /-- The growth of the memory. -/
  space : Growth
  /-- The reasons, in prose. -/
  analysis : String
  deriving DecidableEq

end Snippet
