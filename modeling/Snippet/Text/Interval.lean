/-!
# Tables of code point intervals

A class of characters is given by the sorted list of the intervals of its code points. Here such a
list becomes a balanced search tree, in which a look-up takes as many steps as the tree is high.
An interval carries a value, so that a table can also say how its characters are mapped.
-/

namespace Snippet

/-- A search tree of intervals of code points; the intervals of `below` lie under `lo`, those of
`above` over `hi`. -/
inductive IntervalTree (α : Type) where
  | empty
  | node (below : IntervalTree α) (lo hi : Nat) (value : α) (above : IntervalTree α)

namespace IntervalTree

variable {α : Type}

/-- The interval that holds `n`: its first code point and its value. -/
def find? (n : Nat) : IntervalTree α → Option (Nat × α)
  | empty => none
  | node below lo hi value above =>
    if n < lo then below.find? n
    else if hi < n then above.find? n
    else some (lo, value)

/-- Whether some interval holds `n`. -/
def contains (tree : IntervalTree α) (n : Nat) : Bool :=
  (tree.find? n).isSome

/-- The balanced tree of the first `count` entries of a sorted list, and the entries after them. -/
def build (count : Nat) (entries : List (Nat × Nat × α)) :
    IntervalTree α × List (Nat × Nat × α) :=
  if _h : count = 0 then (empty, entries)
  else
    let left := build (count / 2) entries
    match left.2 with
    | [] => (left.1, [])
    | (lo, hi, value) :: rest =>
      let right := build (count - count / 2 - 1) rest
      (node left.1 lo hi value right.1, right.2)
termination_by count

/-- The balanced tree of a sorted list of intervals with values. -/
def ofSorted (entries : List (Nat × Nat × α)) : IntervalTree α :=
  (build entries.length entries).1

/-- The balanced tree of a sorted list of intervals. -/
def ofIntervals (entries : List (Nat × Nat)) : IntervalTree Unit :=
  ofSorted (entries.map fun (lo, hi) => (lo, hi, ()))

end IntervalTree

end Snippet
