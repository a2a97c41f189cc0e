import Snippet.Proofs.CallArguments

/-!
# The closer of a bracket

The closer of a bracket is looked for by counting the brackets of its kind. Here that search is
compared with two descriptions of what it is to find.

* By the counts: the closer stands at the first position through which the text, read from the
  opener on, has closed as many brackets of the kind as it has opened (`evenPositions`). The search
  carries the number of open brackets along, so it is followed with that number (`evenFrom`): one
  character takes both on alike (`evenFrom_cons`), and `isFirst_closing?` is the induction.
* By the nesting: a properly nested text is balanced in each kind (`Nested.balanced`), so the closer
  behind it is that of the opener in front of it.

`partner_least`: **the search finds the first of these positions, or says that there is none**, and
behind a properly nested text it finds the closer, whatever follows.
-/

namespace Snippet

/-- The first number of a set, if it has one. -/
def IsFirst (numbers : Set Nat) : Option Nat → Prop
  | some first => IsLeast numbers first
  | none => numbers = ∅

section

variable {numbers : Set Nat} {found : Option Nat}

theorem IsFirst.eq_some_iff (h : IsFirst numbers found) (first : Nat) :
    found = some first ↔ IsLeast numbers first := by
  cases found with
  | none =>
    have hnone : ¬ IsLeast numbers first := fun hl => by
      rw [show numbers = ∅ from h] at hl
      exact hl.1
    exact iff_of_false (by simp) hnone
  | some first' =>
    constructor
    · rintro ⟨⟩
      exact h
    · exact fun hl => congrArg some (IsLeast.unique h hl)

theorem IsFirst.eq_none_iff (h : IsFirst numbers found) : found = none ↔ numbers = ∅ := by
  cases found with
  | none => exact iff_of_true rfl h
  | some first =>
    refine iff_of_false (by simp) ?_
    rintro rfl
    exact h.1

end

namespace Bracket

variable {bracket : Bracket} {c : Char} {rest : Text} {depth later : Nat}

/-! ### Positions with as many closers as openers -/

/-- The positions from `start` on through which a text has as many openers of a kind as closers. -/
def evenPositions (bracket : Bracket) (text : Text) (start : Nat) : Set Nat :=
  {i | start ≤ i ∧ i < text.length ∧
    (Text.slice text start (i + 1)).count bracket.opener =
      (Text.slice text start (i + 1)).count bracket.closer}

/-- The positions through which a text that starts at position `here`, behind `depth` open brackets,
closes as many brackets of a kind as are opened. -/
def evenFrom (bracket : Bracket) (depth here : Nat) (text : Text) : Set Nat :=
  {i | here ≤ i ∧ i < here + text.length ∧
    depth + (text.take (i + 1 - here)).count bracket.opener =
      (text.take (i + 1 - here)).count bracket.closer}

theorem evenPositions_eq_evenFrom (bracket : Bracket) (left right : Text) :
    bracket.evenPositions (left ++ right) left.length = bracket.evenFrom 0 left.length right := by
  simp only [evenPositions, evenFrom, Text.slice, List.drop_left, List.length_append, Nat.zero_add]

/-- **One character**, behind which there are still open brackets. -/
theorem evenFrom_cons (hl : 0 < later)
    (hc : ∀ piece : Text, depth + (c :: piece).count bracket.opener =
      (c :: piece).count bracket.closer ↔
        later + piece.count bracket.opener = piece.count bracket.closer) (here : Nat) :
    bracket.evenFrom depth here (c :: rest) = bracket.evenFrom later (here + 1) rest := by
  ext i
  simp only [evenFrom, Set.mem_ofPred_eq, List.length_cons]
  rcases Nat.lt_trichotomy i here with hi | rfl | hi
  · omega
  · -- brackets are open behind the character itself
    have hone := hc []
    rw [Nat.add_sub_cancel_left, List.take_succ_cons, List.take_zero, hone, List.count_nil,
      List.count_nil]
    omega
  · obtain ⟨n, rfl⟩ : ∃ n, i = here + 1 + n := ⟨i - (here + 1), by omega⟩
    have htake : here + 1 + n + 1 - here = n + 1 + 1 := by omega
    have htake' : here + 1 + n + 1 - (here + 1) = n + 1 := by omega
    rw [htake, htake', List.take_succ_cons, hc]
    omega

theorem evenFrom_opener (bracket : Bracket) (depth here : Nat) (rest : Text) :
    bracket.evenFrom depth here (bracket.opener :: rest) =
      bracket.evenFrom (depth + 1) (here + 1) rest := by
  refine evenFrom_cons (Nat.succ_pos depth) (fun piece => ?_) here
  rw [List.count_cons_self, List.count_cons_of_ne bracket.closer_ne_opener.symm]
  omega

theorem evenFrom_closer (hd : 0 < depth) (here : Nat) (rest : Text) :
    bracket.evenFrom (depth + 1) here (bracket.closer :: rest) =
      bracket.evenFrom depth (here + 1) rest := by
  refine evenFrom_cons hd (fun piece => ?_) here
  rw [List.count_cons_self, List.count_cons_of_ne bracket.closer_ne_opener]
  omega

theorem evenFrom_other (hd : 0 < depth) (ho : c ≠ bracket.opener) (hc : c ≠ bracket.closer)
    (here : Nat) (rest : Text) :
    bracket.evenFrom depth here (c :: rest) = bracket.evenFrom depth (here + 1) rest := by
  refine evenFrom_cons hd (fun piece => ?_) here
  rw [List.count_cons_of_ne ho, List.count_cons_of_ne hc]

theorem isLeast_evenFrom_closer (bracket : Bracket) (here : Nat) (rest : Text) :
    IsLeast (bracket.evenFrom 1 here (bracket.closer :: rest)) here := by
  refine ⟨⟨le_rfl, ?_, ?_⟩, fun i hi => hi.1⟩
  · rw [List.length_cons]
    omega
  · rw [Nat.add_sub_cancel_left, List.take_succ_cons, List.take_zero, List.count_cons_self,
      List.count_cons_of_ne bracket.closer_ne_opener, List.count_nil, List.count_nil]

/-! ### The search -/

/-- **The search for a closer finds the first position at which the counts are even.** -/
theorem isFirst_closing? (hd : 0 < depth) (here : Nat) (text : Text) :
    IsFirst (bracket.evenFrom depth here text) (bracket.closing? depth here text) := by
  induction text generalizing depth here with
  | nil =>
    refine Set.eq_empty_of_forall_notMem fun i hi => ?_
    obtain ⟨hl, hr, -⟩ := hi
    rw [List.length_nil] at hr
    omega
  | cons c rest ih =>
    rw [closing?]
    split
    next ho =>
      subst ho
      rw [evenFrom_opener]
      exact ih (Nat.succ_pos depth) (here + 1)
    next ho =>
      split
      next hc =>
        subst hc
        split
        next hle =>
          obtain rfl : depth = 1 := by omega
          exact isLeast_evenFrom_closer bracket here rest
        next hlt =>
          obtain ⟨less, rfl⟩ : ∃ less, depth = less + 1 := ⟨depth - 1, by omega⟩
          rw [Nat.add_sub_cancel, evenFrom_closer (by omega)]
          exact ih (by omega) (here + 1)
      next hc =>
        rw [evenFrom_other hd ho hc]
        exact ih hd (here + 1)

/-- **The partner of an opener.** At every opener of a text the search finds a position exactly if
it is the first one from there on through which the text has as many openers of the kind as closers,
and finds none exactly if there is no such position. Where a properly nested text stands behind the
opener, and a closer of its kind behind that, this closer is found, whatever follows. -/
theorem partner_least {bracket : Bracket} {text : Text} {start : Nat}
    (h : text[start]? = some bracket.opener) :
    (∀ position : Nat, partner? text start = .ok (some (position : Int)) ↔
      IsLeast (bracket.evenPositions text start) position) ∧
    (partner? text start = .ok none ↔ bracket.evenPositions text start = ∅) ∧
    ∀ inside rest : Text, Nested true inside →
      text.drop start = bracket.opener :: (inside ++ bracket.closer :: rest) →
      partner? text start = .ok (some ((start + inside.length + 1 : Nat) : Int)) := by
  obtain ⟨hlt, ho⟩ := List.getElem?_eq_some_iff.mp h
  obtain ⟨left, right, rfl, rfl⟩ : ∃ left right, text = left ++ bracket.opener :: right ∧
      left.length = start := by
    refine ⟨text.take start, text.drop (start + 1), ?_, List.length_take_of_le hlt.le⟩
    rw [← ho, ← List.drop_eq_getElem_cons hlt, List.take_append_drop]
  have hfirst : IsFirst (bracket.evenPositions (left ++ bracket.opener :: right) left.length)
      (bracket.closing? 1 (left.length + 1) right) := by
    rw [evenPositions_eq_evenFrom, evenFrom_opener]
    exact isFirst_closing? Nat.one_pos _ right
  rw [partner?_of_opener]
  refine ⟨fun position => ?_, ?_, fun inside rest hi hr => ?_⟩
  · rw [← hfirst.eq_some_iff]
    cases bracket.closing? 1 (left.length + 1) right <;> simp
  · rw [← hfirst.eq_none_iff]
    cases bracket.closing? 1 (left.length + 1) right <;> simp
  · rw [List.drop_left, List.cons.injEq] at hr
    obtain ⟨-, rfl⟩ := hr
    have hclose : bracket.closing? 1 (left.length + 1) (inside ++ bracket.closer :: rest) =
        some (left.length + 1 + inside.length) := by
      rw [closing?_openAfter? (hi.balanced bracket), closing?_closer]
    have hposition : left.length + 1 + inside.length = left.length + inside.length + 1 := by omega
    rw [hclose, hposition]
    rfl

/-- Brackets of another kind are nothing to the search, and where they are nested properly it finds
what they enclose. -/
theorem partner_least_interleaved :
    ("f([)]) + g".toList[1]? = some round.opener ∧
      IsLeast (round.evenPositions "f([)]) + g".toList 1) 3) ∧
    ("f([)".toList[2]? = some square.opener ∧ square.evenPositions "f([)".toList 2 = ∅) ∧
    ("f(a[(b)], {c}) (".toList[1]? = some round.opener ∧ Nested true "a[(b)], {c}".toList ∧
      partner? "f(a[(b)], {c}) (".toList 1 = .ok (some 13)) := by
  have hfirst : "f([)]) + g".toList[1]? = some round.opener := rfl
  have hnone : "f([)".toList[2]? = some square.opener := rfl
  have hopen : "f(a[(b)], {c}) (".toList[1]? = some round.opener := rfl
  have hb : Nested true ['b'] := nested_of_forall (by decide)
  have hc : Nested true ['c'] := nested_of_forall (by decide)
  have hround : Nested true "(b)".toList := .enclosed .round hb .nil
  have hcurly : Nested true ", {c}".toList :=
    .code rfl rfl (fun _ => rfl) (.code rfl rfl (fun _ => rfl) (.enclosed .curly hc .nil))
  have hnested : Nested true "a[(b)], {c}".toList :=
    .code rfl rfl (fun _ => rfl) (.enclosed .square hround hcurly)
  exact ⟨⟨hfirst, ((partner_least hfirst).1 3).mp rfl⟩, ⟨hnone, (partner_least hnone).2.1.mp rfl⟩,
    hopen, hnested, (partner_least hopen).2.2 _ " (".toList hnested rfl⟩

end Bracket

end Snippet
