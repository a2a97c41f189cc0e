import Snippet.Pattern.Basic

/-!
# Matching a pattern

`Pattern.run` tries the ways in which a pattern fits at a place, in order, and hands each one to a
continuation until one is accepted. A text is searched from left to right, and the matches of a
pattern in a text do not overlap.

The main statement is `Pattern.exists_of_run_eq_some`: an accepted way has read a piece of the text
that is at least as long as the pattern demands.
-/

namespace Snippet

namespace Pattern

variable {α : Type}

/-- The ways to take characters of a class, the longest first. -/
def runMany (p : Char → Bool) (groups : Groups) (accept : Place → Groups → Option α)
    (last : Option Char) (offset : Nat) : Text → Option α
  | [] => accept ⟨last, offset, []⟩ groups
  | c :: rest =>
    if p c then
      match runMany p groups accept (some c) (offset + 1) rest with
      | some result => some result
      | none => accept ⟨last, offset, c :: rest⟩ groups
    else accept ⟨last, offset, c :: rest⟩ groups

/-- The ways to take characters of a class, the shortest first. -/
def runFewest (p : Char → Bool) (groups : Groups) (accept : Place → Groups → Option α)
    (last : Option Char) (offset : Nat) : Text → Option α
  | [] => accept ⟨last, offset, []⟩ groups
  | c :: rest =>
    match accept ⟨last, offset, c :: rest⟩ groups with
    | some result => some result
    | none =>
      if p c then runFewest p groups accept (some c) (offset + 1) rest else none

/-- Whether the text opens with `word`, up to letter case if `anyCase`. -/
def opensWith (anyCase : Bool) (word text : Text) : Bool :=
  if anyCase then (word.map lowercase).isPrefixOf ((text.take word.length).map lowercase)
  else word.isPrefixOf text

/-- The first accepted way in which the pattern fits at a place. -/
def run : Pattern → Place → Groups → (Place → Groups → Option α) → Option α
  | empty, place, groups, accept => accept place groups
  | one p, place, groups, accept =>
    match place.rest with
    | [] => none
    | c :: rest => if p c then accept ⟨some c, place.offset + 1, rest⟩ groups else none
  | many p, place, groups, accept => runMany p groups accept place.last place.offset place.rest
  | fewest p, place, groups, accept => runFewest p groups accept place.last place.offset place.rest
  | seq first second, place, groups, accept =>
    first.run place groups fun place groups => second.run place groups accept
  | either first second, place, groups, accept =>
    match first.run place groups accept with
    | some result => some result
    | none => second.run place groups accept
  | group index inner, place, groups, accept =>
    inner.run place groups fun stop groups =>
      accept stop ((index, ⟨place.rest, stop.offset - place.offset⟩) :: groups)
  | again index anyCase, place, groups, accept =>
    let held := groups.text index
    if opensWith anyCase held place.rest then accept (place.advance held.length) groups else none
  | edge, place, groups, accept => if place.isEdge then accept place groups else none
  | notAfter p, place, groups, accept => if place.last.any p then none else accept place groups
  | before p, place, groups, accept => if place.rest.head?.any p then accept place groups else none
  | lineStart, place, groups, accept =>
    if place.last.all (· == '\n') then accept place groups else none

/-! ### One step of a run -/

section

variable (place : Place) (groups : Groups) (accept : Place → Groups → Option α)

@[simp] theorem run_empty : empty.run place groups accept = accept place groups := rfl

@[simp] theorem run_append (first second : Pattern) :
    (first ++ second).run place groups accept =
      first.run place groups fun stop held => second.run stop held accept := rfl

@[simp] theorem run_one_nil (p : Char → Bool) (last : Option Char) (offset : Nat) :
    (one p).run ⟨last, offset, []⟩ groups accept = none := rfl

@[simp] theorem run_one_cons (p : Char → Bool) (last : Option Char) (offset : Nat) (c : Char)
    (rest : Text) :
    (one p).run ⟨last, offset, c :: rest⟩ groups accept =
      if p c then accept ⟨some c, offset + 1, rest⟩ groups else none := rfl

/-- The second alternative is only looked at where no way of the first one is accepted. -/
theorem run_either (first second : Pattern) :
    (either first second).run place groups accept =
      (first.run place groups accept).or (second.run place groups accept) := by
  rw [run]
  cases first.run place groups accept <;> rfl

end

end Pattern

/-- A piece of a text that a pattern fits. -/
structure Match where
  /-- Where the piece starts. -/
  start : Place
  /-- Where it stops. -/
  stop : Place
  /-- What the groups hold. -/
  groups : Groups

namespace Match

/-- The piece itself. -/
def text (found : Match) : Text :=
  found.start.rest.take (found.stop.offset - found.start.offset)

end Match

namespace Pattern

/-- The match of a pattern that starts at a place. -/
def matchAt? (pattern : Pattern) (place : Place) : Option Match :=
  pattern.run place [] fun stop groups => some ⟨place, stop, groups⟩

/-- The first match in the text from a place on. -/
def searchFrom? (pattern : Pattern) (last : Option Char) (offset : Nat) : Text → Option Match
  | [] => pattern.matchAt? ⟨last, offset, []⟩
  | c :: rest =>
    match pattern.matchAt? ⟨last, offset, c :: rest⟩ with
    | some found => some found
    | none => searchFrom? pattern (some c) (offset + 1) rest

/-- The first match in a text. -/
def search? (pattern : Pattern) (text : Text) : Option Match :=
  searchFrom? pattern none 0 text

/-- Whether the pattern fits some piece of a text. -/
def occursIn (pattern : Pattern) (text : Text) : Bool :=
  (pattern.search? text).isSome

/-- The matches in the text from a place on, after `skip` characters of it; each search goes on
where the last match stopped. A match that holds no character is left out. -/
def matchesFrom (pattern : Pattern) (last : Option Char) (offset skip : Nat) : Text → List Match
  | [] => []
  | c :: rest =>
    match skip with
    | skip + 1 => matchesFrom pattern (some c) (offset + 1) skip rest
    | 0 =>
      match pattern.matchAt? ⟨last, offset, c :: rest⟩ with
      | none => matchesFrom pattern (some c) (offset + 1) 0 rest
      | some found =>
        match found.stop.offset - offset with
        | 0 => matchesFrom pattern (some c) (offset + 1) 0 rest
        | more + 1 => found :: matchesFrom pattern (some c) (offset + 1) more rest

/-- The matches of a pattern in a text, from left to right, none overlapping another. -/
def matchesIn (pattern : Pattern) (text : Text) : List Match :=
  matchesFrom pattern none 0 0 text

/-- A text in which the matches of a pattern, given from `offset` on, are replaced. -/
def replaceFrom (replacement : Text) (offset : Nat) (text : Text) : List Match → Text
  | [] => text
  | found :: more =>
    text.take (found.start.offset - offset) ++ replacement ++
      replaceFrom replacement found.stop.offset (text.drop (found.stop.offset - offset)) more

/-- A text with every match of the pattern replaced. -/
def replaceIn (pattern : Pattern) (replacement text : Text) : Text :=
  replaceFrom replacement 0 text (pattern.matchesIn text)

/-! ### What a match reads -/

/-- The least number of characters in a piece that the pattern fits. -/
def width : Pattern → Nat
  | one _ => 1
  | seq first second => first.width + second.width
  | either first second => min first.width second.width
  | group _ inner => inner.width
  | _ => 0

/-- A place is reached from another one by reading at least `n` characters. -/
def Reads (n : Nat) (place stop : Place) : Prop :=
  ∃ piece : Text, place.rest = piece ++ stop.rest ∧ stop.offset = place.offset + piece.length ∧
    n ≤ piece.length

theorem Reads.refl (place : Place) : Reads 0 place place :=
  ⟨[], rfl, rfl, Nat.le_refl 0⟩

theorem Reads.trans {m n : Nat} {a b c : Place} (h : Reads m a b) (h' : Reads n b c) :
    Reads (m + n) a c := by
  obtain ⟨piece, hr, ho, hl⟩ := h
  obtain ⟨piece', hr', ho', hl'⟩ := h'
  refine ⟨piece ++ piece', ?_, ?_, ?_⟩
  · rw [hr, hr', List.append_assoc]
  · rw [ho', ho, List.length_append, Nat.add_assoc]
  · rw [List.length_append]
    exact Nat.add_le_add hl hl'

theorem Reads.mono {m n : Nat} {a b : Place} (h : Reads n a b) (hmn : m ≤ n) : Reads m a b := by
  obtain ⟨piece, hr, ho, hl⟩ := h
  exact ⟨piece, hr, ho, Nat.le_trans hmn hl⟩

theorem Reads.length_add_le {n : Nat} {a b : Place} (h : Reads n a b) :
    b.rest.length + n ≤ a.rest.length := by
  obtain ⟨piece, hr, -, hl⟩ := h
  rw [hr, List.length_append]
  omega

theorem reads_one (last : Option Char) (offset : Nat) (c : Char) (rest : Text) :
    Reads 1 ⟨last, offset, c :: rest⟩ ⟨some c, offset + 1, rest⟩ :=
  ⟨[c], rfl, rfl, Nat.le_refl 1⟩

theorem exists_of_runMany {p : Char → Bool} {groups : Groups}
    {accept : Place → Groups → Option α} {last : Option Char} {offset : Nat} {text : Text}
    {result : α} (h : runMany p groups accept last offset text = some result) :
    ∃ stop, Reads 0 ⟨last, offset, text⟩ stop ∧ accept stop groups = some result := by
  induction text generalizing last offset with
  | nil => exact ⟨_, .refl _, h⟩
  | cons c rest ih =>
    rw [runMany] at h
    split at h
    · split at h
      next result' h' =>
        cases h
        obtain ⟨stop, hr, ha⟩ := ih h'
        exact ⟨stop, ((reads_one last offset c rest).trans hr).mono (Nat.zero_le _), ha⟩
      next => exact ⟨_, .refl _, h⟩
    · exact ⟨_, .refl _, h⟩

theorem exists_of_runFewest {p : Char → Bool} {groups : Groups}
    {accept : Place → Groups → Option α} {last : Option Char} {offset : Nat} {text : Text}
    {result : α} (h : runFewest p groups accept last offset text = some result) :
    ∃ stop, Reads 0 ⟨last, offset, text⟩ stop ∧ accept stop groups = some result := by
  induction text generalizing last offset with
  | nil => exact ⟨_, .refl _, h⟩
  | cons c rest ih =>
    rw [runFewest] at h
    split at h
    next result' h' =>
      cases h
      exact ⟨_, .refl _, h'⟩
    next =>
      split at h
      · obtain ⟨stop, hr, ha⟩ := ih h
        exact ⟨stop, ((reads_one last offset c rest).trans hr).mono (Nat.zero_le _), ha⟩
      · cases h

theorem reads_advance (n : Nat) (place : Place) : Reads 0 place (place.advance n) := by
  induction n generalizing place with
  | zero => exact .refl _
  | succ n ih =>
    rw [Place.advance]
    split
    · exact .refl _
    next c rest h =>
      have := (reads_one place.last place.offset c rest).trans (ih _)
      rw [← h] at this
      exact this.mono (Nat.zero_le _)

/-- **An accepted way reads a piece of the text that is as long as the pattern demands.** -/
theorem exists_of_run_eq_some {pattern : Pattern} {place : Place} {groups : Groups}
    {accept : Place → Groups → Option α} {result : α}
    (h : pattern.run place groups accept = some result) :
    ∃ stop groups', Reads pattern.width place stop ∧ accept stop groups' = some result := by
  induction pattern generalizing place groups accept with
  | empty => exact ⟨_, _, .refl _, h⟩
  | one p =>
    rw [run] at h
    split at h
    · cases h
    next c rest hr =>
      split at h
      · refine ⟨_, _, ?_, h⟩
        have := reads_one place.last place.offset c rest
        rwa [← hr] at this
      · cases h
  | many p =>
    obtain ⟨stop, hr, ha⟩ := exists_of_runMany h
    exact ⟨stop, _, hr, ha⟩
  | fewest p =>
    obtain ⟨stop, hr, ha⟩ := exists_of_runFewest h
    exact ⟨stop, _, hr, ha⟩
  | seq first second ih ih' =>
    obtain ⟨stop, _, hr, h⟩ := ih h
    obtain ⟨stop', _, hr', ha⟩ := ih' h
    exact ⟨stop', _, hr.trans hr', ha⟩
  | either first second ih ih' =>
    rw [run] at h
    split at h
    next result' h' =>
      cases h
      obtain ⟨stop, _, hr, ha⟩ := ih h'
      exact ⟨stop, _, hr.mono (Nat.min_le_left ..), ha⟩
    next =>
      obtain ⟨stop, _, hr, ha⟩ := ih' h
      exact ⟨stop, _, hr.mono (Nat.min_le_right ..), ha⟩
  | group index inner ih =>
    obtain ⟨stop, _, hr, ha⟩ := ih h
    exact ⟨stop, _, hr, ha⟩
  | again index anyCase =>
    simp only [run] at h
    split at h
    · exact ⟨_, _, reads_advance _ _, h⟩
    · cases h
  | edge =>
    simp only [run] at h
    split at h
    · exact ⟨_, _, .refl _, h⟩
    · cases h
  | notAfter p =>
    simp only [run] at h
    split at h
    · cases h
    · exact ⟨_, _, .refl _, h⟩
  | before p =>
    simp only [run] at h
    split at h
    · exact ⟨_, _, .refl _, h⟩
    · cases h
  | lineStart =>
    simp only [run] at h
    split at h
    · exact ⟨_, _, .refl _, h⟩
    · cases h

theorem reads_of_matchAt? {pattern : Pattern} {place : Place} {found : Match}
    (h : pattern.matchAt? place = some found) :
    found.start = place ∧ Reads pattern.width place found.stop := by
  obtain ⟨stop, groups, hr, ha⟩ := exists_of_run_eq_some h
  cases ha
  exact ⟨rfl, hr⟩

end Pattern

end Snippet
