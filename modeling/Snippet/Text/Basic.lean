/-!
# Texts

A text is the list of its characters, so that a position in it is a number of characters. This
file holds the operations on texts that every other module shares: the part between two positions,
the first occurrence of a word, and the pieces around a separator.
-/

namespace Snippet

/-- A text, as the list of its characters. -/
abbrev Text := List Char

namespace Text

/-- The characters of a text from position `start` up to, and without, position `stop`. -/
def slice (text : Text) (start stop : Nat) : Text :=
  (text.drop start).take (stop - start)

/-- A text cut in two in front of the first occurrence of `word`; without one, the second part is
empty. -/
def breakOn (word : Text) : Text → Text × Text
  | [] => ([], [])
  | c :: rest =>
    if word.isPrefixOf (c :: rest) then ([], c :: rest)
    else
      let (before, after) := breakOn word rest
      (c :: before, after)

/-- Whether `word` occurs in the text. The empty word occurs everywhere. -/
def occurs (word : Text) : Text → Bool
  | [] => word.isEmpty
  | c :: rest => word.isPrefixOf (c :: rest) || occurs word rest

/-- The pieces of a text between the occurrences of a character, at least one. -/
def splitOn (separator : Char) : Text → List Text
  | [] => [[]]
  | c :: rest =>
    if c = separator then [] :: splitOn separator rest
    else
      match splitOn separator rest with
      | [] => [[c]]
      | piece :: more => (c :: piece) :: more

/-- Pieces joined, with `separator` between each two of them. -/
def join (separator : Text) : List Text → Text
  | [] => []
  | [piece] => piece
  | piece :: more => piece ++ separator ++ join separator more

/-- What can be read from each of the first `count` positions of a text on. -/
def suffixes : Nat → Text → List Text
  | 0, _ => []
  | _, [] => []
  | count + 1, c :: rest => (c :: rest) :: suffixes count rest

/-- The number of characters in front of the first `c`, if there is one. -/
def position? (c : Char) : Text → Option Nat
  | [] => none
  | d :: rest => if d = c then some 0 else (position? c rest).map (· + 1)

/-- **Cutting loses nothing.** -/
theorem breakOn_append (word text : Text) :
    (breakOn word text).1 ++ (breakOn word text).2 = text := by
  induction text with
  | nil => rfl
  | cons c rest ih =>
    simp only [breakOn]
    split
    · rfl
    · simpa using ih

theorem breakOn_snd (word text : Text) :
    (breakOn word text).2 = [] ∨ word.isPrefixOf (breakOn word text).2 = true := by
  induction text with
  | nil => exact Or.inl rfl
  | cons c rest ih =>
    simp only [breakOn]
    split
    next h => exact Or.inr h
    next => exact ih

/-- **Joining the pieces rebuilds the text.** -/
theorem join_splitOn (separator : Char) (text : Text) :
    join [separator] (splitOn separator text) = text := by
  induction text with
  | nil => rfl
  | cons c rest ih =>
    cases hs : splitOn separator rest with
    | nil =>
      rw [hs] at ih
      simp only [splitOn, ← ih, join]
      split <;> simp_all [join]
    | cons piece more =>
      rw [hs] at ih
      simp only [splitOn, hs]
      split
      next h => simp [join, ih, h]
      next =>
        cases more with
        | nil => simpa [join] using ih
        | cons next others => simpa [join] using ih

end Text

end Snippet
