import Snippet.Text.Blank

/-!
# Lines of a text

A line ends after a line feed, a carriage return, the pair of both, a vertical tab, a form feed, a
file, group or record separator, a next-line character, or a Unicode line or paragraph separator.
Every line keeps the characters that end it, so the lines of a text join to the text.
-/

namespace Snippet

/-- Whether a character ends a line. -/
def isLineBreak (c : Char) : Bool :=
  let n := c.toNat
  (10 ≤ n && n ≤ 13) || (28 ≤ n && n ≤ 30) || n == 0x85 || n == 0x2028 || n == 0x2029

namespace Text

/-- The lines of a text, each with its end. -/
def lines : Text → List Text
  | [] => []
  | '\r' :: '\n' :: rest => ['\r', '\n'] :: lines rest
  | c :: rest =>
    if isLineBreak c then [c] :: lines rest
    else
      match lines rest with
      | [] => [[c]]
      | line :: more => (c :: line) :: more

/-- **The lines join to the text.** -/
theorem flatten_lines (text : Text) : (lines text).flatten = text := by
  fun_induction lines text with
  | case1 => rfl
  | case2 rest ih => simp [ih]
  | case3 c rest _ _ ih => simp [ih]
  | case4 c rest _ _ heq ih =>
    rw [heq] at ih
    simp only [List.flatten_nil] at ih
    simp [← ih]
  | case5 c rest _ _ line more heq ih =>
    rw [heq] at ih
    simpa using ih

theorem isBlank_of_isLineBreak {c : Char} (h : isLineBreak c = true) : isBlank c = true := by
  simp only [isLineBreak, isBlank, Bool.or_eq_true, Bool.and_eq_true, decide_eq_true_eq,
    beq_iff_eq] at h ⊢
  split <;> simp only [Bool.or_eq_true, Bool.and_eq_true, decide_eq_true_eq, beq_iff_eq] <;> omega

end Text

end Snippet
