import Snippet.Text.Basic

/-!
# Blank characters

The blank characters are the white space of Unicode together with the four information separators
of ASCII. A text is trimmed by dropping its blank ends.
-/

namespace Snippet

/-- Whether a character is white space: a tab, a line end, a separator or a space of any width. -/
def isBlank (c : Char) : Bool :=
  let n := c.toNat
  if n < 128 then (9 ≤ n && n ≤ 13) || (28 ≤ n && n ≤ 32)
  else n == 0x85 || n == 0xA0 || n == 0x1680 || (0x2000 ≤ n && n ≤ 0x200A) ||
    n == 0x2028 || n == 0x2029 || n == 0x202F || n == 0x205F || n == 0x3000

namespace Text

/-- A text without the characters of a class at its end. -/
def dropEndWhile (p : Char → Bool) (text : Text) : Text :=
  (text.reverse.dropWhile p).reverse

/-- A text without the blank characters at its two ends. -/
def trim (text : Text) : Text :=
  dropEndWhile isBlank (text.dropWhile isBlank)

/-- Whether a text holds no character but blank ones. -/
def isBlankText (text : Text) : Bool :=
  text.all isBlank

/-- The number of blank characters that a text opens with. -/
def indent (text : Text) : Nat :=
  (text.takeWhile isBlank).length

/-- **Trimming leaves nothing exactly when there was nothing but blanks.** -/
theorem trim_eq_nil_iff (text : Text) : trim text = [] ↔ isBlankText text = true := by
  rw [isBlankText, List.all_eq_true, trim, dropEndWhile, List.reverse_eq_nil_iff]
  constructor
  · intro h c hc
    rw [← List.takeWhile_append_dropWhile (p := isBlank) (l := text), List.mem_append] at hc
    rcases hc with hc | hc
    · exact List.all_eq_true.mp List.all_takeWhile c hc
    · have hr := List.takeWhile_append_dropWhile (p := isBlank)
        (l := (text.dropWhile isBlank).reverse)
      rw [h, List.append_nil] at hr
      rw [← List.mem_reverse, ← hr] at hc
      exact List.all_eq_true.mp List.all_takeWhile c hc
  · intro h
    have hd : text.dropWhile isBlank = [] := by
      induction text with
      | nil => rfl
      | cons c rest ih =>
        rw [List.dropWhile_cons_of_pos (h c (List.mem_cons_self ..))]
        exact ih fun d hd => h d (List.mem_cons_of_mem _ hd)
    rw [hd]
    rfl

end Text

end Snippet
