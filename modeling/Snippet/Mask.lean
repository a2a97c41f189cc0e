import Snippet.Token

/-!
# The mask of a snippet

In the mask of a snippet the hidden part of every token is blanked out: each character becomes a
space, only line feeds stay. So the mask shows the code, the quote marks and the lines, and a
position in it means the same character as in the snippet.
-/

namespace Snippet

/-- A hidden character as it stands in the mask. -/
def blanked (c : Char) : Char := if c = '\n' then '\n' else ' '

/-- A token as it stands in the mask. -/
def Token.masked (token : Token) : Text :=
  token.opening ++ token.hidden.map blanked ++ token.closing

/-- The mask of a snippet. -/
def Language.mask (language : Language) (code : Text) : Text :=
  (language.tokens code).flatMap Token.masked

theorem Language.mask_cons (language : Language) (c : Char) (rest : Text) :
    language.mask (c :: rest) =
      (language.token c rest).1.masked ++ language.mask (language.token c rest).2 := by
  rw [mask, tokens_cons, List.flatMap_cons, ← mask]

theorem Token.length_masked (token : Token) : token.masked.length = token.lexeme.length := by
  simp [Token.masked, Token.lexeme]

/-- **The mask is as long as the snippet.** -/
theorem Language.length_mask (language : Language) (code : Text) :
    (language.mask code).length = code.length := by
  conv => rhs; rw [← flatMap_lexeme_tokens language code]
  simp only [mask, List.length_flatMap, Token.length_masked]

end Snippet
