import Snippet.Language.Marks

/-!
# Tokens of a snippet

A snippet is cut into tokens: comments, string literals, and single characters of code. Each token
has a part that stays visible, a hidden part after it, and a visible end. What is hidden is a whole
comment, or the inside of a literal.

Where a token starts, a comment opener is looked for first, then a quote mark. A comment or a
triple-quoted literal that is never closed reaches to the end of the snippet; another literal that
is not closed reaches to the end of its line, and takes that line end with it. Within a literal a
backslash hides the character after it, whatever that is.

The main statement is `flatMap_lexeme_tokens`: the tokens make up the snippet.
-/

namespace Snippet

/-- A piece of a snippet with a hidden part between two visible ones. -/
structure Token where
  /-- The visible start. -/
  opening : Text
  /-- The hidden part. -/
  hidden : Text
  /-- The visible end. -/
  closing : Text
  deriving DecidableEq

namespace Token

/-- The piece of the snippet that a token is. -/
def lexeme (token : Token) : Text :=
  token.opening ++ token.hidden ++ token.closing

/-- The token of a single character of code. -/
def code (c : Char) : Token := ⟨[c], [], []⟩

end Token

namespace Language

/-- The marks that open a string literal. -/
def quotes : Language → List Char
  | javascript => ['\'', '"', '\x60']
  | _ => ['\'', '"']

/-- Whether a literal with this mark goes on over line ends. -/
def spansLines (quote : Char) : Bool := quote == '\x60'

/-- The inside of a literal with the mark `quote`, and the text from the character on that ends it:
the mark, or a line end unless the literal spans lines. -/
def literalBody (quote : Char) : Text → Text × Text
  | [] => ([], [])
  | '\\' :: escaped :: rest =>
    let (body, after) := literalBody quote rest
    ('\\' :: escaped :: body, after)
  | d :: rest =>
    if d = quote || (d = '\n' && !spansLines quote) then ([], d :: rest)
    else
      let (body, after) := literalBody quote rest
      (d :: body, after)

/-- A block comment from its opener on: everything up to the closing mark, and the text after. -/
def blockComment (text : Text) : Text × Text :=
  let (body, after) := Text.breakOn ['*', '/'] (text.drop 2)
  (text.take 2 ++ body ++ after.take 2, after.drop 2)

/-- The first token of a text that opens with the character `c`, and the text after it. -/
def token (language : Language) (c : Char) (rest : Text) : Token × Text :=
  let text := c :: rest
  if language.commentOpener.isPrefixOf text then
    let (comment, after) := (text.takeWhile (· != '\n'), text.dropWhile (· != '\n'))
    (⟨[], comment, []⟩, after)
  else if language.usesBraces && ['/', '*'].isPrefixOf text then
    let (comment, after) := blockComment text
    (⟨[], comment, []⟩, after)
  else if c ∈ language.quotes then
    let triple := [c, c, c]
    if language = python ∧ triple.isPrefixOf text then
      let (body, after) := Text.breakOn triple (text.drop 3)
      (⟨triple, body, after.take 3⟩, after.drop 3)
    else
      let (body, after) := literalBody c rest
      (⟨[c], body, after.take 1⟩, after.drop 1)
  else (.code c, rest)

/-! ### A token is a piece of the text -/

theorem literalBody_append (quote : Char) (text : Text) :
    (literalBody quote text).1 ++ (literalBody quote text).2 = text := by
  fun_induction literalBody quote text with
  | case1 => rfl
  | case2 c rest _ _ h ih => simpa [h] using ih
  | case3 => rfl
  | case4 c rest _ _ _ _ h ih => simpa [h] using ih

theorem blockComment_append (text : Text) :
    (blockComment text).1 ++ (blockComment text).2 = text := by
  simp only [blockComment, List.append_assoc, List.take_append_drop]
  rw [Text.breakOn_append, List.take_append_drop]

/-- **A token and the text after it make up the text.** -/
theorem lexeme_token_append (language : Language) (c : Char) (rest : Text) :
    (language.token c rest).1.lexeme ++ (language.token c rest).2 = c :: rest := by
  simp only [token]
  split
  · simp [Token.lexeme, List.takeWhile_append_dropWhile]
  · split
    · simpa [Token.lexeme] using blockComment_append (c :: rest)
    · split
      · split
        next h =>
          obtain ⟨tail, ht⟩ := List.isPrefixOf_iff_prefix.mp h.2
          simp only [Token.lexeme, List.append_assoc, List.take_append_drop]
          rw [Text.breakOn_append, ← ht]
          rfl
        next =>
          simp only [Token.lexeme, List.append_assoc, List.take_append_drop]
          rw [literalBody_append]
          rfl
      · rfl

theorem lexeme_token_ne_nil (language : Language) (c : Char) (rest : Text) :
    (language.token c rest).1.lexeme ≠ [] := by
  simp only [token]
  split
  next h =>
    have hc : c ≠ '\n' := by
      rintro rfl
      revert h
      cases language <;> simp [commentOpener, List.isPrefixOf]
    simp [Token.lexeme, hc]
  · split
    · simp [Token.lexeme, blockComment]
    · split
      · split <;> simp [Token.lexeme]
      · simp [Token.lexeme, Token.code]

theorem length_token_lt (language : Language) (c : Char) (rest : Text) :
    (language.token c rest).2.length < (c :: rest).length := by
  have h := congrArg List.length (lexeme_token_append language c rest)
  have := List.length_pos_iff.mpr (lexeme_token_ne_nil language c rest)
  rw [List.length_append] at h
  omega

/-- The tokens of a snippet. -/
def tokens (language : Language) : Text → List Token
  | [] => []
  | d :: rest =>
    (language.token d rest).1 :: tokens language (language.token d rest).2
termination_by text => text.length
decreasing_by exact length_token_lt language d rest

@[simp] theorem tokens_nil (language : Language) : language.tokens [] = [] := by
  rw [tokens]

theorem tokens_cons (language : Language) (c : Char) (rest : Text) :
    language.tokens (c :: rest) =
      (language.token c rest).1 :: language.tokens (language.token c rest).2 := by
  rw [tokens]

/-- **The tokens make up the snippet.** -/
theorem flatMap_lexeme_tokens (language : Language) (text : Text) :
    (language.tokens text).flatMap Token.lexeme = text := by
  fun_induction tokens language text with
  | case1 => rfl
  | case2 c rest ih => rw [List.flatMap_cons, ih, lexeme_token_append]

end Language

end Snippet
