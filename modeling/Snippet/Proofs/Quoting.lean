import Mathlib.Tactic
import Snippet.Literal

/-!
# Quoting

`Literal.quote` writes a text as a literal with double quotes: backslash, double quote, line feed
and tab are escaped, every other character stands as it is. This file says that such a literal is
read back:

* `quoted?_quote`: it encodes the text it was written for,
* `formatted?_doublePercents`: a format with doubled percent signs prints the text,
* `literalBody_escape`: its inside ends at the closing mark, whatever follows.

All of them go by `escapeChar_cases`, the two ways in which a character is written.
-/

namespace Snippet

namespace Literal

/-! ### Writing a literal -/

/-- A character as it is written between double quotes. -/
def escapeChar (c : Char) : Text :=
  if c = '\\' then ['\\', '\\']
  else if c = '"' then ['\\', '"']
  else if c = '\n' then ['\\', 'n']
  else if c = '\t' then ['\\', 't']
  else [c]

/-- A text as it is written between double quotes. -/
def escape (text : Text) : Text := text.flatMap escapeChar

/-- The literal with double quotes that encodes a text. -/
def quote (text : Text) : Text := '"' :: (escape text ++ ['"'])

/-- A text with its percent signs doubled, as a format has them. -/
def doublePercents (text : Text) : Text :=
  text.flatMap fun c => if c = '%' then ['%', '%'] else [c]

@[simp] theorem escape_nil : escape [] = [] := rfl

theorem escape_cons (c : Char) (text : Text) : escape (c :: text) = escapeChar c ++ escape text :=
  List.flatMap_cons

/-- **A character stands for itself, or a letter behind a backslash stands for it.** -/
theorem escapeChar_cases (c : Char) :
    (escapeChar c = [c] ∧ c ≠ '\\' ∧ c ≠ '"' ∧ c ≠ '\n') ∨
      ∃ letter, escapeChar c = ['\\', letter] ∧ escapes.lookup letter = some c ∧
        letter ≠ '\n' := by
  by_cases hb : c = '\\'
  · subst hb
    exact Or.inr ⟨'\\', by decide, by decide, by decide⟩
  · by_cases hq : c = '"'
    · subst hq
      exact Or.inr ⟨'"', by decide, by decide, by decide⟩
    · by_cases hn : c = '\n'
      · subst hn
        exact Or.inr ⟨'n', by decide, by decide, by decide⟩
      · by_cases ht : c = '\t'
        · subst ht
          exact Or.inr ⟨'t', by decide, by decide, by decide⟩
        · refine Or.inl ⟨?_, hb, hq, hn⟩
          rw [escapeChar, if_neg hb, if_neg hq, if_neg hn, if_neg ht]

theorem ne_of_mem_escape {text : Text} {c : Char} (h : c ∈ escape text) : c ≠ '\n' := by
  obtain ⟨d, -, hc⟩ := List.mem_flatMap.mp h
  rcases escapeChar_cases d with ⟨he, _, _, hn⟩ | ⟨letter, he, _, hn⟩
  · rw [he, List.mem_singleton] at hc
    rwa [hc]
  · rw [he] at hc
    rcases List.mem_cons.mp hc with rfl | hc
    · decide
    · rw [List.mem_singleton] at hc
      rwa [hc]

theorem head?_escape_ne (text : Text) : (escape text).head? ≠ some '"' := by
  cases text with
  | nil => decide
  | cons c text =>
    rw [escape_cons]
    rcases escapeChar_cases c with ⟨he, _, hq, _⟩ | ⟨letter, he, _, _⟩
    · rw [he]
      simpa using hq
    · rw [he]
      simp

/-! ### Reading it back -/

theorem unescape_cons {c : Char} (h : c ≠ '\\') (rest : Text) :
    unescape (c :: rest) = c :: unescape rest := by
  rw [unescape]
  intro _ _ hc
  exact absurd hc h

/-- **Escapes are carried out exactly.** -/
theorem unescape_escape (text : Text) : unescape (escape text) = text := by
  induction text with
  | nil => rfl
  | cons c text ih =>
    rw [escape_cons]
    rcases escapeChar_cases c with ⟨he, hb, _, _⟩ | ⟨letter, he, hl, _⟩
    · rw [he, List.singleton_append, unescape_cons hb, ih]
    · rw [he]
      show unescape ('\\' :: letter :: escape text) = c :: text
      rw [unescape, hl, ih]

theorem inside?_cons {c : Char} (hb : c ≠ '\\') (hq : c ≠ '"') (rest : Text) :
    inside? '"' (c :: rest) = (inside? '"' rest).map (c :: ·) := by
  rw [inside?, if_neg hq]
  · rw [if_neg (by simp [hb])]
  · intro _ _ hc
    exact absurd hc hb

theorem inside?_escape (text : Text) : inside? '"' (escape text ++ ['"']) = some (escape text) := by
  induction text with
  | nil => decide
  | cons c text ih =>
    rw [escape_cons]
    rcases escapeChar_cases c with ⟨he, hb, hq, _⟩ | ⟨letter, he, _, _⟩
    · rw [he, List.singleton_append, List.cons_append, inside?_cons hb hq, ih]
      rfl
    · rw [he]
      show inside? '"' ('\\' :: letter :: (escape text ++ ['"'])) = some ('\\' :: letter :: _)
      rw [inside?, ih]
      rfl

/-- **A literal encodes the text it was written for.** -/
theorem quoted?_quote (text : Text) : quoted? (quote text) = some text := by
  rw [quote, quoted?, if_pos (by decide), inside?_escape, Option.map_some, unescape_escape]

/-! ### Formats -/

theorem doublePercents_cons_percent (text : Text) :
    doublePercents ('%' :: text) = '%' :: '%' :: doublePercents text := rfl

theorem doublePercents_cons {c : Char} (h : c ≠ '%') (text : Text) :
    doublePercents (c :: text) = c :: doublePercents text := by
  rw [doublePercents, List.flatMap_cons, if_neg h]
  rfl

theorem dropPercents_cons {c : Char} (h : c ≠ '%') (rest : Text) :
    dropPercents (c :: rest) = c :: dropPercents rest := by
  rw [dropPercents]
  intro _ hc
  exact absurd hc h

theorem halvePercents_cons {c : Char} (h : c ≠ '%') (rest : Text) :
    halvePercents (c :: rest) = c :: halvePercents rest := by
  rw [halvePercents]
  intro _ hc
  exact absurd hc h

theorem dropPercents_doublePercents (text : Text) :
    dropPercents (doublePercents text) = text.filter (· ≠ '%') := by
  induction text with
  | nil => rfl
  | cons c text ih =>
    by_cases hc : c = '%'
    · subst hc
      rw [doublePercents_cons_percent, dropPercents, ih]
      rfl
    · rw [doublePercents_cons hc, dropPercents_cons hc, ih, List.filter_cons_of_pos (by simpa)]

theorem halvePercents_doublePercents (text : Text) :
    halvePercents (doublePercents text) = text := by
  induction text with
  | nil => rfl
  | cons c text ih =>
    by_cases hc : c = '%'
    · subst hc
      rw [doublePercents_cons_percent, halvePercents, ih]
    · rw [doublePercents_cons hc, halvePercents_cons hc, ih]

theorem hasDirective_eq_false {text : Text} (h : ∀ c ∈ text, c ≠ '%') :
    hasDirective text = false := by
  induction text with
  | nil => rfl
  | cons c text ih =>
    obtain ⟨hc, ht⟩ := List.forall_mem_cons.mp h
    rw [hasDirective, ih ht]
    intro _ _ hc'
    exact absurd hc' hc

/-- **A format with doubled percent signs has nothing to fill in and prints the text.** -/
theorem formatted?_doublePercents (text : Text) :
    formatted? (doublePercents text) = some text := by
  have hd : hasDirective (dropPercents (doublePercents text)) = false := by
    rw [dropPercents_doublePercents]
    exact hasDirective_eq_false fun c hc => by simpa using (List.mem_filter.mp hc).2
  rw [formatted?, hd, halvePercents_doublePercents]
  rfl

end Literal

/-! ### Where the inside of a literal ends -/

namespace Language

theorem literalBody_cons {c : Char} (hb : c ≠ '\\') (hq : c ≠ '"') (hn : c ≠ '\n') (rest : Text) :
    literalBody '"' (c :: rest) =
      (c :: (literalBody '"' rest).1, (literalBody '"' rest).2) := by
  rw [literalBody, if_neg (by simp [hq, hn])]
  intro _ _ hc
  exact absurd hc hb

/-- **The inside of a literal ends at its closing mark.** -/
theorem literalBody_escape (text rest : Text) :
    literalBody '"' (Literal.escape text ++ '"' :: rest) = (Literal.escape text, '"' :: rest) := by
  induction text with
  | nil =>
    rw [Literal.escape_nil, List.nil_append, literalBody]
    · rfl
    · intro _ _ hc
      exact absurd hc (by decide)
  | cons c text ih =>
    rw [Literal.escape_cons]
    rcases Literal.escapeChar_cases c with ⟨he, hb, hq, hn⟩ | ⟨letter, he, _, _⟩
    · rw [he, List.singleton_append, List.cons_append, literalBody_cons hb hq hn, ih]
    · rw [he]
      show literalBody '"' ('\\' :: letter :: (Literal.escape text ++ '"' :: rest)) =
        ('\\' :: letter :: Literal.escape text, '"' :: rest)
      rw [literalBody, ih]

end Language

end Snippet
