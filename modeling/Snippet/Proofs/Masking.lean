import Snippet.Proofs.Quoting
import Snippet.Proofs.WholeWord

/-!
# What the mask shows

The mask of a text is known from its parts. Plain characters, which start neither a comment nor a
literal, stand in it as they are (`mask_append_of_plain`), and a quoted literal shows its two marks
with spaces between them (`mask_quote_append`), whatever the text is that it encodes.
-/

namespace Snippet

/-- Whether a character starts neither a comment nor a literal in any language. -/
def isPlain (c : Char) : Bool :=
  c != '"' && c != '\'' && c != '\x60' && c != '#' && c != '/'

theorem eq_of_isPlain_eq_false {c : Char} (h : isPlain c = false) :
    c = '"' ∨ c = '\'' ∨ c = '\x60' ∨ c = '#' ∨ c = '/' := by
  simp only [isPlain, Bool.and_eq_false_iff, bne_eq_false_iff_eq] at h
  tauto

theorem isPlain_of_isWord {c : Char} (h : isWord c = true) : isPlain c = true := by
  rw [← Bool.not_eq_false]
  intro hp
  rcases eq_of_isPlain_eq_false hp with rfl | rfl | rfl | rfl | rfl <;> revert h <;> decide

theorem isPlain_of_isBlank {c : Char} (h : isBlank c = true) : isPlain c = true := by
  rw [← Bool.not_eq_false]
  intro hp
  rcases eq_of_isPlain_eq_false hp with rfl | rfl | rfl | rfl | rfl <;> revert h <;> decide

namespace Language

variable (language : Language)

/-! ### Plain characters -/

theorem token_of_isPlain {c : Char} (h : isPlain c = true) (rest : Text) :
    language.token c rest = (.code c, rest) := by
  simp only [isPlain, Bool.and_eq_true, bne_iff_ne] at h
  obtain ⟨⟨⟨⟨hd, hs⟩, hb⟩, hh⟩, hl⟩ := h
  have ho : language.commentOpener.isPrefixOf (c :: rest) = false := by
    cases language <;> simp [commentOpener, List.isPrefixOf, hh.symm, hl.symm]
  have hc : ['/', '*'].isPrefixOf (c :: rest) = false := by simp [List.isPrefixOf, hl.symm]
  have hq : c ∉ language.quotes := by cases language <;> simp [quotes, hd, hs, hb]
  rw [token]
  simp only [ho, hc, Bool.and_false, if_neg hq]
  rfl

theorem mask_cons_of_isPlain {c : Char} (h : isPlain c = true) (rest : Text) :
    language.mask (c :: rest) = c :: language.mask rest := by
  rw [mask_cons, language.token_of_isPlain h rest]
  rfl

/-- **Plain characters stand in the mask as they are.** -/
theorem mask_append_of_plain {front : Text} (h : ∀ c ∈ front, isPlain c = true) (rest : Text) :
    language.mask (front ++ rest) = front ++ language.mask rest := by
  induction front with
  | nil => rfl
  | cons c front ih =>
    obtain ⟨hc, hf⟩ := List.forall_mem_cons.mp h
    rw [List.cons_append, language.mask_cons_of_isPlain hc, ih hf, List.cons_append]

@[simp] theorem mask_nil : language.mask [] = [] := by
  rw [mask, tokens_nil]
  rfl

theorem mask_eq_self {text : Text} (h : ∀ c ∈ text, isPlain c = true) :
    language.mask text = text := by
  have hm := language.mask_append_of_plain h []
  rwa [List.append_nil, mask_nil, List.append_nil] at hm

/-! ### Literals -/

theorem triple_isPrefixOf_quote {text rest : Text} (h : rest.head? ≠ some '"') :
    ['"', '"', '"'].isPrefixOf (Literal.quote text ++ rest) = false := by
  have hn := Literal.head?_escape_ne text
  rw [Literal.quote]
  cases he : Literal.escape text with
  | nil =>
    cases rest with
    | nil => rfl
    | cons d rest =>
      have hd : d ≠ '"' := fun hd => h (by rw [hd]; rfl)
      simp [List.isPrefixOf, hd.symm]
  | cons c more =>
    rw [he] at hn
    have hc : c ≠ '"' := fun hc => hn (by rw [hc]; rfl)
    simp [List.isPrefixOf, hc.symm]

theorem token_quote {text rest : Text} (h : rest.head? ≠ some '"') :
    language.token '"' (Literal.escape text ++ '"' :: rest) =
      (⟨['"'], Literal.escape text, ['"']⟩, rest) := by
  have ho : language.commentOpener.isPrefixOf ('"' :: (Literal.escape text ++ '"' :: rest)) =
      false := by
    cases language <;> simp [commentOpener, List.isPrefixOf]
  have hc : ['/', '*'].isPrefixOf ('"' :: (Literal.escape text ++ '"' :: rest)) = false := by
    simp [List.isPrefixOf]
  have hq : '"' ∈ language.quotes := by cases language <;> decide
  have ht : ['"', '"', '"'].isPrefixOf ('"' :: (Literal.escape text ++ '"' :: rest)) = false := by
    have ht := @triple_isPrefixOf_quote text rest h
    rwa [Literal.quote, List.cons_append, List.append_assoc] at ht
  rw [token]
  simp only [ho, hc, ht, Bool.and_false, Bool.false_eq_true, and_false, if_false, if_pos hq,
    literalBody_escape]
  rfl

theorem map_blanked_escape (text : Text) :
    (Literal.escape text).map blanked = List.replicate (Literal.escape text).length ' ' := by
  rw [List.eq_replicate_iff, List.length_map]
  refine ⟨rfl, ?_⟩
  intro c hc
  obtain ⟨d, hd, rfl⟩ := List.mem_map.mp hc
  rw [blanked, if_neg (Literal.ne_of_mem_escape hd)]

/-- A quoted literal as it stands in the mask. -/
def maskedQuote (text : Text) : Text :=
  '"' :: (List.replicate (Literal.escape text).length ' ' ++ ['"'])

theorem length_maskedQuote (text : Text) :
    (maskedQuote text).length = (Literal.quote text).length := by
  simp [maskedQuote, Literal.quote]

/-- **A quoted literal shows its two marks with spaces between them.** -/
theorem mask_quote_append (text : Text) {rest : Text} (h : rest.head? ≠ some '"') :
    language.mask (Literal.quote text ++ rest) = maskedQuote text ++ language.mask rest := by
  rw [Literal.quote, List.cons_append, List.append_assoc, List.singleton_append, mask_cons,
    language.token_quote h, Token.masked, map_blanked_escape, maskedQuote]
  simp

end Language

end Snippet
