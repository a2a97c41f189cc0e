import Snippet.Proofs.VisibleText

/-!
# A mask is its own mask

Masking a mask changes nothing (`Language.mask_mask`), as long as no backslash of the snippet stands
right in front of a line feed.

The proof follows the scan of the snippet, and shows for each token that a second scan finds a token
with the same marks where the first one has left its mask (`Finds.mask_masked_append`).  The blanks
of a comment are characters of code the second time.  The blanks in a literal hold no quote mark and
no backslash any more, so that the literal ends where it did, unless a line feed in it ends it
earlier; only an escaped line feed can stand in a literal that does not go on over lines, and that
is what the condition rules out.
-/

namespace Snippet

theorem blanked_blanked (c : Char) : blanked (blanked c) = blanked c := by
  rcases blanked_eq c with h | h <;> rw [h] <;> rfl

theorem isPlain_blanked (c : Char) : isPlain (blanked c) = true := by
  rcases blanked_eq c with h | h <;> rw [h] <;> decide

theorem Text.breakOn_append_of_notMem {c : Char} {word body : Text} (h : c ∉ body) (rest : Text) :
    breakOn (c :: word) (body ++ rest) =
      (body ++ (breakOn (c :: word) rest).1, (breakOn (c :: word) rest).2) := by
  induction body with
  | nil => rfl
  | cons d body ih =>
    rw [List.mem_cons, not_or] at h
    have hp : ¬ (c :: word).isPrefixOf (d :: (body ++ rest)) = true := by
      simp [List.isPrefixOf, h.1]
    rw [List.cons_append, breakOn, if_neg hp, ih h.2]
    rfl

/-- No backslash stands right in front of a line feed. -/
def Text.EscapesNoFeed (text : Text) : Prop := ¬ ['\\', '\n'] <:+: text

theorem Text.EscapesNoFeed.of_append {front rest : Text} (h : Text.EscapesNoFeed (front ++ rest)) :
    Text.EscapesNoFeed rest :=
  fun hi => h (hi.trans (List.suffix_append front rest).isInfix)

namespace Language

variable {language : Language} {c : Char} {rest : Text} {found : Token} {after shown : Text}

/-! ### Literals -/

theorem ne_blank_of_mem_quotes (h : c ∈ language.quotes) : c ≠ ' ' ∧ c ≠ '\n' := by
  constructor <;> (rintro rfl; revert h; cases language <;> decide)

theorem spansLines_of_mem_literalBody {quote : Char} {text : Text} (he : text.EscapesNoFeed)
    (h : '\n' ∈ (literalBody quote text).1) : spansLines quote = true := by
  fun_induction literalBody quote text with
  | case1 => cases h
  | case2 escaped rest inside after hb ih =>
    rw [hb] at ih
    have hrest : Text.EscapesNoFeed rest := @Text.EscapesNoFeed.of_append ['\\', escaped] rest he
    rcases List.mem_cons.mp h with h | h
    · exact absurd h (by decide)
    · rcases List.mem_cons.mp h with rfl | h
      · exact absurd ⟨[], rest, rfl⟩ he
      · exact ih hrest h
  | case3 => cases h
  | case4 d rest hesc hstop inside after hb ih =>
    rw [hb] at ih
    have hrest : Text.EscapesNoFeed rest := @Text.EscapesNoFeed.of_append [d] rest he
    rcases List.mem_cons.mp h with rfl | h
    · have hgoes : ¬ '\n' = quote ∧ spansLines quote = true := by simpa using hstop
      exact hgoes.2
    · exact ih hrest h

theorem blanked_inside {quote : Char} (hq : quote ∈ language.quotes) {body : Text}
    (h : '\n' ∈ body → spansLines quote = true) :
    ∀ d ∈ body.map blanked, d ≠ quote ∧ d ≠ '\\' ∧ (d = '\n' → spansLines quote = true) := by
  intro d hd
  obtain ⟨e, he, rfl⟩ := List.mem_map.mp hd
  obtain ⟨hspace, hfeed⟩ := ne_blank_of_mem_quotes hq
  by_cases hn : e = '\n'
  · subst hn
    exact ⟨hfeed.symm, by decide, fun _ => h he⟩
  · rw [blanked, if_neg hn]
    exact ⟨hspace.symm, by decide, fun hd => absurd hd (by decide)⟩

/-! ### A second scan -/

/-- The blanks of a literal with one mark are its inside for a second scan. -/
theorem mask_masked_literal {body stop : Text} (hq : c ∈ language.quotes)
    (ht : ¬ (language = python ∧
      [c, c, c].isPrefixOf (c :: (body.map blanked ++ (stop.take 1 ++ shown))) = true))
    (hend : stop = [] ∧ shown = [] ∨ ∃ d more, stop = d :: more ∧
      (d = c ∨ d = '\n' ∧ spansLines c = false))
    (hfeed : '\n' ∈ body → spansLines c = true) :
    language.mask (c :: (body.map blanked ++ (stop.take 1 ++ shown))) =
      c :: (body.map blanked ++ (stop.take 1 ++ language.mask shown)) := by
  obtain ⟨ho, hb⟩ := not_opensComment_iff.mp
    (@not_opensComment_of_mem language c (Or.inl hq) (body.map blanked ++ (stop.take 1 ++ shown)))
  rw [mask_cons, token_of_literal ho hb hq ht,
    literalBody_append_of_inside (blanked_inside hq hfeed)]
  rcases hend with ⟨rfl, rfl⟩ | ⟨d, more, rfl, hd⟩
  · simp [literalBody, Token.masked, blanked_blanked]
  · rw [List.take_succ_cons, List.take_zero, List.singleton_append,
      literalBody_of_stop (ne_backslash_of_mem_quotes hq) hd]
    simp [Token.masked, blanked_blanked]

theorem mask_masked_triple {body stop : Text} (hl : language = python) (hq : c ∈ language.quotes)
    (hstop : stop = [c, c, c] ∨ stop = [] ∧ shown = []) :
    language.mask (c :: c :: c :: (body.map blanked ++ (stop ++ shown))) =
      c :: c :: c :: (body.map blanked ++ (stop ++ language.mask shown)) := by
  obtain ⟨ho, hb⟩ := not_opensComment_iff.mp
    (@not_opensComment_of_mem language c (Or.inl hq)
      (c :: c :: (body.map blanked ++ (stop ++ shown))))
  have ht : [c, c, c].isPrefixOf (c :: c :: c :: (body.map blanked ++ (stop ++ shown))) = true := by
    simp [List.isPrefixOf]
  have hbody : c ∉ body.map blanked := by
    obtain ⟨hspace, hfeed⟩ := ne_blank_of_mem_quotes hq
    intro hc
    obtain ⟨d, -, rfl⟩ := List.mem_map.mp hc
    rcases blanked_eq d with hd | hd
    · exact hfeed hd
    · exact hspace hd
  rw [mask_cons, token_of_triple ho hb hq ⟨hl, ht⟩, List.drop_succ_cons, List.drop_succ_cons,
    List.drop_succ_cons, List.drop_zero, Text.breakOn_append_of_notMem hbody]
  rcases hstop with rfl | ⟨rfl, rfl⟩
  · have hfirst : Text.breakOn [c, c, c] ([c, c, c] ++ shown) = ([], [c, c, c] ++ shown) := by
      simp [Text.breakOn, List.isPrefixOf]
    rw [hfirst]
    simp [Token.masked, blanked_blanked]
  · simp [Text.breakOn, Token.masked, blanked_blanked]

/-- **A second scan finds what the first one has left of a token**, whatever the mask of the text
behind the token is. -/
theorem Finds.mask_masked_append (h : language.Finds c rest found after)
    (hf : found.lexeme ++ after = c :: rest) (he : Text.EscapesNoFeed rest)
    (hs : List.Forall₂ ShownAs after shown) :
    language.mask (found.masked ++ shown) = found.masked ++ language.mask shown := by
  have hall : List.Forall₂ ShownAs (c :: rest) (found.masked ++ shown) := by
    rw [← hf]
    exact List.rel_append found.forall₂_masked hs
  have hnil : after = [] → shown = [] := by
    rintro rfl
    exact List.forall₂_nil_left_iff.mp hs
  cases h with
  | @comment hidden =>
    refine language.mask_append_of_plain ?_ shown
    intro d hd
    obtain ⟨e, -, rfl⟩ : ∃ e ∈ hidden, blanked e = d := by simpa [Token.masked] using hd
    exact isPlain_blanked e
  | @triple body stop _ hl hq hstop =>
    have hstop' : stop = [c, c, c] ∨ stop = [] ∧ shown = [] := hstop.imp_right (And.imp_right hnil)
    simpa [Token.masked] using @mask_masked_triple language c shown body stop hl hq hstop'
  | @literal body stop hq ht hb =>
    have hmasked : (Token.mk [c] body (stop.take 1)).masked ++ shown =
        c :: (body.map blanked ++ (stop.take 1 ++ shown)) := by simp [Token.masked]
    have ht' : ¬ (language = python ∧
        [c, c, c].isPrefixOf (c :: (body.map blanked ++ (stop.take 1 ++ shown))) = true) := by
      rintro ⟨hl, hp⟩
      rw [List.isPrefixOf_iff_prefix, ← hmasked] at hp
      have hspace : ' ' ∉ [c, c, c] := by simpa using (ne_blank_of_mem_quotes hq).1.symm
      exact ht ⟨hl, List.isPrefixOf_iff_prefix.mpr (prefix_of_shown hall hspace hp)⟩
    have hend : stop = [] ∧ shown = [] ∨ ∃ d more, stop = d :: more ∧
        (d = c ∨ d = '\n' ∧ spansLines c = false) := by
      have hend := literalBody_snd c rest
      rw [hb] at hend
      exact hend.imp_left fun hn => ⟨hn, hnil (by rw [hn]; rfl)⟩
    have hfeed : '\n' ∈ body → spansLines c = true := by
      intro hn
      exact spansLines_of_mem_literalBody he (by rw [hb]; exact hn)
    rw [hmasked, mask_masked_literal hq ht' hend hfeed]
    simp [Token.masked]
  | code ho hq =>
    rw [Token.masked_code, List.singleton_append] at hall ⊢
    obtain ⟨hopener, hb⟩ := not_opensComment_iff.mp (mt (opensComment_of_shown hall) ho)
    rw [mask_cons, token_of_code hopener hb hq]
    rfl

/-- **A mask is its own mask**, for a snippet in which no backslash stands right in front of a line
feed. -/
theorem mask_mask {code : Text} (h : ¬ ['\\', '\n'] <:+: code) :
    language.mask (language.mask code) = language.mask code := by
  change Text.EscapesNoFeed code at h
  induction code using tokens.induct language with
  | case1 => rw [mask_nil, mask_nil]
  | case2 c rest ih =>
    have hf := lexeme_token_append language c rest
    have hrest : Text.EscapesNoFeed rest := @Text.EscapesNoFeed.of_append [c] rest h
    have hafter : Text.EscapesNoFeed (language.token c rest).2 := by
      rw [← hf] at h
      exact h.of_append
    rw [mask_cons, (finds_token language c rest).mask_masked_append hf hrest (forall₂_mask _),
      ih hafter]

/-- A template literal over two lines, an escaped quote mark, and a literal that is never closed. -/
theorem mask_mask_template :
    ¬ ['\\', '\n'] <:+: "s = \x60a // \n'\x60 + 'it\\'s'; \"b /*".toList ∧
      javascript.mask (javascript.mask "s = \x60a // \n'\x60 + 'it\\'s'; \"b /*".toList) =
        javascript.mask "s = \x60a // \n'\x60 + 'it\\'s'; \"b /*".toList :=
  ⟨by decide, mask_mask (by decide)⟩

/-- The line feed that is escaped the first time ends the literal the second time. -/
example : python.mask "\"\\\n\"a".toList = "\" \n\"a".toList ∧
    python.mask "\" \n\"a".toList = "\" \n\" ".toList := by
  constructor <;> cbv

end Language

end Snippet
