import Snippet.Proofs.TokenCut
import Snippet.Proofs.VisibleText

/-!
# A line behind a text

What the scan for tokens looks for holds no line feed.  So the first line feed behind a text keeps
the words in the text apart from those behind it, and only a token that is still open at the end of
the text can reach further.  What such a token hides in the text, it hides with a text behind it as
well.

`Language.exists_mask_append_lineFeed`: **the mask of a text is the same with more lines behind
it**, whatever the text leaves open.  How these lines are shown depends on the text.
-/

namespace Snippet

namespace Text

variable {word : Text}

theorem isPrefixOf_append_lineFeed (hw : '\n' ∉ word) (text behind : Text) :
    word.isPrefixOf (text ++ '\n' :: behind) = word.isPrefixOf text := by
  induction text generalizing word with
  | nil =>
    cases word with
    | nil => rfl
    | cons d word =>
      have hd : d ≠ '\n' := fun he => hw (by rw [he]; exact List.mem_cons_self)
      simp [List.isPrefixOf, hd]
  | cons c text ih =>
    cases word with
    | nil => rfl
    | cons d word =>
      rw [List.cons_append, List.isPrefixOf, List.isPrefixOf,
        ih fun hm => hw (List.mem_cons_of_mem d hm)]

theorem breakOn_append_lineFeed (hw : '\n' ∉ word) (text behind : Text)
    (h : (breakOn word text).2 ≠ []) :
    breakOn word (text ++ '\n' :: behind) =
      ((breakOn word text).1, (breakOn word text).2 ++ '\n' :: behind) := by
  induction text with
  | nil => exact absurd rfl h
  | cons c text ih =>
    have hlook := isPrefixOf_append_lineFeed hw (c :: text) behind
    rw [List.cons_append] at hlook
    rw [breakOn] at h
    rw [List.cons_append, breakOn, hlook, breakOn]
    split
    · rfl
    next hf =>
      rw [if_neg hf] at h
      rw [ih h]

theorem exists_breakOn_append_lineFeed (hw : '\n' ∉ word) (text behind : Text)
    (h : (breakOn word text).2 = []) :
    ∃ more, (breakOn word (text ++ '\n' :: behind)).1 = text ++ more := by
  induction text with
  | nil => exact ⟨_, (List.nil_append _).symm⟩
  | cons c text ih =>
    have hlook := isPrefixOf_append_lineFeed hw (c :: text) behind
    rw [List.cons_append] at hlook
    rw [breakOn] at h
    rw [List.cons_append, breakOn, hlook]
    split
    next hf =>
      rw [if_pos hf] at h
      cases h
    next hf =>
      rw [if_neg hf] at h
      obtain ⟨more, hm⟩ := ih h
      exact ⟨more, congrArg (c :: ·) hm⟩

theorem breakOn_append_of_last (hw : '\n' ∉ word) {text : Text}
    (h : (breakOn word text).2.drop word.length = []) (behind : Text) :
    ((breakOn word text).2 = word ∧
      breakOn word (text ++ '\n' :: behind) = ((breakOn word text).1, word ++ '\n' :: behind)) ∨
    (breakOn word text = (text, []) ∧
      ∃ more, (breakOn word (text ++ '\n' :: behind)).1 = text ++ more) := by
  by_cases hs : (breakOn word text).2 = []
  · have hbody := breakOn_append word text
    rw [hs, List.append_nil] at hbody
    exact Or.inr ⟨Prod.ext hbody hs, exists_breakOn_append_lineFeed hw text behind hs⟩
  · obtain ⟨more, -, hm⟩ := eq_append_of_breakOn hs
    rw [hm, List.drop_left] at h
    rw [h, List.append_nil] at hm
    refine Or.inl ⟨hm, ?_⟩
    rw [breakOn_append_lineFeed hw text behind hs, hm]

end Text

namespace Language

variable {language : Language} {c : Char} {rest : Text}

theorem exists_literalBody_append {quote : Char} {text : Text}
    (h : (literalBody quote text).2 = []) (behind : Text) :
    ∃ more, (literalBody quote (text ++ behind)).1 = text ++ more := by
  fun_induction literalBody quote text with
  | case1 => exact ⟨_, (List.nil_append _).symm⟩
  | case2 escaped rest inside after hb ih =>
    rw [hb] at ih
    obtain ⟨more, hm⟩ := ih h
    exact ⟨more, by simp only [List.cons_append, literalBody, hm]⟩
  | case3 d rest hesc hstop => cases h
  | case4 d rest hesc hstop inside after hb ih =>
    rw [hb] at ih
    obtain ⟨more, hm⟩ := ih h
    by_cases he : d = '\\' ∧ ∃ e behind', rest ++ behind = e :: behind'
    · obtain ⟨rfl, e, behind', he⟩ := he
      -- a backslash at the end of the text hides the character behind it
      cases rest with
      | cons f rest => exact absurd rfl (hesc f rest rfl)
      | nil =>
        rw [List.nil_append] at he
        refine ⟨e :: (literalBody quote behind').1, ?_⟩
        simp only [List.cons_append, List.nil_append, he, literalBody]
    · refine ⟨more, ?_⟩
      rw [List.cons_append, literalBody, if_neg hstop]
      · exact congrArg (d :: ·) hm
      · exact fun e behind' hd hr => he ⟨hd, e, behind', hr⟩

/-- A block comment at the end of a text hides at least as much of it with more lines behind. -/
theorem exists_blockComment_append {text : Text}
    (h : (blockComment ('/' :: '*' :: text)).2 = []) (behind : Text) :
    ∃ more, (blockComment ('/' :: '*' :: (text ++ '\n' :: behind))).1 =
      (blockComment ('/' :: '*' :: text)).1 ++ more := by
  have hfst : ∀ text : Text, (blockComment ('/' :: '*' :: text)).1 = ['/', '*'] ++
      (Text.breakOn ['*', '/'] text).1 ++ (Text.breakOn ['*', '/'] text).2.take 2 := fun _ => rfl
  rcases @Text.breakOn_append_of_last ['*', '/'] (by decide) text h behind with
    ⟨hs, hsame⟩ | ⟨hopen, more, hm⟩
  · exact ⟨[], by rw [hfst, hfst, hsame, hs, List.append_nil]; rfl⟩
  · refine ⟨more ++ (Text.breakOn ['*', '/'] (text ++ '\n' :: behind)).2.take 2, ?_⟩
    rw [hfst, hfst, hm, hopen]
    simp

theorem exists_masked_literal_append (hc : c ≠ '\\') (h : (literalBody c rest).2.drop 1 = [])
    (behind : Text) :
    ∃ more, Token.masked ⟨[c], (literalBody c (rest ++ behind)).1,
        (literalBody c (rest ++ behind)).2.take 1⟩ =
      Token.masked ⟨[c], (literalBody c rest).1, (literalBody c rest).2.take 1⟩ ++ more := by
  have hbody := literalBody_append c rest
  rcases hb : literalBody c rest with ⟨body, stop⟩
  rw [hb] at h hbody
  cases stop with
  | nil =>
    obtain rfl : body = rest := by simpa using hbody
    obtain ⟨more, hm⟩ := exists_literalBody_append (congrArg Prod.snd hb) behind
    simp [hm, Token.masked]
  | cons d stop =>
    obtain rfl : stop = [] := h
    have hsame := literalBody_append_congr hc hb behind
    rw [← hbody, List.append_assoc, List.singleton_append, hsame]
    exact ⟨[], (List.append_nil _).symm⟩

theorem exists_masked_append_of_last (h : (language.token c rest).2 = []) (behind : Text) :
    ∃ more, (language.token c (rest ++ '\n' :: behind)).1.masked =
      (language.token c rest).1.masked ++ more := by
  have hopener : '\n' ∉ language.commentOpener := by cases language <;> decide
  have hlook : ∀ word : Text, '\n' ∉ word →
      word.isPrefixOf (c :: (rest ++ '\n' :: behind)) = word.isPrefixOf (c :: rest) :=
    fun word hw => Text.isPrefixOf_append_lineFeed hw (c :: rest) behind
  have hline := hlook _ hopener
  have hslash := hlook ['/', '*'] (by decide)
  have htriple : c ∈ language.quotes → '\n' ∉ [c, c, c] := by
    intro hq hm
    obtain rfl : '\n' = c := by simpa using hm
    revert hq
    cases language <;> decide
  by_cases ho : language.commentOpener.isPrefixOf (c :: rest) = true
  · rw [token_of_comment ho] at h ⊢
    rw [token_of_comment (hline.trans ho)]
    have hall : ∀ d ∈ c :: rest, (d != '\n') = true := List.dropWhile_eq_nil_iff.mp h
    have htake : (c :: (rest ++ '\n' :: behind)).takeWhile (· != '\n') =
        (c :: rest).takeWhile (· != '\n') := by
      rw [← List.cons_append, List.takeWhile_append_of_pos hall,
        List.takeWhile_cons_of_neg (by simp), List.append_nil, List.takeWhile_eq_self_iff.mpr hall]
    rw [htake]
    exact ⟨[], (List.append_nil _).symm⟩
  rw [Bool.not_eq_true] at ho
  by_cases hb : (language.usesBraces && ['/', '*'].isPrefixOf (c :: rest)) = true
  · rw [token_of_block ho hb] at h ⊢
    rw [token_of_block (hline.trans ho) (by rw [hslash, hb])]
    obtain ⟨inner, rfl, rfl⟩ : ∃ inner, c = '/' ∧ rest = '*' :: inner := by
      obtain ⟨inner, he⟩ := List.isPrefixOf_iff_prefix.mp (Bool.and_eq_true _ _ ▸ hb).2
      exact ⟨inner, (List.cons.inj he).1.symm, (List.cons.inj he).2.symm⟩
    obtain ⟨more, hm⟩ := exists_blockComment_append h behind
    simp [Token.masked, hm]
  rw [Bool.not_eq_true] at hb
  by_cases hq : c ∈ language.quotes
  · have htriple := htriple hq
    by_cases ht : language = python ∧ [c, c, c].isPrefixOf (c :: rest) = true
    · rw [token_of_triple ho hb hq ht] at h ⊢
      rw [token_of_triple (hline.trans ho) (by rw [hslash, hb]) hq
        ⟨ht.1, (hlook _ htriple).trans ht.2⟩]
      obtain ⟨inner, rfl⟩ : ∃ inner, rest = c :: c :: inner := by
        obtain ⟨inner, he⟩ := List.isPrefixOf_iff_prefix.mp ht.2
        exact ⟨inner, (List.cons.inj he).2.symm⟩
      rcases @Text.breakOn_append_of_last [c, c, c] htriple inner h behind with
        ⟨hs, hsame⟩ | ⟨hopen, more, hm⟩
      · simp [hs, hsame, Token.masked]
      · simp [hopen, hm, Token.masked]
    · rw [token_of_literal ho hb hq ht] at h ⊢
      rw [token_of_literal (hline.trans ho) (by rw [hslash, hb]) hq (by rwa [hlook _ htriple])]
      exact exists_masked_literal_append (ne_backslash_of_mem_quotes hq) h ('\n' :: behind)
  · rw [token_of_code ho hb hq, token_of_code (hline.trans ho) (by rw [hslash, hb]) hq]
    exact ⟨[], rfl⟩

/-- A token that is over before the end of a text is the same with any text behind it. -/
theorem token_append_of_snd_ne_nil (h : (language.token c rest).2 ≠ []) (behind : Text) :
    language.token c (rest ++ behind) =
      ((language.token c rest).1, (language.token c rest).2 ++ behind) := by
  have htoken := lexeme_token_append language c rest
  obtain ⟨d, front, hl⟩ := List.exists_cons_of_ne_nil (lexeme_token_ne_nil language c rest)
  rw [hl, List.cons_append, List.cons.injEq] at htoken
  obtain ⟨rfl, hrest⟩ := htoken
  generalize hafter : (language.token d rest).2 = after at h hrest ⊢
  subst hrest
  have hhead : after.head? = (after ++ behind).head? := (List.head?_append_of_ne_nil _ h).symm
  have hf : (language.token d (front ++ after)).1.lexeme ++ [] = d :: front := by
    rw [hl, List.append_nil]
  rw [List.append_assoc]
  exact token_append_congr rfl hf h hhead

/-- **The mask of a text is the same with more lines behind it.** -/
theorem exists_mask_append_lineFeed (text behind : Text) :
    ∃ shown, language.mask (text ++ '\n' :: behind) = language.mask text ++ shown ∧
      List.Forall₂ ShownAs ('\n' :: behind) shown := by
  suffices h : ∃ shown, language.mask (text ++ '\n' :: behind) = language.mask text ++ shown by
    obtain ⟨shown, hs⟩ := h
    have hshown := @forall₂_mask language (text ++ '\n' :: behind)
    have hdrop := List.forall₂_drop text.length hshown
    rw [List.drop_left, hs, ← length_mask language text, List.drop_left] at hdrop
    exact ⟨shown, hs, hdrop⟩
  induction text using tokens.induct language with
  | case1 => exact ⟨_, by rw [mask_nil]; rfl⟩
  | case2 c rest ih =>
    rw [List.cons_append, mask_cons language c rest]
    by_cases hlast : (language.token c rest).2 = []
    · obtain ⟨more, hm⟩ := exists_masked_append_of_last hlast behind
      refine ⟨more ++ language.mask (language.token c (rest ++ '\n' :: behind)).2, ?_⟩
      rw [mask_cons, hm, hlast, mask_nil, List.append_nil, List.append_assoc]
    · obtain ⟨shown, hs⟩ := ih
      refine ⟨shown, ?_⟩
      rw [mask_cons, token_append_of_snd_ne_nil hlast, hs, List.append_assoc]

end Language

end Snippet
