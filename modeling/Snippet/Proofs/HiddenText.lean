import Snippet.Advice
import Snippet.Proofs.MaskedLines
import Snippet.Proofs.Masking

/-!
# Hidden text says nothing

What a comment says and what a literal holds has no influence on the analysis.  A cover is one of
the forms that hide a text: a line comment, a block comment, or a literal with one mark on each side
(`Cover.wrap`).  Two texts may be exchanged under a cover if both fit in it and have the same length
and the same lines (`Cover.Exchangeable`).  They are then blanked alike, so that the masks of the
two snippets agree whatever stands around the cover (`Cover.mask_exchange`), and the growth and the
advice are read off the mask (`growthProfile_eq_of_mask_eq`, `advise_eq_of_mask_eq`).

A literal without inside is no exception, since then there is nothing to exchange; that a quote mark
may follow it, and make it the opener of a literal with three marks, does not matter.
-/

namespace Snippet

/-! ### Covers -/

/-- A form that hides a text. -/
inductive Cover where
  | lineComment
  | blockComment
  | literal (quote : Char)

namespace Cover

variable (cover : Cover) (language : Language)

/-- A text under a cover. -/
def wrap (text : Text) : Text :=
  match cover with
  | lineComment => language.commentOpener ++ text ++ ['\n']
  | blockComment => ['/', '*'] ++ text ++ ['*', '/']
  | literal quote => quote :: text ++ [quote]

/-- The cover hides all of the text and nothing behind it. -/
def Hides (text : Text) : Prop :=
  match cover with
  | lineComment => '\n' ∉ text
  | blockComment => language.usesBraces = true ∧
      ∀ left right, text ++ ['*', '/'] = left ++ ['*', '/'] ++ right → right = []
  | literal quote => quote ∈ ['\'', '"'] ∧ ∀ c ∈ text, c ≠ quote ∧ c ≠ '\\' ∧ c ≠ '\n'

/-- Two texts of one length, with their line feeds at the same positions, that the cover hides. -/
structure Exchangeable (text text' : Text) : Prop where
  length_eq : text.length = text'.length
  lineFeed_iff : ∀ i : Nat, text[i]? = some '\n' ↔ text'[i]? = some '\n'
  hides : cover.Hides language text
  hides' : cover.Hides language text'

/-- What the mask shows of a text under a cover, given the blanked text. -/
def shown (blanks : Text) : Text :=
  match cover with
  | lineComment => language.commentOpener.map blanked ++ blanks ++ ['\n']
  | blockComment => [' ', ' '] ++ blanks ++ [' ', ' ']
  | literal quote => quote :: blanks ++ [quote]

variable {cover language}

theorem wrap_ne_nil (text : Text) : cover.wrap language text ≠ [] := by
  cases cover <;> simp [wrap]

theorem head?_wrap_append (text text' rest : Text) :
    (cover.wrap language text ++ rest).head? = (cover.wrap language text' ++ rest).head? := by
  cases cover with
  | lineComment => cases language <;> rfl
  | blockComment => rfl
  | literal => rfl

theorem Exchangeable.map_blanked_eq {text text' : Text}
    (h : cover.Exchangeable language text text') :
    text.map blanked = text'.map blanked := by
  refine List.ext_getElem (by simp [h.length_eq]) ?_
  intro i hi hi'
  rw [List.length_map] at hi hi'
  have hlf := h.lineFeed_iff i
  rw [List.getElem?_eq_getElem hi, List.getElem?_eq_getElem hi', Option.some_inj,
    Option.some_inj] at hlf
  simp only [List.getElem_map, blanked, hlf]

end Cover

/-! ### The mask of a covered text -/

theorem Text.breakOn_eq_of_only {word body : Text} (hw : word ≠ [])
    (h : ∀ left right, body ++ word = left ++ word ++ right → right = []) (more : Text) :
    Text.breakOn word (body ++ (word ++ more)) = (body, word ++ more) := by
  refine @Text.breakOn_append_congr word body [] hw ?_ more
  induction body with
  | nil =>
    obtain ⟨c, tail, rfl⟩ := List.exists_cons_of_ne_nil hw
    have hp : (c :: tail).isPrefixOf (c :: (tail ++ [])) = true := by simp [List.isPrefixOf]
    simp only [List.nil_append, List.cons_append, Text.breakOn, if_pos hp]
  | cons c body ih =>
    have hp : ¬ word.isPrefixOf (c :: (body ++ (word ++ []))) = true := by
      intro hp
      obtain ⟨right, hr⟩ := List.isPrefixOf_iff_prefix.mp hp
      have hnil := h [] right (by simpa using hr.symm)
      have hl := congrArg List.length hr
      simp only [hnil, List.length_append, List.length_cons, List.length_nil] at hl
      omega
    have htail := ih fun left right hb => h (c :: left) right (by simp [hb])
    simp only [List.cons_append, Text.breakOn, if_neg hp, htail]

namespace Language

variable {language : Language}

theorem isPrefixOf_commentOpener_of_ne {c : Char} (h : c ≠ '#') (h' : c ≠ '/') (rest : Text) :
    language.commentOpener.isPrefixOf (c :: rest) = false := by
  cases language <;> simp [commentOpener, List.isPrefixOf, h.symm, h'.symm]

theorem mask_lineComment {text : Text} (h : '\n' ∉ text) (rest : Text) :
    language.mask (Cover.lineComment.wrap language text ++ rest) =
      Cover.lineComment.shown language (text.map blanked) ++ language.mask rest := by
  have hwrap : Cover.lineComment.wrap language text ++ rest =
      language.commentOpener ++ text ++ '\n' :: rest := by
    simp [Cover.wrap]
  have hfeed := language.mask_cons_of_isPlain (show isPlain '\n' = true by decide) rest
  rw [hwrap, mask_comment_append h (Or.inr rfl), hfeed]
  simp [Cover.shown]

theorem mask_blockComment {text : Text} (h : Cover.blockComment.Hides language text) (rest : Text) :
    language.mask (Cover.blockComment.wrap language text ++ rest) =
      Cover.blockComment.shown language (text.map blanked) ++ language.mask rest := by
  obtain ⟨hbraces, honly⟩ := h
  have hopener : language.commentOpener.isPrefixOf
      ('/' :: ('*' :: (text ++ (['*', '/'] ++ rest)))) = false := by
    cases language <;> simp [commentOpener, List.isPrefixOf]
  have hblock : (language.usesBraces && ['/', '*'].isPrefixOf
      ('/' :: ('*' :: (text ++ (['*', '/'] ++ rest))))) = true := by
    simp [hbraces, List.isPrefixOf]
  have hbreak := Text.breakOn_eq_of_only (by decide) honly rest
  have hbody : blockComment ('/' :: ('*' :: (text ++ (['*', '/'] ++ rest)))) =
      (['/', '*'] ++ text ++ ['*', '/'], rest) := by
    simp only [blockComment, List.drop_succ_cons, List.drop_zero, hbreak]
    rfl
  have hwrap : Cover.blockComment.wrap language text ++ rest =
      '/' :: ('*' :: (text ++ (['*', '/'] ++ rest))) := by
    simp [Cover.wrap]
  rw [hwrap, mask_cons, token_of_block hopener hblock, hbody]
  simp [Token.masked, Cover.shown, blanked]

theorem literalBody_of_plain {quote : Char} {text : Text}
    (h : ∀ c ∈ text, c ≠ quote ∧ c ≠ '\\' ∧ c ≠ '\n') (hq : quote ≠ '\\') (rest : Text) :
    literalBody quote (text ++ quote :: rest) = (text, quote :: rest) := by
  have hinside : ∀ c ∈ text, c ≠ quote ∧ c ≠ '\\' ∧ (c = '\n' → spansLines quote = true) := by
    intro c hc
    obtain ⟨hquote, hb, hn⟩ := h c hc
    exact ⟨hquote, hb, fun he => absurd he hn⟩
  rw [literalBody_append_of_inside hinside, literalBody_of_stop hq (Or.inl rfl), List.append_nil]

theorem mask_literal {quote : Char} {text : Text} (h : (Cover.literal quote).Hides language text)
    (hn : text ≠ []) (rest : Text) :
    language.mask ((Cover.literal quote).wrap language text ++ rest) =
      (Cover.literal quote).shown language (text.map blanked) ++ language.mask rest := by
  obtain ⟨hquote, htext⟩ := h
  have hq : quote ∈ language.quotes := by
    have hsub : ∀ c ∈ ['\'', '"'], c ∈ language.quotes := by cases language <;> decide
    exact hsub quote hquote
  obtain ⟨hhash, hslash⟩ : quote ≠ '#' ∧ quote ≠ '/' := by
    constructor <;> (rintro rfl; revert hquote; decide)
  have hopener := @isPrefixOf_commentOpener_of_ne language quote hhash hslash
    (text ++ quote :: rest)
  have hblock : (language.usesBraces &&
      ['/', '*'].isPrefixOf (quote :: (text ++ quote :: rest))) = false := by
    simp [List.isPrefixOf, hslash.symm]
  have htriple : ¬ (language = python ∧
      [quote, quote, quote].isPrefixOf (quote :: (text ++ quote :: rest)) = true) := by
    rintro ⟨-, ht⟩
    obtain ⟨d, text, rfl⟩ := List.exists_cons_of_ne_nil hn
    have hd := (htext d List.mem_cons_self).1
    simp [List.isPrefixOf, hd.symm] at ht
  have hwrap : (Cover.literal quote).wrap language text ++ rest =
      quote :: (text ++ quote :: rest) := by
    simp [Cover.wrap]
  rw [hwrap, mask_cons, token_of_literal hopener hblock hq htriple,
    literalBody_of_plain htext (ne_backslash_of_mem_quotes hq)]
  simp [Token.masked, Cover.shown]

/-- **The mask of a text under a cover** depends on the blanked text only. -/
theorem mask_wrap {cover : Cover} {text : Text} (h : cover.Hides language text) (hn : text ≠ [])
    (rest : Text) :
    language.mask (cover.wrap language text ++ rest) =
      cover.shown language (text.map blanked) ++ language.mask rest := by
  cases cover with
  | lineComment => exact mask_lineComment h rest
  | blockComment => exact mask_blockComment h rest
  | literal quote => exact mask_literal h hn rest

/-- Plain characters are passed one by one, so that a token starts behind them. -/
theorem cutAt_of_plain {front : Text} (h : ∀ c ∈ front, isPlain c = true) (rest : Text) :
    language.CutAt (front ++ rest) front.length := by
  refine cutAt_iff.mpr ⟨front.map Token.code, ?_, ?_⟩
  · induction front with
    | nil => rfl
    | cons c front ih =>
      rw [List.map_cons, List.flatMap_cons, ih (List.forall_mem_cons.mp h).2]
      rfl
  · induction front with
    | nil => rfl
    | cons c front ih =>
      obtain ⟨hc, hf⟩ := List.forall_mem_cons.mp h
      rw [List.cons_append, tokens_cons, language.token_of_isPlain hc, ih hf]
      rfl

end Language

/-! ### What is read off the mask -/

section

variable {language : Language} {code code' : Text}

theorem loopDepth_eq_of_mask_eq (h : language.mask code = language.mask code') :
    language.loopDepth code = language.loopDepth code' := by
  rw [Language.loopDepth, Language.loopDepth, h]

theorem hasNestedLoops_eq_of_mask_eq (h : language.mask code = language.mask code') :
    language.hasNestedLoops code = language.hasNestedLoops code' := by
  rw [Language.hasNestedLoops, Language.hasNestedLoops, loopDepth_eq_of_mask_eq h]

theorem hasLoop_eq_of_mask_eq (h : language.mask code = language.mask code') :
    language.hasLoop code = language.hasLoop code' := by
  rw [Language.hasLoop, Language.hasLoop, loopDepth_eq_of_mask_eq h]

theorem hasPrint_eq_of_mask_eq (h : language.mask code = language.mask code') :
    language.hasPrint code = language.hasPrint code' := by
  rw [Language.hasPrint, Language.hasPrint, h]

theorem hasArrayVocabulary_eq_of_mask_eq (h : language.mask code = language.mask code') :
    language.hasArrayVocabulary code = language.hasArrayVocabulary code' := by
  simp only [Language.hasArrayVocabulary, h]

theorem hasRecursiveFibonacci_eq_of_mask_eq (h : language.mask code = language.mask code') :
    language.hasRecursiveFibonacci code = language.hasRecursiveFibonacci code' := by
  simp only [Language.hasRecursiveFibonacci, Language.mentionsFibonacci,
    Language.hasFibonacciSubtraction, h]

theorem GrowthRule.applies_eq_of_mask_eq (h : language.mask code = language.mask code')
    (rule : GrowthRule) : rule.applies language code = rule.applies language code' := by
  cases rule with
  | fibonacciRecursion => exact hasRecursiveFibonacci_eq_of_mask_eq h
  | memoization =>
    simp only [applies, Language.hasMemoization, h, hasArrayVocabulary_eq_of_mask_eq h]
  | binarySearch => simp only [applies, Language.hasBinarySearch, h]
  | divideAndConquer => simp only [applies, Language.hasDivideAndConquer, h]
  | greedy => simp only [applies, Language.hasGreedyChoice, h]
  | nestedLoops => exact hasNestedLoops_eq_of_mask_eq h
  | singleLoop => exact hasLoop_eq_of_mask_eq h

/-- **The growth of a snippet is read off its mask.** -/
theorem growthProfile_eq_of_mask_eq (h : language.mask code = language.mask code')
    (rules : List GrowthRule) :
    growthProfile rules language code = growthProfile rules language code' := by
  have happ : ∀ rule : GrowthRule, rule.applies language code = rule.applies language code' :=
    GrowthRule.applies_eq_of_mask_eq h
  simp only [growthProfile, happ]

/-- **The advice about a snippet is read off its mask.** -/
theorem advise_eq_of_mask_eq (h : language.mask code = language.mask code') (worst : Growth) :
    advise language code worst = advise language code' worst := by
  have hshape : Advice.byShape language code worst = Advice.byShape language code' worst := by
    simp only [Advice.byShape, hasRecursiveFibonacci_eq_of_mask_eq h,
      hasNestedLoops_eq_of_mask_eq h, hasLoop_eq_of_mask_eq h, hasArrayVocabulary_eq_of_mask_eq h]
  have hidiom : Advice.byIdiom language code = Advice.byIdiom language code' := by
    unfold Advice.byIdiom Language.hasPrint
    rw [h, hasRecursiveFibonacci_eq_of_mask_eq h, hasLoop_eq_of_mask_eq h]
  rw [advise, advise, hshape, hidiom]

end

/-! ### Exchanging a hidden text -/

namespace Cover

variable {cover : Cover} {language : Language} {front rest text text' : Text}

/-- **The mask does not tell which text is hidden.** -/
theorem mask_exchange (h : cover.Exchangeable language text text')
    (hcut : language.CutAt (front ++ (cover.wrap language text ++ rest)) front.length) :
    language.mask (front ++ (cover.wrap language text ++ rest)) =
      language.mask (front ++ (cover.wrap language text' ++ rest)) := by
  by_cases hn : text = []
  · have hn' : text' = [] := List.length_eq_zero_iff.mp (by rw [← h.length_eq, hn]; rfl)
    rw [hn, hn']
  · have hn' : text' ≠ [] := by
      rintro rfl
      exact hn (List.length_eq_zero_iff.mp h.length_eq)
    obtain ⟨before, hbefore⟩ := Language.exists_mask_append hcut (by simp [wrap_ne_nil])
    rw [hbefore _ rfl, hbefore _ (head?_wrap_append text' text rest), Language.mask_wrap h.hides hn,
      Language.mask_wrap h.hides' hn', h.map_blanked_eq]

/-- **Hidden text cannot influence the analysis**: two texts that may be exchanged under a cover
give snippets with the same mask, the same growth by any rules, and the same advice for any
profile. -/
theorem analysis_exchange (h : cover.Exchangeable language text text')
    (hcut : language.CutAt (front ++ (cover.wrap language text ++ rest)) front.length) :
    let code := front ++ (cover.wrap language text ++ rest)
    let code' := front ++ (cover.wrap language text' ++ rest)
    language.mask code = language.mask code' ∧
      (∀ rules, growthProfile rules language code = growthProfile rules language code') ∧
      ∀ profile : GrowthProfile,
        advise language code profile.time.worst = advise language code' profile.time.worst := by
  intro code code'
  have hmask : language.mask code = language.mask code' := mask_exchange h hcut
  refine ⟨hmask, ?_, ?_⟩
  · intro rules
    exact growthProfile_eq_of_mask_eq hmask rules
  · intro profile
    exact advise_eq_of_mask_eq hmask profile.time.worst

/-- One comment speaks of a `for`, the other one of a `while`. -/
theorem analysis_exchange_loopWords :
    let code := "x = 1 ".toList ++ (lineComment.wrap .python "for i".toList ++ "print(x)".toList)
    let code' := "x = 1 ".toList ++ (lineComment.wrap .python "while".toList ++ "print(x)".toList)
    Language.python.mask code = Language.python.mask code' ∧
      (∀ rules, growthProfile rules .python code = growthProfile rules .python code') ∧
      ∀ profile : GrowthProfile,
        advise .python code profile.time.worst = advise .python code' profile.time.worst := by
  have hlines : ∀ i : Nat, "for i".toList[i]? = some '\n' ↔ "while".toList[i]? = some '\n' := by
    intro i
    constructor <;> (intro hi; exact absurd (List.mem_of_getElem? hi) (by decide))
  have hfront : ∀ c ∈ "x = 1 ".toList, isPlain c = true := by decide
  refine analysis_exchange ⟨by decide, hlines, ?_, ?_⟩ (Language.cutAt_of_plain hfront _)
  · show '\n' ∉ "for i".toList
    decide
  · show '\n' ∉ "while".toList
    decide

end Cover

end Snippet
