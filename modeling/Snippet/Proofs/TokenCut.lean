import Mathlib.Tactic
import Snippet.Mask

/-!
# Cuts between tokens

`CutAt language text offset` says that the scan for tokens comes by at `offset`: a token starts
there, or the text ends.  What stands in front of a cut is then cut into tokens in the same way
whatever stands behind it, as long as the first character behind it stays (`tokens_append_congr`),
and also if nothing stands there (`tokens_of_append`), so that the mask falls into the masks of the
two parts (`mask_append`).

One character is all that has to be known because every token in front of the cut is over before it.
A comment opener has at most two characters, so at most one of them stands behind the cut, and three
quote marks of which two stand behind the cut would leave a literal of one mark in front of it,
which is no token.
-/

namespace Snippet

/-! ### Looking ahead -/

namespace Text

/-- A word that reaches at most one character behind a cut sees that character only. -/
theorem isPrefixOf_append_congr {word front rest rest' : Text} (hr : rest.head? = rest'.head?)
    (hl : word.length ≤ front.length + 1) :
    word.isPrefixOf (front ++ rest) = word.isPrefixOf (front ++ rest') := by
  induction front generalizing word with
  | nil =>
    match word, hl with
    | [], _ => simp
    | [c], _ => cases rest <;> cases rest' <;> simp_all [List.isPrefixOf]
  | cons d front ih =>
    cases word with
    | nil => simp
    | cons c word =>
      have hw : word.length ≤ front.length + 1 := by simpa using hl
      simp only [List.cons_append, List.isPrefixOf, ih hw]

theorem isPrefixOf_append_of_le {word front : Text} (hl : word.length ≤ front.length)
    (rest : Text) :
    word.isPrefixOf (front ++ rest) = word.isPrefixOf front := by
  induction front generalizing word with
  | nil =>
    have hw : word = [] := List.length_eq_zero_iff.mp (Nat.le_zero.mp hl)
    simp [hw]
  | cons d front ih =>
    cases word with
    | nil => simp
    | cons c word =>
      have hw : word.length ≤ front.length := by simpa using hl
      simp only [List.cons_append, List.isPrefixOf, ih hw]

theorem eq_append_of_breakOn {word text : Text} (h : (breakOn word text).2 ≠ []) :
    ∃ more, text = (breakOn word text).1 ++ (word ++ more) ∧
      (breakOn word text).2 = word ++ more := by
  have hs : word.isPrefixOf (breakOn word text).2 = true := (breakOn_snd word text).resolve_left h
  obtain ⟨more, hm⟩ := List.isPrefixOf_iff_prefix.mp hs
  refine ⟨more, ?_, hm.symm⟩
  rw [hm, breakOn_append]

/-- **The first occurrence of a word does not depend on what follows it.** -/
theorem breakOn_append_congr {word body more : Text} (hw : word ≠ [])
    (h : (breakOn word (body ++ (word ++ more))).1 = body) (more' : Text) :
    breakOn word (body ++ (word ++ more')) = (body, word ++ more') := by
  induction body with
  | nil =>
    cases word with
    | nil => exact absurd rfl hw
    | cons c word =>
      have hp : (c :: word).isPrefixOf (c :: (word ++ more')) = true :=
        List.isPrefixOf_iff_prefix.mpr ⟨more', rfl⟩
      simp only [List.nil_append, List.cons_append, breakOn, if_pos hp]
  | cons d body ih =>
    have hsame : ∀ tail : Text, word.isPrefixOf (d :: (body ++ (word ++ tail))) =
        word.isPrefixOf (d :: (body ++ word)) := by
      intro tail
      have hle : word.length ≤ (d :: (body ++ word)).length := by
        simp only [List.length_cons, List.length_append]
        omega
      have he := isPrefixOf_append_of_le hle tail
      simpa using he
    simp only [List.cons_append, breakOn] at h ⊢
    by_cases hp : word.isPrefixOf (d :: (body ++ (word ++ more))) = true
    · rw [if_pos hp] at h
      cases h
    · rw [if_neg hp] at h
      rw [hsame more, ← hsame more'] at hp
      rw [if_neg hp, ih (List.cons.inj h).2]

theorem takeWhile_append_congr {keep : Char → Bool} {front rest rest' : Text}
    (h : (front ++ rest).takeWhile keep = front) (hr : rest.head? = rest'.head?) :
    (front ++ rest').takeWhile keep = front := by
  induction front with
  | nil => cases rest <;> cases rest' <;> simp_all [List.takeWhile_cons]
  | cons d front ih =>
    by_cases hd : keep d = true
    · simp only [List.cons_append, List.takeWhile_cons, if_pos hd] at h ⊢
      rw [ih (List.cons.inj h).2]
    · simp only [List.cons_append, List.takeWhile_cons, if_neg hd] at h
      cases h

end Text

namespace Language

variable {language : Language} {c : Char} {rest rest' : Text}

/-! ### The kinds of token -/

theorem token_of_comment (h : language.commentOpener.isPrefixOf (c :: rest) = true) :
    language.token c rest = (⟨[], (c :: rest).takeWhile (· != '\n'), []⟩,
      (c :: rest).dropWhile (· != '\n')) := by
  rw [token, if_pos h]

theorem token_of_block (h : language.commentOpener.isPrefixOf (c :: rest) = false)
    (hb : (language.usesBraces && ['/', '*'].isPrefixOf (c :: rest)) = true) :
    language.token c rest =
      (⟨[], (blockComment (c :: rest)).1, []⟩, (blockComment (c :: rest)).2) := by
  rw [token, if_neg (by rw [h]; decide), if_pos hb]

theorem token_of_triple (h : language.commentOpener.isPrefixOf (c :: rest) = false)
    (hb : (language.usesBraces && ['/', '*'].isPrefixOf (c :: rest)) = false)
    (hq : c ∈ language.quotes) (ht : language = python ∧ [c, c, c].isPrefixOf (c :: rest) = true) :
    language.token c rest =
      (⟨[c, c, c], (Text.breakOn [c, c, c] ((c :: rest).drop 3)).1,
          (Text.breakOn [c, c, c] ((c :: rest).drop 3)).2.take 3⟩,
        (Text.breakOn [c, c, c] ((c :: rest).drop 3)).2.drop 3) := by
  rw [token, if_neg (by rw [h]; decide), if_neg (by rw [hb]; decide), if_pos hq, if_pos ht]

theorem token_of_literal (h : language.commentOpener.isPrefixOf (c :: rest) = false)
    (hb : (language.usesBraces && ['/', '*'].isPrefixOf (c :: rest)) = false)
    (hq : c ∈ language.quotes)
    (ht : ¬ (language = python ∧ [c, c, c].isPrefixOf (c :: rest) = true)) :
    language.token c rest =
      (⟨[c], (literalBody c rest).1, (literalBody c rest).2.take 1⟩,
        (literalBody c rest).2.drop 1) := by
  rw [token, if_neg (by rw [h]; decide), if_neg (by rw [hb]; decide), if_pos hq, if_neg ht]

theorem token_of_code (h : language.commentOpener.isPrefixOf (c :: rest) = false)
    (hb : (language.usesBraces && ['/', '*'].isPrefixOf (c :: rest)) = false)
    (hq : c ∉ language.quotes) : language.token c rest = (.code c, rest) := by
  rw [token, if_neg (by rw [h]; decide), if_neg (by rw [hb]; decide), if_neg hq]

theorem ne_backslash_of_mem_quotes (h : c ∈ language.quotes) : c ≠ '\\' := by
  rintro rfl
  revert h
  cases language <;> decide

theorem length_commentOpener_le (language : Language) : language.commentOpener.length ≤ 2 := by
  cases language <;> decide

theorem literalBody_of_stop {quote : Char} (hq : quote ≠ '\\') {d : Char}
    (hd : d = quote ∨ d = '\n' ∧ spansLines quote = false) (rest : Text) :
    literalBody quote (d :: rest) = ([], d :: rest) := by
  have hstop : (d = quote || (d = '\n' && !spansLines quote)) = true := by simpa using hd
  have hb : d ≠ '\\' := by
    rcases hd with rfl | ⟨rfl, -⟩
    · exact hq
    · decide
  rw [literalBody, if_pos hstop]
  intro _ _ he
  exact absurd he hb

/-- **Characters that neither escape nor end anything** belong to the inside of a literal. -/
theorem literalBody_append_of_inside {quote : Char} {body : Text}
    (h : ∀ d ∈ body, d ≠ quote ∧ d ≠ '\\' ∧ (d = '\n' → spansLines quote = true)) (rest : Text) :
    literalBody quote (body ++ rest) =
      (body ++ (literalBody quote rest).1, (literalBody quote rest).2) := by
  induction body with
  | nil => rfl
  | cons d body ih =>
    obtain ⟨⟨hq, hb, hn⟩, hbody⟩ := List.forall_mem_cons.mp h
    have hstop : ¬ (d = quote || (d = '\n' && !spansLines quote)) = true := by
      simpa [hq] using hn
    rw [List.cons_append, literalBody, if_neg hstop, ih hbody]
    · rfl
    · intro _ _ hd
      exact absurd hd hb

/-- **The inside of a literal does not depend on what follows its end.** -/
theorem literalBody_append_congr {quote : Char} (hq : quote ≠ '\\') {text body more : Text}
    {d : Char}
    (h : literalBody quote text = (body, d :: more)) (more' : Text) :
    literalBody quote (body ++ d :: more') = (body, d :: more') := by
  fun_induction literalBody quote text generalizing body with
  | case1 => cases h
  | case2 escaped rest inside after hb ih =>
    cases h
    rw [List.cons_append, List.cons_append, literalBody, ih hb]
  | case3 e rest hesc hstop =>
    cases h
    exact literalBody_of_stop hq (by simpa using hstop) more'
  | case4 e rest hesc hstop inside after hb ih =>
    cases h
    have he : e ≠ '\\' := by
      rintro rfl
      cases rest with
      | nil => cases hb
      | cons f rest => exact hesc f rest rfl rfl
    rw [List.cons_append, literalBody, if_neg hstop, ih hb]
    intro _ _ hd
    exact absurd hd he

/-! ### What is over in front of a cut

In the lemmas of this section a piece of `front ++ rest` and the text `after` it make up the text in
front of the cut, and `rest'` comes in the place of `rest`. -/

variable {front after : Text}

theorem takeWhile_append_of_over {keep : Char → Bool} {text : Text}
    (hf : (text ++ rest).takeWhile keep ++ after = text) (hh : rest.head? = rest'.head?) :
    (text ++ rest').takeWhile keep = (text ++ rest).takeWhile keep := by
  have hhead : (after ++ rest).head? = (after ++ rest').head? := by cases after <;> simp [hh]
  have hsame : ∀ tail : Text, text ++ tail = (text ++ rest).takeWhile keep ++ (after ++ tail) := by
    intro tail
    rw [← List.append_assoc, hf]
  have hcut := Text.takeWhile_append_congr (congrArg (List.takeWhile keep) (hsame rest)).symm hhead
  rw [← hsame rest'] at hcut
  exact hcut

theorem takeWhile_of_over {keep : Char → Bool} {text : Text}
    (hf : (text ++ rest).takeWhile keep ++ after = text) :
    text.takeWhile keep = (text ++ rest).takeWhile keep := by
  rw [List.takeWhile_append]
  split
  next hall =>
    -- all of the text is kept, so nothing behind the cut is
    rw [List.takeWhile_append, if_pos hall] at hf
    have hl := congrArg List.length hf
    simp only [List.length_append] at hl
    have hnil : rest.takeWhile keep = [] := List.length_eq_zero_iff.mp (by omega)
    rw [hnil, List.append_nil]
    exact (List.takeWhile_prefix keep).eq_of_length hall
  · rfl

theorem breakOn_append_of_over {word body stop text : Text} (hw : word ≠ []) (hr : rest ≠ [])
    (hb : Text.breakOn word (text ++ rest) = (body, stop))
    (hf : body ++ stop.take word.length ++ after = text) (rest' : Text) :
    stop.take word.length = word ∧
      Text.breakOn word (text ++ rest') = (body, word ++ (after ++ rest')) := by
  have ha := Text.breakOn_append word (text ++ rest)
  rw [hb] at ha
  by_cases hs : stop = []
  · -- without the word the piece would be the whole text
    have hl := congrArg List.length hf
    have hp := List.length_pos_iff.mpr hr
    have hlen := congrArg List.length ha
    rw [hs] at hl hlen
    simp only [List.take_nil, List.append_nil, List.length_append] at hl hlen
    omega
  · obtain ⟨more, ht, hm⟩ := @Text.eq_append_of_breakOn word (text ++ rest) (by rw [hb]; exact hs)
    rw [hb] at ht hm
    have htake : stop.take word.length = word := by
      rw [show stop = word ++ more from hm, List.take_left]
    have hfirst : (Text.breakOn word (body ++ (word ++ more))).1 = body := by
      rw [← ht, hb]
    have hsame := Text.breakOn_append_congr hw hfirst (after ++ rest')
    rw [htake] at hf
    refine ⟨htake, ?_⟩
    rw [← hsame, ← hf]
    simp

theorem blockComment_append_of_over
    (hf : (blockComment (c :: (front ++ rest))).1 ++ after = c :: front) (hr : rest ≠ []) :
    (blockComment (c :: (front ++ rest'))).1 = (blockComment (c :: (front ++ rest))).1 := by
  cases front with
  | nil =>
    -- the opener alone is longer than what stands in front of the cut
    have hl := congrArg List.length hf
    simp only [blockComment] at hl
    simp at hl
    exact absurd hl.1 hr
  | cons d text =>
    rcases hb : Text.breakOn ['*', '/'] (text ++ rest) with ⟨body, stop⟩
    have hfst : ∀ tail, (blockComment (c :: (d :: text ++ tail))).1 = [c, d] ++
        (Text.breakOn ['*', '/'] (text ++ tail)).1 ++
          (Text.breakOn ['*', '/'] (text ++ tail)).2.take 2 := by
      intro tail
      simp [blockComment]
    rw [hfst, hb] at hf
    have hover : body ++ stop.take (['*', '/'] : Text).length ++ after = text := by simpa using hf
    obtain ⟨hstop, hb'⟩ := breakOn_append_of_over (by decide) hr hb hover rest'
    rw [hfst, hfst, hb, hb', show stop.take 2 = _ from hstop]
    rfl

theorem triple_append_of_over {body stop : Text} (hr : rest ≠ [])
    (hb : Text.breakOn [c, c, c] ((c :: (front ++ rest)).drop 3) = (body, stop))
    (hf : [c, c, c] ++ body ++ stop.take 3 ++ after = c :: front) (rest' : Text) :
    stop.take 3 = [c, c, c] ∧
      Text.breakOn [c, c, c] ((c :: (front ++ rest')).drop 3) =
        (body, [c, c, c] ++ (after ++ rest')) := by
  obtain ⟨text, rfl⟩ : ∃ text, front = c :: c :: text := by
    rw [List.append_assoc, List.append_assoc] at hf
    exact ⟨_, (List.cons.inj hf).2.symm⟩
  have hdrop : ∀ tail, (c :: (c :: c :: text ++ tail)).drop 3 = text ++ tail := fun _ => rfl
  rw [hdrop] at hb ⊢
  exact breakOn_append_of_over (by simp) hr hb (by simpa using hf) rest'

theorem literalBody_append_of_over {body stop : Text} (hr : rest ≠ []) (hc : c ≠ '\\')
    (hb : literalBody c (front ++ rest) = (body, stop))
    (hf : ([c] ++ body ++ stop.take 1) ++ after = c :: front) (rest' : Text) :
    ∃ d, stop.take 1 = [d] ∧ literalBody c (front ++ rest') = (body, d :: (after ++ rest')) := by
  have hfront : front = body ++ (stop.take 1 ++ after) := by simpa using hf.symm
  cases stop with
  | nil =>
    -- a literal without an end would be the whole text
    have ha := literalBody_append c (front ++ rest)
    rw [hb] at ha
    have hl := congrArg List.length hfront
    have hp := List.length_pos_iff.mpr hr
    have hlen := congrArg List.length ha
    simp only [List.length_append, List.take_nil, List.length_nil] at hl hlen
    omega
  | cons d more =>
    have hsame := literalBody_append_congr hc hb (after ++ rest')
    refine ⟨d, rfl, ?_⟩
    rw [← hsame, hfront]
    simp

/-! ### One token -/

variable {found : Token}

theorem snd_token_of_over (h : (language.token c (front ++ rest)).1 = found)
    (hf : found.lexeme ++ after = c :: front) :
    (language.token c (front ++ rest)).2 = after ++ rest := by
  have ha := lexeme_token_append language c (front ++ rest)
  rw [h, ← List.cons_append, ← hf, List.append_assoc] at ha
  exact List.append_cancel_left ha

theorem ne_nil_of_over (hq : c ∈ language.quotes)
    (ho : language.commentOpener.isPrefixOf (c :: (front ++ rest)) = false)
    (hb : (language.usesBraces && ['/', '*'].isPrefixOf (c :: (front ++ rest))) = false)
    (hf : (language.token c (front ++ rest)).1.lexeme ++ after = c :: front) (hr : rest ≠ []) :
    front ≠ [] := by
  rintro rfl
  by_cases ht : language = python ∧ [c, c, c].isPrefixOf (c :: ([] ++ rest)) = true
  · rw [token_of_triple ho hb hq ht] at hf
    have hl := congrArg List.length hf
    simp [Token.lexeme] at hl
  · rw [token_of_literal ho hb hq ht] at hf
    obtain ⟨d, hd, -⟩ := literalBody_append_of_over hr (ne_backslash_of_mem_quotes hq)
      (Prod.ext rfl rfl) hf []
    have hl := congrArg List.length hf
    simp [Token.lexeme] at hl
    simp [hl.2.1] at hd

/-- A token that is over in front of a cut is the same with another text behind the cut, if the
words that the scan looks for are found in both texts, and a comment ends where it did. -/
theorem token_append_of_looks (h : (language.token c (front ++ rest)).1 = found)
    (hf : found.lexeme ++ after = c :: front) (hr : rest ≠ [])
    (hopen : language.commentOpener.isPrefixOf (c :: (front ++ rest)) =
      language.commentOpener.isPrefixOf (c :: (front ++ rest')))
    (hslash : (language.usesBraces && ['/', '*'].isPrefixOf (c :: (front ++ rest))) =
      (language.usesBraces && ['/', '*'].isPrefixOf (c :: (front ++ rest'))))
    (htriple : c ∈ language.quotes → front ≠ [] →
      (language = python ∧ [c, c, c].isPrefixOf (c :: (front ++ rest)) = true ↔
        language = python ∧ [c, c, c].isPrefixOf (c :: (front ++ rest')) = true))
    (hline : (c :: front ++ rest).takeWhile (· != '\n') ++ after = c :: front →
      (c :: front ++ rest').takeWhile (· != '\n') =
        (c :: front ++ rest).takeWhile (· != '\n')) :
    language.token c (front ++ rest') = (found, after ++ rest') := by
  suffices hfst : (language.token c (front ++ rest')).1 = found from
    Prod.ext hfst (snd_token_of_over hfst hf)
  by_cases ho : language.commentOpener.isPrefixOf (c :: (front ++ rest)) = true
  · rw [token_of_comment ho] at h
    rw [token_of_comment (hopen ▸ ho)]
    have hover : (c :: front ++ rest).takeWhile (· != '\n') ++ after = c :: front := by
      rw [← h] at hf
      simpa [Token.lexeme] using hf
    rw [← h]
    exact congrArg (fun comment => (⟨[], comment, []⟩ : Token)) (hline hover)
  rw [Bool.not_eq_true] at ho
  by_cases hb : (language.usesBraces && ['/', '*'].isPrefixOf (c :: (front ++ rest))) = true
  · rw [token_of_block ho hb] at h
    rw [token_of_block (hopen ▸ ho) (hslash ▸ hb)]
    have hover : (blockComment (c :: (front ++ rest))).1 ++ after = c :: front := by
      rw [← h] at hf
      simpa [Token.lexeme] using hf
    rw [← h, blockComment_append_of_over hover hr]
  rw [Bool.not_eq_true] at hb
  by_cases hq : c ∈ language.quotes
  · have htriple := htriple hq (ne_nil_of_over hq ho hb (h ▸ hf) hr)
    by_cases ht : language = python ∧ [c, c, c].isPrefixOf (c :: (front ++ rest)) = true
    · rw [token_of_triple ho hb hq ht] at h
      rw [token_of_triple (hopen ▸ ho) (hslash ▸ hb) hq (htriple.mp ht)]
      obtain ⟨hstop, hsame⟩ := triple_append_of_over hr (Prod.ext rfl rfl) (h ▸ hf) rest'
      rw [hsame, ← h, hstop]
      rfl
    · rw [token_of_literal ho hb hq ht] at h
      rw [token_of_literal (hopen ▸ ho) (hslash ▸ hb) hq (mt htriple.mpr ht)]
      obtain ⟨d, hd, hsame⟩ := literalBody_append_of_over hr
        (ne_backslash_of_mem_quotes hq) (Prod.ext rfl rfl) (h ▸ hf) rest'
      rw [hsame, ← h, hd]
      rfl
  · rw [token_of_code ho hb hq] at h
    rw [token_of_code (hopen ▸ ho) (hslash ▸ hb) hq]
    exact h

/-- **A token that is over in front of a cut is the same with another text behind the cut**, as long
as that opens with the same character. -/
theorem token_append_congr (h : (language.token c (front ++ rest)).1 = found)
    (hf : found.lexeme ++ after = c :: front) (hr : rest ≠ []) (hh : rest.head? = rest'.head?) :
    language.token c (front ++ rest') = (found, after ++ rest') := by
  have hlook : ∀ word : Text, word.length ≤ front.length + 2 →
      word.isPrefixOf (c :: (front ++ rest)) = word.isPrefixOf (c :: (front ++ rest')) := by
    intro word hl
    exact @Text.isPrefixOf_append_congr word (c :: front) rest rest' hh (by simpa using hl)
  refine token_append_of_looks h hf hr (hlook _ ?_) ?_ (fun _ hn => ?_) fun hover => ?_
  · have := length_commentOpener_le language
    omega
  · rw [hlook _ (by simp)]
  · have := List.length_pos_iff.mpr hn
    rw [hlook _ (by simp only [List.length_cons, List.length_nil]; omega)]
  · exact takeWhile_append_of_over hover hh

theorem isPrefixOf_append_of_over {word : Text} (hf : found.lexeme ++ after = c :: front)
    (hw : word.isPrefixOf (c :: (front ++ rest)) = true → word.isPrefixOf found.lexeme = true) :
    word.isPrefixOf (c :: (front ++ rest)) = word.isPrefixOf (c :: front) := by
  rw [Bool.eq_iff_iff]
  simp only [List.isPrefixOf_iff_prefix] at hw ⊢
  constructor
  · intro h
    exact (hw h).trans ⟨after, hf⟩
  · intro h
    exact h.trans ⟨rest, rfl⟩

theorem isPrefixOf_takeWhile {keep : Char → Bool} {word text : Text}
    (h : word.isPrefixOf text = true) (hk : ∀ d ∈ word, keep d = true) :
    word.isPrefixOf (text.takeWhile keep) = true := by
  obtain ⟨more, rfl⟩ := List.isPrefixOf_iff_prefix.mp h
  rw [List.takeWhile_append_of_pos hk, List.isPrefixOf_iff_prefix]
  exact List.prefix_append _ _

theorem isPrefixOf_commentOpener_of_block (h : ['/', '*'].isPrefixOf (c :: rest) = true) :
    language.commentOpener.isPrefixOf (c :: rest) = false := by
  obtain ⟨more, he⟩ := List.isPrefixOf_iff_prefix.mp h
  rw [← he]
  cases language <;> rfl

theorem isPrefixOf_commentOpener_of_mem_quotes (h : c ∈ language.quotes) (rest : Text) :
    language.commentOpener.isPrefixOf (c :: rest) = false ∧
      (language.usesBraces && ['/', '*'].isPrefixOf (c :: rest)) = false := by
  have hne : ∀ d ∈ language.quotes, d ≠ '#' ∧ d ≠ '/' := by cases language <;> decide
  obtain ⟨hh, hs⟩ := hne c h
  cases language <;> simp [commentOpener, List.isPrefixOf, hh.symm, hs.symm]

/-- **A token that is over in front of a cut is the first token of the text in front of the
cut.** -/
theorem token_of_append (h : (language.token c (front ++ rest)).1 = found)
    (hf : found.lexeme ++ after = c :: front) (hr : rest ≠ []) :
    language.token c front = (found, after) := by
  have hopen : language.commentOpener.isPrefixOf (c :: (front ++ rest)) =
      language.commentOpener.isPrefixOf (c :: front) := by
    refine isPrefixOf_append_of_over hf fun ho => ?_
    rw [← h, token_of_comment ho]
    have hkeep : ∀ d ∈ language.commentOpener, (d != '\n') = true := by cases language <;> decide
    simpa [Token.lexeme] using isPrefixOf_takeWhile ho hkeep
  have hslash : (language.usesBraces && ['/', '*'].isPrefixOf (c :: (front ++ rest))) =
      (language.usesBraces && ['/', '*'].isPrefixOf (c :: front)) := by
    by_cases hu : language.usesBraces = true
    · rw [hu, Bool.true_and, Bool.true_and]
      refine isPrefixOf_append_of_over hf fun hb => ?_
      obtain ⟨more, he⟩ := List.isPrefixOf_iff_prefix.mp hb
      rw [← h, token_of_block (isPrefixOf_commentOpener_of_block hb) (by rw [hu, hb]; rfl), ← he]
      simp [Token.lexeme, blockComment, List.isPrefixOf]
    · rw [Bool.not_eq_true] at hu
      rw [hu, Bool.false_and, Bool.false_and]
  have htriple : c ∈ language.quotes → front ≠ [] →
      (language = python ∧ [c, c, c].isPrefixOf (c :: (front ++ rest)) = true ↔
        language = python ∧ [c, c, c].isPrefixOf (c :: front) = true) := by
    intro hq _
    refine and_congr_right fun hp => ?_
    rw [isPrefixOf_append_of_over hf]
    intro ht
    obtain ⟨ho, hb⟩ := isPrefixOf_commentOpener_of_mem_quotes hq (front ++ rest)
    rw [← h, token_of_triple ho hb hq ⟨hp, ht⟩]
    simp [Token.lexeme, List.isPrefixOf]
  have hall := @token_append_of_looks language c rest [] front after found h hf hr
  rw [List.append_nil, List.append_nil, List.append_nil] at hall
  refine hall hopen hslash htriple fun hover => ?_
  exact takeWhile_of_over hover

/-! ### A stretch of tokens -/

/-- The tokens in front of a cut are the same with another text behind it, if each of them is. -/
theorem tokens_append_of_token {first : List Token} (hr : rest ≠ [])
    (h : language.tokens (first.flatMap Token.lexeme ++ rest) = first ++ language.tokens rest)
    (htoken : ∀ {c : Char} {front after : Text} {found : Token},
      c :: front <:+ first.flatMap Token.lexeme → (language.token c (front ++ rest)).1 = found →
      found.lexeme ++ after = c :: front →
      language.token c (front ++ rest') = (found, after ++ rest')) :
    language.tokens (first.flatMap Token.lexeme ++ rest') = first ++ language.tokens rest' := by
  induction first with
  | nil => rfl
  | cons found first ih =>
    rw [List.flatMap_cons] at h htoken ⊢
    have ih := fun h => ih h fun hs => htoken (hs.trans (List.suffix_append _ _))
    cases hu : found.lexeme ++ first.flatMap Token.lexeme with
    | nil =>
      -- the token that the scan finds here is not empty
      rw [hu, List.nil_append] at h
      obtain ⟨c, tail, rfl⟩ := List.exists_cons_of_ne_nil hr
      rw [tokens_cons] at h
      have hne := lexeme_token_ne_nil language c tail
      rw [(List.cons.inj h).1] at hne
      exact absurd (List.append_eq_nil_iff.mp hu).1 hne
    | cons c front =>
      rw [hu, List.cons_append, tokens_cons] at h
      obtain ⟨hfound, hrest⟩ := List.cons.inj h
      rw [snd_token_of_over hfound hu] at hrest
      rw [List.cons_append, tokens_cons, htoken (hu ▸ List.suffix_refl _) hfound hu, ih hrest]
      rfl

/-- **The tokens in front of a cut do not depend on what stands behind it**, as long as that opens
with the same character. -/
theorem tokens_append_congr {first : List Token} (hr : rest ≠ []) (hh : rest.head? = rest'.head?)
    (h : language.tokens (first.flatMap Token.lexeme ++ rest) = first ++ language.tokens rest) :
    language.tokens (first.flatMap Token.lexeme ++ rest') = first ++ language.tokens rest' :=
  tokens_append_of_token hr h fun _ hfound hf => token_append_congr hfound hf hr hh

/-- **The tokens in front of a cut are those of the text in front of the cut.** -/
theorem tokens_of_append {first : List Token}
    (h : language.tokens (first.flatMap Token.lexeme ++ rest) = first ++ language.tokens rest) :
    language.tokens (first.flatMap Token.lexeme) = first := by
  by_cases hr : rest = []
  · rwa [hr, List.append_nil, tokens_nil, List.append_nil] at h
  induction first with
  | nil => exact tokens_nil language
  | cons found first ih =>
    rw [List.flatMap_cons] at h ⊢
    cases hu : found.lexeme ++ first.flatMap Token.lexeme with
    | nil =>
      -- the scan would find an empty token
      rw [hu, List.nil_append] at h
      obtain ⟨c, tail, rfl⟩ := List.exists_cons_of_ne_nil hr
      rw [tokens_cons] at h
      have hne := lexeme_token_ne_nil language c tail
      rw [(List.cons.inj h).1] at hne
      exact absurd (List.append_eq_nil_iff.mp hu).1 hne
    | cons c front =>
      rw [hu, List.cons_append, tokens_cons] at h
      obtain ⟨hfound, hrest⟩ := List.cons.inj h
      rw [snd_token_of_over hfound hu] at hrest
      rw [tokens_cons, token_of_append hfound hu hr, ih hrest]

/-! ### Cuts -/

/-- The scan for tokens comes by at this offset of a text. -/
def CutAt (language : Language) (text : Text) (offset : Nat) : Prop :=
  ∃ first last, language.tokens text = first ++ last ∧
    (first.flatMap Token.lexeme).length = offset

theorem tokens_eq_append {text : Text} {first last : List Token}
    (h : language.tokens text = first ++ last) :
    ∃ left, text = first.flatMap Token.lexeme ++ left ∧ language.tokens left = last := by
  induction first generalizing text with
  | nil => exact ⟨text, rfl, h⟩
  | cons found first ih =>
    cases text with
    | nil => simp at h
    | cons c tail =>
      rw [tokens_cons] at h
      obtain ⟨hfound, hrest⟩ := List.cons.inj h
      obtain ⟨left, ht, hl⟩ := ih hrest
      refine ⟨left, ?_, hl⟩
      rw [List.flatMap_cons, List.append_assoc, ← ht, ← hfound, lexeme_token_append]

theorem cutAt_iff {front : Text} : language.CutAt (front ++ rest) front.length ↔
    ∃ first, first.flatMap Token.lexeme = front ∧
      language.tokens (front ++ rest) = first ++ language.tokens rest := by
  constructor
  · rintro ⟨first, last, ht, hl⟩
    obtain ⟨left, htext, hlast⟩ := tokens_eq_append ht
    obtain ⟨hfront, hrest⟩ := List.append_inj htext hl.symm
    exact ⟨first, hfront.symm, by rw [ht, hrest, hlast]⟩
  · rintro ⟨first, rfl, ht⟩
    exact ⟨first, _, ht, rfl⟩

/-- **A cut stays one with another text behind it**, and the mask in front of it stays as well. -/
theorem exists_mask_append {front : Text} (h : language.CutAt (front ++ rest) front.length)
    (hr : rest ≠ []) :
    ∃ shown, ∀ tail : Text, tail.head? = rest.head? →
      language.mask (front ++ tail) = shown ++ language.mask tail := by
  obtain ⟨first, rfl, ht⟩ := cutAt_iff.mp h
  refine ⟨first.flatMap Token.masked, ?_⟩
  intro tail hh
  rw [mask, tokens_append_congr hr hh.symm ht, List.flatMap_append]
  rfl

/-- **At a cut the mask falls into the masks of the two parts.** -/
theorem mask_append {front : Text} (h : language.CutAt (front ++ rest) front.length) :
    language.mask (front ++ rest) = language.mask front ++ language.mask rest := by
  obtain ⟨first, rfl, ht⟩ := cutAt_iff.mp h
  rw [mask, mask, ht, tokens_of_append ht, List.flatMap_append]
  rfl

end Language

end Snippet
