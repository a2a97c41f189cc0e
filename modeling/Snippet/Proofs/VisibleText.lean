import Mathlib.Data.List.Forall2
import Snippet.Proofs.HiddenText

/-!
# What a mask shows

A mask shows every character of its snippet in its place, or a space there, and no comment opens in
it (`Language.mask_visible`).

* `Language.forall₂_mask`: the mask goes through the snippet character by character, and blanks some
  of them (`ShownAs`).
* `Language.Finds` lists what the scan for tokens can find at a character: a comment, a literal with
  three marks, a literal with one mark, or the character itself, which then opens nothing.
* `Language.clear_mask`: no comment opens anywhere in the mask.  Only the token of a single
  character can show the start of an opener, and what stands behind it in the mask is what stands
  behind it in the snippet, or a space.
-/

namespace Snippet

/-! ### Characters in a mask -/

/-- How a character may stand in a mask: as itself, or as a space if it is no line feed. -/
def ShownAs (c d : Char) : Prop := d = c ∨ c ≠ '\n' ∧ d = ' '

theorem shownAs_blanked (c : Char) : ShownAs c (blanked c) := by
  by_cases hc : c = '\n'
  · exact Or.inl (by rw [blanked, if_pos hc, hc])
  · exact Or.inr ⟨hc, by rw [blanked, if_neg hc]⟩

theorem blanked_eq (c : Char) : blanked c = '\n' ∨ blanked c = ' ' := by
  rw [blanked]
  split
  · exact Or.inl rfl
  · exact Or.inr rfl

namespace Token

@[simp] theorem masked_code (c : Char) : (code c).masked = [c] := rfl

theorem forall₂_masked (token : Token) : List.Forall₂ ShownAs token.lexeme token.masked := by
  have hself : ∀ text : Text, List.Forall₂ ShownAs text text :=
    fun text => List.forall₂_same.mpr fun _ _ => Or.inl rfl
  have hhidden : List.Forall₂ ShownAs token.hidden (token.hidden.map blanked) := by
    rw [List.forall₂_map_right_iff, List.forall₂_same]
    intro c _
    exact shownAs_blanked c
  rw [lexeme, masked]
  exact List.rel_append (List.rel_append (hself _) hhidden) (hself _)

end Token

section

variable {text shown : Text}

theorem exists_of_shown (h : List.Forall₂ ShownAs text shown) {i : Nat} {c : Char}
    (hi : text[i]? = some c) : ∃ d, shown[i]? = some d ∧ ShownAs c d := by
  induction h generalizing i with
  | nil => cases hi
  | cons hcd _ ih =>
    cases i with
    | zero =>
      obtain rfl := Option.some.inj hi
      exact ⟨_, rfl, hcd⟩
    | succ i => exact ih hi

theorem exists_of_mem_shown {d : Char} (h : List.Forall₂ ShownAs text shown)
    (hd : d ∈ shown) : ∃ c ∈ text, ShownAs c d := by
  induction h with
  | nil => cases hd
  | cons hcd _ ih =>
    rcases List.mem_cons.mp hd with rfl | hd
    · exact ⟨_, List.mem_cons_self, hcd⟩
    · obtain ⟨c, hc, hs⟩ := ih hd
      exact ⟨c, List.mem_cons_of_mem _ hc, hs⟩

/-- **A word without spaces that is shown stands there in the text.** -/
theorem prefix_of_shown (h : List.Forall₂ ShownAs text shown) {word : Text} (hw : ' ' ∉ word)
    (hp : word <+: shown) : word <+: text := by
  induction h generalizing word with
  | nil => exact hp
  | cons hcd _ ih =>
    cases word with
    | nil => exact List.nil_prefix
    | cons e word =>
      rw [List.mem_cons, not_or] at hw
      rw [List.cons_prefix_cons] at hp ⊢
      obtain ⟨rfl, hp⟩ := hp
      rcases hcd with rfl | ⟨-, rfl⟩
      · exact ⟨rfl, ih hw.2 hp⟩
      · exact absurd rfl hw.1

end

namespace Language

variable {language : Language} {c : Char} {rest text shown : Text}

/-- **The mask goes through the snippet character by character.** -/
theorem forall₂_mask (code : Text) : List.Forall₂ ShownAs code (language.mask code) := by
  induction code using tokens.induct language with
  | case1 =>
    rw [mask_nil]
    exact List.Forall₂.nil
  | case2 c rest ih =>
    have htoken := lexeme_token_append language c rest
    rw [mask_cons, ← htoken]
    exact List.rel_append (Token.forall₂_masked _) ih

/-! ### Openers of comments -/

/-- What opens a comment in a language, of either kind. -/
def openers : Language → List Text
  | python => [['#']]
  | _ => [['/', '/'], ['/', '*']]

/-- A comment opens at the start of a text. -/
def OpensComment (language : Language) (text : Text) : Prop :=
  ∃ opener ∈ language.openers, opener <+: text

/-- No comment opens anywhere in a text. -/
def Clear (language : Language) (text : Text) : Prop :=
  ∀ opener ∈ language.openers, ¬ opener <:+: text

theorem not_opensComment_iff : ¬ language.OpensComment text ↔
    language.commentOpener.isPrefixOf text = false ∧
      (language.usesBraces && ['/', '*'].isPrefixOf text) = false := by
  rw [← Bool.not_eq_true, ← Bool.not_eq_true, Bool.and_eq_true, List.isPrefixOf_iff_prefix,
    List.isPrefixOf_iff_prefix, OpensComment]
  cases language <;> simp [openers, commentOpener, usesBraces]

/-- **A comment that opens in what is shown opens in the text.** -/
theorem opensComment_of_shown (h : List.Forall₂ ShownAs text shown)
    (ho : language.OpensComment shown) : language.OpensComment text := by
  obtain ⟨opener, hm, hp⟩ := ho
  refine ⟨opener, hm, prefix_of_shown h ?_ hp⟩
  revert opener
  cases language <;> simp [openers]

theorem not_opensComment_of_mem (h : c ∈ language.quotes ∨ c = '\n' ∨ c = ' ') (rest : Text) :
    ¬ language.OpensComment (c :: rest) := by
  obtain ⟨hhash, hslash⟩ : c ≠ '#' ∧ c ≠ '/' := by
    constructor <;> (rintro rfl; revert h; cases language <;> decide)
  rw [not_opensComment_iff]
  exact ⟨isPrefixOf_commentOpener_of_ne hhash hslash rest, by simp [List.isPrefixOf, hslash.symm]⟩

theorem clear_nil : language.Clear [] := by
  intro opener ho hi
  rw [List.infix_nil] at hi
  subst hi
  revert ho
  cases language <;> decide

theorem clear_cons (h : ¬ language.OpensComment (c :: rest)) (hr : language.Clear rest) :
    language.Clear (c :: rest) := by
  intro opener ho hi
  rcases List.infix_cons_iff.mp hi with hp | hi
  · exact h ⟨opener, ho, hp⟩
  · exact hr opener ho hi

theorem clear_append {front : Text} (h : ∀ d ∈ front, d ∈ language.quotes ∨ d = '\n' ∨ d = ' ')
    (hr : language.Clear rest) : language.Clear (front ++ rest) := by
  induction front with
  | nil => exact hr
  | cons d front ih =>
    obtain ⟨hd, hf⟩ := List.forall_mem_cons.mp h
    exact clear_cons (not_opensComment_of_mem hd _) (ih hf)

/-! ### What the scan finds -/

/-- What the scan for tokens can find at the character `c` in front of `rest`: a token, and the text
behind it. -/
inductive Finds (language : Language) (c : Char) (rest : Text) : Token → Text → Prop where
  | comment {hidden after : Text} : Finds language c rest ⟨[], hidden, []⟩ after
  /-- A literal with three marks is closed by three marks, or by nothing. -/
  | triple {body stop after : Text} (hl : language = python) (hq : c ∈ language.quotes)
      (hstop : stop = [c, c, c] ∨ stop = [] ∧ after = []) :
      Finds language c rest ⟨[c, c, c], body, stop⟩ after
  /-- A literal with one mark ends at its first unescaped mark or line end. -/
  | literal {body stop : Text} (hq : c ∈ language.quotes)
      (ht : ¬ (language = python ∧ [c, c, c].isPrefixOf (c :: rest) = true))
      (hb : literalBody c rest = (body, stop)) :
      Finds language c rest ⟨[c], body, stop.take 1⟩ (stop.drop 1)
  /-- A character that opens nothing stands for itself. -/
  | code (ho : ¬ language.OpensComment (c :: rest)) (hq : c ∉ language.quotes) :
      Finds language c rest (.code c) rest

theorem finds_token (language : Language) (c : Char) (rest : Text) :
    language.Finds c rest (language.token c rest).1 (language.token c rest).2 := by
  by_cases ho : language.commentOpener.isPrefixOf (c :: rest) = true
  · rw [token_of_comment ho]
    exact .comment
  rw [Bool.not_eq_true] at ho
  by_cases hb : (language.usesBraces && ['/', '*'].isPrefixOf (c :: rest)) = true
  · rw [token_of_block ho hb]
    exact .comment
  rw [Bool.not_eq_true] at hb
  by_cases hq : c ∈ language.quotes
  · by_cases ht : language = python ∧ [c, c, c].isPrefixOf (c :: rest) = true
    · rw [token_of_triple ho hb hq ht]
      refine .triple ht.1 hq ?_
      rcases Text.breakOn_snd [c, c, c] ((c :: rest).drop 3) with hs | hs
      · exact Or.inr (by rw [hs]; exact ⟨rfl, rfl⟩)
      · obtain ⟨more, hm⟩ := List.isPrefixOf_iff_prefix.mp hs
        exact Or.inl (by rw [← hm]; rfl)
    · rw [token_of_literal ho hb hq ht]
      exact .literal hq ht rfl
  · rw [token_of_code ho hb hq]
    exact .code (not_opensComment_iff.mpr ⟨ho, hb⟩) hq

theorem literalBody_snd (quote : Char) (text : Text) :
    (literalBody quote text).2 = [] ∨ ∃ d more, (literalBody quote text).2 = d :: more ∧
      (d = quote ∨ d = '\n' ∧ spansLines quote = false) := by
  fun_induction literalBody quote text with
  | case1 => exact Or.inl rfl
  | case2 escaped rest inside after hb ih => rwa [hb] at ih
  | case3 d rest hesc hstop =>
    simp only [Bool.or_eq_true, decide_eq_true_eq, Bool.and_eq_true, Bool.not_eq_true'] at hstop
    exact Or.inr ⟨d, rest, rfl, hstop⟩
  | case4 d rest hesc hstop inside after hb ih => rwa [hb] at ih

variable {found : Token} {after : Text}

/-- **A token shows its marks, spaces and line feeds only**, unless it is a single character. -/
theorem Finds.mem_masked (h : language.Finds c rest found after) :
    (found = .code c ∧ after = rest ∧ ¬ language.OpensComment (c :: rest)) ∨
      ∀ d ∈ found.masked, d ∈ language.quotes ∨ d = '\n' ∨ d = ' ' := by
  have hblank : ∀ {hidden : Text} {d : Char}, d ∈ hidden.map blanked →
      d ∈ language.quotes ∨ d = '\n' ∨ d = ' ' := by
    intro hidden d hd
    obtain ⟨e, -, rfl⟩ := List.mem_map.mp hd
    exact Or.inr (blanked_eq e)
  cases h with
  | comment => exact Or.inr fun d hd => hblank (by simpa [Token.masked] using hd)
  | triple hl hq hstop =>
    refine Or.inr fun d hd => ?_
    rcases List.mem_append.mp hd with hd | hd
    · rcases List.mem_append.mp hd with hd | hd
      · obtain rfl : d = c := by simpa using hd
        exact Or.inl hq
      · exact hblank hd
    · rcases hstop with rfl | ⟨rfl, -⟩
      · obtain rfl : d = c := by simpa using hd
        exact Or.inl hq
      · cases hd
  | literal hq ht hb =>
    refine Or.inr fun d hd => ?_
    rcases List.mem_append.mp hd with hd | hd
    · rcases List.mem_append.mp hd with hd | hd
      · obtain rfl : d = c := by simpa using hd
        exact Or.inl hq
      · exact hblank hd
    · have hend := literalBody_snd c rest
      rw [hb] at hend
      rcases hend with rfl | ⟨e, more, rfl, he⟩
      · cases hd
      · obtain rfl : d = e := by simpa using hd
        rcases he with rfl | ⟨rfl, -⟩
        · exact Or.inl hq
        · exact Or.inr (Or.inl rfl)
  | code ho hq => exact Or.inl ⟨rfl, rfl, ho⟩

/-! ### The mask as a whole -/

/-- **No comment opens in a mask.** -/
theorem clear_mask (code : Text) : language.Clear (language.mask code) := by
  induction code using tokens.induct language with
  | case1 =>
    rw [mask_nil]
    exact clear_nil
  | case2 c rest ih =>
    have hshown : List.Forall₂ ShownAs (c :: rest) (c :: language.mask rest) :=
      .cons (Or.inl rfl) (forall₂_mask rest)
    rw [mask_cons]
    rcases (finds_token language c rest).mem_masked with ⟨hf, ha, ho⟩ | hf
    · rw [ha] at ih
      rw [hf, ha, Token.masked_code, List.singleton_append]
      exact clear_cons (mt (opensComment_of_shown hshown) ho) ih
    · exact clear_append hf ih

/-- The scan finds at most one token for each character, so it comes to an end. -/
theorem length_tokens_le (language : Language) (code : Text) :
    (language.tokens code).length ≤ code.length := by
  induction code using tokens.induct language with
  | case1 => simp
  | case2 c rest ih =>
    have hlt := length_token_lt language c rest
    rw [tokens_cons, List.length_cons]
    omega

/-- **A mask shows its snippet, and no comment opens in it.**  The scan ends after at most one token
for each character.  The mask is as long as the snippet; at each position it shows the character of
the snippet, or a space for a character that is no line feed, so that the line feeds are those of
the snippet; and it holds the opener of neither a line comment nor a block comment. -/
theorem mask_visible (language : Language) (code : Text) :
    (language.tokens code).length ≤ code.length ∧
      (language.mask code).length = code.length ∧
      (∀ (i : Nat) (c : Char), code[i]? = some c →
        (language.mask code)[i]? = some c ∨ c ≠ '\n' ∧ (language.mask code)[i]? = some ' ') ∧
      (∀ i : Nat, (language.mask code)[i]? = some '\n' ↔ code[i]? = some '\n') ∧
      ∀ opener ∈ language.openers, ¬ opener <:+: language.mask code := by
  have hshown := @forall₂_mask language code
  refine ⟨length_tokens_le language code, length_mask language code, ?_, ?_, clear_mask code⟩
  · intro i c hi
    obtain ⟨d, hd, rfl | ⟨hc, rfl⟩⟩ := exists_of_shown hshown hi
    · exact Or.inl hd
    · exact Or.inr ⟨hc, hd⟩
  · intro i
    constructor
    · intro hi
      have hlt : i < code.length := by
        rw [← length_mask language code]
        exact (List.getElem?_eq_some_iff.mp hi).1
      obtain ⟨d, hd, hcd⟩ := exists_of_shown hshown (List.getElem?_eq_getElem hlt)
      obtain rfl : d = '\n' := Option.some.inj (hd.symm.trans hi)
      rcases hcd with hc | ⟨-, hc⟩
      · rw [List.getElem?_eq_getElem hlt, ← hc]
      · exact absurd hc (by decide)
    · intro hi
      obtain ⟨d, hd, rfl | ⟨hc, -⟩⟩ := exists_of_shown hshown hi
      · exact hd
      · exact absurd rfl hc

/-- A division, a block comment over two lines with the start of a line comment in it, a literal
that holds an opener and an escaped quote mark, and a line comment with an open literal. -/
theorem mask_visible_openers :
    let code := "a / b; /* // \n x */ s = \"/*\\\"\"; // 'c".toList
    code[15]? = some 'x' ∧ ['/', '/'] ∈ cpp.openers ∧
      ((cpp.mask code)[15]? = some 'x' ∨ 'x' ≠ '\n' ∧ (cpp.mask code)[15]? = some ' ') ∧
      ¬ ['/', '/'] <:+: cpp.mask code := by
  intro code
  obtain ⟨-, -, hkept, -, hclear⟩ := mask_visible cpp code
  exact ⟨by decide, by decide, hkept 15 'x' (by decide), hclear ['/', '/'] (by decide)⟩

example : cpp.mask "a / b; /* // \n x */ s = \"/*\\\"\"; // 'c".toList =
    "a / b;       \n      s = \"    \";      ".toList := by cbv

end Language

end Snippet
