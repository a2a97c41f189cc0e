import Mathlib.Data.List.TakeWhile
import Snippet.Proofs.Masking
import Snippet.Proofs.Marks
import Snippet.Proofs.PrintCalls

/-!
# Layouts of lexemes

A text without blocks is written down as a list of lexemes: names, numbers, the keywords of
expressions and marks. They are laid out with gaps between them (`Layout`), which may hold line
breaks, and may be left out where no word goes on from one lexeme to the next.

The whole words of such a text are the names and keywords among the lexemes (`exists_piece`), so it
is known where the check for a missing colon finds a word that opens a block
(`Layout.occursIn_blockWord`). The check for endless loops finds nothing
(`Layout.occursIn_endless`).
-/

namespace Snippet

open Pattern Place

namespace BlockFree

/-! ### Lexemes -/

/-- The words of the language that are no names. -/
def reserved : List Text :=
  ["and", "as", "assert", "async", "await", "break", "class", "continue", "def", "del", "elif",
    "else", "except", "finally", "for", "from", "global", "if", "import", "in", "is", "lambda",
    "nonlocal", "not", "or", "pass", "raise", "return", "try", "while", "with", "yield"].map
    String.toList

/-- A name. -/
structure Name where
  text : Text
  word : ∀ c ∈ text, isWord c = true
  head : text.head?.any (!isDecimal ·) = true
  free : text ∉ reserved

/-- A number: whole or with a fraction, an exponent or a base. Each run of word characters in it
opens with a digit. -/
structure Number where
  text : Text
  nonempty : text ≠ []
  chars : ∀ c ∈ text, isWord c = true ∨ c ∈ ['.', '+', '-']
  runs : ∀ word ∈ text.words, word.head?.all isDecimal = true

/-- The keywords of expressions. -/
inductive Keyword where
  | forWord
  | inWord
  | ifWord
  | elseWord
  deriving DecidableEq

def Keyword.text : Keyword → Text
  | forWord => "for".toList
  | inWord => "in".toList
  | ifWord => "if".toList
  | elseWord => "else".toList

/-- The characters that stand for themselves. -/
inductive Mark where
  | opening
  | closing
  | openingSquare
  | closingSquare
  | comma
  | equals
  deriving DecidableEq

def Mark.char : Mark → Char
  | opening => '('
  | closing => ')'
  | openingSquare => '['
  | closingSquare => ']'
  | comma => ','
  | equals => '='

/-- The characters of a program that are neither blank nor in words. -/
def signs : List Char := ['.', '+', '-', '(', ')', '[', ']', ',', '=']

/-- A word, a number or a mark of a program. -/
inductive Lexeme where
  | name (name : Name)
  | number (number : Number)
  | keyword (keyword : Keyword)
  | mark (mark : Mark)

namespace Lexeme

def text : Lexeme → Text
  | .name n => n.text
  | .number n => n.text
  | .keyword word => word.text
  | .mark m => [m.char]

def isNumber : Lexeme → Bool
  | .number _ => true
  | _ => false

def isKeyword : Lexeme → Bool
  | .keyword _ => true
  | _ => false

/-- Whether the lexeme is one of the words that a block may open with as well. -/
def isClause : Lexeme → Bool
  | .keyword .forWord | .keyword .ifWord => true
  | _ => false

variable {lexeme : Lexeme}

theorem text_ne_nil (lexeme : Lexeme) : lexeme.text ≠ [] := by
  cases lexeme with
  | name n =>
    intro h
    have hn := n.head
    rw [show n.text = [] from h] at hn
    cases hn
  | number n => exact n.nonempty
  | keyword word => cases word <;> decide
  | mark m => exact List.cons_ne_nil m.char []

theorem isWord_of_mem_keyword (word : Keyword) : ∀ c ∈ word.text, isWord c = true := by
  cases word <;> decide

theorem mem_signs (m : Mark) : m.char ∈ signs := by
  cases m <;> decide

theorem mem_text {c : Char} (h : c ∈ lexeme.text) :
    isWord c = true ∨ c ∈ signs := by
  have hfraction : ['.', '+', '-'] ⊆ signs := by decide
  cases lexeme with
  | name n => exact Or.inl (n.word c h)
  | number n => exact (n.chars c h).imp_right fun hm => hfraction hm
  | keyword word => exact Or.inl (isWord_of_mem_keyword word c h)
  | mark m =>
    obtain rfl := List.mem_singleton.mp h
    exact Or.inr (mem_signs m)

theorem eq_nil_of_forall {front back text : Text} (ht : ∀ c ∈ text, isWord c = true)
    (h : text = front ++ back) (hf : front.getLast?.any isWord = false) : front = [] := by
  rcases List.eq_nil_or_concat front with rfl | ⟨init, d, rfl⟩
  · rfl
  · rw [List.concat_eq_append] at h hf
    rw [List.getLast?_concat, Option.any_some, ht d (by rw [h]; simp)] at hf
    cases hf

/-- **A word that opens with no digit is a whole lexeme or none of it.** -/
theorem of_split {front back : Text} {c : Char} (h : lexeme.text = front ++ c :: back)
    (hc : isWord c = true) (hd : isDecimal c = false) (hf : front.getLast?.any isWord = false) :
    front = [] ∧ (∀ d ∈ lexeme.text, isWord d = true) ∧ lexeme.isNumber = false := by
  cases lexeme with
  | name n => exact ⟨eq_nil_of_forall n.word h hf, n.word, rfl⟩
  | keyword word =>
    exact ⟨eq_nil_of_forall (isWord_of_mem_keyword word) h hf, isWord_of_mem_keyword word, rfl⟩
  | number n =>
    -- the run of word characters that opens with it would open with a digit
    have hrun : (c :: back).takeWhile isWord ∈ n.text.words := by
      have hcut : n.text = front ++
          ((c :: back).takeWhile isWord ++ (c :: back).dropWhile isWord) := by
        rw [List.takeWhile_append_dropWhile]
        exact h
      rw [hcut]
      exact Text.mem_words (fun d hd => List.mem_takeWhile_imp hd) hf
        (Text.head?_dropWhile isWord (c :: back))
    have hdigit := n.runs _ hrun
    rw [List.takeWhile_cons_of_pos hc, List.head?_cons, Option.all_some, hd] at hdigit
    cases hdigit
  | mark m =>
    have hnone : ∀ d ∈ signs, isWord d = false := by decide
    have hcd : c ∈ [m.char] := by
      rw [show [m.char] = front ++ c :: back from h]
      simp
    rw [List.mem_singleton.mp hcd, hnone _ (mem_signs m)] at hc
    cases hc

end Lexeme

/-! ### Layouts -/

/-- A lexeme with the blank text behind it. -/
structure Piece where
  lexeme : Lexeme
  gap : Text
  blank : ∀ c ∈ gap, isBlank c = true

def Piece.text (piece : Piece) : Text := piece.lexeme.text ++ piece.gap

theorem blank_nil : ∀ c ∈ ([] : Text), isBlank c = true := List.forall_mem_nil _

/-- A lexeme right in front of the next one. -/
def Lexeme.tight (lexeme : Lexeme) : Piece := ⟨lexeme, [], blank_nil⟩

/-- A lexeme with a space behind it. -/
def Lexeme.spaced (lexeme : Lexeme) : Piece := ⟨lexeme, [' '], List.forall_mem_singleton.mpr rfl⟩

/-- The text of some pieces. -/
def render (pieces : List Piece) : Text := pieces.flatMap Piece.text

theorem render_cons (piece : Piece) (more : List Piece) :
    render (piece :: more) = piece.lexeme.text ++ (piece.gap ++ render more) := by
  rw [render, List.flatMap_cons, Piece.text, List.append_assoc]
  rfl

theorem render_append (pieces more : List Piece) :
    render (pieces ++ more) = render pieces ++ render more := List.flatMap_append

/-- Two pieces are set apart: there is a gap between them, or no word goes on from one to the
other. -/
def SetApart (piece next : Piece) : Prop :=
  piece.gap ≠ [] ∨ piece.lexeme.text.getLast?.any isWord = false ∨
    next.lexeme.text.head?.any isWord = false

/-- Two pieces may be neighbours. A keyword may follow a number without a gap. -/
def MayFollow (piece next : Piece) : Prop :=
  SetApart piece next ∨ piece.lexeme.isNumber = true ∧ next.lexeme.isKeyword = true

instance (piece next : Piece) : Decidable (SetApart piece next) :=
  inferInstanceAs (Decidable (_ ∨ _))

instance (piece next : Piece) : Decidable (MayFollow piece next) :=
  inferInstanceAs (Decidable (_ ∨ _))

/-- A way to write some lexemes down, with blank text in front of each of them and at the end. -/
structure Layout (lexemes : List Lexeme) where
  lead : Text
  blank : ∀ c ∈ lead, isBlank c = true
  pieces : List Piece
  lexemes_eq : pieces.map (·.lexeme) = lexemes
  apart : pieces.IsChain MayFollow

namespace Layout

variable {lexemes : List Lexeme}

/-- The text that is written down. -/
def text (layout : Layout lexemes) : Text := layout.lead ++ render layout.pieces

/-- A clause word stands in front of a gap, and not right behind a number. -/
def AsksForColon (layout : Layout lexemes) : Prop :=
  ∃ before piece after, layout.pieces = before ++ piece :: after ∧ piece.lexeme.isClause = true ∧
    piece.gap ≠ [] ∧ (layout.lead ++ render before).getLast?.any isWord = false

end Layout

theorem head?_gap {gap : Text} (hg : ∀ c ∈ gap, isBlank c = true) (hn : gap ≠ []) (rest : Text) :
    (gap ++ rest).head?.any isWord = false := by
  cases gap with
  | nil => exact absurd rfl hn
  | cons c gap => exact isWord_of_isBlank (hg c List.mem_cons_self)

theorem head?_behind {piece : Piece} {more : List Piece} (hc : (piece :: more).IsChain MayFollow)
    (hw : ∀ d ∈ piece.lexeme.text, isWord d = true) (hn : piece.lexeme.isNumber = false) :
    (piece.gap ++ render more).head?.any isWord = false := by
  by_cases hg : piece.gap = []
  · rw [hg, List.nil_append]
    cases more with
    | nil => rfl
    | cons next more =>
      rw [render_cons, List.head?_append_of_ne_nil _ next.lexeme.text_ne_nil]
      have hne := piece.lexeme.text_ne_nil
      rcases (List.isChain_cons_cons.mp hc).1 with (h | h | h) | ⟨h, -⟩
      · exact absurd hg h
      · rw [List.getLast?_eq_getLast_of_ne_nil hne, Option.any_some,
          hw _ (List.getLast_mem hne)] at h
        cases h
      · exact h
      · rw [hn] at h
        cases h
  · exact head?_gap piece.blank hg _

/-- A word character in the text of a piece, and of what follows it, is in its lexeme or
behind it. -/
theorem Piece.cut {piece : Piece} {behind middle right : Text} {c : Char} (hc : isWord c = true)
    (h : piece.text ++ behind = middle ++ c :: right) :
    (∃ more, middle = piece.text ++ more ∧ behind = more ++ c :: right) ∨
      ∃ back, piece.lexeme.text = middle ++ c :: back ∧ right = back ++ (piece.gap ++ behind) := by
  have hgap : c ∉ piece.gap := by
    intro hm
    rw [isWord_of_isBlank (piece.blank c hm)] at hc
    cases hc
  rw [Piece.text, List.append_assoc] at h
  rcases Text.append_eq_append_cons h with ⟨back, hl, hr⟩ | ⟨more, rfl, hm⟩
  · exact Or.inr ⟨back, hl, hr⟩
  · obtain ⟨more, rfl, hb⟩ := Text.eq_append_of_notMem hgap hm
    exact Or.inl ⟨more, (List.append_assoc ..).symm, hb⟩

/-- **The whole words of a text that is laid out are lexemes**, apart from those that open with a
digit. -/
theorem exists_piece {pieces : List Piece} (hc : pieces.IsChain MayFollow)
    {outer middle right word : Text} (hw : ∀ d ∈ word, isWord d = true)
    (hd : word.head?.any (!isDecimal ·) = true) (h : render pieces = middle ++ right)
    (ho : OpensWith (outer ++ middle) right word) :
    ∃ before piece after, pieces = before ++ piece :: after ∧ middle = render before ∧
      right = piece.lexeme.text ++ (piece.gap ++ render after) ∧ piece.lexeme.text = word := by
  obtain ⟨rest, rfl, hlast, hrest⟩ := ho
  obtain ⟨first, tail, rfl⟩ : ∃ first tail, word = first :: tail := by
    cases word with
    | nil => cases hd
    | cons first tail => exact ⟨first, tail, rfl⟩
  have hfirst : isWord first = true := hw first List.mem_cons_self
  have hdigit : isDecimal first = false := by simpa using hd
  induction pieces generalizing outer middle with
  | nil => simp [render] at h
  | cons piece more ih =>
    rw [render, List.flatMap_cons, ← render, List.cons_append] at h
    rcases Piece.cut hfirst h with ⟨back, rfl, hr⟩ | ⟨back, hl, hr⟩
    · rw [← List.append_assoc] at hlast
      obtain ⟨before, found, after, rfl, rfl, hright, hword⟩ := ih hc.tail hlast hr
      exact ⟨piece :: before, found, after, rfl, rfl, hright, hword⟩
    · have hmiddle : middle.getLast?.any isWord = false := by
        by_cases hm : middle = []
        · rw [hm]
          rfl
        · rwa [List.getLast?_append_of_ne_nil _ hm] at hlast
      obtain ⟨rfl, hall, hn⟩ := Lexeme.of_split hl hfirst hdigit hmiddle
      have hcut : first :: tail ++ rest = piece.lexeme.text ++ (piece.gap ++ render more) := by
        rw [hl, List.cons_append, hr, List.nil_append, List.cons_append]
      have hword := Text.append_inj_of_head hw hall hrest (head?_behind hc hall hn) hcut
      exact ⟨[], piece, more, rfl, rfl, hcut, hword.1.symm⟩

/-! ### What the check finds -/

/-- **Where a block word is found**: it stands at an edge and in front of a blank. -/
theorem fitsAt_blockWord {left text : Text} : FormRule.blockWord.FitsAt left text ↔
    left.getLast?.any isWord = false ∧ ∃ s ∈ ["def", "if", "for"], ∃ c rest,
      text = s.toList ++ c :: rest ∧ isBlank c = true := by
  have hwords : ∀ s ∈ ["def", "if", "for"], s.toList ≠ [] ∧ ∀ c ∈ s.toList, isWord c = true := by
    decide
  constructor
  · rintro ⟨_, right, _, rfl, _, _, _, rfl, ⟨_, front, _, rfl, ⟨rfl, rfl, he⟩, hf⟩,
      ⟨c, rfl, hc⟩, -⟩
    obtain ⟨_, hm, hf⟩ := fits_firstOf.mp hf
    obtain ⟨s, hs, rfl⟩ := List.mem_map.mp (show _ ∈ ["def", "if", "for"].map lit from hm)
    obtain ⟨rfl, -⟩ := fits_lit.mp hf
    refine ⟨?_, s, hs, c, right, by simp, hc⟩
    exact any_getLast?_of_isEdge (hwords s hs).2 (hwords s hs).1 he
  · rintro ⟨hl, s, hs, c, rest, rfl, hc⟩
    have hedge : (between left (s.toList ++ ([c] ++ rest))).isEdge = true := by
      refine isEdge_between_of_left hl ?_
      rw [List.head?_append_of_ne_nil _ (hwords s hs).1, List.head?_eq_some_head (hwords s hs).1]
      exact (hwords s hs).2 _ (List.head_mem (hwords s hs).1)
    refine ⟨s.toList ++ [c], rest, [], by simp, s.toList, [c], [], rfl, ?_, ⟨c, rfl, hc⟩, rfl⟩
    refine ⟨[], s.toList, [], rfl, ⟨rfl, rfl, hedge⟩, fits_firstOf.mpr ?_⟩
    exact ⟨lit s, List.mem_map_of_mem hs, fits_lit.mpr ⟨rfl, rfl⟩⟩

/-- **What is spelled like a word of the language is a keyword.** -/
theorem Lexeme.exists_keyword {lexeme : Lexeme} (h : lexeme.text ∈ reserved) :
    ∃ word : Keyword, lexeme = .keyword word := by
  have hreserved : ∀ text ∈ reserved, (∀ c ∈ text, isWord c = true) ∧
      text.head?.all isDecimal = false ∧ text.length ≠ 1 := by decide
  obtain ⟨hword, hdigit, hlength⟩ := hreserved lexeme.text h
  cases lexeme with
  | name n => exact absurd h n.free
  | number n =>
    have hsingle : n.text.words = [n.text] := Text.words_of_forall hword
    have hruns := n.runs n.text (by rw [hsingle]; exact List.mem_singleton_self _)
    rw [show n.text.head?.all isDecimal = false from hdigit] at hruns
    cases hruns
  | keyword word => exact ⟨word, rfl⟩
  | mark m => exact absurd rfl hlength

theorem Lexeme.isClause_iff {lexeme : Lexeme} :
    lexeme.isClause = true ↔ ∃ s ∈ ["def", "if", "for"], lexeme.text = s.toList := by
  constructor
  · intro h
    cases lexeme with
    | keyword word =>
      revert h
      cases word <;> decide
    | _ => cases h
  · rintro ⟨s, hs, h⟩
    have hreserved : ∀ s ∈ ["def", "if", "for"], s.toList ∈ reserved := by decide
    obtain ⟨word, rfl⟩ := exists_keyword (h ▸ hreserved s hs)
    have hwords : ∀ word : Keyword, (∃ s ∈ ["def", "if", "for"], word.text = s.toList) →
        (Lexeme.keyword word).isClause = true := by
      intro word
      cases word <;> decide
    exact hwords word ⟨s, hs, h⟩

namespace Layout

variable {lexemes : List Lexeme} {layout : Layout lexemes}

/-- A whole word of the text is a lexeme, unless it opens with a digit. -/
theorem exists_of_opensWith {left right word : Text} (hw : ∀ d ∈ word, isWord d = true)
    (hd : word.head?.any (!isDecimal ·) = true) (h : layout.text = left ++ right)
    (ho : OpensWith left right word) :
    ∃ before piece after, layout.pieces = before ++ piece :: after ∧
      left = layout.lead ++ render before ∧
      right = piece.lexeme.text ++ (piece.gap ++ render after) ∧ piece.lexeme.text = word := by
  rcases List.append_eq_append_iff.mp h with ⟨middle, rfl, hm⟩ | ⟨middle, hm, rfl⟩
  · obtain ⟨before, piece, after, hp, rfl, hright, hword⟩ := exists_piece layout.apart hw hd hm ho
    exact ⟨before, piece, after, hp, rfl, hright, hword⟩
  · cases middle with
    | nil =>
      rw [List.append_nil] at hm
      subst hm
      rw [← List.append_nil layout.lead] at ho
      obtain ⟨before, piece, after, hp, hb, hright, hword⟩ :=
        exists_piece layout.apart hw hd (List.nil_append _).symm ho
      refine ⟨before, piece, after, hp, ?_, hright, hword⟩
      rw [← hb, List.append_nil]
    | cons c middle =>
      -- no word starts in the blank text at the front
      obtain ⟨rest, hr, -, -⟩ := ho
      cases word with
      | nil => cases hd
      | cons first tail =>
        obtain rfl : c = first := (List.cons.inj hr).1
        have hblank := isWord_of_isBlank (layout.blank c (by rw [hm]; simp))
        rw [hw c List.mem_cons_self] at hblank
        cases hblank

theorem not_isBlank_behind {pieces : List Piece} {c : Char} {rest : Text}
    (h : render pieces = c :: rest) : isBlank c = false := by
  cases pieces with
  | nil => cases h
  | cons piece more =>
    have hmem : c ∈ piece.lexeme.text := by
      obtain ⟨d, tail, hd⟩ := List.exists_cons_of_ne_nil piece.lexeme.text_ne_nil
      rw [render_cons, hd, List.cons_append] at h
      rw [hd, (List.cons.inj h).1]
      exact List.mem_cons_self
    have hsigns : ∀ d ∈ signs, isBlank d = false := by decide
    rcases Lexeme.mem_text hmem with hc | hc
    · rw [← Bool.not_eq_true]
      intro hb
      rw [isWord_of_isBlank hb] at hc
      cases hc
    · exact hsigns c hc

/-- **The check finds a block word exactly if a clause word stands in front of a gap.** -/
theorem occursIn_blockWord : FormRule.blockWord.occursIn layout.text = true ↔
    layout.AsksForColon := by
  rw [occursIn_iff]
  constructor
  · rintro ⟨left, right, ht, hf⟩
    obtain ⟨hl, s, hs, c, rest, rfl, hc⟩ := fitsAt_blockWord.mp hf
    have hwords : ∀ s ∈ ["def", "if", "for"], (∀ d ∈ s.toList, isWord d = true) ∧
        s.toList.head?.any (!isDecimal ·) = true := by decide
    obtain ⟨before, piece, after, hp, rfl, hright, hlexeme⟩ :=
      exists_of_opensWith (hwords s hs).1 (hwords s hs).2 ht
        ⟨c :: rest, rfl, hl, isWord_of_isBlank hc⟩
    refine ⟨before, piece, after, hp, Lexeme.isClause_iff.mpr ⟨s, hs, hlexeme⟩, ?_, hl⟩
    intro hg
    rw [hlexeme, hg, List.nil_append] at hright
    rw [not_isBlank_behind (List.append_cancel_left hright).symm] at hc
    cases hc
  · rintro ⟨before, piece, after, hp, hclause, hg, hl⟩
    obtain ⟨s, hs, hlexeme⟩ := Lexeme.isClause_iff.mp hclause
    obtain ⟨c, gap, hc⟩ := List.exists_cons_of_ne_nil hg
    refine ⟨layout.lead ++ render before, piece.lexeme.text ++ (piece.gap ++ render after), ?_,
      fitsAt_blockWord.mpr ⟨hl, s, hs, c, gap ++ render after, ?_, ?_⟩⟩
    · rw [text, hp, render_append, render_cons, List.append_assoc]
    · rw [hlexeme, hc, List.cons_append]
    · exact piece.blank c (by rw [hc]; exact List.mem_cons_self)

theorem mem_text {c : Char} (h : c ∈ layout.text) :
    isWord c = true ∨ isBlank c = true ∨ c ∈ signs := by
  rcases List.mem_append.mp h with h | h
  · exact Or.inr (Or.inl (layout.blank c h))
  · obtain ⟨piece, -, hp⟩ := List.mem_flatMap.mp h
    rcases List.mem_append.mp hp with hp | hp
    · exact (Lexeme.mem_text hp).imp_right Or.inr
    · exact Or.inr (Or.inl (piece.blank c hp))

theorem forall_mem_text {p : Char → Prop} (hw : ∀ c, isWord c = true → p c)
    (hb : ∀ c, isBlank c = true → p c) (hs : ∀ c ∈ signs, p c) :
    ∀ c ∈ layout.text, p c := by
  intro c hc
  rcases mem_text hc with h | h | h
  · exact hw c h
  · exact hb c h
  · exact hs c h

theorem count_text {c : Char} (hc : isBlank c = false) :
    layout.text.count c = (lexemes.flatMap Lexeme.text).count c := by
  have hblank : ∀ gap : Text, (∀ d ∈ gap, isBlank d = true) → gap.count c = 0 := by
    intro gap hg
    rw [List.count_eq_zero]
    intro hm
    rw [hg c hm] at hc
    cases hc
  have hpieces : ∀ pieces : List Piece, (render pieces).count c =
      ((pieces.map (·.lexeme)).flatMap Lexeme.text).count c := by
    intro pieces
    induction pieces with
    | nil => rfl
    | cons piece more ih =>
      rw [render_cons, List.count_append, List.count_append, hblank _ piece.blank, ih,
        List.map_cons, List.flatMap_cons, List.count_append, Nat.zero_add]
  rw [text, List.count_append, hblank _ layout.blank, hpieces, layout.lexemes_eq, Nat.zero_add]

theorem mem_of_fitsAt_next {pattern : Pattern} {c : Char} {left text : Text}
    (h : (pattern ++ next c).FitsAt left text) : c ∈ text := by
  obtain ⟨_, right, _, rfl, _, _, _, rfl, -, hn⟩ := h
  obtain ⟨gap, -, rfl, -⟩ := fits_next.mp hn
  simp

/-- **No endless loop is found**: there is no `while`, and no semicolon either. -/
theorem occursIn_endless (layout : Layout lexemes) :
    FormRule.endless.occursIn layout.text = false := by
  have hwhile : ∀ left right, layout.text = left ++ right →
      ¬ ∃ word ∈ ["while".toList], OpensWith left right word := by
    rintro left right ht ⟨word, hm, ho⟩
    obtain rfl := List.mem_singleton.mp hm
    obtain ⟨-, piece, -, -, -, -, hp⟩ := exists_of_opensWith (by decide) (by decide) ht ho
    have hreserved : "while".toList ∈ reserved := by decide
    obtain ⟨word, hk⟩ := Lexeme.exists_keyword (hp ▸ hreserved)
    have hwords : ∀ word : Keyword, word.text ≠ "while".toList := by
      intro word
      cases word <;> decide
    rw [hk] at hp
    exact hwords word hp
  have hsemicolon : ∀ c ∈ layout.text, c ≠ ';' :=
    forall_mem_text (fun c hc => ne_of_isWord hc (by decide))
      (fun c hc => ne_of_isBlank hc (by decide)) (by decide)
  have hbare : (edge ++ lit "while" ++ someBlanks).Opens ["while".toList] :=
    opens_lit (by decide) (by decide) endsWord_someBlanks
  have hround : (edge ++ lit "while" ++ next '(').Opens ["while".toList] :=
    opens_lit (by decide) (by decide) (endsWord_next (by decide))
  refine occursIn_eq_false fun left right ht hf => ?_
  rcases fitsAt_either.mp hf with hf | hf
  · exact hwhile left right ht (((hbare.append _).append _) left right hf)
  · rcases fitsAt_either.mp hf with hf | hf
    · exact hwhile left right ht ((((hround.append _).append _).append _) left right hf)
    · have hm : ';' ∈ layout.text := by
        rw [ht]
        exact List.mem_append_right _ (mem_of_fitsAt_next hf.of_append)
      exact hsemicolon ';' hm rfl

end Layout

end BlockFree

end Snippet
