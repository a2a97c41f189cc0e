import Mathlib.Data.List.TakeWhile
import Snippet.Loop
import Snippet.Proofs.PrintCalls
import Snippet.Proofs.TokenCut

/-!
# Line by line

A text whose lines end in line feeds is masked and read line by line.

* `mask_code_append`, `mask_comment_append`: a stretch of code shows itself, and a line comment
  shows blanks only, up to the end of its line.
* `Language.mask_join`: the mask of joined lines joins the masks of the lines, if each of them is
  over at its line feed (`Language.EndsLine`).
* `Indentation.ofMask_join`: what the lines of a mask say is collected line by line, and the line
  feeds do not matter for it.
-/

namespace Snippet

/-! ### Blanks around a text -/

namespace Text

variable {left text right : Text}

theorem dropWhile_pad {p : Char → Bool} (hl : ∀ c ∈ left, p c = true) (text : Text) :
    (left ++ text).dropWhile p = text.dropWhile p := List.dropWhile_append_of_pos hl

theorem dropEndWhile_pad {p : Char → Bool} (hr : ∀ c ∈ right, p c = true) (text : Text) :
    dropEndWhile p (text ++ right) = dropEndWhile p text := by
  rw [dropEndWhile, dropEndWhile, List.reverse_append, List.dropWhile_append_of_pos]
  intro c hc
  exact hr c (List.mem_reverse.mp hc)

/-- **Blanks on both sides are trimmed off.** -/
theorem trim_pad (hl : ∀ c ∈ left, isBlank c = true) (hr : ∀ c ∈ right, isBlank c = true)
    (hh : text.head?.any isBlank = false) (ht : text.getLast?.any isBlank = false)
    (hn : text ≠ []) : trim (left ++ text ++ right) = text := by
  have hhead : (text ++ right).head?.any isBlank = false := by
    rwa [List.head?_append_of_ne_nil _ hn]
  rw [trim, List.append_assoc, dropWhile_pad hl, dropWhile_eq_self hhead, dropEndWhile_pad hr,
    dropEndWhile_eq_self ht]

theorem trim_append_blank (hr : ∀ c ∈ right, isBlank c = true) (text : Text) :
    trim (text ++ right) = trim text := by
  by_cases ht : ∀ c ∈ text, isBlank c = true
  · have hall : ∀ c ∈ text ++ right, isBlank c = true := by
      intro c hc
      rcases List.mem_append.mp hc with hc | hc
      · exact ht c hc
      · exact hr c hc
    rw [(trim_eq_nil_iff _).mpr (List.all_eq_true.mpr ht),
      (trim_eq_nil_iff _).mpr (List.all_eq_true.mpr hall)]
  · have hn : text.dropWhile isBlank ≠ [] := by
      rwa [Ne, List.dropWhile_eq_nil_iff]
    rw [trim, trim, List.dropWhile_append, if_neg (by simpa using hn), dropEndWhile_pad hr]

theorem indent_append {text : Text} (h : ¬ ∀ c ∈ text, isBlank c = true) (right : Text) :
    indent (text ++ right) = indent text := by
  rw [indent, indent, List.takeWhile_append, if_neg]
  intro hl
  have hp := (List.takeWhile_prefix isBlank (l := text)).eq_of_length hl
  exact h (List.takeWhile_eq_self_iff.mp hp)

theorem indent_pad (hl : ∀ c ∈ left, isBlank c = true) (hh : text.head?.any isBlank = false) :
    indent (left ++ text) = left.length := by
  rw [indent, List.takeWhile_append_of_pos hl]
  cases text with
  | nil => simp
  | cons c text =>
    rw [List.takeWhile_cons_of_neg (by simpa using hh), List.append_nil]

/-! ### Lines -/

/-- No character of the text ends a line. -/
def Unbroken (text : Text) : Prop := ∀ c ∈ text, isLineBreak c = false

theorem ne_carriageReturn {c : Char} (h : isLineBreak c = false) : c ≠ '\r' := by
  rintro rfl
  revert h
  decide

theorem lines_append_lineFeed {line : Text} (h : line.Unbroken) (rest : Text) :
    lines (line ++ '\n' :: rest) = (line ++ ['\n']) :: lines rest := by
  induction line with
  | nil =>
    rw [List.nil_append, List.nil_append, lines, if_pos (by decide)]
    intro _ hc
    exact absurd hc (by decide)
  | cons c line ih =>
    obtain ⟨hc, hline⟩ := List.forall_mem_cons.mp h
    rw [List.cons_append, lines, if_neg (by rw [hc]; decide), ih hline]
    · rfl
    · intro _ hr
      exact absurd hr (ne_carriageReturn hc)

theorem lines_of_unbroken {line : Text} (h : line.Unbroken) (hn : line ≠ []) :
    lines line = [line] := by
  induction line with
  | nil => exact absurd rfl hn
  | cons c line ih =>
    obtain ⟨hc, hline⟩ := List.forall_mem_cons.mp h
    rw [lines, if_neg (by rw [hc]; decide)]
    · by_cases hl : line = []
      · subst hl
        rw [lines]
      · rw [ih hline hl]
    · intro _ hr
      exact absurd hr (ne_carriageReturn hc)

theorem join_cons {line : Text} {more : List Text} (h : more ≠ []) :
    join ['\n'] (line :: more) = line ++ '\n' :: join ['\n'] more := by
  rw [join, List.append_assoc, List.singleton_append]
  exact h

end Text

/-! ### Reading line by line -/

namespace Indentation

variable (state : Indentation)

theorem line_of_blank {text : Text} (h : ∀ c ∈ text, isBlank c = true) :
    state.line text = state := by
  have ht : Text.trim text = [] := (Text.trim_eq_nil_iff text).mpr (List.all_eq_true.mpr h)
  rw [line]
  simp [ht]

theorem line_append_lineFeed (text : Text) : state.line (text ++ ['\n']) = state.line text := by
  have hfeed : ∀ c ∈ ['\n'], isBlank c = true := by decide
  by_cases ht : ∀ c ∈ text, isBlank c = true
  · have hall : ∀ c ∈ text ++ ['\n'], isBlank c = true := by
      intro c hc
      rcases List.mem_append.mp hc with hc | hc
      · exact ht c hc
      · exact hfeed c hc
    rw [state.line_of_blank hall, state.line_of_blank ht]
  · rw [line, line, Text.trim_append_blank hfeed, Text.indent_append ht]

/-- **Joined lines are read one by one.** -/
theorem foldl_lines_join {lines : List Text} (h : ∀ line ∈ lines, line.Unbroken) :
    (Text.lines (Text.join ['\n'] lines)).foldl line state = lines.foldl line state := by
  induction lines generalizing state with
  | nil => rfl
  | cons text more ih =>
    obtain ⟨ht, hm⟩ := List.forall_mem_cons.mp h
    by_cases hn : more = []
    · subst hn
      rw [Text.join]
      by_cases he : text = []
      · subst he
        rw [List.foldl_cons, state.line_of_blank (by simp)]
        rfl
      · rw [Text.lines_of_unbroken ht he]
    · rw [Text.join_cons hn, Text.lines_append_lineFeed ht, List.foldl_cons, List.foldl_cons,
        state.line_append_lineFeed, ih _ hm]

end Indentation

/-! ### Masking line by line -/

namespace Language

variable {language : Language}

/-- No comment and no literal starts within `stretch`, which stands in front of `rest`. -/
def OpensNothing (language : Language) (stretch rest : Text) : Prop :=
  ∀ front c back, stretch = front ++ c :: back → c ∉ language.quotes ∧
    language.commentOpener.isPrefixOf (c :: (back ++ rest)) = false ∧
      (language.usesBraces && ['/', '*'].isPrefixOf (c :: (back ++ rest))) = false

/-- **A stretch of code stands in the mask as it is.** -/
theorem mask_code_append {stretch rest : Text} (h : language.OpensNothing stretch rest) :
    language.mask (stretch ++ rest) = stretch ++ language.mask rest := by
  induction stretch with
  | nil => rfl
  | cons c stretch ih =>
    obtain ⟨hq, ho, hb⟩ := h [] c stretch rfl
    have htail : language.OpensNothing stretch rest := by
      rintro front d back rfl
      exact h (c :: front) d back rfl
    rw [List.cons_append, mask_cons, token_of_code ho hb hq, ih htail]
    rfl

theorem opensNothing_of_forall {stretch : Text}
    (h : ∀ c ∈ stretch, c ∉ language.quotes ∧ language.commentOpener.head? ≠ some c) (rest : Text) :
    language.OpensNothing stretch rest := by
  rintro front c back rfl
  obtain ⟨hq, hc⟩ := h c (by simp)
  refine ⟨hq, ?_, ?_⟩
  all_goals
    revert hc
    cases language <;> simp +contextual [commentOpener, usesBraces, List.isPrefixOf]

theorem ne_lineFeed_of_mem_commentOpener {c : Char} (h : c ∈ language.commentOpener) :
    c ≠ '\n' := by
  rintro rfl
  revert h
  cases language <;> decide

/-- **A line comment is blanked out up to the end of its line.** -/
theorem mask_comment_append {text rest : Text} (h : '\n' ∉ text)
    (hr : rest = [] ∨ rest.head? = some '\n') :
    language.mask (language.commentOpener ++ text ++ rest) =
      (language.commentOpener ++ text).map blanked ++ language.mask rest := by
  have hkeep : ∀ c ∈ language.commentOpener ++ text, (c != '\n') = true := by
    intro c hc
    rw [bne_iff_ne]
    rcases List.mem_append.mp hc with hc | hc
    · exact ne_lineFeed_of_mem_commentOpener hc
    · rintro rfl
      exact h hc
  have hstop : rest.takeWhile (· != '\n') = [] ∧ rest.dropWhile (· != '\n') = rest := by
    rcases hr with rfl | hr
    · exact ⟨rfl, rfl⟩
    · obtain ⟨tail, rfl⟩ := List.head?_eq_some_iff.mp hr
      exact ⟨rfl, rfl⟩
  obtain ⟨c, opener, hopener⟩ : ∃ c opener, language.commentOpener = c :: opener := by
    cases language <;> exact ⟨_, _, rfl⟩
  have hprefix : language.commentOpener.isPrefixOf (c :: (opener ++ text ++ rest)) = true := by
    rw [List.isPrefixOf_iff_prefix]
    exact ⟨text ++ rest, by rw [hopener]; simp⟩
  have htext : language.commentOpener ++ text ++ rest = c :: (opener ++ text ++ rest) := by
    rw [hopener]
    simp
  have htoken : language.token c (opener ++ text ++ rest) =
      (⟨[], language.commentOpener ++ text, []⟩, rest) := by
    rw [token_of_comment hprefix, ← htext, List.takeWhile_append_of_pos hkeep,
      List.dropWhile_append_of_pos hkeep, hstop.1, hstop.2, List.append_nil]
  rw [htext, mask_cons, htoken, Token.masked, List.nil_append, List.append_nil]

/-- The tokens of a text are over at a line feed behind it. -/
def EndsLine (language : Language) (text : Text) : Prop :=
  ∀ rest, language.mask (text ++ '\n' :: rest) = language.mask text ++ '\n' :: language.mask rest

/-- **The mask of joined lines joins the masks of the lines.** -/
theorem mask_join {lines : List Text} (h : ∀ line ∈ lines, language.EndsLine line) :
    language.mask (Text.join ['\n'] lines) = Text.join ['\n'] (lines.map language.mask) := by
  induction lines with
  | nil =>
    rw [Text.join, mask, tokens_nil]
    rfl
  | cons line more ih =>
    obtain ⟨hl, hm⟩ := List.forall_mem_cons.mp h
    by_cases hn : more = []
    · subst hn
      rfl
    · rw [List.map_cons, Text.join_cons hn, Text.join_cons (by simpa using hn), hl, ih hm]

end Language

end Snippet
