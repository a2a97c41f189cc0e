import Snippet.Proofs.Boundaries
import Snippet.Proofs.LoopsInSequence
import Snippet.Proofs.MaskedAgain

/-!
# Gaps between quote marks

The mask of a literal is a gap between quote marks.  Two texts are the same but for gaps if they
agree in all but the widths of such gaps (`SameButGaps`).  Nothing that is read off a mask by lines
can tell them apart:

* `SkipsGaps.occursIn_eq`: a pattern that never reads the quote mark occurs in both or in none.
* `SameButGaps.forall₂_lines`: the lines are the same but for gaps, one by one.
* `Indentation.line_eq_of_same`, `Indentation.ofMask_eq_of_same`: **they have the same loops.**
* `flatten_blockLines`: blocks are cut out of them alike.

A gap holds spaces only.  That it holds no line feed is what all this rests on.
-/

namespace Snippet

open Pattern

/-! ### Texts that differ in gaps -/

/-- A gap of width `n` between quote marks, and a text behind it. -/
def gapped (quote : Char) (n : Nat) (rest : Text) : Text :=
  quote :: (List.replicate n ' ' ++ quote :: rest)

/-- Two texts that agree in all but the widths of gaps between quote marks. -/
inductive SameButGaps (quote : Char) : Text → Text → Prop
  | same (text : Text) : SameButGaps quote text text
  | gap (front : Text) (n m : Nat) {text text' : Text} (h : SameButGaps quote text text') :
    SameButGaps quote (front ++ gapped quote n text) (front ++ gapped quote m text')

variable {quote : Char} {front text text' rest rest' : Text} {n m : Nat}

theorem gapped_append (n : Nat) (text rest : Text) :
    gapped quote n text ++ rest = gapped quote n (text ++ rest) := by
  simp [gapped]

namespace SameButGaps

theorem append_left (front : Text) (h : SameButGaps quote text text') :
    SameButGaps quote (front ++ text) (front ++ text') := by
  cases h with
  | same => exact same _
  | gap before n m h =>
    rw [← List.append_assoc, ← List.append_assoc]
    exact gap (front ++ before) n m h

theorem append (h : SameButGaps quote text text') (h' : SameButGaps quote rest rest') :
    SameButGaps quote (text ++ rest) (text' ++ rest') := by
  induction h with
  | same text => exact h'.append_left text
  | gap front n m h ih =>
    rw [List.append_assoc, List.append_assoc, gapped_append, gapped_append]
    exact gap front n m ih

theorem isEmpty_eq (h : SameButGaps quote text text') : text.isEmpty = text'.isEmpty := by
  cases h with
  | same => rfl
  | gap front n m => cases front <;> rfl

theorem mem_iff (h : SameButGaps quote text text') {c : Char} (hc : c ≠ ' ') :
    c ∈ text ↔ c ∈ text' := by
  induction h with
  | same text => exact Iff.rfl
  | gap front n m h ih => simp [gapped, List.mem_replicate, hc, ih]

end SameButGaps

/-! ### Patterns -/

/-- What a pattern must not see in order not to tell gaps apart. -/
structure SkipsGaps (quote : Char) (pattern : Pattern) : Prop where
  width_pos : 0 < pattern.width
  reads : pattern.reads quote = false
  ignoresBefore : pattern.ignoresBefore (some quote) = true
  ignoresBehind : pattern.ignoresBehind (some quote) = true
  mayEnd : pattern.mayEnd ' ' = false

namespace SkipsGaps

variable {pattern : Pattern}

theorem matchesIn_replicate (h : SkipsGaps quote pattern) (n : Nat) :
    pattern.matchesIn (List.replicate n ' ') = [] := by
  rw [matchesIn_eq_matchesAfter]
  refine matchesAfter_eq_nil (avoids_of_mayEnd h.width_pos fun c hc => ?_)
  rw [List.eq_of_mem_replicate hc]
  exact h.mayEnd

/-- **No match lies in a gap**, or goes across one of its ends. -/
theorem length_matchesIn_gapped (h : SkipsGaps quote pattern) (front : Text) (n : Nat)
    (rest : Text) :
    (pattern.matchesIn (front ++ gapped quote n rest)).length =
      (pattern.matchesIn front).length + (pattern.matchesIn rest).length := by
  rw [gapped, length_matchesIn_append_cons h.width_pos h.reads h.ignoresBefore h.ignoresBehind,
    length_matchesIn_append_cons h.width_pos h.reads h.ignoresBefore h.ignoresBehind,
    h.matchesIn_replicate, List.length_nil, Nat.zero_add]

theorem length_matchesIn_eq (h : SkipsGaps quote pattern) (hs : SameButGaps quote text text') :
    (pattern.matchesIn text).length = (pattern.matchesIn text').length := by
  induction hs with
  | same text => rfl
  | gap front n m hs ih => rw [h.length_matchesIn_gapped, h.length_matchesIn_gapped, ih]

/-- **A pattern that skips gaps occurs in both texts or in none.** -/
theorem occursIn_eq (h : SkipsGaps quote pattern) (hs : SameButGaps quote text text') :
    pattern.occursIn text = pattern.occursIn text' := by
  rw [Bool.eq_iff_iff, occursIn_iff_matchesIn h.width_pos, occursIn_iff_matchesIn h.width_pos,
    ← List.length_pos_iff, ← List.length_pos_iff, h.length_matchesIn_eq hs]

end SkipsGaps

theorem not_blank_of_mem_quotes : ∀ c ∈ Language.python.quotes,
    isBlank c = false ∧ isLineBreak c = false ∧ isWord c = false ∧ c ≠ ':' := by
  decide

theorem skipsGaps_forWord : ∀ c ∈ Language.python.quotes, SkipsGaps c forWord := by
  have h : ∀ c ∈ Language.python.quotes, 0 < forWord.width ∧ forWord.reads c = false ∧
      forWord.ignoresBefore (some c) = true ∧ forWord.ignoresBehind (some c) = true ∧
        forWord.mayEnd ' ' = false := by
    decide
  intro c hc
  obtain ⟨hw, hr, hb, ha, he⟩ := h c hc
  exact ⟨hw, hr, hb, ha, he⟩

variable (hq : quote ∈ Language.python.quotes)

/-! ### One line -/

namespace Text

theorem takeWhile_append_of_neg {p : Char → Bool} {c : Char} (hc : p c = false)
    (front rest : Text) :
    (front ++ c :: rest).takeWhile p = front.takeWhile p := by
  induction front with
  | nil => rw [List.nil_append, List.takeWhile_cons_of_neg (by simp [hc]), List.takeWhile_nil]
  | cons d front ih => rw [List.cons_append, List.takeWhile_cons, List.takeWhile_cons, ih]

theorem dropWhile_append_of_neg {p : Char → Bool} {c : Char} (hc : p c = false)
    (front rest : Text) :
    (front ++ c :: rest).dropWhile p = front.dropWhile p ++ c :: rest := by
  induction front with
  | nil => rw [List.nil_append, List.dropWhile_cons_of_neg (by simp [hc]), List.dropWhile_nil,
      List.nil_append]
  | cons d front ih =>
    rw [List.cons_append, List.dropWhile_cons, List.dropWhile_cons, ih]
    split <;> rfl

theorem dropEndWhile_append_of_neg {p : Char → Bool} {c : Char} (hc : p c = false)
    (front rest : Text) :
    dropEndWhile p (front ++ c :: rest) = front ++ c :: dropEndWhile p rest := by
  rw [dropEndWhile, dropEndWhile, List.reverse_append, List.reverse_cons, List.append_assoc,
    List.singleton_append, dropWhile_append_of_neg hc]
  simp

theorem mem_of_mem_trim {c : Char} {text : Text} (h : c ∈ trim text) : c ∈ text := by
  have hinner := (List.dropWhile_sublist _).subset (List.mem_reverse.mp h)
  exact (List.dropWhile_sublist _).subset (List.mem_reverse.mp hinner)

/-- **Only what stands in front of the first visible character, and behind the last, is
trimmed.** -/
theorem trim_append_cons {c : Char} (hc : isBlank c = false) (front rest : Text) :
    trim (front ++ c :: rest) = front.dropWhile isBlank ++ c :: dropEndWhile isBlank rest := by
  rw [trim, dropWhile_append_of_neg hc, dropEndWhile_append_of_neg hc]

end Text

namespace SameButGaps

include hq

theorem dropEndWhile (h : SameButGaps quote text text') :
    SameButGaps quote (Text.dropEndWhile isBlank text) (Text.dropEndWhile isBlank text') := by
  have hb := (not_blank_of_mem_quotes quote hq).1
  induction h with
  | same text => exact same _
  | gap front n m h ih =>
    have hgap : ∀ (n : Nat) (text : Text),
        Text.dropEndWhile isBlank (front ++ gapped quote n text) =
        front ++ gapped quote n (Text.dropEndWhile isBlank text) := by
      intro n text
      rw [gapped, Text.dropEndWhile_append_of_neg hb, Text.dropEndWhile_append_of_neg hb, gapped]
    rw [hgap, hgap]
    exact gap front n m ih

theorem trim (h : SameButGaps quote text text') :
    SameButGaps quote (Text.trim text) (Text.trim text') := by
  have hb := (not_blank_of_mem_quotes quote hq).1
  cases h with
  | same text => exact same _
  | gap front n m h =>
    have hgap : ∀ (n : Nat) (text : Text), Text.trim (front ++ gapped quote n text) =
        front.dropWhile isBlank ++ gapped quote n (Text.dropEndWhile isBlank text) := by
      intro n text
      rw [gapped, Text.trim_append_cons hb, Text.dropEndWhile_append_of_neg hb, gapped]
    rw [hgap, hgap]
    exact gap _ n m (h.dropEndWhile hq)

theorem indent_eq (h : SameButGaps quote text text') : Text.indent text = Text.indent text' := by
  have hb := (not_blank_of_mem_quotes quote hq).1
  cases h with
  | same text => rfl
  | gap front n m h =>
    rw [Text.indent, Text.indent, gapped, gapped, Text.takeWhile_append_of_neg hb,
      Text.takeWhile_append_of_neg hb]

theorem isBlankText_eq (h : SameButGaps quote text text') :
    Text.isBlankText text = Text.isBlankText text' := by
  have hb := (not_blank_of_mem_quotes quote hq).1
  cases h with
  | same text => rfl
  | gap front n m h => simp [Text.isBlankText, gapped, hb]

end SameButGaps

namespace Indentation

/-- The text of the loop header that a line opens with. -/
def headText? (text : Text) : Option Text := (loopLine.matchAt? (.start text)).map Match.text

/-- A line is read by its indentation, its clauses, and the header that it opens with. -/
theorem line_eq_headText? (state : Indentation) (text : Text) :
    state.line text =
      if (Text.trim text).isEmpty then state
      else
        let enclosing := state.enclosing (Text.indent text)
        let clauses := (forWord.matchesIn (Text.trim text)).length
        match headText? (Text.trim text) with
        | none => ⟨enclosing, max state.depth (enclosing.length + clauses), state.count + clauses⟩
        | some head =>
          let inline := if Text.occurs "for".toList head then clauses - 1 else clauses
          ⟨Text.indent text :: enclosing, max state.depth (enclosing.length + 1 + inline),
            state.count + 1 + inline⟩ := by
  rw [line, headText?]
  cases loopLine.matchAt? (.start (Text.trim text)) <;> rfl

/-- **A header ends in front of a quote mark**, so that it is read off what stands there. -/
theorem headText?_append_cons (hq : quote ∈ Language.python.quotes) (front rest : Text) :
    headText? (front ++ quote :: rest) = headText? front := by
  have h : ∀ c ∈ Language.python.quotes, 0 < loopLine.width ∧ loopLine.reads c = false ∧
      loopLine.ignoresBehind (some c) = true := by
    decide
  obtain ⟨hw, hr, hb⟩ := h quote hq
  cases front with
  | nil =>
    have hnil : ¬ loopLine.FitsAt [] [] := by
      rintro ⟨piece, right, kept, he, hf⟩
      exact ne_nil_of_fits hw hf (List.append_eq_nil_iff.mp he.symm).1
    have hnone : loopLine.matchAt? (.start (quote :: rest)) = none :=
      @matchAt?_eq_none loopLine [] (quote :: rest) (not_fitsAt_of_reads hw hr)
    have hnone' : loopLine.matchAt? (.start []) = none := @matchAt?_eq_none loopLine [] [] hnil
    rw [headText?, headText?, List.nil_append, hnone, hnone']
  | cons d front =>
    have hwide : loopLine.matchAt? (.start (d :: front ++ quote :: rest)) =
        (loopLine.matchAt? (.start (d :: front))).map (Match.widen [] (quote :: rest)) :=
      @matchAt?_widen loopLine [] [] (d :: front) (quote :: rest) (fun _ => ignoresBefore_none) hb
        (by simp) (stays_of_reads hr)
    rw [headText?, headText?, hwide, Option.map_map]
    refine Option.map_congr fun found hf => ?_
    exact @matchText_widen loopLine [] (d :: front) found hf [] (quote :: rest)

theorem headText?_eq_of_same (hq : quote ∈ Language.python.quotes)
    (h : SameButGaps quote text text') : headText? text = headText? text' := by
  cases h with
  | same => rfl
  | gap front n m => rw [gapped, gapped, headText?_append_cons hq, headText?_append_cons hq]

/-- **A gap does not change what a line says.** -/
theorem line_eq_of_same (hq : quote ∈ Language.python.quotes) (h : SameButGaps quote text text')
    (state : Indentation) : state.line text = state.line text' := by
  rw [line_eq_headText?, line_eq_headText?, (h.trim hq).isEmpty_eq, h.indent_eq hq,
    headText?_eq_of_same hq (h.trim hq),
    (skipsGaps_forWord quote hq).length_matchesIn_eq (h.trim hq)]

end Indentation

/-! ### Many lines -/

namespace Text

theorem lines_cons {c : Char} (hc : isLineBreak c = false) (rest : Text) :
    lines (c :: rest) = (c :: (lines rest).headD []) :: (lines rest).tail := by
  rw [lines, if_neg (by simp [hc])]
  · cases lines rest <;> rfl
  · intro _ hr
    exact absurd hr (ne_carriageReturn hc)

theorem lines_append_of_unbroken {line : Text} (h : line.Unbroken) (hn : line ≠ []) (rest : Text) :
    lines (line ++ rest) = (line ++ (lines rest).headD []) :: (lines rest).tail := by
  induction line with
  | nil => exact absurd rfl hn
  | cons c line ih =>
    obtain ⟨hc, hl⟩ := List.forall_mem_cons.mp h
    rw [List.cons_append, lines_cons hc]
    by_cases hn : line = []
    · rw [hn]
      rfl
    · rw [ih hl hn]
      rfl

/-- **The lines in front of a place, and the line that is read there**, whatever stands behind it
but a line feed. -/
theorem exists_lines_append (front : Text) :
    ∃ before line, front = before.flatten ++ line ∧ Unbroken line ∧
      ∀ rest : Text, rest.head? ≠ some '\n' →
        lines (front ++ rest) = before ++ lines (line ++ rest) := by
  -- a character that ends no line goes in front of the first line, or of the line that is read
  have inner : ∀ (c : Char) (front : Text), isLineBreak c = false →
      (∃ before line, front = before.flatten ++ line ∧ Unbroken line ∧
        ∀ rest : Text, rest.head? ≠ some '\n' →
          lines (front ++ rest) = before ++ lines (line ++ rest)) →
      ∃ before line, c :: front = before.flatten ++ line ∧ Unbroken line ∧
        ∀ rest : Text, rest.head? ≠ some '\n' →
          lines (c :: front ++ rest) = before ++ lines (line ++ rest) := by
    rintro c front hc ⟨before, line, rfl, hl, h⟩
    cases before with
    | nil => exact ⟨[], c :: line, rfl, List.forall_mem_cons.mpr ⟨hc, hl⟩, fun _ _ => rfl⟩
    | cons first before =>
      refine ⟨(c :: first) :: before, line, rfl, hl, fun rest hr => ?_⟩
      rw [List.cons_append, lines_cons hc, h rest hr]
      rfl
  fun_induction lines front with
  | case1 => exact ⟨[], [], rfl, by simp [Unbroken], fun _ _ => rfl⟩
  | case2 front ih =>
    obtain ⟨before, line, rfl, hl, h⟩ := ih
    refine ⟨['\r', '\n'] :: before, line, rfl, hl, fun rest hr => ?_⟩
    rw [List.cons_append, List.cons_append, lines, h rest hr]
    rfl
  | case3 c front hpair hc ih =>
    obtain ⟨before, line, rfl, hl, h⟩ := ih
    refine ⟨[c] :: before, line, rfl, hl, fun rest hr => ?_⟩
    rw [List.cons_append, lines, if_pos hc, h rest hr]
    · rfl
    · rintro more rfl he
      cases hf : before.flatten ++ line with
      | nil =>
        rw [hf, List.nil_append] at he
        rw [he] at hr
        exact hr rfl
      | cons d front =>
        rw [hf] at he
        exact hpair front rfl (by rw [hf, (List.cons.inj he).1])
  | case4 c front hpair hc hnil ih => exact inner c front (by simpa using hc) ih
  | case5 c front hpair hc line more hlines ih => exact inner c front (by simpa using hc) ih

end Text

include hq in
/-- **The line of a gap**, the lines in front of it and those behind it. -/
theorem exists_lines_gapped (front : Text) :
    ∃ before line, front = before.flatten ++ line ∧ ∀ (n : Nat) (rest : Text),
      Text.lines (front ++ gapped quote n rest) =
        before ++ (line ++ gapped quote n ((Text.lines rest).headD [])) ::
          (Text.lines rest).tail := by
  obtain ⟨-, hbreak, -⟩ := not_blank_of_mem_quotes quote hq
  obtain ⟨before, line, rfl, hline, hlines⟩ := Text.exists_lines_append front
  refine ⟨before, line, rfl, fun n rest => ?_⟩
  have hhead : (gapped quote n rest).head? ≠ some '\n' := by
    intro he
    rw [gapped, List.head?_cons, Option.some_inj] at he
    rw [he] at hbreak
    exact absurd hbreak (by decide)
  have hun : Text.Unbroken (line ++ quote :: (List.replicate n ' ' ++ [quote])) := by
    intro c hc
    simp only [List.mem_append, List.mem_cons, List.mem_replicate, List.not_mem_nil, or_false] at hc
    rcases hc with hc | rfl | ⟨-, rfl⟩ | rfl
    · exact hline c hc
    · exact hbreak
    · decide
    · exact hbreak
  have hgap : Text.lines (line ++ gapped quote n rest) =
      (line ++ gapped quote n ((Text.lines rest).headD [])) :: (Text.lines rest).tail := by
    have hl := Text.lines_append_of_unbroken hun (by simp) rest
    simpa [gapped] using hl
  rw [hlines _ hhead, hgap]

namespace SameButGaps

theorem headD {lines lines' : List Text} (h : List.Forall₂ (SameButGaps quote) lines lines') :
    SameButGaps quote (lines.headD []) (lines'.headD []) := by
  cases h with
  | nil => exact same []
  | cons hfirst => exact hfirst

theorem tail {lines lines' : List Text} (h : List.Forall₂ (SameButGaps quote) lines lines') :
    List.Forall₂ (SameButGaps quote) lines.tail lines'.tail := by
  cases h with
  | nil => exact .nil
  | cons _ hmore => exact hmore

include hq

/-- **The lines are the same but for gaps, one by one.** -/
theorem forall₂_lines (h : SameButGaps quote text text') :
    List.Forall₂ (SameButGaps quote) (Text.lines text) (Text.lines text') := by
  have hsame : ∀ lines : List Text, List.Forall₂ (SameButGaps quote) lines lines :=
    fun lines => List.forall₂_same.mpr fun line _ => same line
  induction h with
  | same text => exact hsame _
  | gap front n m h ih =>
    obtain ⟨before, line, rfl, hlines⟩ := exists_lines_gapped hq front
    rw [hlines, hlines]
    exact List.rel_append (hsame before) (.cons (gap line n m (headD ih)) (tail ih))

omit hq in
theorem flatten {lines lines' : List Text} (h : List.Forall₂ (SameButGaps quote) lines lines') :
    SameButGaps quote lines.flatten lines'.flatten := by
  induction h with
  | nil => exact same []
  | cons hfirst _ ih => exact hfirst.append ih

/-- **Blocks are cut out alike.** -/
theorem flatten_blockLines {lines lines' : List Text}
    (h : List.Forall₂ (SameButGaps quote) lines lines') (indent : Nat) :
    SameButGaps quote (blockLines indent lines).flatten (blockLines indent lines').flatten := by
  refine flatten ?_
  induction h with
  | nil => exact .nil
  | @cons line line' lines lines' hfirst _ ih =>
    simp only [blockLines, List.filter_cons, hfirst.isBlankText_eq hq]
    split
    · rw [List.takeWhile_cons, List.takeWhile_cons, hfirst.indent_eq hq]
      split
      · exact .cons hfirst ih
      · exact .nil
    · exact ih

end SameButGaps

/-- **Texts that are the same but for gaps have the same loops.** -/
theorem Indentation.ofMask_eq_of_same (hq : quote ∈ Language.python.quotes)
    (h : SameButGaps quote text text') : Indentation.ofMask text = Indentation.ofMask text' := by
  have hfold : ∀ {lines lines' : List Text}, List.Forall₂ (SameButGaps quote) lines lines' →
      ∀ state : Indentation, lines.foldl line state = lines'.foldl line state := by
    intro lines lines' hl
    induction hl with
    | nil => exact fun _ => rfl
    | cons hfirst _ ih =>
      intro state
      rw [List.foldl_cons, List.foldl_cons, line_eq_of_same hq hfirst, ih]
  exact hfold (h.forall₂_lines hq) start

/-! ### Behind a colon -/

theorem afterColon_of_notMem (h : ':' ∉ text) : afterColon text = text := by
  have hb := @Text.breakOn_append_of_notMem ':' [] text h []
  rw [List.append_nil] at hb
  rw [afterColon, hb]
  rfl

theorem afterColon_append (h : ':' ∉ front) (rest : Text) :
    afterColon (front ++ ':' :: rest) = rest := by
  rw [afterColon, Text.breakOn_append_of_notMem h]
  simp [Text.breakOn, List.isPrefixOf]

theorem SameButGaps.afterColon (hq : quote ∈ Language.python.quotes)
    (h : SameButGaps quote text text') :
    SameButGaps quote (afterColon text) (afterColon text') := by
  obtain ⟨-, -, -, hcolon⟩ := not_blank_of_mem_quotes quote hq
  induction h with
  | same text => exact same _
  | @gap front n m text text' h ih =>
    by_cases hf : ':' ∈ front
    · obtain ⟨before, after, rfl, hb⟩ := List.eq_append_cons_of_mem hf
      rw [List.append_assoc, List.append_assoc, List.cons_append, List.cons_append,
        afterColon_append hb, afterColon_append hb]
      exact gap after n m h
    by_cases ht : ':' ∈ text
    · have hpass : ∀ (n : Nat) (text : Text), ':' ∈ text →
          Snippet.afterColon (front ++ gapped quote n text) = Snippet.afterColon text := by
        intro n text ht
        obtain ⟨before, after, rfl, hb⟩ := List.eq_append_cons_of_mem ht
        rw [← gapped_append, ← List.append_assoc, afterColon_append hb, afterColon_append]
        simp [gapped, List.mem_replicate, hf, hb, hcolon.symm]
      rw [hpass n text ht, hpass m text' ((h.mem_iff (by decide)).mp ht)]
      exact ih
    · have hnone : ∀ (n : Nat) (text : Text), ':' ∉ text →
          Snippet.afterColon (front ++ gapped quote n text) = front ++ gapped quote n text := by
        intro n text ht
        rw [afterColon_of_notMem]
        simp [gapped, List.mem_replicate, hf, ht, hcolon.symm]
      rw [hnone n text ht, hnone m text' (mt (h.mem_iff (by decide)).mpr ht)]
      exact gap front n m h

end Snippet
