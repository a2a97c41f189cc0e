import Snippet.Proofs.LoopWords
import Snippet.Proofs.MaskedLines
import Snippet.Proofs.Masking

/-!
# Loops of an indented program

A program in Python is rendered from its blocks (`Block.render`): lines of code, loops and other
headers with a block of any greater indentation behind them, and lines with nothing but a comment or
blanks wherever one likes.  The words of loops stand in front of loop headers only, and in comments.

`Block.loops_render`: **the nesting that is found by indentation is the nesting of the loops, and
every loop is counted once**.

The stack of open loops holds no other headers.  What carries the induction is that the loops which
are open at the margin of a block, `Indentation.enclosing`, are the same behind it
(`Indentation.Extends`); deeper ones may be left over, but the next line drops them.
-/

namespace Snippet

open Pattern

/-! ### Counting the clauses of a line -/

namespace Indented

variable {text rest : Text}

theorem matchesIn_forWord_eq_nil (h : text.Lacks ["for".toList]) : forWord.matchesIn text = [] := by
  rw [matchesIn_eq_matchesAfter]
  exact matchesAfter_eq_nil (opens_forWord.avoids (by decide) h (Or.inr rfl))

theorem length_matchesIn_forWord {s : String} (hs : s ∈ loopWords)
    (hc : rest.head?.any isWord = false)
    (hr : rest.Lacks (loopWords.map String.toList)) :
    (forWord.matchesIn (s.toList ++ rest)).length = if s = "for" then 1 else 0 := by
  have hrest : rest.Lacks ["for".toList] := hr.of_subset (by decide)
  fin_cases hs
  · have hfits : forWord.Fits [] "for".toList rest [] [] :=
      fits_keyword (by decide) (by decide) rfl hc
    have hmatch := matchAt?_eq_of_fits hfits fun piece' right' kept' _ hf => by
      obtain ⟨_, _, _, rfl, ⟨_, _, _, rfl, ⟨rfl, rfl, _⟩, hlit⟩, rfl, rfl, _⟩ := hf
      obtain ⟨rfl, rfl⟩ := fits_lit.mp hlit
      exact ⟨rfl, rfl⟩
    have hmore : forWord.matchesAfter ([] ++ "for".toList) rest = [] :=
      matchesAfter_eq_nil (opens_forWord.avoids (by decide) hrest (Or.inr rfl))
    rw [matchesIn_eq_matchesAfter, matchesAfter_of_match hmatch rfl (by decide), hmore]
    rfl
  · have hwhile : Text.Lacks "while".toList ["for".toList] := by
      rw [Text.Lacks, Text.words_of_forall (by decide)]
      decide
    rw [matchesIn_forWord_eq_nil (hwhile.append hrest (Or.inr hc))]
    rfl

end Indented

/-! ### One more line -/

namespace Indentation

variable (state : Indentation) {margin : Nat} {text gap : Text}

/-- The loops that are open at a margin. -/
def enclosing (margin : Nat) : List Nat := state.openLoops.dropWhile (margin ≤ ·)

/-- What is known after a line at a margin which opens the loops `opened`. -/
def after (margin : Nat) (opened : List Nat) : Indentation where
  openLoops := opened ++ state.enclosing margin
  depth := max state.depth ((state.enclosing margin).length + opened.length)
  count := state.count + opened.length

theorem length_openLoops_after (margin : Nat) (opened : List Nat) :
    (state.after margin opened).openLoops.length ≤ (state.after margin opened).depth := by
  simp only [after, List.length_append]
  omega

theorem line_pad (hh : text.head?.any isBlank = false) (ht : text.getLast?.any isBlank = false)
    (hn : text ≠ []) (hg : ∀ c ∈ gap, isBlank c = true) :
    state.line (List.replicate margin ' ' ++ text ++ gap) =
      let clauses := (forWord.matchesIn text).length
      let outer := state.enclosing margin
      match loopLine.matchAt? (.start text) with
      | none => ⟨outer, max state.depth (outer.length + clauses), state.count + clauses⟩
      | some head =>
        let inline := if Text.occurs "for".toList head.text then clauses - 1 else clauses
        ⟨margin :: outer, max state.depth (outer.length + 1 + inline),
          state.count + 1 + inline⟩ := by
  have hblank : ∀ c ∈ List.replicate margin ' ', isBlank c = true := by
    intro c hc
    rw [List.eq_of_mem_replicate hc]
    decide
  have hindent : Text.indent (List.replicate margin ' ' ++ text ++ gap) = margin := by
    rw [List.append_assoc, Text.indent_pad hblank, List.length_replicate]
    rwa [List.head?_append_of_ne_nil _ hn]
  rw [line, Text.trim_pad hblank hg hh ht hn, hindent]
  simp only [List.isEmpty_eq_false_iff.mpr hn]
  rfl

theorem line_code (hh : text.head?.any isBlank = false) (ht : text.getLast?.any isBlank = false)
    (hn : text ≠ []) (hl : text.Lacks (loopWords.map String.toList))
    (hg : ∀ c ∈ gap, isBlank c = true) :
    state.line (List.replicate margin ' ' ++ text ++ gap) = state.after margin [] := by
  have hmatch : loopLine.matchAt? (.start text) = none := matchAt?_eq_none (not_fitsAt_loopLine hl)
  rw [state.line_pad hh ht hn hg, hmatch,
    Indented.matchesIn_forWord_eq_nil (hl.of_subset (by decide))]
  rfl

theorem line_loop {s : String} (hs : s ∈ loopWords) (hc : text.head?.any isWord = false)
    (ht : text.getLast?.any isBlank = false) (hl : text.Lacks (loopWords.map String.toList))
    (hg : ∀ c ∈ gap, isBlank c = true) :
    state.line (List.replicate margin ' ' ++ (s.toList ++ text) ++ gap) =
      state.after margin [margin] := by
  obtain ⟨hn, -⟩ := isWord_of_mem_loopWords s hs
  have hhead : (s.toList ++ text).head?.any isBlank = false := by
    rw [List.head?_append_of_ne_nil _ hn]
    fin_cases hs <;> decide
  have hlast : (s.toList ++ text).getLast?.any isBlank = false := by
    by_cases he : text = []
    · rw [he, List.append_nil]
      fin_cases hs <;> decide
    · rwa [List.getLast?_append_of_ne_nil _ he]
  have hmatch : loopLine.matchAt? (.start (s.toList ++ text)) = _ := matchAt?_loopLine hs hc
  rw [state.line_pad hhead hlast (by simp [hn]) hg, hmatch]
  simp only [Indented.length_matchesIn_forWord hs hc hl]
  -- the word itself is no clause of a comprehension
  fin_cases hs <;> simp [Match.text, Text.occurs, List.isPrefixOf, after]

end Indentation

/-! ### Programs -/

namespace Indented

/-- A character that neither ends a line nor opens a comment or a literal. -/
def IsInline (c : Char) : Prop := isLineBreak c = false ∧ c ∉ Language.python.quotes ∧ c ≠ '#'

instance (c : Char) : Decidable (IsInline c) :=
  inferInstanceAs (Decidable (isLineBreak c = false ∧ c ∉ Language.python.quotes ∧ c ≠ '#'))

/-- What a line may end in: blanks, and a comment behind them. -/
structure LineTail where
  gap : Text
  comment : Option Text
  isBlank_of_mem_gap : ∀ c ∈ gap, isBlank c = true
  isInline_of_mem_gap : ∀ c ∈ gap, IsInline c
  lineFeed_notMem : ∀ inside, comment = some inside → '\n' ∉ inside

/-- Code on one line, without the words of loops, and without blanks at its end. -/
structure IsLineCode (text : Text) : Prop where
  isInline : ∀ c ∈ text, IsInline c
  lacks : text.Lacks (loopWords.map String.toList)
  getLast? : text.getLast?.any isBlank = false

/-- A line of code, possibly a header, that opens no loop. -/
structure CodeLine where
  text : Text
  tail : LineTail
  isLineCode : IsLineCode text
  ne_nil : text ≠ []
  head? : text.head?.any isBlank = false

/-- A line that opens a loop: its word, and the text behind it. -/
structure LoopLine where
  word : String
  text : Text
  tail : LineTail
  mem_loopWords : word ∈ loopWords
  isLineCode : IsLineCode text
  head? : text.head?.any isWord = false

/-- Some lines at a margin, with the blocks of their headers.  The margin of such a block is greater
than that of its header by `width + 1`. -/
inductive Block where
  | done
  | filler (line : LineTail) (rest : Block)
  | simple (line : CodeLine) (rest : Block)
  | nest (header : CodeLine) (width : Nat) (body rest : Block)
  | loop (header : LoopLine) (width : Nat) (body rest : Block)

/-- The text at the end of a line. -/
def LineTail.render (tail : LineTail) : Text := tail.gap ++ tail.comment.elim [] ('#' :: ·)

/-- A line with the code `code` at a margin. -/
def renderLine (margin : Nat) (code : Text) (tail : LineTail) : Text :=
  List.replicate margin ' ' ++ code ++ tail.render

namespace Block

/-- The lines of a block. -/
def lines (margin : Nat) : Block → List Text
  | done => []
  | filler line rest => line.render :: rest.lines margin
  | simple line rest => renderLine margin line.text line.tail :: rest.lines margin
  | nest header width body rest =>
    renderLine margin header.text header.tail ::
      (body.lines (margin + width + 1) ++ rest.lines margin)
  | loop header width body rest =>
    renderLine margin (header.word.toList ++ header.text) header.tail ::
      (body.lines (margin + width + 1) ++ rest.lines margin)

/-- The text of a program. -/
def render (margin : Nat) (program : Block) : Text := Text.join ['\n'] (program.lines margin)

/-- How deep the loops of a block are nested. -/
def depth : Block → Nat
  | done => 0
  | filler _ rest | simple _ rest => rest.depth
  | nest _ _ body rest => max body.depth rest.depth
  | loop _ _ body rest => max (body.depth + 1) rest.depth

/-- The number of loops in a block. -/
def count : Block → Nat
  | done => 0
  | filler _ rest | simple _ rest => rest.count
  | nest _ _ body rest => body.count + rest.count
  | loop _ _ body rest => body.count + 1 + rest.count

end Block

/-! ### Its mask -/

open Snippet.Language

/-- The end of a line as the mask shows it. -/
def LineTail.shown (tail : LineTail) : Text :=
  tail.gap ++ tail.comment.elim [] fun inside => ('#' :: inside).map blanked

theorem LineTail.isBlank_of_mem_shown (tail : LineTail) : ∀ c ∈ tail.shown, isBlank c = true := by
  intro c hc
  rcases List.mem_append.mp hc with hc | hc
  · exact tail.isBlank_of_mem_gap c hc
  · cases hcomment : tail.comment with
    | none =>
      rw [hcomment] at hc
      cases hc
    | some inside =>
      rw [hcomment] at hc
      obtain ⟨d, -, rfl⟩ := List.mem_map.mp hc
      rw [blanked]
      split <;> decide

theorem LineTail.unbroken_shown (tail : LineTail) : tail.shown.Unbroken := by
  intro c hc
  rcases List.mem_append.mp hc with hc | hc
  · exact (tail.isInline_of_mem_gap c hc).1
  · cases hcomment : tail.comment with
    | none =>
      rw [hcomment] at hc
      cases hc
    | some inside =>
      have hn := tail.lineFeed_notMem inside hcomment
      rw [hcomment] at hc
      obtain ⟨d, hd, rfl⟩ := List.mem_map.mp hc
      have hne : d ≠ '\n' := by
        rintro rfl
        rcases List.mem_cons.mp hd with hd | hd
        · exact absurd hd (by decide)
        · exact hn hd
      rw [blanked, if_neg hne]
      decide

/-- **Code and what stands behind it on its line**, as the mask shows it. -/
theorem mask_code_tail {code : Text} (h : ∀ c ∈ code, IsInline c) (tail : LineTail) {rest : Text}
    (hr : rest = [] ∨ rest.head? = some '\n') :
    python.mask (code ++ tail.render ++ rest) = code ++ tail.shown ++ python.mask rest := by
  have hcode : ∀ c ∈ code ++ tail.gap, c ∉ python.quotes ∧ python.commentOpener.head? ≠ some c := by
    intro c hc
    have hc := List.forall_mem_append.mpr ⟨h, tail.isInline_of_mem_gap⟩ c hc
    refine ⟨hc.2.1, ?_⟩
    rw [commentOpener, List.head?_cons, Ne, Option.some_inj]
    exact hc.2.2.symm
  rw [LineTail.render, LineTail.shown, ← List.append_assoc, ← List.append_assoc, List.append_assoc,
    mask_code_append (opensNothing_of_forall hcode _), List.append_assoc (code ++ tail.gap)]
  cases hcomment : tail.comment with
  | none => rfl
  | some inside =>
    exact congrArg (code ++ tail.gap ++ ·)
      (mask_comment_append (tail.lineFeed_notMem inside hcomment) hr)

theorem mask_code_tail_nil {code : Text} (h : ∀ c ∈ code, IsInline c) (tail : LineTail) :
    python.mask (code ++ tail.render) = code ++ tail.shown := by
  have hm := mask_code_tail h tail (Or.inl rfl)
  rwa [List.append_nil, mask_nil, List.append_nil] at hm

/-- A line of code, with whatever may stand behind it. -/
def IsLine (line : Text) : Prop :=
  ∃ code tail, line = code ++ LineTail.render tail ∧ ∀ c ∈ code, IsInline c

theorem IsLine.endsLine {line : Text} (h : IsLine line) : python.EndsLine line := by
  obtain ⟨code, tail, rfl, hcode⟩ := h
  intro rest
  have hfeed := python.mask_cons_of_isPlain (show isPlain '\n' = true by decide) rest
  rw [mask_code_tail hcode tail (Or.inr rfl), mask_code_tail_nil hcode, hfeed]

theorem IsLine.unbroken_mask {line : Text} (h : IsLine line) : (python.mask line).Unbroken := by
  obtain ⟨code, tail, rfl, hcode⟩ := h
  rw [mask_code_tail_nil hcode]
  exact List.forall_mem_append.mpr ⟨fun c hc => (hcode c hc).1, tail.unbroken_shown⟩

theorem isInline_indented {code : Text} (margin : Nat) (h : ∀ c ∈ code, IsInline c) :
    ∀ c ∈ List.replicate margin ' ' ++ code, IsInline c := by
  refine List.forall_mem_append.mpr ⟨?_, h⟩
  intro c hc
  rw [List.eq_of_mem_replicate hc]
  decide

theorem LoopLine.isInline (header : LoopLine) :
    ∀ c ∈ header.word.toList ++ header.text, IsInline c := by
  have hword : ∀ s ∈ loopWords, ∀ c ∈ s.toList, IsInline c := by decide
  exact List.forall_mem_append.mpr ⟨hword _ header.mem_loopWords, header.isLineCode.isInline⟩

theorem Block.isLine_of_mem_lines (block : Block) (margin : Nat) :
    ∀ line ∈ block.lines margin, IsLine line := by
  induction block generalizing margin with
  | done => simp [lines]
  | filler line rest ih =>
    rw [lines, List.forall_mem_cons]
    exact ⟨⟨[], line, rfl, by simp⟩, ih margin⟩
  | simple line rest ih =>
    rw [lines, List.forall_mem_cons]
    exact ⟨⟨_, line.tail, rfl, isInline_indented margin line.isLineCode.isInline⟩, ih margin⟩
  | nest header width body rest ihBody ihRest =>
    rw [lines, List.forall_mem_cons, List.forall_mem_append]
    exact ⟨⟨_, header.tail, rfl, isInline_indented margin header.isLineCode.isInline⟩, ihBody _,
      ihRest margin⟩
  | loop header width body rest ihBody ihRest =>
    rw [lines, List.forall_mem_cons, List.forall_mem_append]
    exact ⟨⟨_, header.tail, rfl, isInline_indented margin header.isInline⟩, ihBody _, ihRest margin⟩

end Indented

/-! ### Its loops -/

namespace Indentation

open Indented Snippet.Language

/-- Reading a line as the mask shows it. -/
def masked (state : Indentation) (line : Text) : Indentation := state.line (python.mask line)

theorem masked_filler (state : Indentation) (tail : LineTail) :
    state.masked tail.render = state := by
  have hm : python.mask ([] ++ tail.render) = [] ++ tail.shown := mask_code_tail_nil (by simp) tail
  rw [List.nil_append, List.nil_append] at hm
  rw [masked, hm]
  exact state.line_of_blank tail.isBlank_of_mem_shown

theorem masked_code (state : Indentation) (margin : Nat) (line : CodeLine) :
    state.masked (renderLine margin line.text line.tail) = state.after margin [] := by
  rw [masked, renderLine, mask_code_tail_nil (isInline_indented margin line.isLineCode.isInline)]
  exact state.line_code line.head? line.isLineCode.getLast? line.ne_nil line.isLineCode.lacks
    line.tail.isBlank_of_mem_shown

theorem masked_loop (state : Indentation) (margin : Nat) (header : LoopLine) :
    state.masked (renderLine margin (header.word.toList ++ header.text) header.tail) =
      state.after margin [margin] := by
  rw [masked, renderLine, mask_code_tail_nil (isInline_indented margin header.isInline)]
  exact state.line_loop header.mem_loopWords header.head? header.isLineCode.getLast?
    header.isLineCode.lacks header.tail.isBlank_of_mem_shown

/-! ### The loops around a block -/

variable {state state' middle : Indentation} {margin inner depth count : Nat}

theorem enclosing_of_le (h : margin ≤ inner) :
    (state.enclosing inner).dropWhile (margin ≤ ·) = state.enclosing margin := by
  rw [enclosing, enclosing]
  induction state.openLoops with
  | nil => rfl
  | cons outer more ih =>
    by_cases hi : inner ≤ outer
    · have hm : margin ≤ outer := h.trans hi
      simpa [List.dropWhile_cons, hi, hm] using ih
    · simp [List.dropWhile_cons, hi]

theorem dropWhile_enclosing (h : margin ≤ inner) :
    (state.enclosing margin).dropWhile (inner ≤ ·) = state.enclosing margin := by
  rw [enclosing]
  induction state.openLoops with
  | nil => rfl
  | cons outer more ih =>
    by_cases hm : margin ≤ outer
    · simpa [List.dropWhile_cons, hm] using ih
    · have hi : ¬ inner ≤ outer := by omega
      simp [hm, hi]

theorem length_enclosing_le (state : Indentation) (margin : Nat) :
    (state.enclosing margin).length ≤ state.openLoops.length :=
  (List.dropWhile_sublist _).length_le

/-- Behind some lines at a margin the same loops are open as in front of them, and the lines have
loops of a given number and nesting. -/
structure Extends (state state' : Indentation) (margin depth count : Nat) : Prop where
  enclosing_eq : state'.enclosing margin = state.enclosing margin
  length_le : state'.openLoops.length ≤ state'.depth
  depth_eq : state'.depth = max state.depth ((state.enclosing margin).length + depth)
  count_eq : state'.count = state.count + count

theorem Extends.refl (h : state.openLoops.length ≤ state.depth) (margin : Nat) :
    Extends state state margin 0 0 where
  enclosing_eq := rfl
  length_le := h
  depth_eq := by
    have := length_enclosing_le state margin
    omega
  count_eq := rfl

/-- **A line at a margin, the block behind it, and the lines behind that.** -/
theorem Extends.trans {opened : List Nat} {more count' : Nat} {last : Indentation}
    (ho : ∀ loop ∈ opened, loop = margin) (hi : margin < inner)
    (hbody : Extends (state.after margin opened) last inner depth count)
    (hrest : Extends last state' margin more count') :
    Extends state state' margin (max (depth + opened.length) more)
      (count + opened.length + count') := by
  have hinside :
      (state.after margin opened).enclosing inner = opened ++ state.enclosing margin := by
    rw [after, enclosing]
    cases opened with
    | nil => exact dropWhile_enclosing hi.le
    | cons loop opened =>
      have hloop : ¬ inner ≤ loop := by
        rw [ho loop List.mem_cons_self]
        omega
      simp [hloop]
  have hlast : last.enclosing margin = state.enclosing margin := by
    have hopened : ∀ loop ∈ opened, (decide (margin ≤ loop)) = true := by
      intro loop hl
      rw [ho loop hl]
      simp
    rw [← enclosing_of_le hi.le, hbody.enclosing_eq, hinside, List.dropWhile_append_of_pos hopened]
    exact dropWhile_enclosing le_rfl
  refine ⟨hrest.enclosing_eq.trans hlast, hrest.length_le, ?_, ?_⟩
  · rw [hrest.depth_eq, hbody.depth_eq, hlast, hinside, List.length_append, after]
    simp only
    omega
  · rw [hrest.count_eq, hbody.count_eq, after]
    simp only
    omega

/-- **The lines of a block leave the loops around it open**, whatever its headers are. -/
theorem extends_foldl (block : Block) (margin : Nat) (h : state.openLoops.length ≤ state.depth) :
    Extends state ((block.lines margin).foldl masked state) margin block.depth block.count := by
  induction block generalizing margin state with
  | done => exact .refl h margin
  | filler line rest ih =>
    rw [Block.lines, List.foldl_cons, masked_filler]
    exact ih margin h
  | simple line rest ih =>
    -- a line without a block is one with an empty block
    rw [Block.lines, List.foldl_cons, masked_code]
    have hbody := Extends.refl (state.length_openLoops_after margin []) (margin + 1)
    have hrest := ih margin hbody.length_le
    have hall := hbody.trans (by simp) (by omega) hrest
    simpa [Block.depth, Block.count] using hall
  | nest header width body rest ihBody ihRest =>
    rw [Block.lines, List.foldl_cons, List.foldl_append, masked_code]
    have hbody := ihBody (margin + width + 1) (state.length_openLoops_after margin [])
    have hrest := ihRest margin hbody.length_le
    exact hbody.trans (by simp) (by omega) hrest
  | loop header width body rest ihBody ihRest =>
    rw [Block.lines, List.foldl_cons, List.foldl_append, masked_loop]
    have hbody := ihBody (margin + width + 1) (state.length_openLoops_after margin [margin])
    have hrest := ihRest margin hbody.length_le
    exact hbody.trans (by simp) (by omega) hrest

end Indentation

/-! ### The result -/

namespace Indented.Block

open Snippet.Language

theorem ofMask_render (program : Block) (margin : Nat) :
    Indentation.ofMask (python.mask (program.render margin)) =
      (program.lines margin).foldl Indentation.masked Indentation.start := by
  have hlines := program.isLine_of_mem_lines margin
  have hmask : python.mask (program.render margin) =
      Text.join ['\n'] ((program.lines margin).map python.mask) :=
    mask_join fun line hl => (hlines line hl).endsLine
  have hunbroken : ∀ line ∈ (program.lines margin).map python.mask, line.Unbroken := by
    intro line hl
    obtain ⟨code, hc, rfl⟩ := List.mem_map.mp hl
    exact (hlines code hc).unbroken_mask
  rw [Indentation.ofMask, hmask, Indentation.foldl_lines_join _ hunbroken, List.foldl_map]
  rfl

/-- **The loops of an indented program are found as they are nested**: the depth is that of their
deepest nesting, and the number is theirs, whatever the margins of the blocks are and wherever blank
lines and comments stand. -/
theorem loops_render (program : Block) (margin : Nat) :
    python.loopDepth (program.render margin) = program.depth ∧
      python.loopCount (program.render margin) = program.count := by
  have hext := Indentation.extends_foldl program margin (le_refl Indentation.start.openLoops.length)
  rw [← program.ofMask_render margin] at hext
  constructor
  · show (Indentation.ofMask (python.mask (program.render margin))).depth = program.depth
    rw [hext.depth_eq]
    simp [Indentation.start, Indentation.enclosing]
  · show (Indentation.ofMask (python.mask (program.render margin))).count = program.count
    rw [hext.count_eq]
    simp [Indentation.start]

/-- A loop in a loop behind a test, with a comment that speaks of a loop and a blank line. -/
theorem loops_render_nestedLoops : ∃ program : Block, program.render 0 =
      "for i in a:\n  if i:\n        while b(i): c()\n # while\n\nd()".toList ∧
    python.loopDepth (program.render 0) = 2 ∧ python.loopCount (program.render 0) = 2 := by
  let plain : LineTail := ⟨[], none, by decide, by decide, by simp⟩
  let remark : LineTail := ⟨[' '], some " while".toList, by decide, by decide, by decide⟩
  let inner : LoopLine :=
    ⟨"while", " b(i): c()".toList, plain, by decide, ⟨by decide, by decide, by decide⟩, by decide⟩
  let outer : LoopLine :=
    ⟨"for", " i in a:".toList, plain, by decide, ⟨by decide, by decide, by decide⟩, by decide⟩
  let test : CodeLine :=
    ⟨"if i:".toList, plain, ⟨by decide, by decide, by decide⟩, by decide, by decide⟩
  let call : CodeLine :=
    ⟨"d()".toList, plain, ⟨by decide, by decide, by decide⟩, by decide, by decide⟩
  let program : Block := .loop outer 1 (.nest test 5 (.loop inner 0 .done .done) .done)
    (.filler remark (.filler plain (.simple call .done)))
  exact ⟨program, by decide, program.loops_render 0⟩

end Indented.Block

end Snippet
