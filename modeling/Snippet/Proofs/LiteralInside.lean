import Snippet.Proofs.GapsInBodies
import Snippet.Proofs.TripleLiteral

/-!
# What the inside of a literal changes

The inside of a literal between three marks is blanked out in the mask, but its line feeds stay, so
that the closing marks may come to stand on a line of their own.  That line is code, and the blanks
in front of the marks are its indentation, though they belong to the inside of the literal.

`Language.structure_triple_iff`: the number of loops never depends on the inside of a literal.
**The nesting of loops and the functions that call themselves do not depend on it exactly if the
inside holds no line feed.**

* Without a line feed the inside is a gap (`Gaps`).
* Loops are counted line by line, and at a quote mark the count of a line falls into two
  (`Indentation.lineCount_append_cons`), hence the count of a text (`count_ofMask_append_cons`).
* With a line feed, a loop whose header holds the literal is closed by the line of the closing marks
  if that is not indented further (`Language.loopDepth_loopOver_lineFeed`).
-/

namespace Snippet

open Pattern Place

variable {quote : Char} {front text rest : Text}

/-! ### Counting loops -/

namespace Indentation

/-- The number of loops that a line opens, its clauses included. -/
def lineCount (text : Text) : Nat := (start.line text).count

theorem count_line (state : Indentation) (text : Text) :
    (state.line text).count = state.count + lineCount text := by
  rw [lineCount, line_eq_headText?, line_eq_headText?]
  by_cases ht : (Text.trim text).isEmpty = true
  · rw [if_pos ht, if_pos ht]
    rfl
  · rw [if_neg ht, if_neg ht]
    cases headText? (Text.trim text) with
    | none => simp [start]
    | some head =>
      simp only [start]
      omega

/-- **The loops of a mask are counted line by line.** -/
theorem count_ofMask (mask : Text) :
    (ofMask mask).count = ((Text.lines mask).map lineCount).sum := by
  have hfold : ∀ (lines : List Text) (state : Indentation),
      (lines.foldl line state).count = state.count + (lines.map lineCount).sum := by
    intro lines
    induction lines with
    | nil => exact fun _ => rfl
    | cons text lines ih =>
      intro state
      rw [List.foldl_cons, ih, count_line, List.map_cons, List.sum_cons, Nat.add_assoc]
  rw [ofMask, hfold]
  exact Nat.zero_add _

theorem mem_of_occurs {c : Char} {word text : Text} (h : Text.occurs (c :: word) text = true) :
    c ∈ text := by
  induction text with
  | nil => cases h
  | cons d text ih =>
    rw [Text.occurs, Bool.or_eq_true] at h
    rcases h with h | h
    · rw [List.isPrefixOf, Bool.and_eq_true, beq_iff_eq] at h
      rw [h.1]
      exact List.mem_cons_self
    · exact List.mem_cons_of_mem d (ih h)

theorem length_matchesIn_pos {head : Text} (h : headText? text = some head)
    (ho : Text.occurs "for".toList head = true) : 0 < (forWord.matchesIn text).length := by
  obtain ⟨found, hm, rfl⟩ := Option.map_eq_some_iff.mp h
  obtain ⟨piece, right, rfl, hstart, hstop, hf⟩ := @fits_of_matchAt? loopLine [] text found hm
  have hpiece : found.text = piece := by
    rw [Match.text, hstart, hstop]
    simp
  obtain ⟨before, s, hs, rfl, -, hend, hbefore⟩ := exists_of_fits_loopLine hf
  rw [hpiece] at ho
  -- the letters of the other word, and what may stand in front of it, spell no `for`
  obtain rfl : s = "for" := by
    have hmem := mem_of_occurs ho
    rw [List.mem_append] at hmem
    have hfront : 'f' ∉ before := by
      rcases hbefore with rfl | ⟨c, gap, hc, hg, rfl⟩
      · exact List.not_mem_nil
      · have hblank : ∀ d ∈ c :: gap, isBlank d = true := List.forall_mem_cons.mpr ⟨hc, hg⟩
        rw [List.mem_append, not_or]
        exact ⟨by decide, fun hf => absurd (hblank _ hf) (by decide)⟩
    have hword : ∀ s ∈ loopWords, 'f' ∈ s.toList → s = "for" := by decide
    exact hword s hs (hmem.resolve_left hfront)
  have hfits : forWord.FitsAt before ("for".toList ++ right) :=
    ⟨_, right, [], rfl, fits_keyword (by decide) (by decide) (any_getLast?_of_async hbefore) hend⟩
  have hoccurs : forWord.occursIn (before ++ "for".toList ++ right) = true :=
    occursIn_iff.mpr ⟨before, _, List.append_assoc .., hfits⟩
  exact List.length_pos_iff.mpr (matchesIn_ne_nil (by decide) hoccurs)

variable (hq : quote ∈ Language.python.quotes)

include hq

/-- **At a quote mark the count of a line falls into two.** -/
theorem lineCount_append_cons (front rest : Text) :
    lineCount (front ++ quote :: rest) =
      lineCount (front ++ [quote]) + lineCount (quote :: rest) := by
  have hb := (not_blank_of_mem_quotes quote hq).1
  have hskip := skipsGaps_forWord quote hq
  have hsplit : ∀ front rest : Text, lineCount (front ++ quote :: rest) =
      let clauses := (forWord.matchesIn (front.dropWhile isBlank)).length +
        (forWord.matchesIn (Text.dropEndWhile isBlank rest)).length
      (headText? (front.dropWhile isBlank)).elim clauses fun head =>
        1 + if Text.occurs "for".toList head then clauses - 1 else clauses := by
    intro front rest
    have hn : (Text.trim (front ++ quote :: rest)).isEmpty = false := by
      rw [Text.trim_append_cons hb]
      cases front.dropWhile isBlank <;> rfl
    rw [lineCount, line_eq_headText?, hn, Text.trim_append_cons hb, headText?_append_cons hq,
      length_matchesIn_append_cons hskip.width_pos hskip.reads hskip.ignoresBefore
        hskip.ignoresBehind]
    cases headText? (front.dropWhile isBlank) with
    | none => simp [start]
    | some head => simp [start]
  have hnil : headText? (([] : Text).dropWhile isBlank) = none := rfl
  have hempty : (forWord.matchesIn (([] : Text).dropWhile isBlank)).length = 0 := rfl
  have hright := hsplit [] rest
  rw [hnil, hempty, Nat.zero_add, List.nil_append] at hright
  have hleft := hsplit front []
  have hnone : (forWord.matchesIn (Text.dropEndWhile isBlank [])).length = 0 := rfl
  rw [hsplit, hright, hleft, hnone]
  cases hhead : headText? (front.dropWhile isBlank) with
  | none => rfl
  | some head =>
    by_cases ho : Text.occurs "for".toList head = true
    · have hpos := length_matchesIn_pos hhead ho
      simp only [Option.elim_some, Option.elim_none, if_pos ho]
      omega
    · simp only [Option.elim_some, Option.elim_none, if_neg ho]
      omega

/-- **At a quote mark the count of a text falls into two.** -/
theorem count_ofMask_append_cons (front rest : Text) :
    (ofMask (front ++ quote :: rest)).count =
      (ofMask (front ++ [quote])).count + (ofMask (quote :: rest)).count := by
  obtain ⟨-, hbreak, -⟩ := not_blank_of_mem_quotes quote hq
  obtain ⟨before, line, rfl, hline, hlines⟩ := Text.exists_lines_append front
  have hhead : ∀ rest : Text, (quote :: rest).head? ≠ some '\n' := by
    intro rest he
    rw [Option.some_inj.mp he] at hbreak
    exact absurd hbreak (by decide)
  have hun : Text.Unbroken (line ++ [quote]) :=
    List.forall_mem_append.mpr ⟨hline, by simpa using hbreak⟩
  have hsplit : ∀ rest : Text, Text.lines (line ++ quote :: rest) =
      (line ++ quote :: (Text.lines rest).headD []) :: (Text.lines rest).tail := by
    intro rest
    have hl := Text.lines_append_of_unbroken hun (by simp) rest
    simpa using hl
  have hlast : Text.lines (line ++ [quote]) = [line ++ [quote]] := hsplit []
  rw [count_ofMask, count_ofMask, count_ofMask, hlines _ (hhead _), hlines _ (hhead _), hsplit,
    hlast, Text.lines_cons hbreak, List.map_append, List.map_append, List.sum_append,
    List.sum_append, List.map_cons, List.sum_cons, List.map_cons, List.sum_cons, List.map_cons,
    List.sum_cons, List.map_nil, List.sum_nil, lineCount_append_cons hq line]
  omega

omit hq in
theorem count_ofMask_eq_zero
    (h : ∀ c ∈ text, forWord.mayEnd c = false ∧ loopLine.mayEnd c = false) :
    (ofMask text).count = 0 := by
  have hline : ∀ line ∈ Text.lines text, lineCount line = 0 := by
    intro line hl
    have hmem : ∀ c ∈ Text.trim line, c ∈ text := by
      intro c hc
      rw [← Text.flatten_lines text]
      exact List.mem_flatten_of_mem hl (Text.mem_of_mem_trim hc)
    have hclauses : forWord.matchesIn (Text.trim line) = [] := by
      rw [matchesIn_eq_matchesAfter]
      exact matchesAfter_eq_nil (avoids_of_mayEnd (by decide) fun c hc => (h c (hmem c hc)).1)
    rw [lineCount, line_eq_headText?, hclauses]
    by_cases ht : (Text.trim line).isEmpty = true
    · rw [if_pos ht]
      rfl
    · have hn : Text.trim line ≠ [] := by rwa [Ne, ← List.isEmpty_iff]
      have hfits : ¬ loopLine.FitsAt [] (Text.trim line) := by
        have ha := @avoids_of_mayEnd loopLine [] (Text.trim line) (by decide)
          (fun c hc => (h c (hmem c hc)).2) [] (Text.trim line) rfl hn
        rwa [List.append_nil, List.append_nil] at ha
      have hnone : loopLine.matchAt? (.start (Text.trim line)) = none := matchAt?_eq_none hfits
      have hhead : headText? (Text.trim line) = none := by rw [headText?, hnone, Option.map_none]
      rw [if_neg ht, hhead]
      rfl
  rw [count_ofMask, List.sum_eq_zero]
  simpa using hline

omit hq in
theorem foldl_lines_of_blank (state : Indentation) (h : ∀ c ∈ text, isBlank c = true) :
    (Text.lines text).foldl line state = state := by
  have hlines : ∀ line ∈ Text.lines text, ∀ c ∈ line, isBlank c = true := by
    intro line hl c hc
    refine h c ?_
    rw [← Text.flatten_lines text]
    exact List.mem_flatten_of_mem hl hc
  generalize Text.lines text = lines at hlines
  induction lines with
  | nil => rfl
  | cons line lines ih =>
    obtain ⟨hline, hmore⟩ := List.forall_mem_cons.mp hlines
    rw [List.foldl_cons, state.line_of_blank hline, ih hmore]

end Indentation

namespace Language

variable {inside : Text}

theorem only_of_notMem (h : quote ∉ inside) (left right : Text)
    (he : inside ++ tripleMark quote = left ++ tripleMark quote ++ right) : right = [] := by
  rw [List.append_assoc] at he
  rcases List.append_eq_append_iff.mp he with ⟨more, rfl, hm⟩ | ⟨more, rfl, hm⟩
  · have hl := congrArg List.length hm
    simp only [tripleMark, List.length_append, List.length_cons, List.length_nil] at hl
    exact List.length_eq_zero_iff.mp (by omega)
  · cases more with
    | nil =>
      have hl := congrArg List.length hm
      simp only [tripleMark, List.nil_append, List.length_append, List.length_cons,
        List.length_nil] at hl
      exact List.length_eq_zero_iff.mp (by omega)
    | cons c more =>
      obtain rfl : quote = c := (List.cons.inj hm).1
      simp at h

/-- The mask of a snippet with a literal, as a gap in what is around it. -/
theorem exists_mask_literal (hq : quote ∈ python.quotes) {front rest : Text}
    (hcut : python.CutAt (front ++ (tripleLiteral quote inside ++ rest)) front.length) :
    ∃ before, ∀ inside', quote ∉ inside' →
      python.mask (front ++ (tripleLiteral quote inside' ++ rest)) =
        before ++ quote :: (inside'.map blanked ++
          quote :: (quote :: quote :: python.mask rest)) := by
  obtain ⟨shown, hshown⟩ := exists_mask_append hcut (by simp [tripleLiteral, tripleMark])
  refine ⟨shown ++ [quote, quote], fun inside' hin' => ?_⟩
  rw [hshown _ (by simp [tripleLiteral, tripleMark]), mask_triple hq (only_of_notMem hin')]
  simp [tripleLiteral, tripleMark]

theorem exists_last_lineFeed (h : '\n' ∈ inside) :
    ∃ before after, inside = before ++ '\n' :: after ∧ '\n' ∉ after := by
  obtain ⟨after, before, he, ha⟩ := List.eq_append_cons_of_mem (List.mem_reverse.mpr h)
  refine ⟨before.reverse, after.reverse, ?_, by simpa using ha⟩
  rw [← List.reverse_reverse inside, he]
  simp

theorem map_blanked_of_notMem (h : '\n' ∉ inside) :
    inside.map blanked = List.replicate inside.length ' ' := by
  rw [List.eq_replicate_iff, List.length_map]
  refine ⟨rfl, fun c hc => ?_⟩
  obtain ⟨d, hd, rfl⟩ := List.mem_map.mp hc
  rw [blanked, if_neg]
  rintro rfl
  exact h hd

/-- **The number of loops does not depend on the inside of a literal.** -/
theorem loopCount_literal (hq : quote ∈ python.quotes) {before inside rest : Text} :
    (Indentation.ofMask (before ++ quote :: (inside.map blanked ++ quote :: rest))).count =
      (Indentation.ofMask (before ++ [quote])).count +
        (Indentation.ofMask (quote :: rest)).count := by
  have hzero : (Indentation.ofMask (quote :: inside.map blanked ++ [quote])).count = 0 := by
    refine Indentation.count_ofMask_eq_zero fun c hc => ?_
    have hmarks : ∀ c ∈ '\n' :: ' ' :: python.quotes,
        forWord.mayEnd c = false ∧ loopLine.mayEnd c = false := by
      decide
    refine hmarks c ?_
    rcases List.mem_append.mp hc with hc | hc
    · rcases List.mem_cons.mp hc with rfl | hc
      · simp [hq]
      · obtain ⟨d, -, rfl⟩ := List.mem_map.mp hc
        rcases blanked_eq d with he | he <;> simp [he]
    · rw [List.mem_singleton.mp hc]
      simp [hq]
  rw [Indentation.count_ofMask_append_cons hq before,
    ← List.cons_append, Indentation.count_ofMask_append_cons hq (quote :: inside.map blanked),
    hzero, Nat.zero_add]

/-! ### Line feeds in a literal -/

/-- The header of a loop over a literal, at a margin, up to the literal. -/
def loopOver (margin : Nat) : Text := List.replicate margin ' ' ++ "for a in ".toList

/-- The end of that header, and a loop in the body of the loop. -/
def nestedLoop (margin : Nat) : Text :=
  ":\n".toList ++ (List.replicate (margin + 1) ' ' ++ "for c in d: pass".toList)

theorem forall_mem_margin {p : Char → Prop} (h : p ' ') (margin : Nat) :
    ∀ c ∈ List.replicate margin ' ', p c := by
  intro c hc
  rw [List.eq_of_mem_replicate hc]
  exact h

theorem isPlain_loopOver (margin : Nat) : ∀ c ∈ loopOver margin, isPlain c = true :=
  List.forall_mem_append.mpr ⟨forall_mem_margin (by decide) margin, by decide⟩

theorem unbroken_loopOver (margin : Nat) : (loopOver margin).Unbroken :=
  List.forall_mem_append.mpr ⟨forall_mem_margin (by decide) margin, by decide⟩

theorem isPlain_nestedLoop (margin : Nat) : ∀ c ∈ nestedLoop margin, isPlain c = true :=
  List.forall_mem_append.mpr ⟨by decide,
    List.forall_mem_append.mpr ⟨forall_mem_margin (by decide) (margin + 1), by decide⟩⟩

theorem mask_loopOver (hq : quote ∈ python.quotes) (hin : quote ∉ inside) (margin : Nat) :
    python.mask (loopOver margin ++ (tripleLiteral quote inside ++ nestedLoop margin)) =
      loopOver margin ++ (tripleLiteral quote (inside.map blanked) ++ nestedLoop margin) := by
  rw [mask_append_of_plain _ (isPlain_loopOver margin), mask_triple hq (only_of_notMem hin),
    mask_eq_self _ (isPlain_nestedLoop margin)]

theorem line_loopOver (state : Indentation) {shown gap : Text} (margin : Nat)
    (hlast : (" a in ".toList ++ shown).getLast?.any isBlank = false)
    (hlacks : Text.Lacks (" a in ".toList ++ shown) (loopWords.map String.toList))
    (hgap : ∀ c ∈ gap, isBlank c = true) :
    state.line (loopOver margin ++ shown ++ gap) = state.after margin [margin] := by
  have hl : state.line (List.replicate margin ' ' ++ ("for".toList ++ (" a in ".toList ++ shown)) ++
      gap) = state.after margin [margin] :=
    state.line_loop (by decide) rfl hlast hlacks hgap
  rw [← hl, loopOver]
  simp

theorem foldl_nestedLoop (state : Indentation) {line : Text} (hl : line.Unbroken) (margin : Nat) :
    (Text.lines (line ++ nestedLoop margin)).foldl Indentation.line state =
      (state.line (line ++ ":\n".toList)).after (margin + 1) [margin + 1] := by
  have hcolon : Text.Unbroken (line ++ [':']) := List.forall_mem_append.mpr ⟨hl, by decide⟩
  have hinner : Text.Unbroken (List.replicate (margin + 1) ' ' ++ "for c in d: pass".toList) :=
    List.forall_mem_append.mpr ⟨forall_mem_margin (by decide) (margin + 1), by decide⟩
  have hsplit : line ++ nestedLoop margin = (line ++ [':']) ++
      '\n' :: (List.replicate (margin + 1) ' ' ++ "for c in d: pass".toList) := by
    simp [nestedLoop]
  have hloop : (state.line (line ++ ":\n".toList)).line
      (List.replicate (margin + 1) ' ' ++ ("for".toList ++ " c in d: pass".toList) ++ []) =
        (state.line (line ++ ":\n".toList)).after (margin + 1) [margin + 1] :=
    Indentation.line_loop _ (by decide) (by decide) (by decide) (by decide) (by simp)
  rw [List.append_nil] at hloop
  rw [hsplit, Text.lines_append_lineFeed hcolon, Text.lines_of_unbroken hinner (by simp)]
  rw [List.foldl_cons, List.foldl_cons, List.foldl_nil, ← hloop]
  simp

theorem loopDepth_eq_of_mask (code shown : Text) (h : python.mask code = shown) :
    python.loopDepth code = ((Text.lines shown).foldl Indentation.line .start).depth := by
  rw [← h]
  rfl

theorem loopDepth_loopOver_blank (hq : quote ∈ python.quotes) (margin : Nat) :
    python.loopDepth (loopOver margin ++ (tripleLiteral quote [' '] ++ nestedLoop margin)) = 2 := by
  have hshown : ∀ c ∈ python.quotes, (∀ d ∈ tripleLiteral c [' '], isLineBreak d = false) ∧
      c ∉ [' '] ∧
        (" a in ".toList ++ (tripleLiteral c [' '] ++ [':'])).getLast?.any isBlank = false ∧
        Text.Lacks (" a in ".toList ++ (tripleLiteral c [' '] ++ [':']))
          (loopWords.map String.toList) := by
    decide
  obtain ⟨hunbroken, hin, hlast, hlacks⟩ := hshown quote hq
  have hheader : (loopOver margin ++ tripleLiteral quote [' ']) ++ ":\n".toList =
      loopOver margin ++ (tripleLiteral quote [' '] ++ [':']) ++ ['\n'] := by simp
  have hline : Indentation.start.line
      (loopOver margin ++ tripleLiteral quote [' '] ++ ":\n".toList) =
        Indentation.start.after margin [margin] := by
    rw [hheader]
    exact line_loopOver _ margin hlast hlacks (by decide)
  have hfold := foldl_nestedLoop .start
    (List.forall_mem_append.mpr ⟨unbroken_loopOver margin, hunbroken⟩) margin
  rw [hline, List.append_assoc] at hfold
  rw [loopDepth_eq_of_mask _ _ (mask_loopOver hq hin margin)]
  show ((Text.lines (loopOver margin ++ (tripleLiteral quote [' '] ++ nestedLoop margin))).foldl
    Indentation.line .start).depth = 2
  rw [hfold]
  simp [Indentation.after, Indentation.enclosing, Indentation.start]

/-- What three marks are to the lines that they stand in. -/
theorem tripleMark_in_line : ∀ c ∈ python.quotes,
    (∀ d ∈ tripleMark c, isLineBreak d = false ∧ isWord d = false) ∧
      (" a in ".toList ++ tripleMark c).getLast?.any isBlank = false ∧
      Text.Lacks (" a in ".toList ++ tripleMark c) (loopWords.map String.toList) ∧
      (tripleMark c ++ [':']).head?.any isBlank = false := by
  decide

theorem unbroken_append_tripleMark (hq : quote ∈ python.quotes) {text : Text}
    (h : text.Unbroken) : Text.Unbroken (text ++ tripleMark quote) :=
  List.forall_mem_append.mpr ⟨h, fun d hd => ((tripleMark_in_line quote hq).1 d hd).1⟩

/-- The header up to the opening marks opens the loop, and the blank lines behind it change
nothing. -/
theorem foldl_loopOver (hq : quote ∈ python.quotes) (state : Indentation) (margin : Nat)
    {blanks : Text} (hb : ∀ c ∈ blanks, c = '\n' ∨ c = ' ') (hfeed : '\n' ∈ blanks) :
    (Text.lines (loopOver margin ++ tripleMark quote ++ blanks)).foldl Indentation.line state =
      state.after margin [margin] := by
  obtain ⟨-, hlast, hlacks, -⟩ := tripleMark_in_line quote hq
  obtain ⟨gap, more, rfl, hnone⟩ := List.eq_append_cons_of_mem hfeed
  obtain ⟨hgap, hmore⟩ := List.forall_mem_append.mp hb
  have hspace : ∀ c ∈ gap, c = ' ' :=
    fun c hc => (hgap c hc).resolve_left fun he => hnone (he ▸ hc)
  have hunbroken : Text.Unbroken (loopOver margin ++ tripleMark quote ++ gap) := by
    refine List.forall_mem_append.mpr
      ⟨unbroken_append_tripleMark hq (unbroken_loopOver margin), fun c hc => ?_⟩
    rw [hspace c hc]
    decide
  have hblank : ∀ c ∈ gap ++ ['\n'], isBlank c = true := by
    refine List.forall_mem_append.mpr ⟨fun c hc => ?_, by decide⟩
    rw [hspace c hc]
    decide
  have hblanks : ∀ c ∈ more, isBlank c = true := by
    intro c hc
    rcases hmore c (List.mem_cons_of_mem _ hc) with rfl | rfl <;> decide
  have hline := line_loopOver state margin hlast hlacks hblank
  rw [← List.append_assoc] at hline
  rw [← List.append_assoc, Text.lines_append_lineFeed hunbroken, List.foldl_cons, hline,
    Indentation.foldl_lines_of_blank _ hblanks]

theorem line_closingMarks (hq : quote ∈ python.quotes) (state : Indentation) (margin : Nat) :
    state.line (List.replicate margin ' ' ++ tripleMark quote ++ ":\n".toList) =
      state.after margin [] := by
  obtain ⟨hmarks, -, -, hhead⟩ := tripleMark_in_line quote hq
  have hsplit : List.replicate margin ' ' ++ tripleMark quote ++ ":\n".toList =
      List.replicate margin ' ' ++ (tripleMark quote ++ [':']) ++ ['\n'] := by
    simp
  have hcolon : (tripleMark quote ++ [':']).getLast?.any isBlank = false := by
    rw [List.getLast?_concat]
    rfl
  have hlacks : Text.Lacks (tripleMark quote ++ [':']) (loopWords.map String.toList) :=
    Text.lacks_of_forall (List.forall_mem_append.mpr ⟨fun d hd => (hmarks d hd).2, by decide⟩)
      (by decide)
  rw [hsplit]
  exact state.line_code hhead hcolon (by simp) hlacks (by decide)

/-- **A line feed in the literal closes the loop**, if the closing marks are not indented more. -/
theorem loopDepth_loopOver_lineFeed (hq : quote ∈ python.quotes) {before after : Text}
    (hin : quote ∉ before ++ '\n' :: after) (hafter : '\n' ∉ after) :
    python.loopDepth (loopOver after.length ++
      (tripleLiteral quote (before ++ '\n' :: after) ++ nestedLoop after.length)) = 1 := by
  let blanks := before.map blanked ++ ['\n']
  let last := List.replicate after.length ' ' ++ tripleMark quote
  have hblanks : ∀ c ∈ blanks, c = '\n' ∨ c = ' ' := by
    refine List.forall_mem_append.mpr ⟨fun c hc => ?_, by decide⟩
    obtain ⟨d, -, rfl⟩ := List.mem_map.mp hc
    exact blanked_eq d
  -- up to the last line feed of the literal, and from there on
  have hshape : python.mask (loopOver after.length ++
      (tripleLiteral quote (before ++ '\n' :: after) ++ nestedLoop after.length)) =
        loopOver after.length ++ tripleMark quote ++ blanks ++
          (last ++ nestedLoop after.length) := by
    have hfeed : blanked '\n' = '\n' := rfl
    rw [mask_loopOver hq hin, List.map_append, List.map_cons, map_blanked_of_notMem hafter, hfeed]
    simp [blanks, last, tripleLiteral]
  have hlast : Text.Unbroken last :=
    unbroken_append_tripleMark hq (forall_mem_margin (by decide) after.length)
  have hends : Text.EndsInLineFeed (loopOver after.length ++ tripleMark quote ++ blanks) :=
    Or.inr (by simp [blanks])
  rw [loopDepth_eq_of_mask _ _ hshape, Text.lines_append hends, List.foldl_append,
    foldl_loopOver hq _ _ hblanks (by simp [blanks]), foldl_nestedLoop _ hlast,
    line_closingMarks hq]
  simp [Indentation.after, Indentation.enclosing, Indentation.start]

/-- **What the inside of a literal changes**: never the number of loops; and the nesting of loops
and the functions that call themselves exactly if it holds a line feed. -/
theorem structure_triple_iff (hq : quote ∈ python.quotes) (hin : quote ∉ inside) :
    (∀ front rest, python.CutAt (front ++ (tripleLiteral quote inside ++ rest)) front.length →
      python.loopCount (front ++ (tripleLiteral quote inside ++ rest)) =
        python.loopCount (front ++ (tripleLiteral quote [' '] ++ rest))) ∧
    ((∀ front rest, python.CutAt (front ++ (tripleLiteral quote inside ++ rest)) front.length →
      python.loopDepth (front ++ (tripleLiteral quote inside ++ rest)) =
          python.loopDepth (front ++ (tripleLiteral quote [' '] ++ rest)) ∧
        python.recursiveNames (front ++ (tripleLiteral quote inside ++ rest)) =
          python.recursiveNames (front ++ (tripleLiteral quote [' '] ++ rest))) ↔
      '\n' ∉ inside) := by
  have hblank : quote ∉ [' '] := by
    intro hm
    rw [List.mem_singleton.mp hm] at hq
    revert hq
    decide
  refine ⟨fun front rest hcut => ?_, fun hall hfeed => ?_, fun hfeed front rest hcut => ?_⟩
  · obtain ⟨before, hmask⟩ := exists_mask_literal hq hcut
    simp only [loopCount, loopCountOfMask, usesBraces, hmask _ hin, hmask _ hblank,
      loopCount_literal hq, Bool.false_eq_true, if_false]
  · obtain ⟨before, after, rfl, hafter⟩ := exists_last_lineFeed hfeed
    have hdepth := (hall (loopOver after.length) (nestedLoop after.length)
      (cutAt_of_plain (isPlain_loopOver after.length) _)).1
    rw [loopDepth_loopOver_lineFeed hq hin hafter, loopDepth_loopOver_blank hq] at hdepth
    exact absurd hdepth (by decide)
  · obtain ⟨before, hmask⟩ := exists_mask_literal hq hcut
    have hgap := hmask _ hin
    rw [map_blanked_of_notMem hfeed] at hgap
    have hgap' := hmask _ hblank
    refine ⟨?_, recursiveNames_eq_of_gap hq (m := 1) hgap hgap'⟩
    have hsame : SameButGaps quote (python.mask (front ++ (tripleLiteral quote inside ++ rest)))
        (python.mask (front ++ (tripleLiteral quote [' '] ++ rest))) := by
      rw [hgap, hgap']
      exact .gap before _ 1 (.same _)
    simp only [loopDepth, loopDepthOfMask, usesBraces, Indentation.ofMask_eq_of_same hq hsame,
      Bool.false_eq_true, if_false]

/-- The inside holds a line feed, so that both sides of the second part are wrong. -/
theorem structure_triple_iff_lines :
    let inside := "for a in b:\n  ".toList
    '"' ∈ python.quotes ∧ '"' ∉ inside ∧
    (∀ front rest, python.CutAt (front ++ (tripleLiteral '"' inside ++ rest)) front.length →
      python.loopCount (front ++ (tripleLiteral '"' inside ++ rest)) =
        python.loopCount (front ++ (tripleLiteral '"' [' '] ++ rest))) ∧
    ((∀ front rest, python.CutAt (front ++ (tripleLiteral '"' inside ++ rest)) front.length →
      python.loopDepth (front ++ (tripleLiteral '"' inside ++ rest)) =
          python.loopDepth (front ++ (tripleLiteral '"' [' '] ++ rest)) ∧
        python.recursiveNames (front ++ (tripleLiteral '"' inside ++ rest)) =
          python.recursiveNames (front ++ (tripleLiteral '"' [' '] ++ rest))) ↔
      '\n' ∉ inside) :=
  ⟨by decide, by decide, structure_triple_iff (by decide) (by decide)⟩

/-- **A line feed inside of a literal changes the nesting**: the line of the closing marks, at the
margin of the loop whose header holds the literal, closes the loop. -/
theorem not_structure_triple :
    ¬ ∀ (quote : Char) (front inside rest : Text), quote ∈ python.quotes →
      (∀ c ∈ inside, c ∉ python.quotes ∧ c ≠ '\\') →
      python.CutAt (front ++ (tripleLiteral quote inside ++ rest)) front.length →
        python.loopDepth (front ++ (tripleLiteral quote inside ++ rest)) =
            python.loopDepth (front ++ (tripleLiteral quote [' '] ++ rest)) ∧
          python.loopCount (front ++ (tripleLiteral quote inside ++ rest)) =
            python.loopCount (front ++ (tripleLiteral quote [' '] ++ rest)) ∧
          python.recursiveNames (front ++ (tripleLiteral quote inside ++ rest)) =
            python.recursiveNames (front ++ (tripleLiteral quote [' '] ++ rest)) := by
  intro h
  have hdepth := (h '"' (loopOver 0) ['\n'] (nestedLoop 0) (by decide) (by decide)
    (cutAt_of_plain (isPlain_loopOver 0) _)).1
  have hbroken := @loopDepth_loopOver_lineFeed '"' (by decide) [] [] (by decide) (by decide)
  rw [loopDepth_loopOver_blank (by decide)] at hdepth
  exact absurd (hbroken.symm.trans hdepth) (by decide)

end Language

end Snippet
