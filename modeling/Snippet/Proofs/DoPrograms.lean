import Snippet.Proofs.ConditionalBody
import Snippet.Proofs.DoConditions

/-!
# Loops that are found in a program with `do` loops

A program of simple statements and of loops with their bodies in braces is its own mask
(`Program.mask_render`).  Its headers and its conditions are listed from left to right, each with
the end of the statement that is looked for behind it (`Program.spansAfter_render`).

`Program.loops_found`: **the number of loops that is found is that of the loops and of the
conditions behind `do` blocks**, and the nesting is counted with the reaches of the conditions.
-/

namespace Snippet

open Pattern Place

namespace Braced

variable {language : Language} {left right : Text}

namespace Program

/-! ### The mask and the braces of a program -/

/-- **A program is its own mask.** -/
theorem shows_render (hl : language.usesBraces = true) (program : Program language) :
    Shows language program.render := by
  have hbrace : Shows language ['\x7b'] := shows_of_plain (by decide)
  have hbrace' : Shows language ['\x7d'] := shows_of_plain (by decide)
  induction program with
  | done gap => exact gap.shows
  | simple gap code rest ih =>
    have hcode := code.shows hl (show isPlain ';' = true by decide) (by decide)
    have hshows := gap.shows.append (hcode.append ih)
    rwa [List.append_assoc, List.singleton_append] at hshows
  | loop gap word hword header gap' inside rest ihInside ihRest =>
    have hplain : ∀ s ∈ loopWords, ∀ c ∈ s.toList, isPlain c = true := by decide
    exact gap.shows.append
      ((shows_headerText (hplain word hword) hl header.gap header.toStretch).append
        (gap'.shows.append (hbrace.append (ihInside.append (hbrace'.append ihRest)))))
  | doLoop gap gap' inside gap'' condition rest ihInside ihRest =>
    have hdo : Shows language "do".toList := shows_of_plain (by decide)
    have hwhile := shows_headerText (show ∀ c ∈ "while".toList, isPlain c = true by decide) hl
      condition.gap condition.toStretch
    exact gap.shows.append ((hdo.append gap'.shows).append (hbrace.append (ihInside.append
      (hbrace'.append (gap''.shows.append (hwhile.append ihRest))))))

theorem mask_render (hl : language.usesBraces = true) (program : Program language) :
    language.mask program.render = program.render := by
  have hm := program.shows_render hl []
  rwa [List.append_nil, language.mask_nil, List.append_nil] at hm

/-- **A program closes its braces.** -/
theorem balanced_render (program : Program language) :
    Bracket.curly.Balanced program.render := by
  induction program with
  | done gap => exact gap.balanced
  | simple gap code rest ih =>
    have hend : Bracket.curly.Balanced [';'] := by decide
    exact gap.balanced.append (code.balanced.append (hend.append ih))
  | loop gap word hword header gap' inside rest ihInside ihRest =>
    have hwords : ∀ s ∈ loopWords, Bracket.curly.Balanced s.toList := by decide
    exact gap.balanced.append
      ((balanced_headerText (hwords word hword) header.gap header.toStretch).append
        (gap'.balanced.append (ihInside.wrap ihRest)))
  | doLoop gap gap' inside gap'' condition rest ihInside ihRest =>
    have hdo : Bracket.curly.Balanced "do".toList := by decide
    have hwhile := balanced_headerText (show Bracket.curly.Balanced "while".toList by decide)
      condition.gap condition.toStretch
    exact gap.balanced.append ((hdo.append gap'.balanced).append
      (ihInside.wrap (gap''.balanced.append (hwhile.append ihRest))))

end Program

/-! ### Where statements end -/

theorem simpleEnd_block {inside : Text} (hb : Bracket.curly.Balanced inside) (left right : Text) :
    simpleEnd (between left ('\x7b' :: (inside ++ '\x7d' :: right))) =
      left.length + inside.length + 2 := by
  have hbrace : Text.position? '\x7b' ('\x7b' :: (inside ++ '\x7d' :: right)) = some 0 := by
    rw [Text.position?, if_pos rfl]
  have hsemicolon : ∀ s, Text.position? ';' ('\x7b' :: (inside ++ '\x7d' :: right)) = some s →
      0 < s := by
    intro s hs
    rw [Text.position?, if_neg (by decide)] at hs
    obtain ⟨n, -, rfl⟩ := Option.map_eq_some_iff.mp hs
    exact Nat.succ_pos n
  have hopen : (between left ('\x7b' :: (inside ++ '\x7d' :: right))).advance (0 + 1) =
      between (left ++ ['\x7b']) (inside ++ '\x7d' :: right) := advance_between _ ['\x7b'] _
  have hend : blockEnd (between (left ++ ['\x7b']) (inside ++ '\x7d' :: right)) =
      left.length + inside.length + 2 := by
    rw [blockEnd, show '\x7d' = Bracket.curly.closer from rfl, afterCloser?_balanced hb]
    simp only [offset_between, List.length_append, List.length_singleton]
    omega
  rw [simpleEnd_between, hbrace]
  cases hs : Text.position? ';' ('\x7b' :: (inside ++ '\x7d' :: right)) with
  | none => exact (congrArg blockEnd hopen).trans hend
  | some s => exact (if_pos (hsemicolon s hs)).trans ((congrArg blockEnd hopen).trans hend)

theorem Header.simpleEnd_render {word : String} (hword : '\x7b' ∉ word.toList ∧ ';' ∉ word.toList)
    (header : Header language) (left right : Text) :
    simpleEnd (between left (header.render word ++ right)) =
      header.semicolonEnd word left.length
        (simpleEnd (between (left ++ header.render word) right)) := by
  have hnotMem : ∀ c inside, c ∉ word.toList → isBlank c = false → c ≠ '(' → c ∉ inside →
      c ∉ word.toList ++ (header.gap.text ++ '(' :: inside) := by
    intro c inside hw hb hp hi hm
    have hgap := header.gap.notMem hb
    simp only [List.mem_append, List.mem_cons] at hm
    tauto
  have hbrace : '\x7b' ∉ header.text := fun h => (header.ne_brace _ h).1 rfl
  by_cases hm : ';' ∈ header.text
  · obtain ⟨before, behind, hcut, hb⟩ := List.eq_append_cons_of_mem hm
    have hbrace' : '\x7b' ∉ before := fun h => hbrace (by rw [hcut]; exact List.mem_append_left _ h)
    have hrender : header.render word ++ right =
        (word.toList ++ (header.gap.text ++ '(' :: before)) ++ ';' :: (behind ++ ')' :: right) := by
      simp [render, headerText, hcut]
    rw [header.semicolonEnd_of_eq_append word hcut hb, hrender,
      simpleEnd_semicolon (hnotMem _ _ hword.1 (by decide) (by decide) hbrace')
        (hnotMem _ _ hword.2 (by decide) (by decide) hb)]
  · have hrender : header.render word =
        word.toList ++ (header.gap.text ++ '(' :: (header.text ++ [')'])) := by
      simp [render, headerText]
    rw [header.semicolonEnd_of_notMem word hm, simpleEnd_front]
    · rw [hrender]
      exact hnotMem _ _ hword.1 (by decide) (by decide) (by simpa using hbrace)
    · rw [hrender]
      exact hnotMem _ _ hword.2 (by decide) (by decide) (by simpa using hm)

namespace Program

theorem render_loop_append {gap gap' : Gap} {word : String} {hword : word ∈ loopWords}
    {header : Header language} {inside rest : Program language} :
    (loop gap word hword header gap' inside rest).render ++ right =
      gap.text ++ (header.render word ++ (gap'.text ++
        '\x7b' :: (inside.render ++ '\x7d' :: (rest.render ++ right)))) := by
  simp [render]

theorem render_doLoop_append {gap gap' gap'' : Gap} {condition : Header language}
    {inside rest : Program language} :
    (doLoop gap gap' inside gap'' condition rest).render ++ right =
      gap.text ++ ("do".toList ++ gap'.text ++ '\x7b' :: (inside.render ++ '\x7d' ::
        (gap''.text ++ (condition.render "while" ++ (rest.render ++ right))))) := by
  simp [render]

/-- **Where a simple statement ends that is looked for at a program.** -/
theorem simpleEnd_render (program : Program language) (left right : Text) :
    simpleEnd (between left (program.render ++ right)) =
      program.lateEnd left.length (simpleEnd (between (left ++ program.render) right)) := by
  have hgap : ∀ gap : Gap, '\x7b' ∉ gap.text ∧ ';' ∉ gap.text := fun gap =>
    ⟨gap.notMem (by decide), gap.notMem (by decide)⟩
  cases program with
  | done gap => exact simpleEnd_front (hgap gap).1 (hgap gap).2 left right
  | simple gap code rest =>
    have hbrace : '\x7b' ∉ gap.text ++ code.text := fun h =>
      (List.mem_append.mp h).elim (hgap gap).1 fun hc => (code.ne_brace _ hc).1 rfl
    have hsemicolon : ';' ∉ gap.text ++ code.text := fun h =>
      (List.mem_append.mp h).elim (hgap gap).2 code.semicolon_notMem
    have hend := simpleEnd_semicolon hbrace hsemicolon left (rest.render ++ right)
    simpa [render, lateEnd, nextEnd, Nat.add_assoc] using hend
  | loop gap word hword header gap' inside rest =>
    have hwords : ∀ s ∈ loopWords, '\x7b' ∉ s.toList ∧ ';' ∉ s.toList := by decide
    rw [render_loop_append, simpleEnd_front (hgap gap).1 (hgap gap).2,
      header.simpleEnd_render (hwords word hword), simpleEnd_front (hgap gap').1 (hgap gap').2,
      simpleEnd_block inside.balanced_render]
    simp only [lateEnd, nextEnd, List.length_append]
    exact congrArg _ (by omega)
  | doLoop gap gap' inside gap'' condition rest =>
    have hdo : '\x7b' ∉ "do".toList ∧ ';' ∉ "do".toList := by decide
    have hlength : "do".toList.length = 2 := rfl
    rw [render_doLoop_append, List.append_assoc "do".toList,
      simpleEnd_front (hgap gap).1 (hgap gap).2, simpleEnd_front hdo.1 hdo.2,
      simpleEnd_front (hgap gap').1 (hgap gap').2, simpleEnd_block inside.balanced_render]
    simp only [lateEnd, nextEnd, List.length_append]
    omega

/-- Nothing stands behind a program, or a closing brace does. -/
def Closes (text : Text) : Prop := text = [] ∨ ∃ more, text = '\x7d' :: more

theorem statementEnd_closes (gap : Gap) (hr : Closes right) (left : Text) :
    statementEnd (between left (gap.text ++ right)) =
      simpleEnd (between (left ++ gap.text) right) := by
  rcases hr with rfl | ⟨more, rfl⟩
  · have hstart := skipBlanks_between gap.isBlank_of_mem
      (show [].head?.any isBlank = false from rfl) left
    rw [statementEnd, hstart]
    simp only [rest_between]
    rw [simpleEnd_between]
    simp [Text.position?, textEnd_between]
  · have hstart := skipBlanks_between gap.isBlank_of_mem (show ('\x7d' :: more).head?.any isBlank =
      false from rfl) left
    have hnone : loopHeader.matchAt? (between (left ++ gap.text) ('\x7d' :: more)) = none :=
      matchAt?_loopHeader_eq_none (by decide) _ _
    have hrest : (skipBlanks (between left (gap.text ++ '\x7d' :: more))).rest =
        '\x7d' :: more := by
      rw [hstart, rest_between]
    rw [← hstart] at hnone ⊢
    exact statementEnd_of_simple hrest (by decide) hnone

/-- **Where the statement ends that is looked for at a program.** -/
theorem statementEnd_render (program : Program language) (hl : Stops left) (hr : Closes right) :
    statementEnd (between left (program.render ++ right)) =
      program.nextEnd left.length (simpleEnd (between (left ++ program.render) right)) := by
  cases program with
  | done gap => exact statementEnd_closes gap hr left
  | simple gap code rest =>
    have hbrace : '\x7b' ∉ gap.text ++ code.text := fun h =>
      (List.mem_append.mp h).elim (gap.notMem (by decide)) fun hc => (code.ne_brace _ hc).1 rfl
    have hsemicolon : ';' ∉ gap.text ++ code.text := fun h =>
      (List.mem_append.mp h).elim (gap.notMem (by decide)) code.semicolon_notMem
    have hend := statementEnd_semicolon hbrace hsemicolon
      (gap.lacks.append code.lacks (Or.inl gap.stops)) left (rest.render ++ right)
    simpa [render, nextEnd, Nat.add_assoc] using hend
  | loop gap word hword header gap' inside rest =>
    rw [render_loop_append, header.statementEnd_render hword gap hl,
      statementEnd_block gap'.isBlank_of_mem inside.balanced_render]
    simp only [nextEnd, List.length_append]
    omega
  | doLoop gap gap' inside gap'' condition rest =>
    have hlength : "do".toList.length = 2 := rfl
    have hblock := statementEnd_block (show ∀ c ∈ [], isBlank c = true by simp)
      inside.balanced_render (left ++ gap.text ++ ("do".toList ++ gap'.text))
      (gap''.text ++ (condition.render "while" ++ (rest.render ++ right)))
    rw [List.nil_append] at hblock
    rw [render_doLoop_append,
      statementEnd_do gap.isBlank_of_mem (hl.append gap.stops) gap'.isBlank_of_mem, hblock]
    simp only [nextEnd, List.length_append, List.length_nil]
    omega

theorem spansAfter_braces {inside : Program language}
    (h : ∀ {left right}, Stops left → Closes right → spansAfter left (inside.render ++ right) =
      inside.spans left.length (simpleEnd (between (left ++ inside.render) right)) ++
        spansAfter (left ++ inside.render) right) (left text : Text) :
    spansAfter left ('\x7b' :: (inside.render ++ '\x7d' :: text)) =
      inside.spans (left.length + 1)
          (simpleEnd (between (left ++ '\x7b' :: (inside.render ++ ['\x7d'])) text)) ++
        spansAfter (left ++ '\x7b' :: (inside.render ++ ['\x7d'])) text := by
  have hend := simpleEnd_front (show '\x7b' ∉ ['\x7d'] by decide) (show ';' ∉ ['\x7d'] by decide)
    (left ++ ['\x7b'] ++ inside.render) text
  rw [List.singleton_append] at hend
  rw [spansAfter_cons (by decide), h (stops_snoc (by decide) left) (Or.inr ⟨text, rfl⟩), hend,
    spansAfter_cons (by decide)]
  simp

/-- **The reaches in a text are those of the program in front and those of the rest.** -/
theorem spansAfter_render (program : Program language) (hl : Stops left) (hr : Closes right) :
    spansAfter left (program.render ++ right) =
      program.spans left.length (simpleEnd (between (left ++ program.render) right)) ++
        spansAfter (left ++ program.render) right := by
  have hdo : "do".toList.length = 2 := rfl
  induction program generalizing left right with
  | done gap => exact spansAfter_gap gap left right
  | simple gap code rest ih =>
    have hlacks : Text.Lacks (code.text ++ [';']) headerWords :=
      code.lacks.append (by decide) (Or.inr rfl)
    have hstops : Stops (code.text ++ [';']) := stops_snoc (by decide) _
    have hrender : (simple gap code rest).render ++ right =
        gap.text ++ (code.text ++ [';'] ++ (rest.render ++ right)) := by
      simp [render]
    rw [hrender, spansAfter_gap, spansAfter_lacks hlacks (Or.inl hstops),
      ih ((hl.append gap.stops).append hstops) hr]
    simp [render, spans, Nat.add_assoc]
  | loop gap word hword header gap' inside rest ihInside ihRest =>
    have hstops := stops_braces (left ++ gap.text ++ header.render word ++ gap'.text) inside.render
    have hplace : (left ++ gap.text ++ header.render word ++ gap'.text).length + 1 =
        left.length + gap.text.length + (header.render word).length + gap'.text.length + 1 := by
      simp only [List.length_append]
    have hstop : (left ++ gap.text ++ header.render word ++ gap'.text ++
        '\x7b' :: (inside.render ++ ['\x7d'])).length = left.length + gap.text.length +
          (header.render word).length + gap'.text.length + 1 + inside.render.length + 1 := by
      simp only [List.length_append, List.length_cons, List.length_nil]
      omega
    have hend : (left ++ gap.text ++ header.render word).length + gap'.text.length +
        inside.render.length + 2 = left.length + gap.text.length +
          (header.render word).length + gap'.text.length + 1 + inside.render.length + 1 := by
      simp only [List.length_append]
      omega
    rw [render_loop_append, spansAfter_gap, header.spansAfter_render hword (hl.append gap.stops),
      statementEnd_block gap'.isBlank_of_mem inside.balanced_render, spansAfter_gap,
      spansAfter_braces ihInside, rest.simpleEnd_render, ihRest hstops hr, hplace, hstop, hend,
      List.length_append]
    simp [render, spans]
  | doLoop gap gap' inside gap'' condition rest ihInside ihRest =>
    have hblock := statementEnd_block (show ∀ c ∈ [], isBlank c = true by simp)
      inside.balanced_render (left ++ gap.text ++ ("do".toList ++ gap'.text))
      (gap''.text ++ (condition.render "while" ++ (rest.render ++ right)))
    have hstops := (stops_braces (left ++ gap.text ++ ("do".toList ++ gap'.text))
      inside.render).append gap''.stops
    have hplace : (left ++ gap.text ++ ("do".toList ++ gap'.text)).length + 1 =
        left.length + gap.text.length + 2 + gap'.text.length + 1 := by
      simp only [List.length_append]
      omega
    have hagain : (left ++ gap.text ++ ("do".toList ++ gap'.text) ++
        '\x7b' :: (inside.render ++ ['\x7d']) ++ gap''.text).length = left.length +
          gap.text.length + 2 + gap'.text.length + 1 + inside.render.length + 1 +
            gap''.text.length := by
      simp only [List.length_append, List.length_cons, List.length_nil]
      omega
    have hbehind : (left ++ gap.text ++ ("do".toList ++ gap'.text) ++
        '\x7b' :: (inside.render ++ ['\x7d']) ++ gap''.text ++ condition.render "while").length =
          left.length + gap.text.length + 2 + gap'.text.length + 1 + inside.render.length + 1 +
            gap''.text.length + (condition.render "while").length := by
      rw [List.length_append, hagain]
    have hleft : left ++ gap.text ++ ("do".toList ++ gap'.text) ++
        '\x7b' :: (inside.render ++ ['\x7d']) ++ gap''.text ++ condition.render "while" ++
          rest.render = left ++ (doLoop gap gap' inside gap'' condition rest).render := by
      simp [render]
    have hend : (left ++ gap.text ++ ("do".toList ++ gap'.text)).length + ([] : Text).length +
        inside.render.length + 2 =
          left.length + gap.text.length + 2 + gap'.text.length + 1 + inside.render.length + 1 := by
      simp only [List.length_append, List.length_nil]
      omega
    rw [List.nil_append] at hblock
    rw [render_doLoop_append, spansAfter_gap,
      spansAfter_do (hl.append gap.stops) gap'.isBlank_of_mem, hblock, spansAfter_braces ihInside,
      simpleEnd_front (gap''.notMem (by decide)) (gap''.notMem (by decide)),
      condition.simpleEnd_render (by decide), rest.simpleEnd_render, spansAfter_gap,
      condition.spansAfter_render (by decide) hstops,
      rest.statementEnd_render (hstops.append (condition.stops_render "while")) hr,
      ihRest (hstops.append (condition.stops_render "while")) hr, hplace, hbehind, hagain,
      hend, hleft, List.length_append]
    simp [spans]

/-! ### What is found -/

theorem loopSpans_render (hl : language.usesBraces = true) (program : Program language) :
    ∃ out, 0 + program.render.length ≤ out ∧
      loopSpans (language.mask program.render) = program.spans 0 out := by
  have hafter := program.spansAfter_render (show Stops [] from rfl) (show Closes [] from Or.inl rfl)
  rw [List.append_nil, ← loopSpans_eq_spansAfter] at hafter
  refine ⟨simpleEnd (between program.render []), ?_, ?_⟩
  · rw [simpleEnd_between]
    simp [Text.position?, textEnd_between]
  · rw [program.mask_render hl, hafter]
    exact List.append_nil _

theorem loopCount_render (hl : language.usesBraces = true) (program : Program language) :
    language.loopCount program.render = program.loops + program.doLoops := by
  obtain ⟨out, -, hspans⟩ := program.loopSpans_render hl
  rw [Language.loopCount, Language.loopCountOfMask, if_pos hl, hspans, program.length_spans]

theorem loopDepth_render (hl : language.usesBraces = true) (program : Program language) :
    language.loopDepth program.render = program.found 0 0 0 := by
  obtain ⟨out, hout, hspans⟩ := program.loopSpans_render hl
  apply eq_of_forall_ge_iff
  intro bound
  rw [Language.loopDepth, Language.loopDepthOfMask, if_pos hl, hspans]
  dsimp only
  rw [foldl_max_le_iff, List.forall_mem_map,
    ← program.forall_cover_le_iff hout 0 0 0 bound]
  simp only [cover_zero, Nat.zero_add]

/-- **The loops that are found in a program** are its loops and the conditions behind `do` blocks,
and they are nested as `found` says. That is never less than they are, and it is the nesting of the
loops if the conditions are closed. -/
theorem loops_found (hl : language.usesBraces = true) (program : Program language) :
    language.loopCount program.render = program.loops + program.doLoops ∧
      language.loopDepth program.render = program.found 0 0 0 ∧
      program.depth ≤ program.found 0 0 0 ∧
      (program.Closed → program.found 0 0 0 = program.depth) := by
  refine ⟨program.loopCount_render hl, program.loopDepth_render hl, ?_, ?_⟩
  · rcases Nat.eq_zero_or_pos program.depth with hd | hd
    · omega
    · have := program.add_depth_le_found 0 0 0 hd
      omega
  · intro hclosed
    rw [found_of_closed hclosed, Nat.zero_add]
    split_ifs with hd
    · exact hd.symm
    · rfl

end Program

/-- A `do` loop without its last semicolon, with a loop behind it:
`do { x; } while (c) for (a;b;c) { y; }` -/
def oneBehindOther : Program .javascript :=
  let x : Simple .javascript :=
    ⟨⟨"x".toList, by decide, by decide, by decide, by decide⟩, by decide⟩
  let y : Simple .javascript :=
    ⟨⟨"y".toList, by decide, by decide, by decide, by decide⟩, by decide⟩
  let c : Header .javascript :=
    ⟨⟨"c".toList, by decide, by decide, by decide, by decide⟩, .space, by decide⟩
  let steps : Header .javascript :=
    ⟨⟨"a;b;c".toList, by decide, by decide, by decide, by decide⟩, .space, by decide⟩
  .doLoop .empty .space (.simple .space x (.done .space)) .space c
    (.loop .space "for" for_mem_loopWords steps .space (.simple .space y (.done .space))
      (.done .empty))

/-- The condition is found as a third loop, around the `for` loop. -/
theorem Program.loops_found_oneBehindOther :
    Language.javascript.usesBraces = true ∧
      Language.javascript.loopCount "do { x; } while (c) for (a;b;c) { y; }".toList = 2 + 1 ∧
      Language.javascript.loopDepth "do { x; } while (c) for (a;b;c) { y; }".toList = 2 := by
  have h := loops_found (show Language.javascript.usesBraces = true from rfl) oneBehindOther
  exact ⟨rfl, h.1, h.2.1⟩

/-- Two loops that stand one behind the other are found to be three loops, nested in one another. -/
theorem Program.not_loops_oneBehindOther :
    oneBehindOther.render = "do { x; } while (c) for (a;b;c) { y; }".toList ∧
      Language.javascript.loopCount oneBehindOther.render ≠ oneBehindOther.loops ∧
      Language.javascript.loopDepth oneBehindOther.render ≠ oneBehindOther.depth := by
  rw [loopCount_render rfl, loopDepth_render rfl]
  exact ⟨by decide, by decide, by decide⟩

end Braced

end Snippet
