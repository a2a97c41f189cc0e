import Snippet.Proofs.Marks
import Snippet.Proofs.Masking
import Snippet.Proofs.PrintCalls
import Snippet.Proofs.RunStatus

/-!
# Printed literals are the output

A sequence of statements that each print one quoted literal (`Printing`) has the output that it
says: the texts one after the other, each with a line feed where the routine ends the line, without
line feeds at the end. The texts are arbitrary, they may hold quotes, brackets, commas and marks of
comments.

* `printCalls_sources`: the calls are found in order, each with its literal as the only argument,
* `literalOutput?_sources`: the literal output is the output of the statements,
* `run_sources`: in Python and JavaScript, a run prints it.
-/

namespace Snippet

open Pattern Place

/-- A statement that prints one quoted literal. -/
structure Printing where
  /-- What the statement prints with. -/
  routine : Routine
  /-- The text that is printed. -/
  text : Text
  /-- What stands between the statement and the next one, such as a semicolon and a line end. -/
  ending : Text
  ending_plain : ∀ c ∈ ending, c = ';' ∨ isBlank c = true

namespace Printing

/-- The text that the literal encodes. -/
def content (printing : Printing) : Text :=
  if printing.routine.takesFormat then Literal.doublePercents printing.text else printing.text

/-- The statement as it is written. -/
def source (printing : Printing) : Text :=
  (printing.routine.name.toList ++ ['(']) ++
    (Literal.quote printing.content ++ ')' :: printing.ending)

/-- What the statement prints. -/
def printed (printing : Printing) : Text :=
  printing.text ++ (if printing.routine.endsLine then ['\n'] else [])

/-- The statement as it stands in the mask. -/
def masked (printing : Printing) : Text :=
  (printing.routine.name.toList ++ ['(']) ++
    (Language.maskedQuote printing.content ++ ')' :: printing.ending)

/-- The call that the statement makes. -/
def call (printing : Printing) : PrintCall :=
  ⟨printing.routine, [Literal.quote printing.content], printing.routine.endsLine⟩

/-- Statements as they are written, one after the other. -/
def sources (printings : List Printing) : Text := printings.flatMap source

/-- What statements print together, without line feeds at the end. -/
def output (printings : List Printing) : Text :=
  Text.dropEndWhile (· == '\n') (printings.flatMap printed)

/-- The calls of statements, with their positions from `here` on. -/
def located (here : Nat) : List Printing → List (Nat × PrintCall)
  | [] => []
  | printing :: more => (here, printing.call) :: located (here + printing.source.length) more

/-! ### The mask of the statements -/

theorem length_masked (printing : Printing) : printing.masked.length = printing.source.length := by
  simp only [masked, source, List.length_append, Language.length_maskedQuote]

theorem isPlain_of_mem_opening (routine : Routine) :
    ∀ c ∈ routine.name.toList ++ ['('], isPlain c = true := by
  cases routine <;> decide

theorem isPlain_of_mem_closing (printing : Printing) :
    ∀ c ∈ ')' :: printing.ending, isPlain c = true := by
  intro c hc
  rcases List.mem_cons.mp hc with rfl | hc
  · decide
  · rcases printing.ending_plain c hc with rfl | hb
    · decide
    · exact isPlain_of_isBlank hb

/-- **The mask of the statements is known.** -/
theorem mask_sources (language : Language) (printings : List Printing) :
    language.mask (sources printings) = printings.flatMap masked := by
  rw [sources]
  induction printings with
  | nil => rw [List.flatMap_nil, List.flatMap_nil, Language.mask_nil]
  | cons printing more ih =>
    have hh : (')' :: printing.ending ++ more.flatMap source).head? ≠ some '"' := by simp
    have hs : printing.source ++ more.flatMap source =
        (printing.routine.name.toList ++ ['(']) ++
          (Literal.quote printing.content ++ (')' :: printing.ending ++ more.flatMap source)) := by
      simp only [source, List.append_assoc]
    rw [List.flatMap_cons, List.flatMap_cons, hs,
      language.mask_append_of_plain (isPlain_of_mem_opening printing.routine),
      language.mask_quote_append printing.content hh,
      language.mask_append_of_plain printing.isPlain_of_mem_closing, ih]
    simp only [masked, List.append_assoc]

/-! ### The calls -/

theorem isWord_of_mem_tail (printing : Printing) :
    ∀ c ∈ Language.maskedQuote printing.content ++ ')' :: printing.ending, isWord c = false := by
  intro c hc
  rcases List.mem_append.mp hc with hc | hc
  · rcases List.mem_cons.mp hc with rfl | hc
    · decide
    · rcases List.mem_append.mp hc with hc | hc
      · rw [List.eq_of_mem_replicate hc]
        decide
      · rw [List.mem_singleton.mp hc]
        decide
  · rcases List.mem_cons.mp hc with rfl | hc
    · decide
    · rcases printing.ending_plain c hc with rfl | hb
      · decide
      · exact isWord_of_isBlank hb

theorem avoids_masked {routine : Routine} {printing : Printing}
    (h : printing.routine ≠ routine) (left text : Text) :
    (PrintCall.callPattern routine).Avoids left printing.masked text := by
  rw [masked, List.append_assoc]
  refine (PrintCall.avoids_name h left _).append (PrintCall.avoids_of_forall ?_ _ text)
  intro c hc
  rcases List.mem_cons.mp hc with rfl | hc
  · decide
  · exact printing.isWord_of_mem_tail c hc

theorem closing?_tail (printing : Printing) (here : Nat) (text : Text) :
    Bracket.round.closing? 1 here (Language.maskedQuote printing.content ++ ')' :: text) =
      some (here + (Language.maskedQuote printing.content).length) := by
  rw [Bracket.closing?_append]
  · exact Bracket.closing?_closer _ text
  · intro c hc
    rcases List.mem_cons.mp hc with rfl | hc
    · decide
    · rcases List.mem_append.mp hc with hc | hc
      · rw [List.eq_of_mem_replicate hc]
        decide
      · rw [List.mem_singleton.mp hc]
        decide

theorem ne_comma_of_mem_maskedQuote (text : Text) :
    ∀ c ∈ Language.maskedQuote text, c ≠ ',' := by
  intro c hc
  rcases List.mem_cons.mp hc with rfl | hc
  · decide
  · rcases List.mem_append.mp hc with hc | hc
    · rw [List.eq_of_mem_replicate hc]
      decide
    · rw [List.mem_singleton.mp hc]
      decide

theorem trim_quote (text : Text) : Text.trim (Literal.quote text) = Literal.quote text := by
  refine Text.trim_eq_self rfl ?_
  rw [Literal.quote, ← List.cons_append, List.getLast?_concat]
  decide

theorem any_getLast?_masked (left : Text) (printing : Printing) :
    (left ++ printing.masked).getLast?.any Routine.isNamePart = false := by
  have hn : ')' :: printing.ending ≠ [] := List.cons_ne_nil _ _
  have hs : left ++ printing.masked =
      (left ++ (printing.routine.name.toList ++ ['('] ++
        Language.maskedQuote printing.content)) ++ ')' :: printing.ending := by
    simp only [masked, List.append_assoc]
  rw [hs, List.getLast?_append_of_ne_nil _ hn, List.getLast?_eq_getLast_of_ne_nil hn,
    Option.any_some]
  have hm := List.getLast_mem hn
  rcases List.mem_cons.mp hm with he | he
  · rw [he]
    decide
  · rcases printing.ending_plain _ he with he | hb
    · rw [he]
      decide
    · exact Routine.isNamePart_of_isBlank hb

/-- **The matches of a routine lead to the calls of its statements.** -/
theorem filterMap_matchesAfter (routine : Routine) (printings : List Printing) (front left : Text)
    (hf : front.length = left.length) (hl : left.getLast?.any Routine.isNamePart = false) :
    ((PrintCall.callPattern routine).matchesAfter left (printings.flatMap masked)).filterMap
        (PrintCall.ofMatch? (front ++ sources printings) (left ++ printings.flatMap masked)
          routine) =
      (located left.length printings).filter (·.2.routine = routine) := by
  induction printings generalizing front left with
  | nil => rfl
  | cons printing more ih =>
    have hn := any_getLast?_masked left printing
    have hlen : (front ++ printing.source).length = (left ++ printing.masked).length := by
      rw [List.length_append, List.length_append, printing.length_masked, hf]
    have hi := ih (front ++ printing.source) (left ++ printing.masked) hlen hn
    rw [List.length_append, printing.length_masked, List.append_assoc, List.append_assoc] at hi
    rw [sources, List.flatMap_cons, List.flatMap_cons, located]
    by_cases hr : printing.routine = routine
    · subst hr
      have htail : Language.maskedQuote printing.content ++
          ')' :: (printing.ending ++ more.flatMap masked) =
          (Language.maskedQuote printing.content ++ ')' :: printing.ending) ++
            more.flatMap masked := by
        simp only [List.append_assoc, List.cons_append]
      have hcall := PrintCall.filterMap_matchesAfter_call printing.routine
        (show front ++ (printing.source ++ sources more) = _ ++ (_ ++
          ')' :: (printing.ending ++ sources more)) by
            simp only [source, List.append_assoc, List.cons_append])
        (show left ++ (printing.masked ++ more.flatMap masked) = _ ++ (_ ++
          ')' :: (printing.ending ++ more.flatMap masked)) by
            simp only [masked, List.append_assoc, List.cons_append])
        hf (Language.length_maskedQuote printing.content).symm hl
        (fun here => printing.closing?_tail here _)
        (ne_comma_of_mem_maskedQuote printing.content) (trim_quote printing.content)
        (List.cons_ne_nil _ _)
      have hm : printing.masked ++ more.flatMap masked =
          (printing.routine.name.toList ++ ['(']) ++ (Language.maskedQuote printing.content ++
            ')' :: (printing.ending ++ more.flatMap masked)) := by
        simp only [masked, List.append_assoc, List.cons_append]
      rw [← hm, htail,
        matchesAfter_append (PrintCall.avoids_of_forall printing.isWord_of_mem_tail _ _),
        List.append_assoc left] at hcall
      rw [List.filter_cons_of_pos (by exact decide_eq_true rfl), ← hi]
      exact hcall
    · rw [matchesAfter_append (avoids_masked hr left _),
        List.filter_cons_of_neg (by rw [decide_eq_true_eq]; exact hr)]
      exact hi

theorem le_of_mem_located {printings : List Printing} {here : Nat} {found : Nat × PrintCall}
    (h : found ∈ located here printings) : here ≤ found.1 := by
  induction printings generalizing here with
  | nil => cases h
  | cons printing more ih =>
    rcases List.mem_cons.mp h with rfl | h
    · exact le_refl _
    · have := ih h
      omega

theorem located_pairwise (printings : List Printing) (here : Nat) :
    (located here printings).Pairwise fun a b => a.1 < b.1 := by
  induction printings generalizing here with
  | nil => exact List.Pairwise.nil
  | cons printing more ih =>
    have hs : 0 < printing.source.length := by simp [source]
    refine List.pairwise_cons.mpr ⟨?_, ih _⟩
    intro found hf
    have := le_of_mem_located hf
    show here < found.1
    omega

theorem map_located (printings : List Printing) (here : Nat) :
    (located here printings).map (·.2) = printings.map call := by
  induction printings generalizing here with
  | nil => rfl
  | cons printing more ih => rw [located, List.map_cons, List.map_cons, ih]

/-- **The calls are found in order, each with its literal as the only argument.** -/
theorem printCalls_sources {language : Language} (hc : language ≠ .cpp) {printings : List Printing}
    (h : ∀ printing ∈ printings, printing.routine ∈ language.routines) :
    language.printCalls (sources printings) = printings.map call := by
  have each : ∀ routine,
      PrintCall.ofRoutine (sources printings) (printings.flatMap masked) routine =
        (located 0 printings).filter (·.2.routine = routine) := fun routine =>
    filterMap_matchesAfter routine printings [] [] rfl rfl
  have hall : ∀ found ∈ located 0 printings, found.2.routine ∈ language.routines := by
    intro found hf
    have hm : found.2 ∈ printings.map call := by
      rw [← map_located printings 0]
      exact List.mem_map_of_mem hf
    obtain ⟨printing, hp, he⟩ := List.mem_map.mp hm
    rw [← he]
    exact h printing hp
  have hn : language.routines.Nodup := by cases language <;> decide
  rw [Language.printCalls, Language.printCallsByRoutine, if_neg hc, List.append_nil,
    mask_sources, funext each, mergeSort_eq_of_perm (flatMap_filter_perm hn hall)
      (located_pairwise printings 0), map_located]

/-! ### The literal output -/

theorem ofCall?_call (printing : Printing) :
    Literal.ofCall? printing.call = some printing.printed := by
  rw [Literal.ofCall?, call, printed]
  dsimp only
  by_cases ht : printing.routine.takesFormat = true
  · rw [if_pos ht, Literal.quoted?_quote, Option.bind_some, content, if_pos ht,
      Literal.formatted?_doublePercents]
    rfl
  · rw [if_neg ht, Literal.plain?, Literal.quoted?_quote, content, if_neg ht]
    rfl

theorem mapM_ofCall? (printings : List Printing) :
    (printings.map call).mapM Literal.ofCall? = some (printings.map printed) := by
  induction printings with
  | nil => rfl
  | cons printing more ih =>
    rw [List.map_cons, List.mapM_cons, ofCall?_call, ih]
    rfl

/-- **The literal output of the statements is what they print**, unless that is blank. -/
theorem literalOutput?_sources {language : Language} (hc : language ≠ .cpp)
    {printings : List Printing}
    (h : ∀ printing ∈ printings, printing.routine ∈ language.routines)
    (hn : Text.isBlankText (output printings) = false) :
    language.literalOutput? (sources printings) = some (output printings) := by
  have he : (printings.map call).isEmpty = false := by
    cases printings with
    | nil => cases hn
    | cons => rfl
  rw [Language.literalOutput?, printCalls_sources hc h, Literal.ofCalls?, he, mapM_ofCall?]
  show (if Text.isBlankText (Text.dropEndWhile _ (printings.map printed).flatten) = true then none
    else some (Text.dropEndWhile _ (printings.map printed).flatten)) = _
  rw [← List.flatMap_def, ← output, hn]
  rfl

/-! ### Runs -/

theorem mem_words_masked {printings : List Printing} {word : Text}
    (h : word ∈ Text.words (printings.flatMap masked)) :
    word = [] ∨ ∃ printing ∈ printings, word ∈ Text.words printing.routine.name.toList := by
  induction printings with
  | nil => exact Or.inl (List.mem_singleton.mp h)
  | cons printing more ih =>
    have hm : printing.masked ++ more.flatMap masked =
        printing.routine.name.toList ++ '(' :: ((Language.maskedQuote printing.content ++
          ')' :: printing.ending) ++ more.flatMap masked) := by
      simp only [masked, List.append_assoc, List.cons_append, List.nil_append]
    rw [List.flatMap_cons, hm, Text.words_append_cons _ (by decide)] at h
    rcases List.mem_append.mp h with h | h
    · exact Or.inr ⟨printing, List.mem_cons_self, h⟩
    · rcases Text.mem_words_append printing.isWord_of_mem_tail h with h | h
      · exact Or.inl h
      · rcases ih h with h | ⟨other, ho, h⟩
        · exact Or.inl h
        · exact Or.inr ⟨other, List.mem_cons_of_mem _ ho, h⟩

theorem lacks_mask {language : Language} {printings : List Printing} {options : List Text}
    (h : ∀ printing ∈ printings, printing.routine ∈ language.routines)
    (ho : ∀ word ∈ options, word ≠ [] ∧ ∀ routine ∈ language.routines,
      word ∉ Text.words routine.name.toList) :
    (language.mask (sources printings)).Lacks options := by
  intro word hw hm
  rw [mask_sources] at hm
  obtain ⟨hn, hr⟩ := ho word hw
  rcases mem_words_masked hm with he | ⟨printing, hp, hm⟩
  · exact hn he
  · exact hr printing.routine (h printing hp) hm

theorem count_masked (printing : Printing) {c : Char} (hn : Routine.isNamePart c = false)
    (hq : c ≠ '"') (hs : c ≠ ';') (hb : isBlank c = false) :
    printing.masked.count c = ['(', ')'].count c := by
  have hname : c ∉ printing.routine.name.toList := by
    intro hm
    rw [Routine.isNamePart_of_mem_name _ c hm] at hn
    cases hn
  have hquote : c ∉ Language.maskedQuote printing.content := by
    intro hm
    rcases List.mem_cons.mp hm with he | hm
    · exact hq he
    · rcases List.mem_append.mp hm with hm | hm
      · rw [List.eq_of_mem_replicate hm] at hb
        revert hb
        decide
      · exact hq (List.mem_singleton.mp hm)
  have hending : c ∉ printing.ending := by
    intro hm
    rcases printing.ending_plain c hm with he | hb'
    · exact hs he
    · rw [hb] at hb'
      cases hb'
  simp only [masked, List.count_append, List.count_cons, List.count_nil,
    List.count_eq_zero_of_not_mem hname, List.count_eq_zero_of_not_mem hquote,
    List.count_eq_zero_of_not_mem hending]
  omega

theorem count_flatMap_masked (printings : List Printing) {c d : Char}
    (hc : ∀ printing : Printing, printing.masked.count c = printing.masked.count d) :
    (printings.flatMap masked).count c = (printings.flatMap masked).count d := by
  induction printings with
  | nil => rfl
  | cons printing more ih =>
    rw [List.flatMap_cons, List.count_append, List.count_append, hc printing, ih]

theorem diagnose_sources {language : Language} (hl : language = .python ∨ language = .javascript)
    {printings : List Printing}
    (h : ∀ printing ∈ printings, printing.routine ∈ language.routines) (requireMain : Bool) :
    language.diagnose requireMain (sources printings) = none := by
  refine Language.diagnose_eq_none hl (fun _ => Or.inl ?_) ?_ ?_ ?_
  · exact lacks_mask h (by rcases hl with rfl | rfl <;> decide)
  · rw [mask_sources]
    refine count_flatMap_masked printings fun printing => ?_
    rw [printing.count_masked (by decide) (by decide) (by decide) (by decide),
      printing.count_masked (by decide) (by decide) (by decide) (by decide)]
    decide
  · rw [mask_sources]
    refine count_flatMap_masked printings fun printing => ?_
    rw [printing.count_masked (by decide) (by decide) (by decide) (by decide),
      printing.count_masked (by decide) (by decide) (by decide) (by decide)]
    decide
  · exact lacks_mask h (by rcases hl with rfl | rfl <;> decide)

theorem hasBlockingInput_sources {language : Language}
    (hl : language = .python ∨ language = .javascript) {printings : List Printing}
    (h : ∀ printing ∈ printings, printing.routine ∈ language.routines) :
    language.hasBlockingInput (sources printings) = false :=
  Language.hasBlockingInput_eq_false hl (lacks_mask h (by rcases hl with rfl | rfl <;> decide))

theorem isBlankText_sources {printings : List Printing}
    (hn : Text.isBlankText (output printings) = false) :
    Text.isBlankText (sources printings) = false := by
  cases printings with
  | nil => cases hn
  | cons printing more =>
    have hp : '(' ∈ sources (printing :: more) := by simp [sources, source]
    exact Text.isBlankText_eq_false hp (by decide)

/-- **Printed literals are the output.** Their concatenation is the literal output in every language
whose routines print them, and in Python and JavaScript it is what a run in time prints. -/
theorem output_of_sources {language : Language} (hc : language ≠ .cpp) {printings : List Printing}
    (h : ∀ printing ∈ printings, printing.routine ∈ language.routines)
    (hn : Text.isBlankText (output printings) = false) :
    language.literalOutput? (sources printings) = some (output printings) ∧
    ∀ (runner : Runner) (clock : Clock) (request : RunRequest),
      language = .python ∨ language = .javascript → runner.chain = Detector.standard →
      runner.InTime clock request.draw → runner.failure? request.draw = none →
      request.code = some (sources printings) →
      Language.parse request.language = .ok language →
      ∃ result after, runner.run clock request = (.valid result, after) ∧
        result.status = .success ∧ result.output = String.ofList (output printings) := by
  have hlit := literalOutput?_sources hc h hn
  refine ⟨hlit, ?_⟩
  intro runner clock request hl hchain ht hf hcode hparse
  obtain ⟨result, after, hr, hrep⟩ := Runner.run_reports ht hcode (isBlankText_sources hn) hparse
  have hw : Detector.winner? language (sources printings) = some .literalOutput :=
    Detector.winner?_literalOutput (hasBlockingInput_sources hl h) (by rw [hlit]; rfl)
  obtain ⟨text, _, htext, hp⟩ := Runner.print_of_literal hchain hw
  obtain rfl := Option.some.inj (hlit.symm.trans htext)
  rw [Runner.attempt, diagnose_sources hl h, hf] at hrep
  dsimp only at hrep
  rw [hp] at hrep
  exact ⟨result, after, hr, hrep⟩

/-- Two lines in JavaScript, with quotes, a comma, brackets and marks of comments in the texts. -/
def twoLines : List Printing :=
  [⟨.consoleLog, "say \"hi\", // 100% )".toList, ";\n".toList, by decide⟩,
    ⟨.consoleLog, "done\n".toList, ";".toList, by decide⟩]

theorem output_of_sources_twoLines :
    (∀ printing ∈ twoLines, printing.routine ∈ Language.javascript.routines) ∧
    Text.isBlankText (output twoLines) = false ∧ ({} : Runner).InTime [] {} ∧
    Language.javascript.literalOutput? (sources twoLines) = some (output twoLines) ∧
    ∃ result after,
      ({} : Runner).run [] ⟨some (sources twoLines), .str "js", {}⟩ = (.valid result, after) ∧
      result.status = .success ∧ result.output = "say \"hi\", // 100% )\ndone" := by
  have hr : ∀ printing ∈ twoLines, printing.routine ∈ Language.javascript.routines := by decide
  have hn : Text.isBlankText (output twoLines) = false := by decide
  have ht : ({} : Runner).InTime [] {} :=
    ⟨⟨by decide, by decide, 0, by decide, by decide⟩, by decide +kernel⟩
  have ho : Language.ofText? "js".toList = some .javascript := by decide
  have hl : Language.parse (.str "js") = .ok .javascript := by rw [Language.parse, ho]
  have hout : String.ofList (output twoLines) = "say \"hi\", // 100% )\ndone" := by decide
  obtain ⟨hlit, hrun⟩ := output_of_sources (by decide) hr hn
  obtain ⟨result, after, hres, hs, he⟩ :=
    hrun {} [] ⟨some (sources twoLines), .str "js", {}⟩ (Or.inr rfl) rfl ht rfl rfl hl
  exact ⟨hr, hn, ht, hlit, result, after, hres, hs, he.trans hout⟩

end Printing

end Snippet
