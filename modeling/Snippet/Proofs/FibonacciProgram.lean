import Snippet.Advice
import Snippet.Proofs.FibonacciMarks
import Snippet.Proofs.LoopQuestions
import Snippet.Proofs.LoopWords
import Snippet.Proofs.RunStatus

/-!
# The doubly recursive Fibonacci program

The usual programs that define Fibonacci numbers by double recursion and print one of them
(`FibonacciStyle.code`), for every name of the function that holds `fib`, every number that is not
too long to be read and all blanks.

* `hasRecursiveFibonacci_code`: the growth is exponential, and the advice is that for Fibonacci,
* `printCalls_code`: the only print call is that of the number,
* `winner?_code`, `extract_code`: the program is taken for a Fibonacci program with that number.

`results_of_code` puts these together.
-/

namespace Snippet

open Pattern Place

/-- A way to write the program. -/
inductive FibonacciStyle where
  | python
  | javascript
  /-- In JavaScript, with braces around the base case. -/
  | javascriptBraces
  deriving DecidableEq, Repr

namespace FibonacciStyle

/-- The language of a style. -/
def language : FibonacciStyle → Language
  | python => .python
  | javascript | javascriptBraces => .javascript

/-- What the number is printed with. -/
def routine : FibonacciStyle → Routine
  | python => .print
  | javascript | javascriptBraces => .consoleLog

/-- The head of the definition and the base case. -/
def opening : FibonacciStyle → Template
  | python =>
    [.fixed "def ", .name, .fixed "(n):", .blank 0, .fixed "if n <= 1:", .blank 1,
      .fixed "return n\n", .blank 2]
  | javascript =>
    [.fixed "function ", .name, .fixed "(n) \x7b", .blank 0, .fixed "if (n <= 1)", .blank 1,
      .fixed "return n;", .blank 2]
  | javascriptBraces =>
    [.fixed "function ", .name, .fixed "(n) \x7b", .blank 0, .fixed "if (n <= 1) \x7b", .blank 1,
      .fixed "return n;", .blank 9, .fixed "\x7d", .blank 2]

/-- The variable less a digit. -/
def predecessor (index : Nat) (digit : Char) : Template :=
  [.fixed "n", .blank index, .fixed "-", .blank (index + 1), .fixed (String.singleton digit)]

/-- The recursive case up to the first argument. -/
def recursiveCase : Template := [.fixed "return", .fixed " ", .name, .fixed "("]

/-- What stands between the arguments of the recursive case. -/
def plus : Template := [.fixed ") + ", .name, .fixed "("]

/-- The end of the definition. -/
def closing : FibonacciStyle → Template
  | python => [.fixed ")\n", .blank 7]
  | javascript | javascriptBraces => [.fixed ");", .blank 7, .fixed "\x7d", .blank 8]

/-- The definition of the function. -/
def definition (style : FibonacciStyle) : Template :=
  style.opening ++ (recursiveCase ++
    (predecessor 3 '1' ++ (plus ++ (predecessor 5 '2' ++ style.closing))))

/-- The start of the call that prints. -/
def call (style : FibonacciStyle) : Template := [.fixed style.routine.name, .fixed "("]

/-- The call that is printed. -/
def argument : Template := [.name, .fixed "(", .numeral, .fixed ")"]

/-- The end of the program, from the parenthesis behind the printed call on. -/
def ending : FibonacciStyle → Template
  | python => [.fixed ")", .blank 10]
  | javascript | javascriptBraces => [.fixed ")", .fixed ";", .blank 10]

/-- The program, with holes. -/
def template (style : FibonacciStyle) : Template :=
  style.definition ++ (style.call ++ (argument ++ style.ending))

/-- The program. -/
def code (style : FibonacciStyle) (filling : Filling) : Text := style.template.render filling

variable (style : FibonacciStyle) (filling : Filling)

/-! ### The text of the program -/

theorem render_argument :
    argument.render filling = filling.name ++ ['('] ++ filling.numeral ++ [')'] := by
  simp [argument, Template.render, Piece.text]

theorem code_eq : style.code filling =
    style.definition.render filling ++ ((style.routine.name.toList ++ ['(']) ++
      (argument.render filling ++ style.ending.render filling)) := by
  rw [code, template, Template.render_append, Template.render_append, Template.render_append]
  simp [call, Template.render, Piece.text]

theorem mask_code : style.language.mask (style.code filling) = style.code filling := by
  refine Template.mask_render _ ?_
  cases style <;> decide

/-- Words that the marks of other programs need. -/
def foreignWords : List Text :=
  Language.inputWords ++
    ["while".toList, "for".toList, "do".toList, "range".toList, "var".toList]

/-- **None of these words is in the program**, whatever it is filled with. -/
theorem lacks_foreignWords :
    (style.language.mask (style.code filling)).Lacks foreignWords := by
  rw [mask_code]
  refine Template.lacks_render ?_ (by decide) ?_ <;> cases style <;> decide

theorem count_code {c : Char} (hw : isWord c = false) (hb : isBlank c = false) :
    (style.language.mask (style.code filling)).count c = style.template.fixedText.count c := by
  rw [mask_code]
  exact Template.count_render hw hb

/-- The program has no loops, so no frames are needed for them. -/
theorem isShallow_code (frames : Nat) : style.language.IsShallow frames (style.code filling) := by
  intro _ header hm
  have hnone : loopHeader.matchesIn (style.language.mask (style.code filling)) = [] := by
    rw [matchesIn_eq_matchesAfter]
    exact matchesAfter_eq_nil (opens_loopHeader.avoids (by decide)
      ((style.lacks_foreignWords filling).of_subset (by decide)) (Or.inr rfl))
  rw [hnone] at hm
  cases hm

theorem isBlankText_code : Text.isBlankText (style.code filling) = false := by
  have hp : '(' ∈ style.code filling := by rw [code_eq]; simp
  exact Text.isBlankText_eq_false hp (by decide)

/-! ### The form -/

theorem language_eq : style.language = .python ∨ style.language = .javascript := by
  cases style with
  | python => exact Or.inl rfl
  | _ => exact Or.inr rfl

theorem hasBlockingInput_code : style.language.hasBlockingInput (style.code filling) = false :=
  Language.hasBlockingInput_eq_false style.language_eq
    ((style.lacks_foreignWords filling).of_subset (by decide))

theorem diagnose_code (requireMain : Bool) :
    style.language.diagnose requireMain (style.code filling) = none := by
  refine Language.diagnose_eq_none style.language_eq (fun hl => Or.inr ?_) ?_ ?_
    ((style.lacks_foreignWords filling).of_subset (by decide))
  · rw [← List.count_pos_iff, count_code _ _ (by decide) (by decide)]
    revert hl
    cases style <;> decide
  · rw [count_code _ _ (by decide) (by decide), count_code _ _ (by decide) (by decide)]
    cases style <;> decide
  · rw [count_code _ _ (by decide) (by decide), count_code _ _ (by decide) (by decide)]
    cases style <;> decide

/-! ### The marks of recursion -/

theorem occursIn_keyword {s : String} {front back : Template}
    (hs : ∀ c ∈ s.toList, isWord c = true) (hn : s.toList ≠ [])
    (hf : front.mayEndIn isWord = false) (hb : back.opensInWord = false) :
    (keyword s).occursIn (Template.render (front ++ .fixed s :: back) filling) = true := by
  rw [Template.render_append, Template.render_cons]
  exact occursIn_of_fits (fits_keyword hs hn
    (Template.any_getLast?_render (fun _ => isWord_of_isBlank) hf) (Template.any_head?_render hb))

theorem occursIn_nMinus {index : Nat} {digit : Char} {front back : Template}
    (hd : isWord digit = true) (hf : front.mayEndIn isWord = false)
    (hb : back.opensInWord = false) :
    (Vocabulary.nMinus digit).occursIn
      (Template.render (front ++ (predecessor index digit ++ back)) filling) = true := by
  have hp : (predecessor index digit).render filling =
      'n' :: (filling.blanks index ++ ['-'] ++ (filling.blanks (index + 1) ++ [digit])) := by
    simp [predecessor, Template.render, Piece.text]
  rw [Template.render_append, Template.render_append, hp]
  exact occursIn_of_fits (Vocabulary.fits_nMinus hd
    (Template.any_getLast?_render (fun _ => isWord_of_isBlank) hf) (Template.any_head?_render hb)
    (filling.blanks_blank _) (filling.blanks_blank _))

theorem mentionsFibonacci_code : style.language.mentionsFibonacci (style.code filling) = true := by
  obtain ⟨front, middle, back, hname, hf⟩ := Vocabulary.fits_fib filling.holdsFib
  have hn : Piece.name ∈ style.template := by cases style <;> decide
  obtain ⟨before, after, ht⟩ := List.append_of_mem hn
  have hcode : style.code filling = (Template.render before filling ++ front) ++
      (middle ++ (back ++ Template.render after filling)) := by
    rw [code, ht, Template.render_append, Template.render_cons, Piece.text, hname]
    simp only [List.append_assoc]
  rw [Language.mentionsFibonacci, mask_code, hcode]
  exact occursIn_of_fits (hf _ _ _)

theorem hasFibonacciSubtraction_code :
    style.language.hasFibonacciSubtraction (style.code filling) = true := by
  have first : style.template = (style.opening ++ recursiveCase) ++
      (predecessor 3 '1' ++ (plus ++ (predecessor 5 '2' ++ (style.closing ++
        (style.call ++ (argument ++ style.ending)))))) := by
    simp only [template, definition, List.append_assoc]
  have second : style.template =
      (style.opening ++ (recursiveCase ++ (predecessor 3 '1' ++ plus))) ++
        (predecessor 5 '2' ++ (style.closing ++ (style.call ++ (argument ++ style.ending)))) := by
    simp only [template, definition, List.append_assoc]
  rw [Language.hasFibonacciSubtraction, mask_code, Bool.and_eq_true]
  constructor
  · rw [code, first]
    refine occursIn_nMinus filling (by decide) ?_ ?_ <;> cases style <;> decide
  · rw [code, second]
    refine occursIn_nMinus filling (by decide) ?_ ?_ <;> cases style <;> decide

/-- **The program looks like the doubly recursive definition.** -/
theorem hasRecursiveFibonacci_code :
    style.language.hasRecursiveFibonacci (style.code filling) = true := by
  have hr : (keyword "return").occursIn (style.language.mask (style.code filling)) = true := by
    have ht : style.template = style.opening ++ .fixed "return" :: (recursiveCase.tail ++
        (predecessor 3 '1' ++ (plus ++ (predecessor 5 '2' ++ (style.closing ++
          (style.call ++ (argument ++ style.ending))))))) := by
      simp only [template, definition, recursiveCase, List.append_assoc, List.cons_append,
        List.tail_cons]
    rw [mask_code, code, ht]
    refine occursIn_keyword filling (by decide) (by decide) ?_ ?_ <;> cases style <;> decide
  rw [Language.hasRecursiveFibonacci, mentionsFibonacci_code, hasFibonacciSubtraction_code, hr]
  rfl

/-! ### Growth and advice -/

theorem growthProfile_code :
    growthProfile GrowthRule.standard style.language (style.code filling) =
      GrowthRule.fibonacciRecursion.profile := by
  have h : GrowthRule.fibonacciRecursion.applies style.language (style.code filling) = true :=
    style.hasRecursiveFibonacci_code filling
  simp only [growthProfile, GrowthRule.standard, List.find?, h]

theorem lacks_idiom (idiom : Idiom) (hl : idiom.language = style.language) :
    Advice.lacks idiom (style.language.mask (style.code filling)) = false := by
  have hw := style.lacks_foreignWords filling
  cases idiom with
  | enumerate =>
    have hn : Advice.rangeOfLength.Needs ["range".toList] :=
      (((needs_callOf (s := "range") (by decide) (by decide)).append _).append _).append _
    exact occursIn_eq_false_of_needs hn (hw.of_subset (by decide))
  | letConst =>
    have hn : Advice.varDeclaration.Needs ["var".toList] :=
      ((needs_keyword (by decide) (by decide)).append _).append _
    exact occursIn_eq_false_of_needs hn (hw.of_subset (by decide))
  | enhancedFor => cases style <;> cases hl
  | reserve => cases style <;> cases hl

/-- **The advice is that on Fibonacci numbers, and no other.** -/
theorem advise_code (worst : Growth) :
    advise style.language (style.code filling) worst = Advice.onFibonacci style.language worst := by
  have hidioms : (Idiom.all.filter fun idiom => idiom.language == style.language &&
      Advice.lacks idiom (style.language.mask (style.code filling))) = [] := by
    refine List.filter_eq_nil_iff.mpr fun idiom _ h => ?_
    rw [Bool.and_eq_true, beq_iff_eq] at h
    rw [lacks_idiom style filling idiom h.1] at h
    cases h.2
  have hr := style.hasRecursiveFibonacci_code filling
  rw [advise, Advice.byShape, Advice.byIdiom, if_pos hr, hidioms, hr]
  simp

/-! ### The call that prints -/

theorem closing?_argument (here : Nat) (text : Text) :
    Bracket.round.closing? 1 here (argument.render filling ++ ')' :: text) =
      some (here + (argument.render filling).length) := by
  have hp : ∀ c, isWord c = true → c ≠ Bracket.round.opener ∧ c ≠ Bracket.round.closer :=
    fun c hc => ⟨ne_of_isWord hc (by decide), ne_of_isWord hc (by decide)⟩
  have hname : ∀ c ∈ filling.name, c ≠ Bracket.round.opener ∧ c ≠ Bracket.round.closer :=
    fun c hc => hp c (filling.isWord_of_mem_name c hc)
  have hnumeral : ∀ c ∈ filling.numeral, c ≠ Bracket.round.opener ∧ c ≠ Bracket.round.closer :=
    fun c hc => hp c (Numeral.isWord_of_mem_digits hc)
  have hs : argument.render filling ++ ')' :: text =
      filling.name ++ '(' :: (filling.numeral ++ ')' :: ')' :: text) := by
    rw [render_argument]
    simp only [List.append_assoc, List.cons_append, List.nil_append]
  have hl :
      (argument.render filling).length = filling.name.length + filling.numeral.length + 2 := by
    rw [render_argument]
    simp only [List.length_append, List.length_cons, List.length_nil]
    omega
  rw [hs, hl, Bracket.closing?_append hname]
  show Bracket.round.closing? 2 _ (filling.numeral ++ ')' :: ')' :: text) = _
  rw [Bracket.closing?_append hnumeral]
  show Bracket.round.closing? 1 _ (Bracket.round.closer :: text) = _
  rw [Bracket.closing?_closer]
  congr 1
  omega

theorem ne_comma_of_mem_argument : ∀ c ∈ argument.render filling, c ≠ ',' := by
  rintro c hc rfl
  rcases Template.mem_render hc with hc | hc | hc <;> revert hc <;> decide

theorem head?_argument : (argument.render filling).head?.any isNameStart = true := by
  rw [render_argument, List.append_assoc, List.append_assoc,
    List.head?_append_of_ne_nil _ filling.name_ne_nil]
  exact filling.head?_name

theorem trim_argument : Text.trim (argument.render filling) = argument.render filling := by
  have hh := head?_argument filling
  refine Text.trim_eq_self ?_ ?_
  · cases ha : argument.render filling with
    | nil => rfl
    | cons c tail =>
      rw [ha, List.head?_cons, Option.any_some] at hh
      rw [List.head?_cons, Option.any_some, ← Bool.not_eq_true]
      intro hb
      have hw := isWord_of_isNameStart hh
      rw [isWord_of_isBlank hb] at hw
      cases hw
  · rw [render_argument, List.getLast?_concat]
    decide

theorem avoids_render {routine : Routine} {template : Template}
    (hs : template.isSeparated = true)
    (hf : ∀ piece ∈ template, routine.firstWord ∉ Text.words piece.fixedText)
    (hl : template.mayEndIn isWord = false) (left text : Text) :
    (PrintCall.callPattern routine).Avoids left (template.render filling) text := by
  have hw : ∀ word ∈ [routine.firstWord], ¬ "fib".toList <:+: word.map Char.toLower ∧
      ∃ c ∈ word, c ∉ decimalDigits := by
    cases routine <;> decide
  refine PrintCall.avoids_of_not_mem_words ?_ ?_ left text
  · refine Template.lacks_render hs hw ?_ _ (List.mem_singleton_self _)
    intro piece hp word hm
    rw [List.mem_singleton.mp hm]
    exact hf piece hp
  · exact Template.any_getLast?_render (fun _ => isWord_of_isBlank) hl

theorem ofRoutine_code :
    PrintCall.ofRoutine (style.code filling) (style.code filling) style.routine =
      [((style.definition.render filling).length,
        ⟨style.routine, [argument.render filling], style.routine.endsLine⟩)] := by
  obtain ⟨back, hback⟩ : ∃ back, style.ending.render filling = ')' :: back := by
    cases style <;> exact ⟨_, rfl⟩
  have hsplit : style.code filling = style.definition.render filling ++
      (style.routine.name.toList ++ ['(']) ++ (argument.render filling ++ ')' :: back) := by
    rw [code_eq, hback, ← List.append_assoc]
  have hdefinition : ∀ text, (PrintCall.callPattern style.routine).Avoids []
      (style.definition.render filling) text := by
    refine avoids_render filling ?_ ?_ ?_ [] <;> cases style <;> decide
  have hmatches : (PrintCall.callPattern style.routine).matchesAfter [] (style.code filling) =
      (PrintCall.callPattern style.routine).matchesAfter (style.definition.render filling)
        ((style.routine.name.toList ++ ['(']) ++ (argument.render filling ++ ')' :: back)) := by
    rw [hsplit, List.append_assoc, matchesAfter_append (hdefinition _), List.nil_append]
  have hrest : ∀ left, (PrintCall.callPattern style.routine).Avoids left
      (argument.render filling ++ ')' :: back) [] := by
    intro left
    rw [← hback, ← Template.render_append]
    refine avoids_render filling ?_ ?_ ?_ left [] <;> cases style <;> decide
  have hlast : (style.definition.render filling).getLast?.any Routine.isNamePart = false := by
    refine Template.any_getLast?_render (fun _ => Routine.isNamePart_of_isBlank) ?_
    cases style <;> decide
  have hne : argument.render filling ≠ [] := by rw [render_argument]; simp
  rw [PrintCall.ofRoutine_eq_filterMap, matchesIn_eq_matchesAfter, hmatches,
    PrintCall.filterMap_matchesAfter_call style.routine hsplit hsplit rfl rfl hlast
      (fun here => closing?_argument filling here back) (ne_comma_of_mem_argument filling)
      (trim_argument filling) hne, matchesAfter_eq_nil (hrest _)]
  rfl

/-- **The only call that prints is that of the number.** -/
theorem printCalls_code : style.language.printCalls (style.code filling) =
    [⟨style.routine, [argument.render filling], style.routine.endsLine⟩] := by
  have hroutines : style.language.routines = [style.routine] := by cases style <;> rfl
  have hcpp : style.language ≠ .cpp := by cases style <;> decide
  rw [Language.printCalls, Language.printCallsByRoutine, if_neg hcpp, mask_code, hroutines]
  simp [ofRoutine_code]

/-! ### What the program is taken for -/

theorem literalOutput?_code : style.language.literalOutput? (style.code filling) = none := by
  have hf : style.routine.takesFormat = false := by cases style <;> rfl
  have hp : Literal.plain? (argument.render filling) = none := by
    refine Literal.plain?_eq_none (head?_argument filling) ?_
    rw [render_argument]
    simp
  rw [Language.literalOutput?, printCalls_code, Literal.ofCalls?]
  simp [Literal.ofCall?, hf, hp]

/-- **The program is taken for a Fibonacci program.** -/
theorem winner?_code :
    Detector.winner? style.language (style.code filling) = some .fibonacci := by
  refine Detector.winner?_fibonacci (style.hasBlockingInput_code filling)
    (style.literalOutput?_code filling) ?_
  rw [Language.hasFibonacciShape, mentionsFibonacci_code, hasFibonacciSubtraction_code]
  rfl

theorem fibonacciNumeral?_code :
    style.language.fibonacciNumeral? (style.code filling) = some filling.numeral := by
  obtain ⟨found, hs, ht⟩ := Vocabulary.search?_numeral filling
  rw [← render_argument] at hs
  rw [Language.fibonacciNumeral?, printCalls_code]
  simp [hs, ht]

theorem printsFibonacciCall_code :
    Detector.printsFibonacciCall style.language (style.code filling) = true := by
  have hcall : Vocabulary.fibonacciCall.occursIn (argument.render filling) = true := by
    have hf : Vocabulary.fibonacciCall.Fits [] (filling.name ++ ['('])
        (filling.numeral ++ [')']) [] [] :=
      Vocabulary.fits_fibonacciCall filling.isWord_of_mem_name filling.holdsFib
    have ho := occursIn_of_fits hf
    rwa [List.nil_append, ← List.append_assoc, ← render_argument] at ho
  rw [Detector.printsFibonacciCall, printCalls_code]
  simp [hcall]

/-- **The number that is printed is read back.** -/
theorem extract_code :
    Detector.extract .fibonacci style.language (style.code filling) =
      .ok (.fibonacci filling.number true) := by
  rw [Detector.extract, Language.fibonacciArgument, fibonacciNumeral?_code,
    printsFibonacciCall_code]
  dsimp only
  rw [Filling.numeral, Numeral.read_digits filling.length_le]
  rfl

/-! ### What the run, the growth and the advice say -/

theorem print_code {runner : Runner} (hc : runner.chain = Detector.standard)
    (hm : runner.maximum ≤ 20000) :
    runner.print style.language (style.code filling) =
      if runner.maximum < filling.number then
        .error (.synthesis (Synthesis.refusal runner.maximum filling.number))
      else .ok (toString (Nat.fib filling.number)) := by
  have hp := Runner.print_of_fibonacci_of_extract hc hm (style.winner?_code filling)
    (style.extract_code filling)
  rwa [if_pos rfl, Int.toNat_natCast] at hp

/-- The number 10 under the name `myFib`, laid out for Python. -/
def myFib : Filling where
  name := "myFib".toList
  number := 10
  blanks
    | 0 => "\n    ".toList
    | 1 => "\n        ".toList
    | 2 => "    ".toList
    | 7 | 10 => ['\n']
    | _ => []
  isName := by decide
  holdsFib := by decide
  length_le := by decide
  blanks_blank := by
    intro index
    split <;> decide

example : python.code myFib =
    ("def myFib(n):\n    if n <= 1:\n        return n\n    return myFib(n-1) + myFib(n-2)\n\n" ++
      "print(myFib(10))\n").toList := by
  decide

end FibonacciStyle

end Snippet
