import Snippet.Vocabulary
import Snippet.Diagnostic
import Snippet.Proofs.WholeWord

/-!
# The words that marks need

A program that waits for input, an unfinished block and an endless loop are recognised by marks that
each need one of a few words. A snippet in Python or JavaScript without these words does not wait
for input (`hasBlockingInput_eq_false`) and is passed by the checks of its form, as long as its
brackets are in balance (`diagnose_eq_none`).
-/

namespace Snippet

open Pattern

/-- Whether some words are all missing in a text. -/
def Text.Lacks (text : Text) (options : List Text) : Prop := ∀ word ∈ options, word ∉ text.words

instance (text : Text) (options : List Text) : Decidable (text.Lacks options) :=
  inferInstanceAs (Decidable (∀ word ∈ options, word ∉ text.words))

theorem Text.Lacks.of_subset {text : Text} {options fewer : List Text} (h : text.Lacks options)
    (hs : fewer ⊆ options) : text.Lacks fewer := fun word hw => h word (hs hw)

/-- Where no word goes on across a cut, it is enough to know the two parts. -/
theorem Text.Lacks.append {text more : Text} {options : List Text} (h : text.Lacks options)
    (h' : more.Lacks options)
    (hc : text.getLast?.any isWord = false ∨ more.head?.any isWord = false) :
    Text.Lacks (text ++ more) options := by
  intro word hw hm
  rcases Text.mem_words_of_append hc hm with hm | hm
  · exact h word hw hm
  · exact h' word hw hm

theorem Text.lacks_of_forall {text : Text} {options : List Text} (h : ∀ c ∈ text, isWord c = false)
    (hn : ∀ word ∈ options, word ≠ []) : text.Lacks options := by
  intro word hw hm
  rw [← List.append_nil text] at hm
  rcases Text.mem_words_append h hm with rfl | hm
  · exact hn [] hw rfl
  · exact hn word hw (List.mem_singleton.mp hm)

namespace Language

variable {code : Text}

/-! ### Waiting for input -/

theorem hasBlockingInput_python
    (h : (python.mask code).Lacks ["input".toList, "sys".toList]) :
    python.hasBlockingInput code = false := by
  have hi : (callOf "input").Needs ["input".toList] := needs_callOf (by decide) (by decide)
  have hs : (keyword "sys.stdin").Needs ["sys".toList] :=
    (needs_lit_cons (show "sys.stdin".toList = "sys".toList ++ '.' :: "stdin".toList by rfl)
      (by decide) (by decide) (by decide)).append edge
  exact occursIn_eq_false_of_needs (hi.either hs) h

theorem hasBlockingInput_javascript
    (h : (javascript.mask code).Lacks
      ["prompt".toList, "readline".toList, "process".toList]) :
    javascript.hasBlockingInput code = false := by
  have hp : (callOf "prompt").Needs ["prompt".toList] := needs_callOf (by decide) (by decide)
  have hr : (keyword "readline").Needs ["readline".toList] := needs_keyword (by decide) (by decide)
  have hs : (keyword "process.stdin").Needs ["process".toList] :=
    (needs_lit_cons
      (show "process.stdin".toList = "process".toList ++ '.' :: "stdin".toList by rfl)
      (by decide) (by decide) (by decide)).append edge
  exact occursIn_eq_false_of_needs (hp.either (hr.either hs)) h

/-- The words that the marks of waiting for input need, in Python and in JavaScript. -/
def inputWords : List Text :=
  ["input".toList, "sys".toList, "prompt".toList, "readline".toList, "process".toList]

/-- **A snippet without the words of input does not wait for input.** -/
theorem hasBlockingInput_eq_false {language : Language}
    (hl : language = .python ∨ language = .javascript)
    (h : (language.mask code).Lacks inputWords) : language.hasBlockingInput code = false := by
  rcases hl with rfl | rfl
  · exact hasBlockingInput_python (h.of_subset (by decide))
  · exact hasBlockingInput_javascript (h.of_subset (by decide))

end Language

/-! ### Blocks and loops -/

namespace FormRule

theorem needs_blockWord : blockWord.Needs ["def".toList, "if".toList, "for".toList] :=
  @needs_firstOf ["def", "if", "for"] (by decide) _ endsWord_isBlank

theorem needs_endless : endless.Needs ["while".toList, "while".toList, "for".toList] := by
  have hw : (edge ++ lit "while" ++ someBlanks).Needs ["while".toList] :=
    needs_lit (by decide) (by decide) endsWord_someBlanks
  have hp : (edge ++ lit "while" ++ next '(').Needs ["while".toList] :=
    needs_lit (by decide) (by decide) (endsWord_next (by decide))
  have hf : (edge ++ lit "for" ++ next '(').Needs ["for".toList] :=
    needs_lit (by decide) (by decide) (endsWord_next (by decide))
  exact ((hw.append _).append _).either
    ((((hp.append _).append _).append _).either (((hf.append _).append _).append _))

theorem endless_eq_false {text : Text} (h : text.Lacks ["while".toList, "for".toList]) :
    endless.occursIn text = false := by
  refine occursIn_eq_false_of_needs needs_endless ?_
  intro word hw
  refine h word ?_
  rcases List.mem_cons.mp hw with rfl | hw
  · exact List.mem_cons_self
  · exact hw

end FormRule

namespace Language

open FormRule

/-- A snippet in Python without loops passes, if its blocks have a colon and its parentheses are in
balance. -/
theorem diagnose_python {requireMain : Bool} {code : Text}
    (hb : (python.mask code).Lacks ["def".toList, "if".toList, "for".toList] ∨
      ':' ∈ python.mask code)
    (hp : (python.mask code).count '(' = (python.mask code).count ')')
    (hl : (python.mask code).Lacks ["while".toList, "for".toList]) :
    python.diagnose requireMain code = none := by
  have hblock : (blockWord.occursIn (python.mask code) && !(python.mask code).contains ':') =
      false := by
    rcases hb with hb | hb
    · rw [occursIn_eq_false_of_needs needs_blockWord hb]
      rfl
    · simp [hb]
  have hrules : (FormRule.standard requireMain).filter (python ∈ ·.languages) =
      [pythonBlockColon, pythonPrintParens, unboundedLoop] := by
    cases requireMain <;> decide
  rw [diagnose, hrules]
  simp only [List.findSome?, check, hblock, hp, endless_eq_false hl]
  simp

/-- A snippet in JavaScript without loops passes, if its braces are in balance. -/
theorem diagnose_javascript {requireMain : Bool} {code : Text}
    (hp : (javascript.mask code).count '\x7b' = (javascript.mask code).count '\x7d')
    (hl : (javascript.mask code).Lacks ["while".toList, "for".toList]) :
    javascript.diagnose requireMain code = none := by
  have hrules : (FormRule.standard requireMain).filter (javascript ∈ ·.languages) =
      [braceBalance, unboundedLoop] := by
    cases requireMain <;> decide
  rw [diagnose, hrules]
  simp only [List.findSome?, check, hp, endless_eq_false hl]
  simp

/-- **A snippet without loops passes, if its brackets are in balance** and, in Python, its blocks
have a colon. -/
theorem diagnose_eq_none {language : Language} (hl : language = .python ∨ language = .javascript)
    {requireMain : Bool}
    (hb : language = .python →
      (language.mask code).Lacks ["def".toList, "if".toList, "for".toList] ∨
        ':' ∈ language.mask code)
    (hr : (language.mask code).count '(' = (language.mask code).count ')')
    (hc : (language.mask code).count '\x7b' = (language.mask code).count '\x7d')
    (hloop : (language.mask code).Lacks ["while".toList, "for".toList]) :
    language.diagnose requireMain code = none := by
  rcases hl with rfl | rfl
  · exact diagnose_python (hb rfl) hr hloop
  · exact diagnose_javascript hc hloop

end Language

end Snippet
