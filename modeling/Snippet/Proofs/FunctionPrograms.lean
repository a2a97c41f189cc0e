import Snippet.Proofs.BracedFunctions
import Snippet.Proofs.IndentedFunctions

/-!
# Programs of functions

A program made of functions only, told by indentation or by braces (`Source`). Its functions are
listed in the order of their headers, each with its own body (`Source.functions`).

`Source.definitions_and_recursion`: **the definitions that are found are the functions of the
program, and those that call themselves are listed**, each once, exactly if the program is plain
(`Source.IsPlain`). With braces that takes names without a dollar sign, which is never found as a
part of a name, and control words in front of the parentheses at which a block looks like the body
of a function.
-/

namespace Snippet

open Pattern Place

/-- A program that consists of functions. -/
inductive Source : Language → Type where
  | indented (suite : Suite 0 none) : Source .python
  | braced {language : Language} (usesBraces : language.usesBraces = true)
      (functions : List (Braced.Function language)) (gap : Braced.Gap) : Source language

namespace Source

variable {language : Language}

def render : {language : Language} → Source language → Text
  | _, indented suite => suite.render
  | _, braced _ functions gap => Braced.renderFunctions functions gap

/-- The functions of the program with their own bodies. -/
def functions : {language : Language} → Source language → List Definition
  | _, indented suite => suite.functions
  | _, braced _ functions _ => functions.map fun function =>
    ⟨function.word, function.body.render⟩

/-- In a program with braces no name holds a dollar sign, and no block looks like the body of a
function. -/
def IsPlain : {language : Language} → Source language → Prop
  | _, indented _ => True
  | _, braced _ functions _ => ∀ function ∈ functions, '$' ∉ function.word ∧
    ∀ word ∈ function.body.words, String.ofList word ∈ controlWords

instance : {language : Language} → (source : Source language) → Decidable source.IsPlain
  | _, indented _ => .isTrue trivial
  | _, braced _ functions _ =>
    inferInstanceAs (Decidable (∀ function ∈ functions, _ ∧ ∀ word ∈ _, _))

/-! ### The names that are found in braces -/

/-- **A name that is found holds no dollar sign.** -/
theorem dollar_notMem_of_found {header : Match} {text : Text} {definition : Definition}
    (hm : header ∈ bracedHeader.matchesIn text)
    (hd : bracedDefinition? header = some definition) : '$' ∉ definition.name := by
  obtain ⟨left, piece, right, -, -, -, hf⟩ := fits_of_mem_matchesIn hm
  obtain ⟨name, gap, inside, tail, rfl, hn, -, -, -, -, hkept⟩ :=
    Braced.exists_of_fits_bracedHeader hf
  have hname : header.groups.text 1 = name := by
    rw [hkept]
    simp [Braced.nameGroup, text_cons, Capture.text, Braced.headerOf]
  rw [bracedDefinition?, hname] at hd
  simp only at hd
  split at hd
  · cases hd
  · cases hd
    exact fun hm => absurd (hn.isWord_of_mem _ hm) (by decide)

theorem dollar_notMem_of_mem {functions : List (Braced.Function language)} {gap : Braced.Gap}
    {definition : Definition}
    (h : definition ∈ bracedDefinitions (Braced.renderFunctions functions gap)) :
    '$' ∉ definition.name := by
  rw [bracedDefinitions, Braced.matchesIn_assignedHeader, List.append_nil, List.mem_filterMap] at h
  obtain ⟨header, hm, hd⟩ := h
  exact dollar_notMem_of_found hm hd

theorem eq_nil_of_flatMap_eq_map {α β : Type} {list : List α} {f : α → β} {g : α → List β}
    (h : (list.flatMap fun a => f a :: g a) = list.map f) : ∀ a ∈ list, g a = [] := by
  have hlen : ∀ list : List α, list.length ≤ (list.flatMap fun a => f a :: g a).length := by
    intro list
    induction list with
    | nil => exact le_rfl
    | cons a list ih =>
      rw [List.flatMap_cons, List.length_append, List.length_cons, List.length_cons]
      omega
  replace h := congrArg List.length h
  rw [List.length_map] at h
  induction list with
  | nil => simp
  | cons a list ih =>
    have := hlen list
    rw [List.flatMap_cons, List.length_append, List.length_cons, List.length_cons] at h
    refine List.forall_mem_cons.mpr ⟨List.eq_nil_of_length_eq_zero (by omega), ih (by omega)⟩

/-! ### What is found -/

theorem definitions_render (hl : language.usesBraces = true) (source : Source language) :
    language.definitions source.render = bracedDefinitions source.render := by
  rw [Language.definitions, if_pos hl]
  cases source with
  | indented suite => cases hl
  | braced hl functions gap => rw [render, Braced.mask_renderFunctions hl]

/-- **In a plain program with braces the functions are found**, each with its own body. -/
theorem definitions_of_isPlain (hl : language.usesBraces = true)
    {functions : List (Braced.Function language)} {gap : Braced.Gap}
    (h : (braced hl functions gap).IsPlain) :
    language.definitions (braced hl functions gap).render =
      (braced hl functions gap).functions := by
  rw [definitions_render hl, render, Source.functions,
    Braced.bracedDefinitions_functions (fun function hf => (h function hf).1), List.map_eq_flatMap]
  refine List.flatMap_congr fun function hf => ?_
  rw [(Braced.Items.strays_eq_nil_iff _).mpr (h function hf).2]

/-- **The names that are found are those of the functions** exactly if the program is plain. -/
theorem map_name_definitions_iff (source : Source language) :
    (language.definitions source.render).map (·.name) = source.functions.map (·.name) ↔
      source.IsPlain := by
  cases source with
  | indented suite => exact ⟨fun _ => trivial, fun _ => suite.names_definitions.1⟩
  | braced hl functions gap =>
    constructor
    · intro hnames
      rw [definitions_render hl, render, Source.functions, List.map_map] at hnames
      have hdollar : ∀ function ∈ functions, '$' ∉ function.word := by
        intro function hf
        have hm : function.word ∈ (bracedDefinitions
            (Braced.renderFunctions functions gap)).map (·.name) := by
          rw [hnames]
          exact List.mem_map.mpr ⟨function, hf, rfl⟩
        obtain ⟨definition, hd, hword⟩ := List.mem_map.mp hm
        rw [← hword]
        exact dollar_notMem_of_mem hd
      rw [Braced.bracedDefinitions_functions hdollar, List.map_flatMap] at hnames
      intro function hf
      refine ⟨hdollar function hf, (Braced.Items.strays_eq_nil_iff _).mp ?_⟩
      exact List.map_eq_nil_iff.mp (eq_nil_of_flatMap_eq_map hnames function hf)
    · intro h
      rw [definitions_of_isPlain hl h]

theorem filter_definitions (source : Source language) (h : source.IsPlain) :
    ((language.definitions source.render).filter (·.isRecursive)).map (·.name) =
      (source.functions.filter (·.isRecursive)).map (·.name) := by
  cases source with
  | indented suite => exact suite.names_definitions.2
  | braced hl functions gap => rw [definitions_of_isPlain hl h]

/-- **The definitions that are found are the functions of the program, and those that call
themselves are listed**, each once and in order, exactly if the program is plain. -/
theorem definitions_and_recursion (source : Source language)
    (hn : (source.functions.map (·.name)).Nodup) :
    ((language.definitions source.render).map (·.name) = source.functions.map (·.name) ∧
      language.recursiveNames source.render =
        (source.functions.filter fun function => decide (Calls function.name function.body)).map
          (·.name)) ↔ source.IsPlain := by
  have hcalls : (source.functions.filter fun function =>
      decide (Calls function.name function.body)) = source.functions.filter (·.isRecursive) := by
    refine List.filter_congr fun function _ => ?_
    rw [Bool.eq_iff_iff, decide_eq_true_iff, Definition.isRecursive_iff]
  rw [hcalls]
  constructor
  · rintro ⟨hnames, -⟩
    exact source.map_name_definitions_iff.mp hnames
  · intro h
    have hnames := source.map_name_definitions_iff.mpr h
    refine ⟨hnames, ?_⟩
    rw [Language.recursiveNames_of_nodup (by rwa [hnames]), source.filter_definitions h]

/-- A function that calls itself within a conditional. -/
def countdown : Source .java :=
  let guard : Braced.Headline .java :=
    { lead := [' '], word := "if".toList, gap := .space
      inside := ⟨"n > 1".toList, by decide, by decide, by decide⟩, gap' := .space
      isLead := by decide
      stops := by decide
      isName := ⟨by decide, by decide⟩
      balanced := by decide }
  let call : Braced.Inert .java := ⟨" return f(n - 1)".toList, by decide, by decide, by decide⟩
  let last : Braced.Inert .java := ⟨" return n".toList, by decide, by decide, by decide⟩
  braced rfl
    [{ lead := "int ".toList, word := ['f'], gap := .empty
       inside := ⟨"int n".toList, by decide, by decide, by decide⟩, gap' := .space
       isLead := by decide
       stops := by decide
       isName := ⟨by decide, by decide⟩
       balanced := by decide
       starts := by decide
       unparenthesised := by decide
       notMem_controlWords := by decide
       body := .headed guard ⟨'i', ['f'], rfl, by decide, by decide⟩ (.simple call (.done .space))
        (.simple last (.done .space)) }]
    .empty

theorem definitions_and_recursion_countdown :
    countdown.render = "int f(int n) { if (n > 1) { return f(n - 1); } return n; }".toList ∧
      (Language.java.definitions countdown.render).map (·.name) = ["f".toList] ∧
      Language.java.recursiveNames countdown.render = ["f".toList] := by
  have hplain : countdown.IsPlain := by decide
  obtain ⟨hnames, hcalls⟩ := (definitions_and_recursion countdown (by decide)).mpr hplain
  refine ⟨by decide, hnames, hcalls.trans ?_⟩
  decide

/-- A function whose name starts with a dollar sign. -/
def dollarFact : Source .javascript :=
  let call : Braced.Inert .javascript :=
    ⟨" return $fact(n - 1)".toList, by decide, by decide, by decide⟩
  braced rfl
    [{ lead := "function ".toList, word := "$fact".toList, gap := .empty
       inside := ⟨['n'], by decide, by decide, by decide⟩, gap' := .space
       isLead := by decide
       stops := by decide
       isName := ⟨by decide, by decide⟩
       balanced := by decide
       starts := by decide
       unparenthesised := by decide
       notMem_controlWords := by decide
       body := .simple call (.done .space) }]
    .empty

/-- **A function whose name holds a dollar sign is found under a part of its name**, and its call of
itself is not. -/
theorem not_found_dollarFact :
    dollarFact.render = "function $fact(n) { return $fact(n - 1); }".toList ∧
      dollarFact.functions = [⟨"$fact".toList, " return $fact(n - 1); ".toList⟩] ∧
      Calls "$fact".toList " return $fact(n - 1); ".toList ∧
      (Language.javascript.definitions dollarFact.render).map (·.name) = ["fact".toList] ∧
      Language.javascript.recursiveNames dollarFact.render = [] := by
  refine ⟨by decide, by decide, by decide, ?_, ?_⟩
  · rw [definitions_render rfl]
    decide
  · rw [Language.recursiveNames, definitions_render rfl]
    decide

end Source

end Snippet
