import Snippet.Proofs.DefinitionLines

/-!
# Parameters on several lines

A definition in Python whose parameters stand on one line (`SplitDefinition.oneLine`), and the same
definition with the parameters spread over several lines and the closing parenthesis on a line of
its own (`SplitDefinition.split`).

The body of a definition is read off the lines behind the line of its name, up to the first one that
is not indented further. In the split form that is the line of the closing parenthesis. So **the
calls in the body of the function are lost there**, and `SplitDefinition.isListed_split` says when
that changes the names that are listed: unless another definition of the name, within the body, is
listed anyway.
-/

namespace Snippet

open Pattern Place

variable {left front rest : Text}

/-! ### The two forms -/

/-- A character in a list of parameters: part of a name, a comma, or a blank within the line. -/
def IsParameterChar (c : Char) : Prop :=
  isWord c = true ∨ c = ',' ∨ (isBlank c = true ∧ isLineBreak c = false)

instance (c : Char) : Decidable (IsParameterChar c) :=
  inferInstanceAs (Decidable (_ ∨ _ ∨ _))

/-- A definition with two ways of laying out its parameters. The parameters are listed on one line
(`flat`), or the line ends behind some of them (`first`) and the others have lines of their own
(`rows`). -/
structure SplitDefinition where
  head : DefinitionHead
  flat : Text
  first : Text
  rows : List Text
  /-- The blanks between the parenthesis and the colon. -/
  gap : Text
  /-- What stands behind the colon on its line. -/
  tail : Text
  /-- The lines of the body. -/
  block : Text
  unbroken_head : head.text.Unbroken
  parameters_flat : ∀ c ∈ flat, IsParameterChar c
  parameters_first : ∀ c ∈ first, IsParameterChar c
  parameters_rows : ∀ row ∈ rows, ∀ c ∈ row, IsParameterChar c
  blank_gap : ∀ c ∈ gap, isBlank c = true ∧ isLineBreak c = false
  unbroken_tail : tail.Unbroken
  code_tail : ∀ c ∈ tail, IsCode c
  code_block : ∀ c ∈ block, IsCode c
  indented_block : ∀ line ∈ Text.lines block,
    Text.isBlankText line = true ∨ head.lead.length < Text.indent line

namespace SplitDefinition

variable (definition : SplitDefinition)

/-- The closing parenthesis, the colon, and what stands behind it on the line. -/
def closing : Text := ')' :: (definition.gap ++ ':' :: definition.tail)

/-- The definition with its parameters on the line of its name. -/
def oneLine : Text :=
  definition.head.text ++ ((definition.flat ++ definition.closing) ++ '\n' :: definition.block)

/-- The lines of the parameters behind the line of the name, and that of the closing parenthesis,
which is indented like the definition. -/
def lower : List Text := definition.rows ++ [definition.head.lead ++ definition.closing]

/-- The definition with its parameters on several lines. -/
def split : Text :=
  definition.head.text ++
    (definition.first ++ '\n' :: (renderRows definition.lower ++ definition.block))

/-- The body of the function. -/
def body : Text := definition.tail ++ '\n' :: definition.block

end SplitDefinition

theorem unbroken_of_parameters {text : Text} (h : ∀ c ∈ text, IsParameterChar c) :
    text.Unbroken := by
  intro c hc
  rcases h c hc with hw | rfl | ⟨-, hb⟩
  · rw [← Bool.not_eq_true]
    intro hb
    rw [isWord_of_isBlank (Text.isBlank_of_isLineBreak hb)] at hw
    cases hw
  · decide
  · exact hb

theorem isCode_of_isParameterChar {c : Char} (h : IsParameterChar c) : IsCode c := by
  rcases h with hw | rfl | ⟨hb, -⟩
  · exact isCode_of_isPlain (isPlain_of_isWord hw)
  · decide
  · exact isCode_of_isPlain (isPlain_of_isBlank hb)

/-- A header that starts in front of a closing parenthesis has its own parenthesis there, too. -/
theorem avoids_indentedHeader_of_closing (h : '(' ∉ front) :
    indentedHeader.Avoids left (front ++ [')']) rest := by
  rintro before back hr hb ⟨piece, right, kept, ht, hf⟩
  have hclosing : ')' ∉ piece := notMem_of_fits (by decide) hf
  obtain ⟨-, head, rfl, -⟩ := fits_indentedHeader_iff.mp hf
  have hopening : '(' ∈ head.text := List.mem_of_getLast? head.getLast?_text
  obtain ⟨inside, rfl⟩ : ∃ inside, back = inside ++ [')'] := by
    have hlast : back.getLast? = some ')' := by
      rw [← List.getLast?_append_of_ne_nil before hb, ← hr, List.getLast?_concat]
    exact ⟨_, (List.dropLast_append_getLast? _ hlast).symm⟩
  rw [← List.append_assoc, List.append_left_inj] at hr
  rw [List.append_assoc, List.singleton_append] at ht
  have hinside : '(' ∉ inside := fun hm => h (hr ▸ List.mem_append_right _ hm)
  rcases List.append_eq_append_iff.mp ht with ⟨more, he, hm⟩ | ⟨more, he, hm⟩
  · cases more with
    | nil => exact hinside (by rwa [he, List.append_nil] at hopening)
    | cons d more =>
      obtain ⟨rfl, -⟩ := List.cons.inj hm
      exact hclosing (by rw [he]; simp)
  · exact hinside (by rw [he]; exact List.mem_append_left _ hopening)

namespace SplitDefinition

variable (definition : SplitDefinition)

theorem unbroken_closing : definition.closing.Unbroken := by
  refine List.forall_mem_cons.mpr ⟨by decide, fun c hc => ?_⟩
  rcases List.mem_append.mp hc with hc | hc
  · exact (definition.blank_gap c hc).2
  · exact List.forall_mem_cons.mpr ⟨by decide, definition.unbroken_tail⟩ c hc

theorem isCode_of_mem_closing : ∀ c ∈ definition.closing, IsCode c := by
  refine List.forall_mem_cons.mpr ⟨by decide, fun c hc => ?_⟩
  rcases List.mem_append.mp hc with hc | hc
  · exact isCode_of_isPlain (isPlain_of_isBlank (definition.blank_gap c hc).1)
  · exact List.forall_mem_cons.mpr ⟨by decide, definition.code_tail⟩ c hc

theorem isCode_of_mem_lead : ∀ c ∈ definition.head.lead, IsCode c :=
  fun c hc => definition.head.isCode_of_mem_text c (List.mem_append_left _ hc)

theorem unbroken_lead : definition.head.lead.Unbroken :=
  fun c hc => definition.unbroken_head c (List.mem_append_left _ hc)

/-! ### On one line -/

/-- The lines of the body but the blank ones. -/
def visible : Text :=
  ((Text.lines definition.block).filter fun line => !Text.isBlankText line).flatten

theorem flatten_blockLines :
    (blockLines definition.head.lead.length (Text.lines definition.block)).flatten =
      definition.visible := by
  rw [visible, blockLines, List.takeWhile_eq_self_iff.mpr]
  intro line hl
  obtain ⟨hm, hv⟩ := List.mem_filter.mp hl
  rcases definition.indented_block line hm with hb | hi
  · rw [hb] at hv
    cases hv
  · exact decide_eq_true hi

theorem calls_visible :
    Calls definition.head.name (definition.tail ++ '\n' :: definition.visible) ↔
      Calls definition.head.name definition.body := by
  have hfront : (definition.tail ++ ['\n']).getLast?.any isNameChar = false := by
    rw [List.getLast?_concat]
    decide
  have hcalls := calls_flatten_filter definition.head.isPlainName.isName
    (separated_lines definition.block) hfront
  rw [Text.flatten_lines] at hcalls
  simpa [visible, body] using hcalls

/-- **In one line the body is the one of the function.** -/
theorem definitions_oneLine : Language.python.definitions definition.oneLine =
    ⟨definition.head.name, definition.tail ++ '\n' :: definition.visible⟩ ::
      Language.python.definitions definition.block := by
  have hcode : ∀ c ∈ definition.oneLine, IsCode c := by
    simp only [oneLine, List.mem_append, List.mem_cons]
    rintro c (hc | (hc | hc) | rfl | hc)
    · exact definition.head.isCode_of_mem_text c hc
    · exact isCode_of_isParameterChar (definition.parameters_flat c hc)
    · exact definition.isCode_of_mem_closing c hc
    · decide
    · exact definition.code_block c hc
  have hline : Text.Unbroken (definition.flat ++ definition.closing) := fun c hc =>
    (List.mem_append.mp hc).elim (unbroken_of_parameters definition.parameters_flat c)
      (definition.unbroken_closing c)
  have hcolon : ':' ∉ definition.flat ++ ')' :: definition.gap := by
    simp only [List.mem_append, List.mem_cons, not_or]
    refine ⟨fun hm => ?_, by decide, fun hm => ?_⟩
    · exact absurd (definition.parameters_flat _ hm) (by decide)
    · exact absurd (definition.blank_gap _ hm).1 (by decide)
  have hafter : afterColon (definition.flat ++ definition.closing ++ ['\n']) =
      definition.tail ++ ['\n'] := by
    have hcut := afterColon_append hcolon (definition.tail ++ ['\n'])
    simpa [closing] using hcut
  rw [definitions_python hcode, definitions_python definition.code_block, oneLine,
    indentedDefinitions_head definition.head definition.unbroken_head hline, hafter,
    flatten_blockLines, List.append_assoc, List.singleton_append]

/-! ### On several lines -/

theorem unbroken_lower : ∀ row ∈ definition.lower, row.Unbroken := by
  intro row hr c hc
  rcases List.mem_append.mp hr with hr | hr
  · exact unbroken_of_parameters (definition.parameters_rows row hr) c hc
  · rw [List.mem_singleton.mp hr, List.mem_append] at hc
    exact hc.elim (definition.unbroken_lead c) (definition.unbroken_closing c)

theorem notMem_row {row : Text} (hr : row ∈ definition.rows) : '(' ∉ row ++ ['\n'] := by
  rw [List.mem_append, not_or]
  exact ⟨fun hm => absurd (definition.parameters_rows row hr _ hm) (by decide), by decide⟩

theorem avoids_lower :
    indentedHeader.Avoids [] (renderRows definition.lower) definition.block := by
  have hround : '(' ∉ renderRows definition.rows ++ definition.head.lead := by
    rw [List.mem_append, not_or, mem_renderRows]
    refine ⟨?_, fun hm => absurd (definition.head.lead_eq _ hm) (by decide)⟩
    rintro ⟨row, hr, hm⟩
    exact definition.notMem_row hr hm
  have hfeed : '\n' ∉ definition.gap ++ ':' :: definition.tail := fun hm =>
    absurd (definition.unbroken_closing _ (List.mem_cons_of_mem _ hm)) (by decide)
  have hlower : renderRows definition.lower =
      (renderRows definition.rows ++ definition.head.lead ++ [')']) ++
        (definition.gap ++ ':' :: definition.tail ++ ['\n']) := by
    simp [lower, renderRows, closing]
  have hlast : ([] ++ (renderRows definition.rows ++ definition.head.lead ++ [')'])).getLast? =
      some ')' := by
    rw [List.nil_append, List.getLast?_concat]
  rw [hlower]
  exact (avoids_indentedHeader_of_closing hround).append
    (avoids_indentedHeader_of_notMem hlast (by decide) hfeed)

/-- The block behind the line of the name is over at the closing parenthesis. -/
theorem notMem_blockLines (more : List Text) :
    '(' ∉ (blockLines definition.head.lead.length
      (definition.lower.map (· ++ ['\n']) ++ more)).flatten := by
  have hlead : ∀ c ∈ definition.head.lead, isBlank c = true := by
    intro c hc
    have hs : ∀ d ∈ [' ', '\t'], isBlank d = true := by decide
    exact hs c (by simpa using definition.head.lead_eq c hc)
  have hstop : Text.indent (definition.head.lead ++ definition.closing ++ ['\n']) =
      definition.head.lead.length := by
    rw [List.append_assoc]
    exact Text.indent_pad hlead rfl
  have hvisible : Text.isBlankText (definition.head.lead ++ definition.closing ++ ['\n']) =
      false := by
    rw [← Bool.not_eq_true, Text.isBlankText, List.all_eq_true]
    exact fun h => absurd (h ')' (by simp [closing])) (by decide)
  rw [lower, List.map_append, List.append_assoc, List.map_singleton, List.singleton_append,
    blockLines_append_cons hvisible hstop.le, List.mem_flatten]
  rintro ⟨line, hl, hm⟩
  obtain ⟨row, hr, rfl⟩ := List.mem_map.mp (mem_of_mem_blockLines hl)
  exact definition.notMem_row hr hm

theorem isCode_of_mem_split : ∀ c ∈ definition.split, IsCode c := by
  have hlower : ∀ row ∈ definition.lower, ∀ c ∈ row ++ ['\n'], IsCode c := by
    simp only [lower, List.mem_append, List.mem_singleton]
    rintro row (hr | rfl) c (hc | rfl)
    · exact isCode_of_isParameterChar (definition.parameters_rows row hr c hc)
    · decide
    · exact (List.mem_append.mp hc).elim (definition.isCode_of_mem_lead c)
        (definition.isCode_of_mem_closing c)
    · decide
  rw [split]
  simp only [List.mem_append (s := definition.head.text), List.mem_append (s := definition.first),
    List.mem_append (s := renderRows _), List.mem_cons, mem_renderRows]
  rintro c (hc | hc | rfl | ⟨row, hr, hc⟩ | hc)
  · exact definition.head.isCode_of_mem_text c hc
  · exact isCode_of_isParameterChar (definition.parameters_first c hc)
  · decide
  · exact hlower row hr c hc
  · exact definition.code_block c hc

/-- **On several lines nothing that is listed as the body calls anything.** -/
theorem definitions_split : ∃ body, '(' ∉ body ∧ Language.python.definitions definition.split =
    ⟨definition.head.name, body⟩ :: Language.python.definitions definition.block := by
  have hfirst : ∀ c ∈ definition.first ++ ['\n'], IsParameterChar c ∨ c = '\n' := by
    simp only [List.mem_append, List.mem_singleton]
    exact fun c hc => hc.imp_left (definition.parameters_first c)
  have hcolon : ':' ∉ definition.first ++ ['\n'] := fun hm => absurd (hfirst _ hm) (by decide)
  have hround : '(' ∉ definition.first ++ ['\n'] := fun hm => absurd (hfirst _ hm) (by decide)
  have hlines := indentedDefinitions_head definition.head definition.unbroken_head
    (unbroken_of_parameters definition.parameters_first)
    (renderRows definition.lower ++ definition.block)
  rw [indentedDefinitions_rows definition.unbroken_lower definition.avoids_lower,
    lines_renderRows definition.unbroken_lower, afterColon_of_notMem hcolon] at hlines
  rw [definitions_python definition.isCode_of_mem_split, definitions_python definition.code_block]
  refine ⟨_, ?_, hlines⟩
  rw [List.mem_append, not_or]
  exact ⟨hround, definition.notMem_blockLines _⟩

/-- **Splitting the parameters changes whether a function is listed exactly if its body calls it**,
and no definition of the same name within the body is listed. -/
theorem isListed_split :
    let name := definition.head.name
    let listed := fun code => name ∈ Language.python.recursiveNames code
    (listed definition.oneLine ↔ Calls name definition.body ∨ listed definition.block) ∧
      (listed definition.split ↔ listed definition.block) ∧
      ((listed definition.split ↔ listed definition.oneLine) ↔
        (Calls name definition.body → listed definition.block)) := by
  intro name listed
  have hone : listed definition.oneLine ↔ Calls name definition.body ∨ listed definition.block := by
    simp only [listed, Language.mem_recursiveNames, definitions_oneLine, List.mem_cons,
      exists_eq_or_imp, true_and, calls_visible, name]
  have hsplit : listed definition.split ↔ listed definition.block := by
    obtain ⟨body, hb, hd⟩ := definition.definitions_split
    have hn : ¬ Calls name body := fun hc => hb (mem_of_calls hc)
    simp only [listed, Language.mem_recursiveNames, hd, List.mem_cons, exists_eq_or_imp, hn,
      and_false, false_or]
  refine ⟨hone, hsplit, ?_⟩
  rw [hone, hsplit]
  constructor
  · intro h hc
    exact h.mpr (Or.inl hc)
  · intro h
    exact ⟨Or.inr, fun hm => hm.elim h id⟩

/-- A function that calls itself, with its parameter on a line of its own. -/
theorem not_isListed_split_descent :
    ∃ definition : SplitDefinition,
      definition.oneLine = "def f(n):\n    return f(n - 1)\n".toList ∧
      definition.split = "def f(\n    n\n):\n    return f(n - 1)\n".toList ∧
      Calls definition.head.name definition.body ∧
      Language.python.recursiveNames definition.oneLine = [definition.head.name] ∧
      Language.python.recursiveNames definition.split = [] := by
  let head : DefinitionHead :=
    { lead := [], async := [], gap := [' '], name := ['f'], space := []
      lead_eq := by decide
      isAsync := Or.inl rfl
      gap_ne_nil := by decide
      isBlank_of_mem_gap := by decide
      isPlainName := ⟨'f', [], rfl, by decide, by decide⟩
      isBlank_of_mem_space := by decide }
  let definition : SplitDefinition :=
    { head := head, flat := ['n'], first := [], rows := ["    n".toList], gap := [], tail := []
      block := "    return f(n - 1)\n".toList
      unbroken_head := by unfold Text.Unbroken; decide
      parameters_flat := by decide
      parameters_first := by decide
      parameters_rows := by decide
      blank_gap := by decide
      unbroken_tail := by unfold Text.Unbroken; decide
      code_tail := by decide
      code_block := by decide
      indented_block := by decide }
  have hcode : ∀ c ∈ definition.oneLine, IsCode c := by decide
  have hcode' : ∀ c ∈ definition.split, IsCode c := by decide
  refine ⟨definition, rfl, rfl, by decide, ?_, ?_⟩
  · rw [Language.recursiveNames, definitions_python hcode]
    decide
  · rw [Language.recursiveNames, definitions_python hcode']
    decide

end SplitDefinition

end Snippet
