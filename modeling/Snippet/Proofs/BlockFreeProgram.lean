import Snippet.Proofs.LexemeLayouts

/-!
# Programs without blocks

A Python program may consist of assignments and expressions alone. It holds no block, and yet the
words `for` and `if` may stand in it: in a comprehension, and in a conditional expression. The check
for a missing colon does not tell these from the headers of blocks.

A program is written as a list of lexemes (`Program.lexemes`) in any layout. Its parentheses are
balanced (`Program.balanced`), so only the check for a missing colon can refuse it
(`Layout.diagnose_eq`).

`Program.diagnose_laidOut`: **such a program is passed exactly if no `for` or `if` in it stands in
front of a gap**; one with a comprehension is not passed in any usual layout.
-/

namespace Snippet

open Pattern Place

namespace BlockFree

/-! ### Programs -/

mutual

/-- An expression without operators. -/
inductive Expr where
  | name (name : Name)
  | number (number : Number)
  | grouped (inside : Expr)
  | call (function : Expr) (arguments : Items)
  | display (items : Items)
  /-- A comprehension with one clause, and perhaps a condition. -/
  | comprehension (element : Expr) (target : Name) (source : Expr) (condition : Filter)
  | conditional (value condition other : Expr)

/-- Expressions with commas between them, and perhaps one behind them. -/
inductive Items where
  | nil
  | single (item : Expr)
  | cons (item : Expr) (more : Items)

/-- The condition of a comprehension, if it has one. -/
inductive Filter where
  | none
  | some (condition : Expr)

end

mutual

/-- The lexemes that an expression is written with. -/
def Expr.lexemes : Expr → List Lexeme
  | .name name => [.name name]
  | .number number => [.number number]
  | .grouped inside => .mark .opening :: (inside.lexemes ++ [.mark .closing])
  | .call function arguments =>
    function.lexemes ++ .mark .opening :: (arguments.lexemes ++ [.mark .closing])
  | .display items => .mark .openingSquare :: (items.lexemes ++ [.mark .closingSquare])
  | .comprehension element target source condition =>
    .mark .openingSquare :: (element.lexemes ++
      ([.keyword .forWord, .name target, .keyword .inWord] ++
      (source.lexemes ++ (condition.lexemes ++ [.mark .closingSquare]))))
  | .conditional value condition other =>
    value.lexemes ++ .keyword .ifWord :: (condition.lexemes ++ .keyword .elseWord :: other.lexemes)

def Items.lexemes : Items → List Lexeme
  | .nil => []
  | .single item => item.lexemes
  | .cons item more => item.lexemes ++ .mark .comma :: more.lexemes

def Filter.lexemes : Filter → List Lexeme
  | .none => []
  | .some condition => .keyword .ifWord :: condition.lexemes

end

mutual

/-- Whether a comprehension occurs in an expression. -/
def Expr.hasComprehension : Expr → Bool
  | .name _ | .number _ => false
  | .grouped inside => inside.hasComprehension
  | .call function arguments => function.hasComprehension || arguments.hasComprehension
  | .display items => items.hasComprehension
  | .comprehension .. => true
  | .conditional value condition other =>
    value.hasComprehension || condition.hasComprehension || other.hasComprehension

def Items.hasComprehension : Items → Bool
  | .nil => false
  | .single item => item.hasComprehension
  | .cons item more => item.hasComprehension || more.hasComprehension

end

mutual

/-- Whether a conditional expression occurs in an expression. -/
def Expr.hasConditional : Expr → Bool
  | .name _ | .number _ => false
  | .grouped inside => inside.hasConditional
  | .call function arguments => function.hasConditional || arguments.hasConditional
  | .display items => items.hasConditional
  | .comprehension element _ source condition =>
    element.hasConditional || source.hasConditional || condition.hasConditional
  | .conditional .. => true

def Items.hasConditional : Items → Bool
  | .nil => false
  | .single item => item.hasConditional
  | .cons item more => item.hasConditional || more.hasConditional

def Filter.hasConditional : Filter → Bool
  | .none => false
  | .some condition => condition.hasConditional

end

/-- An assignment to any number of targets; with none of them, a statement that is an expression. -/
structure Statement where
  targets : List Expr
  value : Expr

def Statement.lexemes (statement : Statement) : List Lexeme :=
  statement.targets.flatMap (fun target => target.lexemes ++ [.mark .equals]) ++
    statement.value.lexemes

/-- The expressions of a statement. -/
def Statement.expressions (statement : Statement) : List Expr :=
  statement.targets ++ [statement.value]

/-- A program without blocks. How its statements are put on lines is left to the layout. -/
structure Program where
  statements : List Statement

namespace Program

def lexemes (program : Program) : List Lexeme := program.statements.flatMap Statement.lexemes

def expressions (program : Program) : List Expr := program.statements.flatMap Statement.expressions

def hasComprehension (program : Program) : Bool := program.expressions.any Expr.hasComprehension

def hasConditional (program : Program) : Bool := program.expressions.any Expr.hasConditional

end Program

/-! ### Parentheses -/

/-- As many parentheses are opened as are closed. -/
def Balanced (lexemes : List Lexeme) : Prop :=
  (lexemes.flatMap Lexeme.text).count '(' = (lexemes.flatMap Lexeme.text).count ')'

section

variable {lexeme : Lexeme} {lexemes more : List Lexeme}

theorem Balanced.append (h : Balanced lexemes) (h' : Balanced more) :
    Balanced (lexemes ++ more) := by
  unfold Balanced at *
  rw [List.flatMap_append, List.count_append, List.count_append, h, h']

theorem Balanced.enclosed (h : Balanced lexemes) :
    Balanced (.mark .opening :: (lexemes ++ [.mark .closing])) := by
  unfold Balanced at *
  have hround : ∀ text : Text, ('(' :: (text ++ [')'])).count '(' = text.count '(' + 1 ∧
      ('(' :: (text ++ [')'])).count ')' = text.count ')' + 1 := by
    intro text
    constructor <;> simp
  have htext : (Lexeme.mark .opening :: (lexemes ++ [.mark .closing])).flatMap Lexeme.text =
      '(' :: (lexemes.flatMap Lexeme.text ++ [')']) := by
    rw [List.flatMap_cons, List.flatMap_append]
    rfl
  rw [htext, (hround _).1, (hround _).2, h]

theorem balanced_singleton (h : lexeme ≠ .mark .opening) (h' : lexeme ≠ .mark .closing) :
    Balanced [lexeme] := by
  have hnone : ∀ c ∈ ['(', ')'], c ∉ lexeme.text := by
    intro c hc hm
    have hword : ∀ c ∈ ['(', ')'], isWord c = false ∧ c ∉ ['.', '+', '-'] := by decide
    obtain ⟨hw, hs⟩ := hword c hc
    have hne : isWord c ≠ true := by rw [hw]; decide
    cases lexeme with
    | name n => exact hne (n.word c hm)
    | number n => exact (n.chars c hm).elim hne hs
    | keyword word => exact hne (Lexeme.isWord_of_mem_keyword word c hm)
    | mark m =>
      obtain rfl := List.mem_singleton.mp hm
      cases m with
      | opening => exact h rfl
      | closing => exact h' rfl
      | _ => revert hc; decide
  rw [Balanced, List.flatMap_singleton, List.count_eq_zero.mpr (hnone '(' (by simp)),
    List.count_eq_zero.mpr (hnone ')' (by simp))]

theorem Balanced.cons (h : lexeme ≠ .mark .opening) (h' : lexeme ≠ .mark .closing)
    (hl : Balanced lexemes) : Balanced (lexeme :: lexemes) :=
  (balanced_singleton h h').append hl

end

mutual

theorem Expr.balanced : ∀ e : Expr, Balanced e.lexemes
  | .name _ => balanced_singleton (by simp) (by simp)
  | .number _ => balanced_singleton (by simp) (by simp)
  | .grouped inside => inside.balanced.enclosed
  | .call function arguments => function.balanced.append arguments.balanced.enclosed
  | .display items =>
    .cons (by simp) (by simp) (items.balanced.append (balanced_singleton (by simp) (by simp)))
  | .comprehension element target source condition => by
    have hhead : Balanced [.keyword .forWord, .name target, .keyword .inWord] :=
      .cons (by simp) (by simp) (.cons (by simp) (by simp) (balanced_singleton (by simp) (by simp)))
    have hstop : Balanced [.mark .closingSquare] := balanced_singleton (by simp) (by simp)
    exact .cons (by simp) (by simp) (element.balanced.append (hhead.append
      (source.balanced.append (condition.balanced.append hstop))))
  | .conditional value condition other =>
    value.balanced.append (.cons (by simp) (by simp)
      (condition.balanced.append (.cons (by simp) (by simp) other.balanced)))

theorem Items.balanced : ∀ items : Items, Balanced items.lexemes
  | .nil => rfl
  | .single item => item.balanced
  | .cons item more => item.balanced.append (.cons (by simp) (by simp) more.balanced)

theorem Filter.balanced : ∀ condition : Filter, Balanced condition.lexemes
  | .none => rfl
  | .some condition => .cons (by simp) (by simp) condition.balanced

end

theorem balanced_flatMap {α : Type} {items : List α} {f : α → List Lexeme}
    (h : ∀ item ∈ items, Balanced (f item)) : Balanced (items.flatMap f) := by
  induction items with
  | nil => rfl
  | cons item items ih =>
    obtain ⟨hi, hs⟩ := List.forall_mem_cons.mp h
    rw [List.flatMap_cons]
    exact hi.append (ih hs)

theorem Statement.balanced (statement : Statement) : Balanced statement.lexemes := by
  refine .append (balanced_flatMap fun target _ => ?_) statement.value.balanced
  exact target.balanced.append (balanced_singleton (by simp) (by simp))

/-- **The parentheses of a program are in balance.** -/
theorem Program.balanced (program : Program) : Balanced program.lexemes :=
  balanced_flatMap fun statement _ => statement.balanced

/-! ### Clause words -/

/-- A `for` stands in front of a name. -/
def HoldsFor (lexemes : List Lexeme) : Prop :=
  ∃ target, [.keyword .forWord, .name target] <:+: lexemes

section

variable {lexemes : List Lexeme}

theorem HoldsFor.append_left (h : HoldsFor lexemes) (front : List Lexeme) :
    HoldsFor (front ++ lexemes) :=
  h.imp fun _ ht => ht.trans (List.suffix_append front lexemes).isInfix

theorem HoldsFor.append_right (h : HoldsFor lexemes) (back : List Lexeme) :
    HoldsFor (lexemes ++ back) :=
  h.imp fun _ ht => ht.trans (List.prefix_append lexemes back).isInfix

theorem HoldsFor.cons (h : HoldsFor lexemes) (lexeme : Lexeme) : HoldsFor (lexeme :: lexemes) :=
  h.append_left [lexeme]

end

mutual

/-- **A comprehension has a `for` in front of a name.** -/
theorem Expr.holdsFor : ∀ e : Expr, e.hasComprehension = true → HoldsFor e.lexemes
  | .grouped inside, h => ((inside.holdsFor h).append_right _).cons _
  | .call function arguments, h => by
    rcases Bool.or_eq_true_iff.mp h with h | h
    · exact (function.holdsFor h).append_right _
    · exact (((arguments.holdsFor h).append_right _).cons _).append_left _
  | .display items, h => ((items.holdsFor h).append_right _).cons _
  | .comprehension element target source condition, _ => by
    have hhead : HoldsFor [.keyword .forWord, .name target, .keyword .inWord] :=
      ⟨target, [], [.keyword .inWord], rfl⟩
    exact ((hhead.append_right _).append_left _).cons _
  | .conditional value condition other, h => by
    rcases Bool.or_eq_true_iff.mp h with h | h
    · rcases Bool.or_eq_true_iff.mp h with h | h
      · exact (value.holdsFor h).append_right _
      · exact (((condition.holdsFor h).append_right _).cons _).append_left _
    · exact ((((other.holdsFor h).cons _).append_left _).cons _).append_left _

theorem Items.holdsFor : ∀ items : Items, items.hasComprehension = true → HoldsFor items.lexemes
  | .single item, h => item.holdsFor h
  | .cons item more, h => by
    rcases Bool.or_eq_true_iff.mp h with h | h
    · exact (item.holdsFor h).append_right _
    · exact ((more.holdsFor h).cons _).append_left _

end

/-- No word that a block may open with as well is among the lexemes. -/
def ClauseFree (lexemes : List Lexeme) : Prop := ∀ lexeme ∈ lexemes, lexeme.isClause = false

section

variable {lexeme : Lexeme} {lexemes more : List Lexeme}

theorem ClauseFree.append (h : ClauseFree lexemes) (h' : ClauseFree more) :
    ClauseFree (lexemes ++ more) := List.forall_mem_append.mpr ⟨h, h'⟩

theorem ClauseFree.cons (h : lexeme.isClause = false) (h' : ClauseFree lexemes) :
    ClauseFree (lexeme :: lexemes) := List.forall_mem_cons.mpr ⟨h, h'⟩

theorem clauseFree_singleton (h : lexeme.isClause = false) : ClauseFree [lexeme] :=
  .cons h (List.forall_mem_nil _)

end

mutual

/-- **Without comprehensions and conditionals there is no clause word.** -/
theorem Expr.clauseFree : ∀ e : Expr, e.hasComprehension = false → e.hasConditional = false →
    ClauseFree e.lexemes
  | .name _, _, _ => clauseFree_singleton rfl
  | .number _, _, _ => clauseFree_singleton rfl
  | .grouped inside, h, h' =>
    .cons rfl ((inside.clauseFree h h').append (clauseFree_singleton rfl))
  | .call function arguments, h, h' => by
    obtain ⟨hf, ha⟩ := Bool.or_eq_false_iff.mp h
    obtain ⟨hf', ha'⟩ := Bool.or_eq_false_iff.mp h'
    exact (function.clauseFree hf hf').append
      (.cons rfl ((arguments.clauseFree ha ha').append (clauseFree_singleton rfl)))
  | .display items, h, h' => .cons rfl ((items.clauseFree h h').append (clauseFree_singleton rfl))

theorem Items.clauseFree : ∀ items : Items, items.hasComprehension = false →
    items.hasConditional = false → ClauseFree items.lexemes
  | .nil, _, _ => List.forall_mem_nil _
  | .single item, h, h' => item.clauseFree h h'
  | .cons item more, h, h' => by
    obtain ⟨hi, hm⟩ := Bool.or_eq_false_iff.mp h
    obtain ⟨hi', hm'⟩ := Bool.or_eq_false_iff.mp h'
    exact (item.clauseFree hi hi').append (.cons rfl (more.clauseFree hm hm'))

end

namespace Program

variable {program : Program}

theorem holdsFor (h : program.hasComprehension = true) : HoldsFor program.lexemes := by
  obtain ⟨e, he, hc⟩ := List.any_eq_true.mp h
  obtain ⟨statement, hs, he⟩ := List.mem_flatMap.mp he
  have hstatement : HoldsFor statement.lexemes := by
    rcases List.mem_append.mp he with he | he
    · obtain ⟨front, back, hcut⟩ := List.append_of_mem he
      rw [Statement.lexemes, hcut, List.flatMap_append, List.flatMap_cons]
      exact ((((e.holdsFor hc).append_right _).append_right _).append_left _).append_right _
    · rw [List.mem_singleton.mp he] at hc
      exact (statement.value.holdsFor hc).append_left _
  obtain ⟨front, back, hcut⟩ := List.append_of_mem hs
  rw [lexemes, hcut, List.flatMap_append, List.flatMap_cons]
  exact (hstatement.append_right _).append_left _

theorem clauseFree (h : program.hasComprehension = false) (h' : program.hasConditional = false) :
    ClauseFree program.lexemes := by
  rw [hasComprehension, List.any_eq_false] at h
  rw [hasConditional, List.any_eq_false] at h'
  have hfree : ∀ statement ∈ program.statements, ∀ e ∈ statement.expressions,
      ClauseFree e.lexemes := by
    intro statement hs e he
    have hm : e ∈ program.expressions := List.mem_flatMap.mpr ⟨statement, hs, he⟩
    exact e.clauseFree (Bool.eq_false_of_not_eq_true (h e hm))
      (Bool.eq_false_of_not_eq_true (h' e hm))
  intro lexeme hl
  obtain ⟨statement, hs, hl⟩ := List.mem_flatMap.mp hl
  rcases List.mem_append.mp hl with hl | hl
  · obtain ⟨target, ht, hl⟩ := List.mem_flatMap.mp hl
    rcases List.mem_append.mp hl with hl | hl
    · exact hfree statement hs target (List.mem_append_left _ ht) lexeme hl
    · rw [List.mem_singleton.mp hl]
      rfl
  · exact hfree statement hs statement.value (List.mem_append_right _ (by simp)) lexeme hl

end Program

/-! ### The verdict -/

/-- A Python snippet with balanced parentheses, no colon and no endless loop is only refused for a
block word. -/
theorem diagnose_of_blockWord {code : Text} (hm : Language.python.mask code = code)
    (hp : code.count '(' = code.count ')') (hc : ':' ∉ code)
    (he : FormRule.endless.occursIn code = false) (requireMain : Bool) :
    Language.python.diagnose requireMain code =
      if FormRule.blockWord.occursIn code then some .missingColon else none := by
  have hrules : (FormRule.standard requireMain).filter (Language.python ∈ ·.languages) =
      [.pythonBlockColon, .pythonPrintParens, .unboundedLoop] := by
    cases requireMain <;> decide
  rw [Language.diagnose, hrules, hm]
  simp only [List.findSome?, FormRule.check, hp, he]
  cases FormRule.blockWord.occursIn code <;> simp [hc]

namespace Layout

variable {lexemes : List Lexeme}

theorem diagnose_eq (layout : Layout lexemes) (hb : Balanced lexemes) (requireMain : Bool) :
    Language.python.diagnose requireMain layout.text =
      if FormRule.blockWord.occursIn layout.text then some .missingColon else none := by
  have hplain : ∀ c ∈ layout.text, isPlain c = true :=
    forall_mem_text (fun _ => isPlain_of_isWord) (fun _ => isPlain_of_isBlank) (by decide)
  have hcolon : ∀ c ∈ layout.text, c ≠ ':' :=
    forall_mem_text (fun c hc => ne_of_isWord hc (by decide))
      (fun c hc => ne_of_isBlank hc (by decide)) (by decide)
  have hcount : layout.text.count '(' = layout.text.count ')' := by
    rw [count_text (by decide), count_text (by decide)]
    exact hb
  exact diagnose_of_blockWord (Language.python.mask_eq_self hplain) hcount
    (fun hm => hcolon ':' hm rfl) layout.occursIn_endless requireMain

theorem getLast?_before {before : List Piece} {piece : Piece} {after : List Piece} {lead : Text}
    (hl : ∀ c ∈ lead, isBlank c = true) (hc : (before ++ piece :: after).IsChain SetApart)
    (hw : piece.lexeme.text.head?.any isWord = true) :
    (lead ++ render before).getLast?.any isWord = false := by
  have hblank : ∀ gap : Text, (∀ c ∈ gap, isBlank c = true) → gap.getLast?.any isWord = false := by
    intro gap hg
    cases hlast : gap.getLast? with
    | none => rfl
    | some c => exact isWord_of_isBlank (hg c (List.mem_of_getLast? hlast))
  rcases List.eq_nil_or_concat before with rfl | ⟨init, last, rfl⟩
  · rw [show render [] = [] from rfl, List.append_nil]
    exact hblank lead hl
  · rw [List.concat_eq_append] at hc ⊢
    rw [List.append_assoc, List.singleton_append] at hc
    have hapart : SetApart last piece := (List.isChain_append_cons_cons.mp hc).2.1
    have hrender : render (init ++ [last]) = render init ++ (last.lexeme.text ++ last.gap) := by
      rw [render_append, render_cons, show render [] = [] from rfl, List.append_nil]
    rw [hrender, ← List.append_assoc, ← List.append_assoc]
    rcases hapart with h | h | h
    · rw [List.getLast?_append_of_ne_nil _ h]
      exact hblank last.gap last.blank
    · by_cases hg : last.gap = []
      · rw [hg, List.append_nil, List.getLast?_append_of_ne_nil _ last.lexeme.text_ne_nil]
        exact h
      · rw [List.getLast?_append_of_ne_nil _ hg]
        exact hblank last.gap last.blank
    · rw [hw] at h
      cases h

/-- **Where everything is set apart, a `for` in front of a name asks for a colon.** -/
theorem asksForColon_of_holdsFor (layout : Layout lexemes) (h : HoldsFor lexemes)
    (hc : layout.pieces.IsChain SetApart) : layout.AsksForColon := by
  obtain ⟨target, before, after, hcut⟩ := h
  rw [← layout.lexemes_eq, List.append_assoc] at hcut
  obtain ⟨front, pieces, hp, -, hpieces⟩ := List.map_eq_append_iff.mp hcut.symm
  obtain ⟨piece, pieces, rfl, hfor, hpieces⟩ := List.map_eq_cons_iff.mp hpieces
  obtain ⟨next, pieces, rfl, hname, -⟩ := List.map_eq_cons_iff.mp hpieces
  rw [hp] at hc
  refine ⟨front, piece, next :: pieces, hp, by rw [hfor]; rfl, ?_, ?_⟩
  · have hword : piece.lexeme.text.getLast?.any isWord = true := by
      rw [hfor]
      decide
    have hnext : next.lexeme.text.head?.any isWord = true := by
      rw [hname, List.head?_eq_some_head (Lexeme.text_ne_nil _), Option.any_some]
      exact target.word _ (List.head_mem _)
    rcases (List.isChain_append_cons_cons.mp hc).2.1 with hg | h | h
    · exact hg
    · rw [hword] at h
      cases h
    · rw [hnext] at h
      cases h
  · exact getLast?_before layout.blank hc (by rw [hfor]; decide)

end Layout

/-- **The verdict on a program without blocks.**  However it is laid out, such a program is passed
exactly if none of its clause words stands in front of a gap, with or without the demand for an
entry point; otherwise a colon is missed. So a program with a comprehension is not passed where its
words are set apart, and one without comprehensions and conditionals always is. -/
theorem Program.diagnose_laidOut (program : Program) (layout : Layout program.lexemes)
    (requireMain : Bool) :
    (layout.AsksForColon →
      Language.python.diagnose requireMain layout.text = some .missingColon) ∧
    (¬ layout.AsksForColon → Language.python.diagnose requireMain layout.text = none) ∧
    (program.hasComprehension = true → layout.pieces.IsChain SetApart → layout.AsksForColon) ∧
    (program.hasComprehension = false → program.hasConditional = false →
      ¬ layout.AsksForColon) := by
  have hverdict := layout.diagnose_eq program.balanced requireMain
  refine ⟨fun h => ?_, fun h => ?_, fun h => layout.asksForColon_of_holdsFor (holdsFor h), ?_⟩
  · rw [hverdict, if_pos (Layout.occursIn_blockWord.mpr h)]
  · rw [hverdict, if_neg (mt Layout.occursIn_blockWord.mp h)]
  · rintro h h' ⟨before, piece, after, hp, hclause, -⟩
    have hmem : piece.lexeme ∈ program.lexemes := by
      rw [← layout.lexemes_eq, hp]
      simp
    rw [clauseFree h h' piece.lexeme hmem] at hclause
    cases hclause

namespace Copying

def element : Name := ⟨"x".toList, by decide, by decide, by decide⟩

def source : Name := ⟨"ys".toList, by decide, by decide, by decide⟩

def target : Name := ⟨"xs".toList, by decide, by decide, by decide⟩

/-- A program that copies a list by a comprehension. -/
def program : Program :=
  ⟨[⟨[.name target], .comprehension (.name element) element (.name source) .none⟩]⟩

def pieces : List Piece :=
  [Lexeme.spaced (.name target), Lexeme.spaced (.mark .equals), Lexeme.tight (.mark .openingSquare),
    Lexeme.spaced (.name element), Lexeme.spaced (.keyword .forWord), Lexeme.spaced (.name element),
    Lexeme.spaced (.keyword .inWord), Lexeme.tight (.name source),
    Lexeme.tight (.mark .closingSquare)]

theorem isChain_pieces : pieces.IsChain SetApart := by decide

def layout : Layout program.lexemes :=
  ⟨[], blank_nil, pieces, rfl, isChain_pieces.imp fun _ _ => Or.inl⟩

end Copying

/-- **A program without blocks may be refused**: the colon of a block is missed in a
comprehension. -/
theorem not_passed_copying :
    Copying.layout.text = "xs = [x for x in ys]".toList ∧
    ∀ requireMain,
      Language.python.diagnose requireMain Copying.layout.text = some .missingColon := by
  refine ⟨rfl, fun requireMain => ?_⟩
  rw [Copying.layout.diagnose_eq Copying.program.balanced, if_pos]
  exact Layout.occursIn_blockWord.mpr (Copying.layout.asksForColon_of_holdsFor
    (Program.holdsFor rfl) Copying.isChain_pieces)

end BlockFree

end Snippet
