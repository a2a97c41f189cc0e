import Snippet.Definition
import Snippet.Proofs.WholeWord

/-!
# Calls of an own name

A definition calls itself if its body holds its name, with nothing in front that would belong to the
name and with an opening parenthesis behind it, blanks aside (`Calls`).

A text whose last character belongs to no name may be cut off (`calls_append`): a call stands on one
side of the cut, or the name stands on the left of it and the parenthesis on the right. So blank
lines do not matter to calls (`calls_flatten_filter`), which is why a block may be read without
them.

`mem_recursiveNames` says which names are listed, and `recursiveNames_of_nodup` in which order.
-/

namespace Snippet

open Pattern Place

variable {name front rest text : Text}

/-- Whether a character may belong to a name. -/
def isNameChar (c : Char) : Bool := isWord c || c == '$'

/-- What a name is made of. -/
def IsName (name : Text) : Prop := name ≠ [] ∧ ∀ c ∈ name, isNameChar c = true

/-- A name without the dollar sign that starts with a letter or an underscore. -/
def IsPlainName (name : Text) : Prop :=
  ∃ c more, name = c :: more ∧ isNameStart c = true ∧ ∀ d ∈ more, isWord d = true

namespace IsPlainName

theorem ne_nil (h : IsPlainName name) : name ≠ [] := by
  obtain ⟨c, more, rfl, -⟩ := h
  exact List.cons_ne_nil c more

theorem isWord_of_mem (h : IsPlainName name) : ∀ c ∈ name, isWord c = true := by
  obtain ⟨c, more, rfl, hc, hm⟩ := h
  exact List.forall_mem_cons.mpr ⟨isWord_of_isNameStart hc, hm⟩

theorem isName (h : IsPlainName name) : IsName name :=
  ⟨h.ne_nil, fun c hc => by rw [isNameChar, h.isWord_of_mem c hc, Bool.true_or]⟩

theorem any_head? (h : IsPlainName name) (rest : Text) :
    (name ++ rest).head?.any isWord = true := by
  obtain ⟨c, more, rfl, hc, -⟩ := h
  exact isWord_of_isNameStart hc

end IsPlainName

theorem fits_name {left piece right : Text} {held kept : Groups} :
    Pattern.name.Fits left piece right held kept ↔ IsPlainName piece ∧ kept = held := by
  constructor
  · rintro ⟨_, more, _, rfl, ⟨⟨c, rfl, hc⟩, rfl⟩, hm, rfl⟩
    exact ⟨⟨c, more, rfl, hc, hm⟩, rfl⟩
  · rintro ⟨⟨c, more, rfl, hc, hm⟩, rfl⟩
    exact ⟨[c], more, kept, rfl, ⟨⟨c, rfl, hc⟩, rfl⟩, hm, rfl⟩

theorem fits_someBlanks {left piece right : Text} {held kept : Groups} :
    someBlanks.Fits left piece right held kept ↔
      piece ≠ [] ∧ (∀ c ∈ piece, isBlank c = true) ∧ kept = held := by
  constructor
  · rintro ⟨_, more, _, rfl, ⟨⟨c, rfl, hc⟩, rfl⟩, hm, rfl⟩
    exact ⟨List.cons_ne_nil c more, List.forall_mem_cons.mpr ⟨hc, hm⟩, rfl⟩
  · rintro ⟨hn, hb, rfl⟩
    obtain ⟨c, more, rfl⟩ := List.exists_cons_of_ne_nil hn
    obtain ⟨hc, hm⟩ := List.forall_mem_cons.mp hb
    exact ⟨[c], more, kept, rfl, ⟨⟨c, rfl, hc⟩, rfl⟩, hm, rfl⟩

/-- The name stands in the text, with no character of a name in front of it, and with an opening
parenthesis behind it, blanks aside. -/
def Calls (name text : Text) : Prop :=
  ∃ front gap back, text = front ++ (name ++ (gap ++ '(' :: back)) ∧
    front.getLast?.any isNameChar = false ∧ ∀ c ∈ gap, isBlank c = true

/-- **A definition calls itself exactly if its body calls its name.** -/
theorem Definition.isRecursive_iff (definition : Definition) :
    definition.isRecursive = true ↔ Calls definition.name definition.body := by
  rw [Definition.isRecursive, occursIn_iff]
  constructor
  · rintro ⟨left, _, hb, _, right, kept, rfl, _, back, _, rfl, ⟨_, _, _, rfl, ⟨rfl, -, hl⟩, hlit⟩,
      hback⟩
    obtain ⟨rfl, -⟩ := fits_lit.mp hlit
    obtain ⟨gap, hg, rfl, -⟩ := fits_next.mp hback
    exact ⟨left, gap, right, by simp [hb], hl, hg⟩
  · rintro ⟨front, gap, back, hb, hf, hg⟩
    refine ⟨front, definition.name ++ (gap ++ '(' :: back), hb, definition.name ++ (gap ++ ['(']),
      back, [], by simp, definition.name, gap ++ ['('], [], rfl, ?_,
      fits_next.mpr ⟨gap, hg, rfl, rfl⟩⟩
    exact ⟨[], definition.name, [], rfl, ⟨rfl, rfl, hf⟩, fits_lit.mpr ⟨by simp, rfl⟩⟩

instance (name text : Text) : Decidable (Calls name text) :=
  decidable_of_iff _ (Definition.isRecursive_iff ⟨name, text⟩)

/-! ### Texts that are cut -/

theorem isNameChar_of_isBlank {c : Char} (h : isBlank c = true) : isNameChar c = false := by
  rw [isNameChar, isWord_of_isBlank h, Bool.false_or, beq_eq_false_iff_ne]
  rintro rfl
  exact absurd h (by decide)

theorem any_getLast?_of_blank (h : ∀ c ∈ text, isBlank c = true) :
    text.getLast?.any isNameChar = false := by
  cases hl : text.getLast? with
  | none => rfl
  | some c => exact isNameChar_of_isBlank (h c (List.mem_of_getLast? hl))

/-- The name stands at the end of the text, blanks aside. -/
def EndsInName (name text : Text) : Prop :=
  ∃ front gap, text = front ++ (name ++ gap) ∧ front.getLast?.any isNameChar = false ∧
    ∀ c ∈ gap, isBlank c = true

/-- An opening parenthesis stands at the start of the text, blanks aside. -/
def OpensParenthesis (text : Text) : Prop :=
  ∃ gap back, text = gap ++ '(' :: back ∧ ∀ c ∈ gap, isBlank c = true

/-- **A call is cut through between the name and the parenthesis**, if at all. -/
theorem calls_append (hn : IsName name) (hf : front.getLast?.any isNameChar = false) :
    Calls name (front ++ rest) ↔
      Calls name front ∨ Calls name rest ∨ (EndsInName name front ∧ OpensParenthesis rest) := by
  constructor
  · rintro ⟨before, gap, back, ht, hb, hg⟩
    rcases List.append_eq_append_iff.mp ht with ⟨more, rfl, hmore⟩ | ⟨more, rfl, hmore⟩
    · -- the name stands behind the cut
      refine Or.inr (Or.inl ⟨more, gap, back, hmore, ?_, hg⟩)
      by_cases hm : more = []
      · rw [hm]
        rfl
      · rwa [List.getLast?_append_of_ne_nil _ hm] at hb
    rcases List.append_eq_append_iff.mp hmore with ⟨middle, rfl, hmiddle⟩ | ⟨middle, rfl, hmiddle⟩
    · rcases List.append_eq_append_iff.mp hmiddle with ⟨tail, rfl, htail⟩ | ⟨tail, rfl, htail⟩
      · cases tail with
        | nil =>
          exact Or.inr (Or.inr ⟨⟨before, gap, by simp, hb, hg⟩, [], back, htail.symm, by simp⟩)
        | cons d tail =>
          obtain ⟨rfl, -⟩ := List.cons.inj htail
          exact Or.inl ⟨before, gap, tail, by simp, hb, hg⟩
      · exact Or.inr (Or.inr ⟨⟨before, middle, rfl, hb, fun c hc => hg c (by simp [hc])⟩,
          tail, back, htail, fun c hc => hg c (by simp [hc])⟩)
    · -- a name that is cut through would end the left part in one of its characters
      by_cases hm : more = []
      · subst hm
        exact Or.inr (Or.inl ⟨[], gap, back, by simpa using hmiddle, rfl, hg⟩)
      · rw [List.getLast?_append_of_ne_nil _ hm, List.getLast?_eq_getLast_of_ne_nil hm,
          Option.any_some, hn.2 _ (List.mem_append_left _ (List.getLast_mem hm))] at hf
        cases hf
  · rintro (⟨before, gap, back, rfl, hb, hg⟩ | ⟨before, gap, back, rfl, hb, hg⟩ |
      ⟨⟨before, gap, rfl, hb, hg⟩, gap', back, rfl, hg'⟩)
    · exact ⟨before, gap, back ++ rest, by simp, hb, hg⟩
    · refine ⟨front ++ before, gap, back, by simp, ?_, hg⟩
      by_cases hbefore : before = []
      · rwa [hbefore, List.append_nil]
      · rwa [List.getLast?_append_of_ne_nil _ hbefore]
    · refine ⟨before, gap ++ gap', back, by simp, hb, ?_⟩
      simp only [List.mem_append]
      rintro c (hc | hc)
      · exact hg c hc
      · exact hg' c hc

theorem mem_of_calls (h : Calls name text) : '(' ∈ text := by
  obtain ⟨front, gap, back, rfl, -⟩ := h
  simp

theorem calls_blank_append (hn : IsName name) (hf : ∀ c ∈ front, isBlank c = true) :
    Calls name (front ++ rest) ↔ Calls name rest := by
  have hcalls : ¬ Calls name front := by
    intro h
    exact absurd (hf _ (mem_of_calls h)) (by decide)
  have hends : ¬ EndsInName name front := by
    rintro ⟨before, gap, rfl, -, -⟩
    obtain ⟨c, tail, rfl⟩ := List.exists_cons_of_ne_nil hn.1
    have hc := isNameChar_of_isBlank (hf c (by simp))
    rw [hn.2 c List.mem_cons_self] at hc
    cases hc
  rw [calls_append hn (any_getLast?_of_blank hf)]
  tauto

theorem calls_append_blank (hr : ∀ c ∈ rest, isBlank c = true) :
    Calls name (text ++ rest) ↔ Calls name text := by
  constructor
  · rintro ⟨front, gap, back, ht, hf, hg⟩
    have hcut : text ++ rest = (front ++ (name ++ (gap ++ ['(']))) ++ back := by simp [ht]
    rcases List.append_eq_append_iff.mp hcut with ⟨more, hm, rfl⟩ | ⟨more, rfl, -⟩
    · rcases List.eq_nil_or_concat more with rfl | ⟨more, c, rfl⟩
      · exact ⟨front, gap, [], by rw [← List.append_nil text, ← hm], hf, hg⟩
      · have hc : c = '(' := by
          have hlast := congrArg List.getLast? hm
          simpa [← List.append_assoc] using hlast.symm
        exact absurd (hr '(' (by simp [hc])) (by decide)
    · exact ⟨front, gap, more, by simp, hf, hg⟩
  · rintro ⟨front, gap, back, rfl, hf, hg⟩
    exact ⟨front, gap, back ++ rest, by simp, hf, hg⟩

theorem opensParenthesis_blank_append (hf : ∀ c ∈ front, isBlank c = true) :
    OpensParenthesis (front ++ rest) ↔ OpensParenthesis rest := by
  constructor
  · rintro ⟨gap, back, ht, hg⟩
    rcases List.append_eq_append_iff.mp ht with ⟨more, rfl, hmore⟩ | ⟨more, rfl, hmore⟩
    · exact ⟨more, back, hmore, fun c hc => hg c (by simp [hc])⟩
    · cases more with
      | nil => exact ⟨[], back, hmore.symm, by simp⟩
      | cons d more =>
        obtain ⟨rfl, -⟩ := List.cons.inj hmore
        exact absurd (hf '(' (by simp)) (by decide)
  · rintro ⟨gap, back, rfl, hg⟩
    refine ⟨front ++ gap, back, by simp, ?_⟩
    simp only [List.mem_append]
    rintro c (hc | hc)
    · exact hf c hc
    · exact hg c hc

/-- Every line but the last one ends in a character that belongs to no name. -/
def Separated (lines : List Text) : Prop :=
  ∀ line ∈ lines.dropLast, ∃ c ∈ line.getLast?, isNameChar c = false

theorem Separated.cons {line : Text} {more : List Text} (hm : Separated more) {c : Char}
    (hl : line.getLast? = some c) (hc : isNameChar c = false) : Separated (line :: more) := by
  by_cases hn : more = []
  · subst hn
    exact fun _ h => by cases h
  · rw [Separated, List.dropLast_cons_of_ne_nil hn]
    exact List.forall_mem_cons.mpr ⟨⟨c, hl, hc⟩, hm⟩

/-- **Blank lines do not matter to calls.** -/
theorem calls_flatten_filter (hn : IsName name) {lines : List Text} (hl : Separated lines)
    (hf : front.getLast?.any isNameChar = false) :
    Calls name (front ++ (lines.filter fun line => !Text.isBlankText line).flatten) ↔
      Calls name (front ++ lines.flatten) := by
  induction lines generalizing front with
  | nil => rfl
  | cons line more ih =>
    by_cases hm : more = []
    · subst hm
      by_cases hb : Text.isBlankText line = true
      · have hblank : ∀ c ∈ line ++ [], isBlank c = true := by
          rw [List.append_nil]
          exact List.all_eq_true.mp hb
        have hnone := @calls_blank_append name (line ++ []) [] hn hblank
        rw [List.append_nil] at hnone
        have hopens := @opensParenthesis_blank_append (line ++ []) [] hblank
        rw [List.append_nil] at hopens
        rw [List.filter_cons_of_neg (by simp [hb]), List.filter_nil, List.flatten_cons,
          List.flatten_nil, calls_append hn hf, calls_append hn hf, hnone, hopens]
      · rw [List.filter_cons_of_pos (by simp [hb]), List.filter_nil]
    have hl : (∃ c ∈ line.getLast?, isNameChar c = false) ∧ Separated more := by
      rwa [Separated, List.dropLast_cons_of_ne_nil hm, List.forall_mem_cons] at hl
    by_cases hb : Text.isBlankText line = true
    · have hblank := List.all_eq_true.mp hb
      rw [List.filter_cons_of_neg (by simp [hb]), ih hl.2 hf, List.flatten_cons,
        calls_append hn hf, calls_append hn hf, calls_blank_append hn hblank,
        opensParenthesis_blank_append hblank]
    · rw [List.filter_cons_of_pos (by simp [hb]), List.flatten_cons, List.flatten_cons,
        ← List.append_assoc, ← List.append_assoc, ih hl.2]
      obtain ⟨c, hlast, hc⟩ := hl.1
      rw [List.getLast?_append, Option.mem_def.mp hlast, Option.some_or, Option.any_some, hc]

theorem separated_lines (text : Text) : Separated (Text.lines text) := by
  fun_induction Text.lines text with
  | case1 => exact fun _ h => by cases h
  | case2 rest ih => exact ih.cons (c := '\n') rfl (by decide)
  | case3 c rest _ hc ih =>
    exact ih.cons rfl (isNameChar_of_isBlank (Text.isBlank_of_isLineBreak hc))
  | case4 c rest _ hc heq ih => exact fun _ h => by cases h
  | case5 c rest _ hc line more heq ih =>
    rw [heq] at ih
    by_cases hn : more = []
    · subst hn
      exact fun _ h => by cases h
    · rw [Separated, List.dropLast_cons_of_ne_nil hn] at ih ⊢
      obtain ⟨⟨d, hd, hname⟩, hm⟩ := List.forall_mem_cons.mp ih
      refine List.forall_mem_cons.mpr ⟨⟨d, ?_, hname⟩, hm⟩
      rw [Option.mem_def, List.getLast?_cons, Option.mem_def.mp hd, Option.getD_some]

/-! ### The names that are listed -/

/-- Two definitions of one name, of which both call it or none. -/
structure SameCalls (definition definition' : Definition) : Prop where
  name : definition.name = definition'.name
  isRecursive : definition.isRecursive = definition'.isRecursive

theorem map_name_of_sameCalls {definitions definitions' : List Definition}
    (h : List.Forall₂ SameCalls definitions definitions') :
    definitions.map (·.name) = definitions'.map (·.name) ∧
      (definitions.filter (·.isRecursive)).map (·.name) =
        (definitions'.filter (·.isRecursive)).map (·.name) := by
  induction h with
  | nil => exact ⟨rfl, rfl⟩
  | cons hfirst _ ih =>
    rw [List.map_cons, List.map_cons, List.filter_cons, List.filter_cons, hfirst.isRecursive]
    refine ⟨by rw [hfirst.name, ih.1], ?_⟩
    split
    · rw [List.map_cons, List.map_cons, hfirst.name, ih.2]
    · exact ih.2

theorem mem_foldl_collect {names listed : List Text} :
    name ∈ names.foldl (fun names name => if name ∈ names then names else names ++ [name]) listed ↔
      name ∈ listed ∨ name ∈ names := by
  induction names generalizing listed with
  | nil => simp
  | cons first names ih =>
    rw [List.foldl_cons, ih, List.mem_cons]
    split
    next h =>
      constructor
      · tauto
      · rintro (h' | rfl | h')
        · exact Or.inl h'
        · exact Or.inl h
        · exact Or.inr h'
    next => rw [List.mem_append, List.mem_singleton, or_assoc]

theorem foldl_collect_of_nodup {names listed : List Text} (h : (listed ++ names).Nodup) :
    names.foldl (fun names name => if name ∈ names then names else names ++ [name]) listed =
      listed ++ names := by
  induction names generalizing listed with
  | nil => simp
  | cons first names ih =>
    have hfirst : first ∉ listed := fun hm =>
      (List.nodup_append.mp h).2.2 first hm first List.mem_cons_self rfl
    rw [List.foldl_cons, if_neg hfirst, ih (by simpa using h), List.append_assoc,
      List.singleton_append]

namespace Language

variable {language : Language} {code : Text}

/-- **A name is listed exactly if a definition of that name calls it.** -/
theorem mem_recursiveNames : name ∈ language.recursiveNames code ↔
    ∃ definition ∈ language.definitions code,
      definition.name = name ∧ Calls name definition.body := by
  rw [recursiveNames, mem_foldl_collect]
  simp only [List.not_mem_nil, false_or, List.mem_map, List.mem_filter,
    Definition.isRecursive_iff]
  constructor
  · rintro ⟨definition, ⟨hm, hc⟩, rfl⟩
    exact ⟨definition, hm, rfl, hc⟩
  · rintro ⟨definition, hm, rfl, hc⟩
    exact ⟨definition, ⟨hm, hc⟩, rfl⟩

/-- **The names that are listed stand in the order of their definitions**, if these have names of
their own. -/
theorem recursiveNames_of_nodup (h : ((language.definitions code).map (·.name)).Nodup) :
    language.recursiveNames code =
      ((language.definitions code).filter (·.isRecursive)).map (·.name) := by
  have hsub := (List.filter_sublist (l := language.definitions code)
    (p := fun definition => definition.isRecursive)).map (·.name)
  rw [recursiveNames, foldl_collect_of_nodup (hsub.nodup h), List.nil_append]

end Language

end Snippet
