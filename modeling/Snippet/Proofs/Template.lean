import Snippet.Decimal.Numeral
import Snippet.Proofs.Marks
import Snippet.Proofs.Masking

/-!
# Programs with holes

A template is a program in which the name of a function, a number and the blanks are left open.
Filling the holes (`Template.render`) gives a text of which a few facts depend on the template
alone and can therefore be decided, whatever the holes are filled with:

* `mem_words_render`: its words are those of the fixed texts, the name and the numeral,
* `mem_render`: its other characters stand in the fixed texts or are blank,
* `count_render`: so a bracket occurs in it as often as in the fixed texts.
-/

namespace Snippet

/-! ### Decimal digits -/

/-- The digits of decimal numerals. -/
def decimalDigits : Text := "0123456789".toList

theorem mem_decimalDigits {c : Char} (h : c.isDigit = true) : c ∈ decimalDigits := by
  rw [Char.isDigit, Bool.and_eq_true, decide_eq_true_eq, decide_eq_true_eq,
    ge_iff_le, UInt32.le_iff_toNat_le, UInt32.le_iff_toNat_le] at h
  have hl : 48 ≤ c.toNat := h.1
  have hu : c.toNat ≤ 57 := h.2
  rw [← Char.ofNat_toNat c]
  interval_cases c.toNat <;> decide

/-- The digits of a number. -/
def Numeral.digits (n : Nat) : Text := Nat.toDigits 10 n

namespace Numeral

theorem digits_ne_nil (n : Nat) : digits n ≠ [] := Nat.toDigits_ne_nil

theorem mem_decimalDigits_of_mem_digits {n : Nat} {c : Char} (h : c ∈ digits n) :
    c ∈ decimalDigits :=
  mem_decimalDigits (Nat.isDigit_of_mem_toDigits (by decide) (by decide) h)

theorem isDecimal_of_mem_digits {n : Nat} {c : Char} (h : c ∈ digits n) : isDecimal c = true := by
  have hd : ∀ c ∈ decimalDigits, isDecimal c = true := by decide
  exact hd c (mem_decimalDigits_of_mem_digits h)

theorem isWord_of_mem_digits {n : Nat} {c : Char} (h : c ∈ digits n) : isWord c = true := by
  have hd : ∀ c ∈ decimalDigits, isWord c = true := by decide
  exact hd c (mem_decimalDigits_of_mem_digits h)

theorem digitValue?_of_mem_digits {n : Nat} {c : Char} (h : c ∈ digits n) :
    digitValue? c = some (c.toNat - '0'.toNat) := by
  have hd : ∀ c ∈ decimalDigits, digitValue? c = some (c.toNat - '0'.toNat) := by decide
  exact hd c (mem_decimalDigits_of_mem_digits h)

/-- **A number is read back from its digits.** -/
theorem value_digits (n : Nat) : value (digits n) = n := by
  have hv : ∀ (text : Text) (start : Nat), (∀ c ∈ text, c ∈ digits n) →
      text.foldl (fun n c => n * 10 + (digitValue? c).getD 0) start =
        Nat.ofDigitChars 10 text start := by
    intro text
    induction text with
    | nil => exact fun _ _ => rfl
    | cons c text ih =>
      intro start ht
      obtain ⟨hc, ht⟩ := List.forall_mem_cons.mp ht
      rw [List.foldl_cons, digitValue?_of_mem_digits hc, Nat.ofDigitChars_cons, ih _ ht,
        Option.getD_some, Nat.mul_comm]
  rw [value, hv _ 0 fun _ h => h]
  exact Nat.ofDigitChars_ten_toDigits

theorem read_digits {n : Nat} (h : (digits n).length ≤ digitLimit) : read (digits n) = .ok n := by
  rw [read, if_neg (Nat.not_lt.mpr h), value_digits]

end Numeral

/-! ### Templates -/

/-- What the holes of a program are filled with: a name that holds `fib`, a number that is not too
long to be read, and blanks for each place where blanks may stand. -/
structure Filling where
  name : Text
  number : Nat
  blanks : Nat → Text
  isName : Literal.isName name = true
  holdsFib : "fib".toList <:+: name.map Char.toLower
  length_le : (Numeral.digits number).length ≤ digitLimit
  blanks_blank : ∀ index, ∀ c ∈ blanks index, isBlank c = true

namespace Filling

variable (filling : Filling)

/-- The number as it is written. -/
def numeral : Text := Numeral.digits filling.number

theorem head?_name : filling.name.head?.any isNameStart = true := by
  have h := filling.isName
  cases hn : filling.name with
  | nil => rw [hn] at h; cases h
  | cons c rest =>
    rw [hn, Literal.isName, Bool.and_eq_true] at h
    exact h.1

theorem isWord_of_mem_name : ∀ c ∈ filling.name, isWord c = true := by
  have h := filling.isName
  cases hn : filling.name with
  | nil => exact fun _ hc => absurd hc List.not_mem_nil
  | cons c rest =>
    rw [hn, Literal.isName, Bool.and_eq_true, List.all_eq_true] at h
    exact List.forall_mem_cons.mpr ⟨isWord_of_isNameStart h.1, h.2⟩

theorem name_ne_nil : filling.name ≠ [] := by
  intro hn
  have h := filling.isName
  rw [hn] at h
  cases h

end Filling

/-- A piece of a template. -/
inductive Piece where
  | fixed (s : String)
  | name
  | numeral
  /-- The blanks of an index. -/
  | blank (index : Nat)
  deriving DecidableEq, Repr

/-- A program with holes. -/
abbrev Template := List Piece

namespace Piece

/-- A piece as it is filled in. -/
def text (filling : Filling) : Piece → Text
  | fixed s => s.toList
  | name => filling.name
  | numeral => filling.numeral
  | blank index => filling.blanks index

/-- What is fixed of a piece. -/
def fixedText : Piece → Text
  | fixed s => s.toList
  | _ => []

/-- Whether a piece may be filled with nothing. -/
def mayBeEmpty : Piece → Bool
  | fixed s => s.toList.isEmpty
  | name | numeral => false
  | blank _ => true

/-- Whether a piece may end with a character of a class that holds no blank ones. -/
def mayEndIn (p : Char → Bool) : Piece → Bool
  | fixed s => s.toList.getLast?.any p
  | name | numeral => true
  | blank _ => false

variable {filling : Filling}

theorem mayBeEmpty_of_text {piece : Piece} (h : piece.text filling = []) :
    piece.mayBeEmpty = true := by
  cases piece with
  | fixed s => exact List.isEmpty_iff.mpr h
  | name => exact absurd h filling.name_ne_nil
  | numeral => exact absurd h (Numeral.digits_ne_nil _)
  | blank index => rfl

theorem mayEndIn_of_getLast? {p : Char → Bool} (hp : ∀ c, isBlank c = true → p c = false)
    {piece : Piece} (h : (piece.text filling).getLast?.any p = true) :
    piece.mayEndIn p = true := by
  cases piece with
  | fixed s => exact h
  | name => rfl
  | numeral => rfl
  | blank index =>
    rw [text] at h
    cases hg : (filling.blanks index).getLast? with
    | none => rw [hg] at h; cases h
    | some c =>
      have hb := filling.blanks_blank index c (List.mem_of_getLast? hg)
      rw [hg, Option.any_some, hp c hb] at h
      cases h

end Piece

namespace Template

/-- The program with its holes filled. -/
def render (template : Template) (filling : Filling) : Text :=
  template.flatMap (Piece.text filling)

/-- The fixed texts one after the other. -/
def fixedText (template : Template) : Text := template.flatMap Piece.fixedText

/-- Whether the program may open with a word character. -/
def opensInWord : Template → Bool
  | [] => false
  | .fixed s :: more => if s.toList.isEmpty then opensInWord more else s.toList.head?.any isWord
  | .name :: _ | .numeral :: _ => true
  | .blank _ :: more => opensInWord more

/-- Whether the program may end with a character of a class that holds no blank ones. -/
def mayEndIn (p : Char → Bool) : Template → Bool
  | [] => false
  | piece :: more => mayEndIn p more || (more.all Piece.mayBeEmpty && piece.mayEndIn p)

/-- Whether no word goes on from one piece to the next. -/
def isSeparated : Template → Bool
  | [] => true
  | piece :: more => !(piece.mayEndIn isWord && opensInWord more) && isSeparated more

variable {template : Template} {filling : Filling}

theorem render_cons (piece : Piece) (more : Template) :
    render (piece :: more) filling = piece.text filling ++ more.render filling :=
  List.flatMap_cons

theorem render_append (first second : Template) :
    render (first ++ second) filling = first.render filling ++ second.render filling :=
  List.flatMap_append

theorem opensInWord_of_head? (h : (template.render filling).head?.any isWord = true) :
    template.opensInWord = true := by
  induction template with
  | nil => cases h
  | cons piece more ih =>
    rw [render_cons] at h
    cases piece with
    | name => rfl
    | numeral => rfl
    | fixed s =>
      rw [opensInWord]
      cases hs : s.toList with
      | nil =>
        rw [Piece.text, hs, List.nil_append] at h
        exact ih h
      | cons c tail =>
        rw [Piece.text, hs] at h
        exact h
    | blank index =>
      cases hb : filling.blanks index with
      | nil =>
        rw [Piece.text, hb, List.nil_append] at h
        exact ih h
      | cons c tail =>
        have hc : isBlank c = true := filling.blanks_blank index c (by simp [hb])
        rw [Piece.text, hb, List.cons_append, List.head?_cons, Option.any_some,
          isWord_of_isBlank hc] at h
        cases h

theorem mayEndIn_of_getLast? {p : Char → Bool} (hp : ∀ c, isBlank c = true → p c = false)
    (h : (template.render filling).getLast?.any p = true) : template.mayEndIn p = true := by
  induction template with
  | nil => cases h
  | cons piece more ih =>
    rw [render_cons] at h
    rw [mayEndIn, Bool.or_eq_true, Bool.and_eq_true]
    by_cases hn : render more filling = []
    · have he : more.all Piece.mayBeEmpty = true := List.all_eq_true.mpr fun other ho =>
        Piece.mayBeEmpty_of_text (List.flatMap_eq_nil_iff.mp hn other ho)
      rw [hn, List.append_nil] at h
      exact Or.inr ⟨he, Piece.mayEndIn_of_getLast? hp h⟩
    · rw [List.getLast?_append_of_ne_nil _ hn] at h
      exact Or.inl (ih h)

theorem any_getLast?_render {p : Char → Bool} (hp : ∀ c, isBlank c = true → p c = false)
    (h : template.mayEndIn p = false) : (template.render filling).getLast?.any p = false := by
  rw [← Bool.not_eq_true]
  intro hl
  rw [mayEndIn_of_getLast? hp hl] at h
  cases h

theorem any_head?_render (h : template.opensInWord = false) :
    (template.render filling).head?.any isWord = false := by
  rw [← Bool.not_eq_true]
  intro hh
  rw [opensInWord_of_head? hh] at h
  cases h

/-- **The words of a filled template are known.** -/
theorem mem_words_render (hs : template.isSeparated = true) {word : Text}
    (hw : word ∈ (template.render filling).words) :
    word = filling.name ∨ word = filling.numeral ∨ word = [] ∨
      ∃ piece ∈ template, word ∈ Text.words piece.fixedText := by
  induction template with
  | nil => exact Or.inr (Or.inr (Or.inl (List.mem_singleton.mp hw)))
  | cons piece more ih =>
    rw [isSeparated, Bool.and_eq_true, Bool.not_eq_true', Bool.and_eq_false_iff] at hs
    obtain ⟨hcut, hs⟩ := hs
    have hcut : (piece.text filling).getLast?.any isWord = false ∨
        (render more filling).head?.any isWord = false := by
      rcases hcut with hcut | hcut
      · refine Or.inl (Bool.eq_false_of_not_eq_true fun h => ?_)
        rw [Piece.mayEndIn_of_getLast? (fun _ => isWord_of_isBlank) h] at hcut
        cases hcut
      · exact Or.inr (any_head?_render hcut)
    rw [render_cons] at hw
    rcases Text.mem_words_of_append hcut hw with hw | hw
    · cases piece with
      | fixed s => exact Or.inr (Or.inr (Or.inr ⟨_, List.mem_cons_self, hw⟩))
      | name =>
        rw [Piece.text, Text.words_of_forall filling.isWord_of_mem_name] at hw
        exact Or.inl (List.mem_singleton.mp hw)
      | numeral =>
        rw [Piece.text, Filling.numeral,
          Text.words_of_forall fun c hc => Numeral.isWord_of_mem_digits hc] at hw
        exact Or.inr (Or.inl (List.mem_singleton.mp hw))
      | blank index =>
        have hb : ∀ c ∈ filling.blanks index, isWord c = false := fun c hc =>
          isWord_of_isBlank (filling.blanks_blank index c hc)
        rw [Piece.text, ← List.append_nil (filling.blanks index)] at hw
        rcases Text.mem_words_append hb hw with hw | hw
        · exact Or.inr (Or.inr (Or.inl hw))
        · exact Or.inr (Or.inr (Or.inl (List.mem_singleton.mp hw)))
    · rcases ih hs hw with hw | hw | hw | ⟨other, hm, hw⟩
      · exact Or.inl hw
      · exact Or.inr (Or.inl hw)
      · exact Or.inr (Or.inr (Or.inl hw))
      · exact Or.inr (Or.inr (Or.inr ⟨other, List.mem_cons_of_mem _ hm, hw⟩))

theorem mem_render {c : Char} (h : c ∈ template.render filling) :
    c ∈ template.fixedText ∨ isWord c = true ∨ isBlank c = true := by
  obtain ⟨piece, hp, hc⟩ := List.mem_flatMap.mp h
  cases piece with
  | fixed s => exact Or.inl (List.mem_flatMap.mpr ⟨_, hp, hc⟩)
  | name => exact Or.inr (Or.inl (filling.isWord_of_mem_name c hc))
  | numeral => exact Or.inr (Or.inl (Numeral.isWord_of_mem_digits hc))
  | blank index => exact Or.inr (Or.inr (filling.blanks_blank index c hc))

/-- **What is neither a word character nor blank occurs as often as in the fixed texts.** -/
theorem count_render {c : Char} (hw : isWord c = false) (hb : isBlank c = false) :
    (template.render filling).count c = template.fixedText.count c := by
  induction template with
  | nil => rfl
  | cons piece more ih =>
    have hp : (piece.text filling).count c = piece.fixedText.count c := by
      cases piece with
      | fixed s => rfl
      | name =>
        refine List.count_eq_zero_of_not_mem fun hc => ?_
        rw [filling.isWord_of_mem_name c hc] at hw
        cases hw
      | numeral =>
        refine List.count_eq_zero_of_not_mem fun hc => ?_
        rw [Numeral.isWord_of_mem_digits hc] at hw
        cases hw
      | blank index =>
        refine List.count_eq_zero_of_not_mem fun hc => ?_
        rw [filling.blanks_blank index c hc] at hb
        cases hb
    rw [render_cons, fixedText, List.flatMap_cons, List.count_append, List.count_append, hp, ih,
      fixedText]

theorem mask_render (language : Language) (h : ∀ c ∈ template.fixedText, isPlain c = true) :
    language.mask (template.render filling) = template.render filling := by
  refine language.mask_eq_self fun c hc => ?_
  rcases mem_render hc with hc | hc | hc
  · exact h c hc
  · exact isPlain_of_isWord hc
  · exact isPlain_of_isBlank hc

/-- **A filled template lacks words that neither hold `fib` nor are numerals, if its fixed texts
lack them.** -/
theorem lacks_render (hs : template.isSeparated = true) {options : List Text}
    (ho : ∀ word ∈ options, ¬ "fib".toList <:+: word.map Char.toLower ∧
      ∃ c ∈ word, c ∉ decimalDigits)
    (hf : ∀ piece ∈ template, ∀ word ∈ options, word ∉ Text.words piece.fixedText) :
    (template.render filling).Lacks options := by
  intro word hm hw
  obtain ⟨hfib, c, hc, hd⟩ := ho word hm
  rcases mem_words_render hs hw with rfl | rfl | rfl | ⟨piece, hp, hw⟩
  · exact hfib filling.holdsFib
  · exact hd (Numeral.mem_decimalDigits_of_mem_digits hc)
  · cases hc
  · exact hf piece hp word hm hw

end Template

end Snippet
