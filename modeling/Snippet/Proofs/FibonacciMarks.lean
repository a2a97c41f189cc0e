import Snippet.Finding
import Snippet.Proofs.PrintCalls
import Snippet.Proofs.Template

/-!
# The marks of a Fibonacci program

The marks that a program for Fibonacci numbers is recognised by, where they are written as usual: a
name that holds `fib` (`fits_fib`), a call under that name (`fits_fibonacciCall`), and the
predecessors of `n` (`fits_nMinus`).

`search?_numeral`: in a call with a numeral as its only argument, that numeral is found, although
the name may fall into parts around `fib` in several ways.
-/

namespace Snippet

open Pattern Place

/-! ### Letter case -/

theorem eq_or_of_toLower {c d : Char} (h : c.toLower = d) :
    c = d ∨ c = Char.ofNat (d.toNat - 32) := by
  unfold Char.toLower at h
  split at h
  next hc =>
    refine Or.inr ?_
    have hl : 65 ≤ c.toNat := UInt32.le_iff_toNat_le.mp hc.1
    have hu : c.toNat ≤ 90 := UInt32.le_iff_toNat_le.mp hc.2
    have hd : d.toNat = c.toNat + 32 := by
      rw [← h]
      show (c.val + 32).toNat = c.toNat + 32
      rw [UInt32.toNat_add]
      show (c.toNat + 32) % 4294967296 = c.toNat + 32
      omega
    rw [hd, Nat.add_sub_cancel, Char.ofNat_toNat]
  next => exact Or.inl h

theorem isFormOf_of_toLower {letter c : Char} (hl : letter ∈ "fib".toList)
    (h : c.toLower = letter) : isFormOf letter c = true := by
  have hd : ∀ letter ∈ "fib".toList, isFormOf letter letter = true ∧
      isFormOf letter (Char.ofNat (letter.toNat - 32)) = true := by decide
  rcases eq_or_of_toLower h with rfl | rfl
  · exact (hd c hl).1
  · exact (hd letter hl).2

namespace Vocabulary

variable {left piece right gap gap' : Text} {held kept : Groups}

/-! ### Predecessors -/

theorem fits_nMinus {digit : Char} (hd : isWord digit = true)
    (hl : left.getLast?.any isWord = false) (hr : right.head?.any isWord = false)
    (hg : ∀ c ∈ gap, isBlank c = true) (hg' : ∀ c ∈ gap', isBlank c = true) :
    (nMinus digit).Fits left ('n' :: (gap ++ ['-'] ++ (gap' ++ [digit]))) right held held := by
  have hlast :
      (left ++ ('n' :: (gap ++ ['-'] ++ (gap' ++ [digit])))).getLast?.any isWord = true := by
    have hs : left ++ ('n' :: (gap ++ ['-'] ++ (gap' ++ [digit]))) =
        (left ++ ('n' :: (gap ++ ['-'] ++ gap'))) ++ [digit] := by
      simp only [List.append_assoc, List.cons_append]
    rw [hs, List.getLast?_concat]
    exact hd
  refine ⟨_, [], held, (List.append_nil _).symm, ?_, rfl, rfl, isEdge_between_of_right hlast hr⟩
  refine ⟨'n' :: (gap ++ ['-']), gap' ++ [digit], held, rfl, ?_,
    fits_next.mpr ⟨gap', hg', rfl, rfl⟩⟩
  refine ⟨['n'], gap ++ ['-'], held, rfl, ?_, fits_next.mpr ⟨gap, hg, rfl, rfl⟩⟩
  exact ⟨[], ['n'], held, rfl, ⟨rfl, rfl, isEdge_between_of_left hl rfl⟩,
    fits_char.mpr ⟨rfl, rfl⟩⟩

/-! ### Calls -/

/-- **A name that holds `fib` has a part in which it is found.** -/
theorem fits_fib {name : Text} (h : "fib".toList <:+: name.map Char.toLower) :
    ∃ front middle back, name = front ++ (middle ++ back) ∧
      ∀ left right held, (anyCase "fib").Fits left middle right held held := by
  obtain ⟨front', back', hm⟩ := h
  rw [List.append_assoc] at hm
  obtain ⟨front, rest, rfl, -, hr⟩ := List.map_eq_append_iff.mp hm.symm
  obtain ⟨middle, back, rfl, hmid, -⟩ := List.map_eq_append_iff.mp hr
  refine ⟨front, middle, back, rfl, fun left right held => fits_anyCase.mpr ⟨?_, rfl⟩⟩
  rw [← hmid, List.forall₂_map_left_iff, List.forall₂_same]
  intro c hc
  refine isFormOf_of_toLower ?_ rfl
  rw [← hmid]
  exact List.mem_map_of_mem hc

theorem fits_fibonacciCall {name : Text} (hw : ∀ c ∈ name, isWord c = true)
    (h : "fib".toList <:+: name.map Char.toLower) :
    fibonacciCall.Fits left (name ++ ['(']) right held held := by
  obtain ⟨front, middle, back, rfl, hf⟩ := fits_fib h
  refine ⟨front ++ (middle ++ back), ['('], held, rfl, ?_, fits_next.mpr ⟨[], by simp, rfl, rfl⟩⟩
  refine ⟨front ++ middle, back, held, (List.append_assoc ..).symm, ?_, ?_, rfl⟩
  · refine ⟨front, middle, held, rfl, ⟨?_, rfl⟩, hf _ _ _⟩
    exact fun c hc => hw c (List.mem_append_left _ hc)
  · exact fun c hc => hw c (List.mem_append_right _ (List.mem_append_right _ hc))

/-- **Such a call reaches to the first parenthesis.** -/
theorem exists_of_fits_fibonacciCall (h : fibonacciCall.Fits left piece right held kept) :
    ∃ stretch, piece = stretch ++ ['('] ∧ (∀ c ∈ stretch, c ≠ '(') ∧ kept = held := by
  obtain ⟨_, _, _, rfl,
    ⟨_, back, _, rfl, ⟨front, middle, _, rfl, ⟨hf, rfl⟩, hfib⟩, hb, rfl⟩, hn⟩ := h
  obtain ⟨hm, rfl⟩ := fits_anyCase.mp hfib
  obtain ⟨gap, hg, rfl, rfl⟩ := fits_next.mp hn
  refine ⟨front ++ middle ++ back ++ gap, (List.append_assoc ..).symm, ?_, rfl⟩
  have hletter : ∀ letter ∈ "fib".toList, isFormOf letter '(' = false := by decide
  have hmid : ∀ c ∈ middle, c ≠ '(' := by
    rintro c hc rfl
    obtain ⟨i, hi, he⟩ := List.getElem_of_mem hc
    have hl : i < "fib".toList.length := by rwa [hm.length_eq]
    have hform := hm.get hl hi
    rw [List.get_eq_getElem, List.get_eq_getElem, he,
      hletter _ (List.getElem_mem hl)] at hform
    cases hform
  intro c hc
  rcases List.mem_append.mp hc with hc | hc
  · rcases List.mem_append.mp hc with hc | hc
    · rcases List.mem_append.mp hc with hc | hc
      · exact ne_of_isWord (hf c hc) (by decide)
      · exact hmid c hc
    · exact ne_of_isWord (hb c hc) (by decide)
  · exact ne_of_isBlank (hg c hc) (by decide)

/-! ### The numeral of a call -/

theorem append_cons_inj {c : Char} {word word' rest rest' : Text} (hw : ∀ d ∈ word, d ≠ c)
    (hw' : ∀ d ∈ word', d ≠ c) (h : word ++ c :: rest = word' ++ c :: rest') :
    word = word' ∧ rest = rest' := by
  have hc : ∀ more : Text, (c :: more).head?.any (· != c) = false := fun more => by simp
  have hi := Text.append_inj_of_head (fun d hd => bne_iff_ne.mpr (hw d hd))
    (fun d hd => bne_iff_ne.mpr (hw' d hd)) (hc rest) (hc rest') h
  exact ⟨hi.1, (List.cons.inj hi.2).2⟩

variable {filling : Filling}

theorem ne_of_mem_numeral {c : Char} (h : c ∈ filling.numeral) :
    c ≠ ')' ∧ isBlank c = false := by
  have hd : ∀ c ∈ decimalDigits, c ≠ ')' ∧ isBlank c = false := by decide
  exact hd c (Numeral.mem_decimalDigits_of_mem_digits h)

theorem fits_digits (filling : Filling) :
    digits.Fits left filling.numeral right held held := by
  have hd : ∀ c ∈ filling.numeral, isDecimal c = true :=
    fun c hc => Numeral.isDecimal_of_mem_digits hc
  have hn : filling.numeral ≠ [] := Numeral.digits_ne_nil _
  cases h : filling.numeral with
  | nil => exact absurd h hn
  | cons c tail =>
    rw [h] at hd
    obtain ⟨hc, ht⟩ := List.forall_mem_cons.mp hd
    exact ⟨[c], tail, held, rfl, ⟨⟨c, rfl, hc⟩, rfl⟩, ht, rfl⟩

theorem of_fits_digits (h : digits.Fits left piece right held kept) :
    (∀ c ∈ piece, isDecimal c = true) ∧ kept = held := by
  obtain ⟨_, tail, _, rfl, ⟨⟨c, rfl, hc⟩, rfl⟩, ht, rfl⟩ := h
  exact ⟨List.forall_mem_cons.mpr ⟨hc, ht⟩, rfl⟩

theorem eq_numeral_of_append {gap found gap' right' : Text} (hg : ∀ c ∈ gap, isBlank c = true)
    (hg' : ∀ c ∈ gap', isBlank c = true)
    (hf : ∀ c ∈ found, isDecimal c = true)
    (h : gap ++ (found ++ (gap' ++ ')' :: right')) = filling.numeral ++ ')' :: right) :
    gap = [] ∧ found = filling.numeral ∧ gap' = [] ∧ right' = right := by
  have hn : ∀ c ∈ gap ++ (found ++ gap'), c ≠ ')' := by
    intro c hc
    rcases List.mem_append.mp hc with hc | hc
    · exact ne_of_isBlank (hg c hc) (by decide)
    · rcases List.mem_append.mp hc with hc | hc
      · rintro rfl
        have hd := hf _ hc
        revert hd
        decide
      · exact ne_of_isBlank (hg' c hc) (by decide)
  have hs : (gap ++ (found ++ gap')) ++ ')' :: right' = filling.numeral ++ ')' :: right := by
    rw [← h]
    simp only [List.append_assoc]
  obtain ⟨he, hr⟩ := append_cons_inj hn (fun c hc => (ne_of_mem_numeral hc).1) hs
  have blank_eq_nil : ∀ stretch : Text, (∀ c ∈ stretch, isBlank c = true) →
      (∀ c ∈ stretch, c ∈ filling.numeral) → stretch = [] := by
    intro stretch hb hm
    refine List.eq_nil_iff_forall_not_mem.mpr fun c hc => ?_
    have hb := hb c hc
    rw [(ne_of_mem_numeral (hm c hc)).2] at hb
    cases hb
  have hgap : gap = [] := by
    refine blank_eq_nil gap hg fun c hc => ?_
    rw [← he]
    exact List.mem_append_left _ hc
  have hgap' : gap' = [] := by
    refine blank_eq_nil gap' hg' fun c hc => ?_
    rw [← he]
    exact List.mem_append_right _ (List.mem_append_right _ hc)
  rw [hgap, hgap', List.nil_append, List.append_nil] at he
  exact ⟨hgap, he, hgap', hr⟩

theorem matchAt?_numeral (filling : Filling) (right : Text) :
    fibonacciCallOfNumeral.matchAt?
        (between [] ((filling.name ++ ['('] ++ filling.numeral ++ [')']) ++ right)) =
      some ⟨between [] ((filling.name ++ ['('] ++ filling.numeral ++ [')']) ++ right),
        between ([] ++ (filling.name ++ ['('] ++ filling.numeral ++ [')'])) right,
        [(1, ⟨filling.numeral ++ ([')'] ++ right), filling.numeral.length⟩)]⟩ := by
  have hword := filling.isWord_of_mem_name
  refine matchAt?_eq_of_fits ?_ ?_
  · refine ⟨_, [')'], _, rfl, ?_, fits_next.mpr ⟨[], by simp, rfl, rfl⟩⟩
    refine ⟨filling.name ++ ['('], filling.numeral, [], rfl, ?_, [], fits_digits filling, rfl⟩
    refine ⟨filling.name ++ ['('], [], [], (List.append_nil _).symm, ?_, by simp, rfl⟩
    refine ⟨[], filling.name ++ ['('], [], rfl, ⟨rfl, rfl, isEdge_between_of_left rfl ?_⟩,
      fits_fibonacciCall hword filling.holdsFib⟩
    cases hn : filling.name with
    | nil => exact absurd hn filling.name_ne_nil
    | cons c tail =>
      rw [hn] at hword
      exact hword c List.mem_cons_self
  · intro piece' right' kept' hr hf
    -- the name may be read in several ways, but each of them stops at the first parenthesis
    obtain ⟨_, _, _, rfl,
      ⟨_, found, _, rfl, ⟨_, gap, _, rfl, ⟨_, call, _, rfl, ⟨rfl, rfl, _⟩, hcall⟩, hgap, rfl⟩,
        _, hdigits, rfl⟩, hnext⟩ := hf
    obtain ⟨stretch, rfl, hstretch, rfl⟩ := exists_of_fits_fibonacciCall hcall
    obtain ⟨gap', hgap', rfl, rfl⟩ := fits_next.mp hnext
    obtain ⟨hdec, rfl⟩ := of_fits_digits hdigits
    have hcut : filling.name ++ '(' :: (filling.numeral ++ ')' :: right) =
        stretch ++ '(' :: (gap ++ (found ++ (gap' ++ ')' :: right'))) := by
      simpa using hr
    obtain ⟨rfl, hrest⟩ :=
      append_cons_inj (fun c hc => ne_of_isWord (hword c hc) (by decide)) hstretch hcut
    obtain ⟨rfl, rfl, rfl, rfl⟩ := eq_numeral_of_append hgap hgap' hdec hrest.symm
    exact ⟨by simp, rfl⟩

/-- **In a call with a numeral as its only argument, the numeral is found.** -/
theorem search?_numeral (filling : Filling) :
    ∃ found, fibonacciCallOfNumeral.search?
        (filling.name ++ ['('] ++ filling.numeral ++ [')']) = some found ∧
      found.groups.text 1 = filling.numeral := by
  have hm := matchAt?_numeral filling []
  rw [List.append_nil] at hm
  refine ⟨_, search?_eq_of_matchAt? hm, ?_⟩
  rw [Groups.text, List.lookup_cons_self, Option.map_some, Option.getD_some, Capture.text]
  exact List.take_left

end Vocabulary

/-! ### No literal -/

namespace Literal

variable {argument : Text}

theorem quoted?_eq_none (h : argument.head?.any isNameStart = true) : quoted? argument = none := by
  cases argument with
  | nil => rfl
  | cons c rest =>
    rw [List.head?_cons, Option.any_some] at h
    have hq : (c = '"' || c = '\'' || c = '\x60') = false := by
      rw [← Bool.not_eq_true]
      intro hq
      simp only [Bool.or_eq_true, decide_eq_true_eq] at hq
      rcases hq with (rfl | rfl) | rfl <;> revert h <;> decide
    rw [quoted?, hq]
    rfl

theorem isDigits_eq_false (h : '(' ∈ argument) : isDigits argument = false := by
  rw [isDigits, Bool.and_eq_false_iff, List.all_eq_false]
  exact Or.inr ⟨'(', h, by decide⟩

theorem isDigits_breakOn {size whole more : Text} (h : '(' ∈ size)
    (hb : Text.breakOn ['.'] size = (whole, more)) (hw : isDigits whole = true) :
    ∃ fraction, more = '.' :: fraction ∧ isDigits fraction = false := by
  have ha := Text.breakOn_append ['.'] size
  have hp := Text.breakOn_snd ['.'] size
  rw [hb] at ha hp
  rw [← ha, List.mem_append] at h
  rcases h with h | h
  · rw [isDigits_eq_false h] at hw
    cases hw
  · cases more with
    | nil => cases h
    | cons d fraction =>
      have hd : '.' = d := by simpa [List.isPrefixOf] using hp
      subst hd
      exact ⟨fraction, rfl, isDigits_eq_false (List.mem_of_ne_of_mem (by decide) h)⟩

theorem isNumber_eq_false (h : '(' ∈ argument) : isNumber argument = false := by
  rw [← Bool.not_eq_true]
  intro hn
  unfold isNumber at hn
  dsimp only at hn
  -- the sign in front of the number is no parenthesis
  have hsign : ∀ rest, argument = '-' :: rest → '(' ∈ rest := fun rest hr =>
    List.mem_of_ne_of_mem (by decide) (hr ▸ h)
  split at hn
  next whole hb =>
    obtain ⟨fraction, hm, -⟩ := isDigits_breakOn (by split; exacts [hsign _ rfl, h]) hb hn
    cases hm
  next whole d fraction hb =>
    rw [Bool.and_eq_true] at hn
    obtain ⟨fraction', hm, hf⟩ := isDigits_breakOn (by split; exacts [hsign _ rfl, h]) hb hn.1
    cases hm
    rw [hn.2] at hf
    cases hf

/-- **What opens like a name and holds a parenthesis is no literal.** -/
theorem plain?_eq_none (h : argument.head?.any isNameStart = true) (hp : '(' ∈ argument) :
    plain? argument = none := by
  have hc : constants.contains (String.ofList argument) = false := by
    have hd : ∀ s ∈ constants, '(' ∉ s.toList := by decide
    rw [← Bool.not_eq_true, List.contains_iff_mem]
    intro hm
    have hn := hd _ hm
    rw [String.toList_ofList] at hn
    exact hn hp
  have hn : isName argument = false := by
    cases argument with
    | nil => rfl
    | cons c rest =>
      rw [isName, Bool.and_eq_false_iff, List.all_eq_false]
      rcases List.mem_cons.mp hp with rfl | hp
      · exact Or.inl (by decide)
      · exact Or.inr ⟨'(', hp, by decide⟩
  rw [plain?, quoted?_eq_none h]
  dsimp only
  rw [isNumber_eq_false hp, hc, hn]
  rfl

end Literal

end Snippet
