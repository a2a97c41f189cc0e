import Snippet.Proofs.VisibleText

/-!
# Literals between three marks

In Python a literal may stand between three quote marks on each side.  A backslash hides the
character behind it, and the literal ends at the first three marks that are not hidden
(`breakOnUnescaped`, `IsTripleInside`).  The scan for tokens looks for the first three marks,
hidden or not.

* `Language.mask_triple`: where the first three marks are the closing ones, the mask shows the six
  marks with blanks between them, whatever stands around the literal.
* `Language.mask_triple_iff`: for the inside of a literal this is so **exactly if no backslash
  stands in front of three marks**, those at the end apart.
* `Language.not_mask_triple_escaped`: an escaped mark at the end of a literal is taken for the
  first closing one, and the last closing one then opens a literal behind the end.
-/

namespace Snippet

/-! ### The inside of a literal -/

/-- Three marks. -/
def tripleMark (quote : Char) : Text := [quote, quote, quote]

/-- A text between three marks on each side. -/
def tripleLiteral (quote : Char) (inside : Text) : Text :=
  tripleMark quote ++ inside ++ tripleMark quote

/-- A text cut in two in front of the first occurrence of `mark` that does not start with an escaped
character. -/
def breakOnUnescaped (mark : Text) : Text → Text × Text
  | [] => ([], [])
  | '\\' :: escaped :: rest =>
    let (body, after) := breakOnUnescaped mark rest
    ('\\' :: escaped :: body, after)
  | c :: rest =>
    if mark.isPrefixOf (c :: rest) then ([], c :: rest)
    else
      let (body, after) := breakOnUnescaped mark rest
      (c :: body, after)

/-- The marks that are written behind the text are the first ones that no backslash hides. -/
def IsTripleInside (quote : Char) (inside : Text) : Prop :=
  breakOnUnescaped (tripleMark quote) (inside ++ tripleMark quote) = (inside, tripleMark quote)

instance (quote : Char) (inside : Text) : Decidable (IsTripleInside quote inside) :=
  inferInstanceAs (Decidable (_ = _))

variable {quote : Char} {inside : Text}

theorem length_breakOnUnescaped_le {mark text : Text} (hm : mark.head? ≠ some '\\') (hn : mark ≠ [])
    {left right : Text} (h : text = left ++ (mark ++ right)) :
    (breakOnUnescaped mark text).1.length ≤ left.length ∨ left.getLast? = some '\\' := by
  obtain ⟨d, mark, rfl⟩ := List.exists_cons_of_ne_nil hn
  fun_induction breakOnUnescaped (d :: mark) text generalizing left with
  | case1 => exact Or.inl (Nat.zero_le _)
  | case2 escaped rest body after hb ih =>
    match left, h with
    | [], h => exact absurd (by rw [(List.cons.inj h).1]; rfl) hm
    | [_], h => exact Or.inr (by rw [(List.cons.inj h).1]; rfl)
    | _ :: _ :: left, h =>
      have hrest := (List.cons.inj (List.cons.inj h).2).2
      rcases ih hrest with hl | hl
      · rw [hb] at hl
        exact Or.inl (by simpa using hl)
      · refine Or.inr ?_
        have hne : left ≠ [] := by
          rintro rfl
          cases hl
        rw [← hl, List.getLast?_cons_of_ne_nil (by simp), List.getLast?_cons_of_ne_nil hne]
  | case3 => exact Or.inl (Nat.zero_le _)
  | case4 c rest hesc hstop body after hb ih =>
    cases left with
    | nil => exact absurd (List.isPrefixOf_iff_prefix.mpr ⟨right, h.symm⟩) hstop
    | cons e left =>
      rcases ih (List.cons.inj h).2 with hl | hl
      · rw [hb] at hl
        exact Or.inl (by simpa using hl)
      · refine Or.inr ?_
        have hne : left ≠ [] := by
          rintro rfl
          cases hl
        rw [List.getLast?_cons_of_ne_nil hne, hl]

theorem Text.length_breakOn_le {word text left right : Text} (hw : word ≠ [])
    (h : text = left ++ (word ++ right)) : (breakOn word text).1.length ≤ left.length := by
  induction left generalizing text with
  | nil =>
    obtain ⟨c, word, rfl⟩ := List.exists_cons_of_ne_nil hw
    subst h
    simp [breakOn]
  | cons d left ih =>
    subst h
    rw [List.cons_append, breakOn]
    split
    · exact Nat.zero_le _
    · simpa using ih rfl

theorem Text.exists_breakOn_of_early {word inside left right : Text} (hw : word ≠ [])
    (he : inside ++ word = left ++ word ++ right) (hr : right ≠ []) (rest : Text) :
    ∃ body c back more, inside = body ++ c :: back ∧
      breakOn word (inside ++ (word ++ rest)) = (body, word ++ more) := by
  have htail : inside ++ (word ++ rest) = left ++ (word ++ (right ++ rest)) := by
    simpa using congrArg (· ++ rest) he
  have hbody := length_breakOn_le hw htail
  have hshort : left.length < inside.length := by
    have hl := congrArg List.length he
    have hp := List.length_pos_iff.mpr hr
    simp only [List.length_append] at hl
    omega
  have hall := breakOn_append word (inside ++ (word ++ rest))
  rcases hb : breakOn word (inside ++ (word ++ rest)) with ⟨body, stop⟩
  rw [hb] at hbody hall
  have hbody : body.length ≤ left.length := hbody
  have hall : body ++ stop = inside ++ (word ++ rest) := hall
  have hstop : stop ≠ [] := by
    rintro rfl
    have hl := congrArg List.length hall
    simp only [List.length_append, List.length_nil] at hl
    omega
  obtain ⟨more, -, hm⟩ := eq_append_of_breakOn (by rw [hb]; exact hstop)
  rw [hb] at hm
  have hm : stop = word ++ more := hm
  subst hm
  rcases List.append_eq_append_iff.mp hall with ⟨back, hin, -⟩ | ⟨back, hin, -⟩
  · cases back with
    | nil =>
      rw [List.append_nil] at hin
      rw [hin] at hshort
      omega
    | cons c back => exact ⟨body, c, back, more, hin, rfl⟩
  · rw [hin, List.length_append] at hbody
    omega

/-- **The only marks in the inside of a literal are escaped ones.** -/
theorem IsTripleInside.only_iff (hq : quote ∈ Language.python.quotes)
    (h : IsTripleInside quote inside) :
    (∀ left right, inside ++ tripleMark quote = left ++ tripleMark quote ++ right → right = []) ↔
      ∀ left right, inside ++ tripleMark quote = left ++ '\\' :: tripleMark quote ++ right →
        right = [] := by
  constructor
  · intro honly left right he
    exact honly (left ++ ['\\']) right (by simpa using he)
  · intro hescaped left right he
    have hm : (tripleMark quote).head? ≠ some '\\' := by
      rw [tripleMark, List.head?_cons, Ne, Option.some_inj]
      exact Language.ne_backslash_of_mem_quotes hq
    rw [List.append_assoc] at he
    rcases length_breakOnUnescaped_le hm (by simp [tripleMark]) he with hl | hl
    · rw [h] at hl
      have hlen := congrArg List.length he
      simp only [List.length_append] at hl hlen
      exact List.length_eq_zero_iff.mp (by omega)
    · obtain ⟨before, rfl⟩ := List.getLast?_eq_some_iff.mp hl
      exact hescaped before right (by simpa using he)

/-! ### Its mask -/

namespace Language

/-- A literal between three marks, with whatever the scan takes for its end. -/
theorem mask_tripleMark_append (hq : quote ∈ python.quotes) (tail : Text) :
    python.mask (tripleMark quote ++ tail) =
      tripleMark quote ++ (Text.breakOn (tripleMark quote) tail).1.map blanked ++
        (Text.breakOn (tripleMark quote) tail).2.take 3 ++
          python.mask ((Text.breakOn (tripleMark quote) tail).2.drop 3) := by
  obtain ⟨ho, hb⟩ := isPrefixOf_commentOpener_of_mem_quotes hq (quote :: quote :: tail)
  have htriple : python = python ∧
      [quote, quote, quote].isPrefixOf (quote :: quote :: quote :: tail) = true :=
    ⟨rfl, by simp [List.isPrefixOf]⟩
  show python.mask (quote :: quote :: quote :: tail) = _
  rw [mask_cons, token_of_triple ho hb hq htriple]
  rfl

/-- **A literal between three marks shows its marks**, with blanks between them, if the first three
marks behind the opening ones are the closing ones. -/
theorem mask_triple (hq : quote ∈ python.quotes)
    (honly : ∀ left right, inside ++ tripleMark quote = left ++ tripleMark quote ++ right →
      right = []) (rest : Text) :
    python.mask (tripleLiteral quote inside ++ rest) =
      tripleLiteral quote (inside.map blanked) ++ python.mask rest := by
  have hbreak := Text.breakOn_eq_of_only (by simp [tripleMark]) honly rest
  rw [tripleLiteral, List.append_assoc, List.append_assoc, mask_tripleMark_append hq, hbreak]
  rfl

/-- Three marks in front of the closing ones are seen in the mask, where a blank would stand. -/
theorem only_of_mask_triple (hq : quote ∈ python.quotes) {rest : Text}
    (h : python.mask (tripleLiteral quote inside ++ rest) =
      tripleLiteral quote (inside.map blanked) ++ python.mask rest) (left right : Text)
    (he : inside ++ tripleMark quote = left ++ tripleMark quote ++ right) : right = [] := by
  by_contra hright
  obtain ⟨body, c, back, more, rfl, hbreak⟩ :=
    Text.exists_breakOn_of_early (by simp [tripleMark]) he hright rest
  rw [tripleLiteral, List.append_assoc, List.append_assoc, mask_tripleMark_append hq, hbreak] at h
  have hblank : quote = blanked c := by
    simp [tripleLiteral, tripleMark] at h
    exact h.1
  rcases blanked_eq c with hc | hc
  · rw [hblank, hc] at hq
    revert hq
    decide
  · rw [hblank, hc] at hq
    revert hq
    decide

variable {front rest : Text}

/-- **Where escapes are needed**: a literal between three marks, with an inside that does not end it
by the rules for escapes, is masked as one exactly if there is no backslash in front of three marks
but right in front of the closing ones. -/
theorem mask_triple_iff (hq : quote ∈ python.quotes) (h : IsTripleInside quote inside)
    (hcut : python.CutAt (front ++ (tripleLiteral quote inside ++ rest)) front.length) :
    python.mask (front ++ (tripleLiteral quote inside ++ rest)) =
        python.mask front ++ (tripleLiteral quote (inside.map blanked) ++ python.mask rest) ↔
      ∀ left right, inside ++ tripleMark quote = left ++ '\\' :: tripleMark quote ++ right →
        right = [] := by
  rw [mask_append hcut, List.append_cancel_left_eq, ← h.only_iff hq]
  exact ⟨only_of_mask_triple hq, fun honly => mask_triple hq honly rest⟩

/-- The last character of the inside is hidden, and so is the mark in the middle. -/
theorem mask_triple_iff_escaped :
    let inside := "a\\\"b\\\\".toList
    python.mask ("x = ".toList ++ (tripleLiteral '"' inside ++ "\ny".toList)) =
        python.mask "x = ".toList ++
          (tripleLiteral '"' (inside.map blanked) ++ python.mask "\ny".toList) ↔
      ∀ left right, inside ++ tripleMark '"' = left ++ '\\' :: tripleMark '"' ++ right →
        right = [] :=
  mask_triple_iff (by decide) (by decide) (cutAt_of_plain (by decide) _)

/-- **An escaped mark at the end is taken for a closing one**: it and the two marks behind it close
the literal, and the third mark opens another one. -/
theorem not_mask_triple_escaped :
    ¬ ∀ (quote : Char) (front inside rest : Text), quote ∈ python.quotes →
      IsTripleInside quote inside →
      python.CutAt (front ++ (tripleLiteral quote inside ++ rest)) front.length →
        python.mask (front ++ (tripleLiteral quote inside ++ rest)) =
          python.mask front ++ (tripleLiteral quote (inside.map blanked) ++ python.mask rest) := by
  intro h
  have hmask := h '"' [] "a\\\"".toList [] (by decide) (by decide) (cutAt_of_plain (by decide) _)
  nth_rewrite 1 [mask_nil] at hmask
  exact absurd (only_of_mask_triple (by decide) hmask "a\\".toList ['"'] (by decide)) (by decide)

end Language

end Snippet
