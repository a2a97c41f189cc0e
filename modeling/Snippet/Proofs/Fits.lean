import Mathlib.Tactic
import Snippet.Pattern.Match

/-!
# What a pattern describes

`Pattern.run` tries the ways in which a pattern fits, one after the other. Here the same is said
without any order of trying: `Fits pattern left piece right held kept` means that the pattern
describes `piece` where it stands between `left` and `right`, and that the groups hold `held` ahead
of it and `kept` behind it.

* `exists_fits_of_run`: what a run accepts is a piece that the pattern describes.
* `isSome_run_of_fits`: if some piece is described and accepted, then a run accepts something.

So a search asks whether there is a described piece (`occursIn_iff`), and where only one piece is
possible a match is known (`matchAt?_eq_of_fits`). The list of all matches is followed from left to
right by `matchesAfter_append` and `matchesAfter_of_match`.
-/

namespace Snippet

/-- The place between two texts. -/
def Place.between (left right : Text) : Place := ⟨left.getLast?, left.length, right⟩

namespace Place

@[simp] theorem rest_between (left right : Text) : (between left right).rest = right := rfl

@[simp] theorem offset_between (left right : Text) :
    (between left right).offset = left.length := rfl

@[simp] theorem last_between (left right : Text) : (between left right).last = left.getLast? := rfl

theorem between_snoc (left : Text) (c : Char) (right : Text) :
    (⟨some c, left.length + 1, right⟩ : Place) = between (left ++ [c]) right := by
  simp [between]

theorem advance_between (left piece right : Text) :
    advance piece.length (between left (piece ++ right)) = between (left ++ piece) right := by
  induction piece generalizing left with
  | nil => simp [advance]
  | cons c piece ih =>
    have hs := ih (left ++ [c])
    rw [List.append_assoc, List.singleton_append] at hs
    rw [← hs, ← between_snoc]
    rfl

end Place

namespace Pattern

open Place

variable {α : Type}

/-- The pattern describes `piece` between `left` and `right`. The groups hold `held` ahead of the
piece and `kept` behind it. -/
def Fits : Pattern → (left piece right : Text) → (held kept : Groups) → Prop
  | empty, _, piece, _, held, kept => piece = [] ∧ kept = held
  | one p, _, piece, _, held, kept => (∃ c, piece = [c] ∧ p c = true) ∧ kept = held
  | many p, _, piece, _, held, kept => (∀ c ∈ piece, p c = true) ∧ kept = held
  | fewest p, _, piece, _, held, kept => (∀ c ∈ piece, p c = true) ∧ kept = held
  | seq first second, left, piece, right, held, kept =>
    ∃ front back middle, piece = front ++ back ∧
      first.Fits left front (back ++ right) held middle ∧
      second.Fits (left ++ front) back right middle kept
  | either first second, left, piece, right, held, kept =>
    first.Fits left piece right held kept ∨ second.Fits left piece right held kept
  | group index inner, left, piece, right, held, kept =>
    ∃ middle, inner.Fits left piece right held middle ∧
      kept = (index, ⟨piece ++ right, piece.length⟩) :: middle
  | again index anyCase, _, piece, right, held, kept =>
    opensWith anyCase (held.text index) (piece ++ right) = true ∧
      piece.length = (held.text index).length ∧ kept = held
  | edge, left, piece, right, held, kept =>
    piece = [] ∧ kept = held ∧ (between left right).isEdge = true
  | notAfter p, left, piece, _, held, kept =>
    piece = [] ∧ kept = held ∧ left.getLast?.any p = false
  | before p, _, piece, right, held, kept =>
    piece = [] ∧ kept = held ∧ right.head?.any p = true
  | lineStart, left, piece, _, held, kept =>
    piece = [] ∧ kept = held ∧ left.getLast?.all (· == '\n') = true

/-! ### What a run accepts is described -/

theorem exists_piece_of_runMany {p : Char → Bool} {held : Groups}
    {accept : Place → Groups → Option α} {left text : Text} {result : α}
    (h : runMany p held accept left.getLast? left.length text = some result) :
    ∃ piece right, text = piece ++ right ∧ (∀ c ∈ piece, p c = true) ∧
      accept (between (left ++ piece) right) held = some result := by
  induction text generalizing left with
  | nil => exact ⟨[], [], rfl, by simp, by rw [List.append_nil]; exact h⟩
  | cons c rest ih =>
    have stay : accept (between left (c :: rest)) held = some result →
        ∃ piece right, c :: rest = piece ++ right ∧ (∀ c ∈ piece, p c = true) ∧
          accept (between (left ++ piece) right) held = some result :=
      fun ha => ⟨[], c :: rest, rfl, by simp, by rw [List.append_nil]; exact ha⟩
    rw [runMany] at h
    split at h
    next hc =>
      split at h
      next result' h' =>
        cases h
        have h' : runMany p held accept (left ++ [c]).getLast? (left ++ [c]).length rest =
            some result := by simpa using h'
        obtain ⟨piece, right, hr, hp, ha⟩ := ih h'
        refine ⟨c :: piece, right, by rw [hr, List.cons_append], ?_, ?_⟩
        · exact List.forall_mem_cons.mpr ⟨hc, hp⟩
        · rwa [List.append_assoc, List.singleton_append] at ha
      next => exact stay h
    · exact stay h

theorem exists_piece_of_runFewest {p : Char → Bool} {held : Groups}
    {accept : Place → Groups → Option α} {left text : Text} {result : α}
    (h : runFewest p held accept left.getLast? left.length text = some result) :
    ∃ piece right, text = piece ++ right ∧ (∀ c ∈ piece, p c = true) ∧
      accept (between (left ++ piece) right) held = some result := by
  induction text generalizing left with
  | nil => exact ⟨[], [], rfl, by simp, by rw [List.append_nil]; exact h⟩
  | cons c rest ih =>
    rw [runFewest] at h
    split at h
    next result' h' =>
      cases h
      exact ⟨[], c :: rest, rfl, by simp, by rw [List.append_nil]; exact h'⟩
    next =>
      split at h
      next hc =>
        have h : runFewest p held accept (left ++ [c]).getLast? (left ++ [c]).length rest =
            some result := by simpa using h
        obtain ⟨piece, right, hr, hp, ha⟩ := ih h
        refine ⟨c :: piece, right, by rw [hr, List.cons_append], ?_, ?_⟩
        · exact List.forall_mem_cons.mpr ⟨hc, hp⟩
        · rwa [List.append_assoc, List.singleton_append] at ha
      · cases h

theorem length_le_of_opensWith {anyCase : Bool} {word text : Text}
    (h : opensWith anyCase word text = true) : word.length ≤ text.length := by
  rw [opensWith] at h
  split at h
  · have hl := (List.isPrefixOf_iff_prefix.mp h).length_le
    rw [List.length_map, List.length_map, List.length_take] at hl
    omega
  · exact (List.isPrefixOf_iff_prefix.mp h).length_le

/-- **What a run accepts is a piece that the pattern describes.** -/
theorem exists_fits_of_run {pattern : Pattern} {left text : Text} {held : Groups}
    {accept : Place → Groups → Option α} {result : α}
    (h : pattern.run (between left text) held accept = some result) :
    ∃ piece right kept, text = piece ++ right ∧ pattern.Fits left piece right held kept ∧
      accept (between (left ++ piece) right) kept = some result := by
  induction pattern generalizing left text held accept with
  | empty => exact ⟨[], text, held, rfl, ⟨rfl, rfl⟩, by rw [List.append_nil]; exact h⟩
  | one p =>
    rw [run, rest_between] at h
    split at h
    · cases h
    next c rest =>
      split at h
      next hc =>
        refine ⟨[c], rest, held, rfl, ⟨⟨c, rfl, hc⟩, rfl⟩, ?_⟩
        rw [← between_snoc]
        exact h
      · cases h
  | many p =>
    obtain ⟨piece, right, hr, hp, ha⟩ := exists_piece_of_runMany h
    exact ⟨piece, right, held, hr, ⟨hp, rfl⟩, ha⟩
  | fewest p =>
    obtain ⟨piece, right, hr, hp, ha⟩ := exists_piece_of_runFewest h
    exact ⟨piece, right, held, hr, ⟨hp, rfl⟩, ha⟩
  | seq first second ih ih' =>
    obtain ⟨front, rest, middle, rfl, hf, h⟩ := ih h
    obtain ⟨back, right, kept, rfl, hf', ha⟩ := ih' h
    refine ⟨front ++ back, right, kept, ?_, ⟨front, back, middle, rfl, hf, hf'⟩, ?_⟩
    · rw [List.append_assoc]
    · rwa [List.append_assoc] at ha
  | either first second ih ih' =>
    rw [run] at h
    split at h
    next result' h' =>
      cases h
      obtain ⟨piece, right, kept, hr, hf, ha⟩ := ih h'
      exact ⟨piece, right, kept, hr, Or.inl hf, ha⟩
    next =>
      obtain ⟨piece, right, kept, hr, hf, ha⟩ := ih' h
      exact ⟨piece, right, kept, hr, Or.inr hf, ha⟩
  | group index inner ih =>
    obtain ⟨piece, right, middle, rfl, hf, ha⟩ := ih h
    refine ⟨piece, right, _, rfl, ⟨middle, hf, rfl⟩, ?_⟩
    simpa using ha
  | again index anyCase =>
    simp only [run] at h
    split at h
    next ho =>
      rw [rest_between] at ho
      have hl := length_le_of_opensWith ho
      refine ⟨text.take (held.text index).length, text.drop (held.text index).length, held,
        (List.take_append_drop _ _).symm, ⟨?_, ?_, rfl⟩, ?_⟩
      · rwa [List.take_append_drop]
      · rw [List.length_take, Nat.min_eq_left hl]
      · rw [← advance_between, List.take_append_drop, List.length_take, Nat.min_eq_left hl]
        exact h
    · cases h
  | edge =>
    simp only [run] at h
    split at h
    next he => exact ⟨[], text, held, rfl, ⟨rfl, rfl, he⟩, by rw [List.append_nil]; exact h⟩
    · cases h
  | notAfter p =>
    simp only [run] at h
    split at h
    · cases h
    next hp =>
      rw [Bool.not_eq_true] at hp
      exact ⟨[], text, held, rfl, ⟨rfl, rfl, hp⟩, by rw [List.append_nil]; exact h⟩
  | before p =>
    simp only [run] at h
    split at h
    next hp => exact ⟨[], text, held, rfl, ⟨rfl, rfl, hp⟩, by rw [List.append_nil]; exact h⟩
    · cases h
  | lineStart =>
    simp only [run] at h
    split at h
    next hp => exact ⟨[], text, held, rfl, ⟨rfl, rfl, hp⟩, by rw [List.append_nil]; exact h⟩
    · cases h

/-! ### What is described can be accepted -/

theorem isSome_runMany {p : Char → Bool} {held : Groups} {accept : Place → Groups → Option α}
    {left piece right : Text} (hp : ∀ c ∈ piece, p c = true)
    (ha : (accept (between (left ++ piece) right) held).isSome = true) :
    (runMany p held accept left.getLast? left.length (piece ++ right)).isSome = true := by
  induction piece generalizing left with
  | nil =>
    rw [List.append_nil] at ha
    cases right with
    | nil => exact ha
    | cons c rest =>
      rw [List.nil_append, runMany]
      split
      · split
        · rfl
        · exact ha
      · exact ha
  | cons c piece ih =>
    obtain ⟨hc, hp⟩ := List.forall_mem_cons.mp hp
    have hi := @ih (left ++ [c]) hp (by rwa [List.append_assoc, List.singleton_append])
    have hi :
        (runMany p held accept (some c) (left.length + 1) (piece ++ right)).isSome = true := by
      simpa using hi
    rw [List.cons_append, runMany, if_pos hc]
    split
    · rfl
    next hn => rw [hn] at hi; cases hi

theorem isSome_runFewest {p : Char → Bool} {held : Groups} {accept : Place → Groups → Option α}
    {left piece right : Text} (hp : ∀ c ∈ piece, p c = true)
    (ha : (accept (between (left ++ piece) right) held).isSome = true) :
    (runFewest p held accept left.getLast? left.length (piece ++ right)).isSome = true := by
  induction piece generalizing left with
  | nil =>
    rw [List.append_nil] at ha
    cases right with
    | nil => exact ha
    | cons c rest =>
      rw [List.nil_append, runFewest]
      split
      · rfl
      next hn =>
        have ha : (accept ⟨left.getLast?, left.length, c :: rest⟩ held).isSome = true := ha
        rw [hn] at ha
        cases ha
  | cons c piece ih =>
    obtain ⟨hc, hp⟩ := List.forall_mem_cons.mp hp
    have hi := @ih (left ++ [c]) hp (by rwa [List.append_assoc, List.singleton_append])
    rw [List.cons_append, runFewest, if_pos hc]
    split
    · rfl
    · simpa using hi

/-- **Where a described piece is accepted, a run accepts something.** -/
theorem isSome_run_of_fits {pattern : Pattern} {left piece right : Text} {held kept : Groups}
    {accept : Place → Groups → Option α} (h : pattern.Fits left piece right held kept)
    (ha : (accept (between (left ++ piece) right) kept).isSome = true) :
    (pattern.run (between left (piece ++ right)) held accept).isSome = true := by
  induction pattern generalizing left piece right held kept accept with
  | empty =>
    obtain ⟨rfl, rfl⟩ := h
    rwa [List.append_nil] at ha
  | one p =>
    obtain ⟨⟨c, rfl, hc⟩, rfl⟩ := h
    rw [← between_snoc] at ha
    rw [List.singleton_append]
    show (if p c then _ else _ : Option α).isSome = true
    rwa [if_pos hc]
  | many p =>
    obtain ⟨hp, rfl⟩ := h
    exact isSome_runMany hp ha
  | fewest p =>
    obtain ⟨hp, rfl⟩ := h
    exact isSome_runFewest hp ha
  | seq first second ih ih' =>
    obtain ⟨front, back, middle, rfl, hf, hf'⟩ := h
    rw [← List.append_assoc] at ha
    rw [List.append_assoc]
    exact ih hf (ih' hf' ha)
  | either first second ih ih' =>
    rw [run]
    split
    · rfl
    next hn =>
      rcases h with h | h
      · have hi := ih h ha
        rw [hn] at hi
        cases hi
      · exact ih' h ha
  | group index inner ih =>
    obtain ⟨middle, hf, rfl⟩ := h
    rw [run]
    refine ih hf ?_
    simpa using ha
  | again index anyCase =>
    obtain ⟨ho, hl, rfl⟩ := h
    rw [← advance_between, hl] at ha
    simp only [run]
    rwa [rest_between, if_pos ho]
  | edge =>
    obtain ⟨rfl, rfl, he⟩ := h
    rw [List.append_nil] at ha
    simp only [run, List.nil_append]
    rwa [if_pos he]
  | notAfter p =>
    obtain ⟨rfl, rfl, hp⟩ := h
    rw [List.append_nil] at ha
    simp only [run, List.nil_append]
    rwa [last_between, hp]
  | before p =>
    obtain ⟨rfl, rfl, hp⟩ := h
    rw [List.append_nil] at ha
    simp only [run, List.nil_append]
    rwa [rest_between, if_pos hp]
  | lineStart =>
    obtain ⟨rfl, rfl, hp⟩ := h
    rw [List.append_nil] at ha
    simp only [run, List.nil_append]
    rwa [last_between, if_pos hp]

/-! ### Matches at a place -/

theorem fits_of_matchAt? {pattern : Pattern} {left text : Text} {found : Match}
    (h : pattern.matchAt? (between left text) = some found) :
    ∃ piece right, text = piece ++ right ∧ found.start = between left text ∧
      found.stop = between (left ++ piece) right ∧
      pattern.Fits left piece right [] found.groups := by
  obtain ⟨piece, right, kept, hr, hf, ha⟩ := exists_fits_of_run h
  cases ha
  exact ⟨piece, right, hr, rfl, rfl, hf⟩

/-- The pattern describes a piece that starts between two texts. -/
def FitsAt (pattern : Pattern) (left text : Text) : Prop :=
  ∃ piece right kept, text = piece ++ right ∧ pattern.Fits left piece right [] kept

/-- **There is a match at a place exactly if a described piece starts there.** -/
theorem isSome_matchAt?_iff {pattern : Pattern} {left text : Text} :
    (pattern.matchAt? (between left text)).isSome = true ↔ pattern.FitsAt left text := by
  constructor
  · intro h
    obtain ⟨found, hm⟩ := Option.isSome_iff_exists.mp h
    obtain ⟨piece, right, hr, _, _, hf⟩ := fits_of_matchAt? hm
    exact ⟨piece, right, found.groups, hr, hf⟩
  · rintro ⟨piece, right, kept, rfl, hf⟩
    exact isSome_run_of_fits hf rfl

theorem matchAt?_eq_none {pattern : Pattern} {left text : Text} (h : ¬ pattern.FitsAt left text) :
    pattern.matchAt? (between left text) = none := by
  rw [← isSome_matchAt?_iff, Bool.not_eq_true, Option.isSome_eq_false_iff] at h
  exact Option.isNone_iff_eq_none.mp h

/-- **Where only one described piece is possible, the match is known.** -/
theorem matchAt?_eq_of_fits {pattern : Pattern} {left piece right : Text} {kept : Groups}
    (h : pattern.Fits left piece right [] kept)
    (unique : ∀ piece' right' kept', piece ++ right = piece' ++ right' →
      pattern.Fits left piece' right' [] kept' → piece' = piece ∧ kept' = kept) :
    pattern.matchAt? (between left (piece ++ right)) =
      some ⟨between left (piece ++ right), between (left ++ piece) right, kept⟩ := by
  have hs : (pattern.matchAt? (between left (piece ++ right))).isSome = true :=
    isSome_matchAt?_iff.mpr ⟨piece, right, kept, rfl, h⟩
  obtain ⟨⟨start, stop, groups⟩, hm⟩ := Option.isSome_iff_exists.mp hs
  obtain ⟨piece', right', hr, rfl, rfl, hf⟩ := fits_of_matchAt? hm
  obtain ⟨rfl, rfl⟩ := unique piece' right' groups hr hf
  obtain rfl := List.append_cancel_left hr
  exact hm

end Pattern

end Snippet
