import Snippet.Proofs.Fits

/-!
# Where matches are found

A search goes through the places of a text from left to right. `occursIn_iff` says that a pattern
occurs in a text exactly if a described piece starts at some place, and `exists_of_mem_matchesAfter`
that every match that is listed is one of these.

The list of matches is followed by two steps. A stretch in which no described piece starts is passed
over (`matchesAfter_append`), and behind a match the list goes on where the match stops
(`matchesAfter_of_match`).
-/

namespace Snippet

namespace Pattern

open Place

variable {pattern : Pattern}

/-! ### The first match -/

theorem exists_of_searchFrom? (left : Text) {text : Text} {found : Match}
    (h : pattern.searchFrom? left.getLast? left.length text = some found) :
    ∃ front rest, text = front ++ rest ∧
      pattern.matchAt? (between (left ++ front) rest) = some found := by
  induction text generalizing left with
  | nil => exact ⟨[], [], rfl, by rw [List.append_nil]; exact h⟩
  | cons c rest ih =>
    rw [searchFrom?] at h
    split at h
    next found' hm =>
      cases h
      exact ⟨[], c :: rest, rfl, by rw [List.append_nil]; exact hm⟩
    next =>
      have h :
          pattern.searchFrom? (left ++ [c]).getLast? (left ++ [c]).length rest = some found := by
        simpa using h
      obtain ⟨front, rest', rfl, hm⟩ := ih _ h
      exact ⟨c :: front, rest', rfl, by rwa [List.append_assoc, List.singleton_append] at hm⟩

theorem isSome_searchFrom? (left : Text) {front rest : Text}
    (h : (pattern.matchAt? (between (left ++ front) rest)).isSome = true) :
    (pattern.searchFrom? left.getLast? left.length (front ++ rest)).isSome = true := by
  induction front generalizing left with
  | nil =>
    rw [List.append_nil] at h
    cases rest with
    | nil => exact h
    | cons c rest =>
      rw [List.nil_append, searchFrom?]
      split
      · rfl
      next hn =>
        have h : (pattern.matchAt? ⟨left.getLast?, left.length, c :: rest⟩).isSome = true := h
        rw [hn] at h
        cases h
  | cons c front ih =>
    have hi := ih (left ++ [c]) (by rwa [List.append_assoc, List.singleton_append])
    rw [List.cons_append, searchFrom?]
    split
    · rfl
    · simpa using hi

/-- **A pattern occurs exactly where a described piece starts at some place.** -/
theorem occursIn_iff {text : Text} :
    pattern.occursIn text = true ↔
      ∃ left right, text = left ++ right ∧ pattern.FitsAt left right := by
  constructor
  · intro h
    obtain ⟨found, hs⟩ := Option.isSome_iff_exists.mp h
    obtain ⟨front, rest, hr, hm⟩ := exists_of_searchFrom? [] hs
    exact ⟨front, rest, hr, isSome_matchAt?_iff.mp (Option.isSome_iff_exists.mpr ⟨found, hm⟩)⟩
  · rintro ⟨left, right, rfl, hf⟩
    exact isSome_searchFrom? [] (isSome_matchAt?_iff.mpr hf)

theorem occursIn_eq_false {text : Text}
    (h : ∀ left right, text = left ++ right → ¬ pattern.FitsAt left right) :
    pattern.occursIn text = false := by
  rw [← Bool.not_eq_true, occursIn_iff]
  rintro ⟨left, right, hr, hf⟩
  exact h left right hr hf

theorem search?_eq_of_matchAt? {text : Text} {found : Match}
    (h : pattern.matchAt? (between [] text) = some found) : pattern.search? text = some found := by
  cases text with
  | nil => exact h
  | cons c rest =>
    have h : pattern.matchAt? ⟨none, 0, c :: rest⟩ = some found := h
    rw [search?, searchFrom?, h]

/-! ### All matches -/

/-- The matches of a pattern in a text that stands behind `left`. -/
def matchesAfter (pattern : Pattern) (left text : Text) : List Match :=
  pattern.matchesFrom left.getLast? left.length 0 text

theorem matchesIn_eq_matchesAfter (text : Text) :
    pattern.matchesIn text = pattern.matchesAfter [] text := rfl

@[simp] theorem matchesAfter_nil (left : Text) : pattern.matchesAfter left [] = [] := rfl

/-- No described piece starts within `stretch`, which stands between `left` and `text`. -/
def Avoids (pattern : Pattern) (left stretch text : Text) : Prop :=
  ∀ front back, stretch = front ++ back → back ≠ [] →
    ¬ pattern.FitsAt (left ++ front) (back ++ text)

theorem Avoids.tail {left : Text} {c : Char} {stretch text : Text}
    (h : pattern.Avoids left (c :: stretch) text) : pattern.Avoids (left ++ [c]) stretch text := by
  rintro front back rfl hb
  rw [List.append_assoc, List.singleton_append]
  exact h (c :: front) back rfl hb

theorem Avoids.append {left stretch more text : Text}
    (h : pattern.Avoids left stretch (more ++ text))
    (h' : pattern.Avoids (left ++ stretch) more text) :
    pattern.Avoids left (stretch ++ more) text := by
  intro front back hr hb
  rcases List.append_eq_append_iff.mp hr with ⟨middle, rfl, rfl⟩ | ⟨middle, rfl, rfl⟩
  · rw [← List.append_assoc]
    exact h' middle back rfl hb
  · by_cases hm : middle = []
    · subst hm
      rw [List.append_nil] at h'
      rw [List.nil_append] at hb ⊢
      have hf := h' [] more rfl hb
      rwa [List.append_nil] at hf
    · rw [List.append_assoc]
      exact h front middle rfl hm

/-- **A stretch in which no described piece starts is passed over.** -/
theorem matchesAfter_append {left stretch text : Text} (h : pattern.Avoids left stretch text) :
    pattern.matchesAfter left (stretch ++ text) = pattern.matchesAfter (left ++ stretch) text := by
  induction stretch generalizing left with
  | nil => rw [List.nil_append, List.append_nil]
  | cons c stretch ih =>
    have hn : pattern.matchAt? (between left (c :: (stretch ++ text))) = none := by
      refine matchAt?_eq_none ?_
      have hc := h [] (c :: stretch) rfl (List.cons_ne_nil c stretch)
      rwa [List.append_nil, List.cons_append] at hc
    have hn : pattern.matchAt? ⟨left.getLast?, left.length, c :: (stretch ++ text)⟩ = none := hn
    have hi := ih h.tail
    rw [List.append_assoc, List.singleton_append] at hi
    rw [← hi, List.cons_append, matchesAfter, matchesFrom, hn, matchesAfter]
    simp

theorem matchesAfter_eq_nil {left text : Text} (h : pattern.Avoids left text []) :
    pattern.matchesAfter left text = [] := by
  have hm := matchesAfter_append h
  rwa [List.append_nil, matchesAfter_nil] at hm

theorem matchesFrom_skip (pattern : Pattern) (left skipped text : Text) :
    pattern.matchesFrom left.getLast? left.length skipped.length (skipped ++ text) =
      pattern.matchesAfter (left ++ skipped) text := by
  induction skipped generalizing left with
  | nil => rw [List.append_nil]; rfl
  | cons c skipped ih =>
    have hi := ih (left ++ [c])
    rw [List.append_assoc, List.singleton_append] at hi
    rw [← hi, List.cons_append, List.length_cons, matchesFrom]
    simp

/-- **Behind a match the list goes on where the match stops.** -/
theorem matchesAfter_of_match {left piece right : Text} {found : Match}
    (h : pattern.matchAt? (between left (piece ++ right)) = some found)
    (hs : found.stop = between (left ++ piece) right) (hp : piece ≠ []) :
    pattern.matchesAfter left (piece ++ right) =
      found :: pattern.matchesAfter (left ++ piece) right := by
  cases piece with
  | nil => exact absurd rfl hp
  | cons c piece =>
    have h : pattern.matchAt? ⟨left.getLast?, left.length, c :: (piece ++ right)⟩ = some found := h
    have hd : found.stop.offset - left.length = piece.length + 1 := by
      rw [hs, offset_between, List.length_append, List.length_cons]
      omega
    have hk := matchesFrom_skip pattern (left ++ [c]) piece right
    rw [List.append_assoc, List.singleton_append] at hk
    rw [← hk, List.cons_append, matchesAfter, matchesFrom, h]
    simp only [hd]
    simp

theorem matchesAfter_ne_nil_of_fitsAt (hw : 0 < pattern.width) {left text : Text}
    (h : pattern.FitsAt left text) : pattern.matchesAfter left text ≠ [] := by
  obtain ⟨found, hm⟩ := Option.isSome_iff_exists.mp (isSome_matchAt?_iff.mpr h)
  obtain ⟨piece, right, rfl, -, hs, -⟩ := fits_of_matchAt? hm
  have hp : piece ≠ [] := by
    rintro rfl
    have hl := (reads_of_matchAt? hm).2.length_add_le
    rw [hs, rest_between, rest_between, List.nil_append] at hl
    omega
  rw [matchesAfter_of_match hm hs hp]
  exact List.cons_ne_nil _ _

/-- **Where a pattern occurs, a match is listed**, if no piece that it describes is empty. -/
theorem matchesIn_ne_nil (hw : 0 < pattern.width) {text : Text}
    (h : pattern.occursIn text = true) : pattern.matchesIn text ≠ [] := by
  have main : ∀ front left rest : Text, pattern.FitsAt (left ++ front) rest →
      pattern.matchesAfter left (front ++ rest) ≠ [] := by
    intro front
    induction front with
    | nil =>
      intro left rest hf
      rw [List.append_nil] at hf
      exact matchesAfter_ne_nil_of_fitsAt hw hf
    | cons c front ih =>
      intro left rest hf
      by_cases hc : pattern.FitsAt left (c :: front ++ rest)
      · exact matchesAfter_ne_nil_of_fitsAt hw hc
      · have ha : pattern.Avoids left [c] (front ++ rest) := by
          intro before back hr hb
          rcases List.append_eq_singleton_iff.mp hr.symm with ⟨rfl, rfl⟩ | ⟨-, rfl⟩
          · rwa [List.append_nil]
          · exact absurd rfl hb
        have hi := ih (left ++ [c]) rest (by rwa [List.append_assoc])
        rwa [← matchesAfter_append ha] at hi
  obtain ⟨front, rest, rfl, hf⟩ := occursIn_iff.mp h
  exact main front [] rest hf

/-- **What is listed is a match at some place.** -/
theorem exists_of_mem_matchesAfter (left : Text) {text : Text} {found : Match}
    (h : found ∈ pattern.matchesAfter left text) :
    ∃ front rest, text = front ++ rest ∧
      pattern.matchAt? (between (left ++ front) rest) = some found := by
  have main : ∀ (text left : Text) (skip : Nat),
      found ∈ pattern.matchesFrom left.getLast? left.length skip text →
      ∃ front rest, text = front ++ rest ∧
        pattern.matchAt? (between (left ++ front) rest) = some found := by
    intro text
    induction text with
    | nil =>
      intro left skip hm
      cases skip <;> cases hm
    | cons c text ih =>
      intro left skip hm
      have further : ∀ skip, found ∈ pattern.matchesFrom (some c) (left.length + 1) skip text →
          ∃ front rest, c :: text = front ++ rest ∧
            pattern.matchAt? (between (left ++ front) rest) = some found := by
        intro skip hm
        obtain ⟨front, rest, hr, hf⟩ := ih (left ++ [c]) skip (by simpa using hm)
        rw [List.append_assoc, List.singleton_append] at hf
        exact ⟨c :: front, rest, by rw [hr, List.cons_append], hf⟩
      cases skip with
      | succ skip =>
        rw [matchesFrom] at hm
        exact further skip hm
      | zero =>
        rw [matchesFrom] at hm
        split at hm
        · exact further 0 hm
        next found' hf =>
          split at hm
          · exact further 0 hm
          · rcases List.mem_cons.mp hm with rfl | hm
            · exact ⟨[], c :: text, rfl, by rw [List.append_nil]; exact hf⟩
            · exact further _ hm
  exact main text left 0 h

theorem fits_of_mem_matchesIn {text : Text} {found : Match} (h : found ∈ pattern.matchesIn text) :
    ∃ left piece right, text = left ++ (piece ++ right) ∧
      found.start = between left (piece ++ right) ∧ found.stop = between (left ++ piece) right ∧
      pattern.Fits left piece right [] found.groups := by
  obtain ⟨left, rest, hr, hm⟩ := exists_of_mem_matchesAfter [] h
  obtain ⟨piece, right, rfl, hs, ht, hf⟩ := fits_of_matchAt? hm
  exact ⟨left, piece, right, hr, hs, ht, hf⟩

/-- What is listed from an offset on starts there or later, and each match behind those listed
ahead of it. -/
theorem starts_matchesFrom (pattern : Pattern) (last : Option Char) (offset skip : Nat)
    (text : Text) :
    (∀ found ∈ pattern.matchesFrom last offset skip text, offset ≤ found.start.offset) ∧
      (pattern.matchesFrom last offset skip text).Pairwise fun found later =>
        found.start.offset < later.start.offset := by
  induction text generalizing last offset skip with
  | nil => cases skip <;> simp [matchesFrom]
  | cons c text ih =>
    have further : ∀ skip, (∀ found ∈ pattern.matchesFrom (some c) (offset + 1) skip text,
        offset ≤ found.start.offset) ∧
        (pattern.matchesFrom (some c) (offset + 1) skip text).Pairwise fun found later =>
          found.start.offset < later.start.offset := fun skip =>
      ⟨fun found hm => Nat.le_of_succ_le ((ih (some c) (offset + 1) skip).1 found hm),
        (ih (some c) (offset + 1) skip).2⟩
    cases skip with
    | succ skip => exact further skip
    | zero =>
      rw [matchesFrom]
      split
      · exact further 0
      next found hf =>
        have hstart : found.start.offset = offset := by rw [(reads_of_matchAt? hf).1]
        split
        · exact further 0
        next more _ =>
          refine ⟨?_, List.pairwise_cons.mpr ⟨?_, (further more).2⟩⟩
          · refine List.forall_mem_cons.mpr ⟨Nat.le_of_eq hstart.symm, (further more).1⟩
          · intro later hm
            rw [hstart]
            exact (ih (some c) (offset + 1) more).1 later hm

/-- **The matches are listed in the order in which they start.** -/
theorem pairwise_start_matchesIn (pattern : Pattern) (text : Text) :
    (pattern.matchesIn text).Pairwise fun found later => found.start.offset < later.start.offset :=
  (starts_matchesFrom pattern none 0 0 text).2

end Pattern

end Snippet
