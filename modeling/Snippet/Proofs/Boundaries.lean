import Snippet.Proofs.Surroundings

/-!
# Where a search may be split

A pattern is asked for a character: whether its pieces may hold it (`reads`), start with it
(`mayStart`) or end with it (`mayEnd`).

* `matchesAfter_append_cons`, `occursIn_append_cons`: at a character that is never read a search
  falls into a search in front of it and one behind it.
* `occursIn_pad`: a text in front, whose characters start no piece, and a text behind, whose
  characters end none, are nothing to a search.
* `captures_of_fits`: what a group holds is a part of the piece, so that it stays the same in a
  longer text (`text_widen`).
-/

namespace Snippet

namespace Pattern

open Place

variable {pattern : Pattern} {left piece right text : Text} {held kept : Groups} {c : Char}

/-! ### Characters of a piece -/

/-- Whether a piece may hold the character. -/
def reads (c : Char) : Pattern → Bool
  | one p | many p | fewest p => p c
  | seq first second | either first second => first.reads c || second.reads c
  | group _ inner => inner.reads c
  | again .. => true
  | _ => false

/-- Whether a piece may start with the character. -/
def mayStart (c : Char) : Pattern → Bool
  | one p | many p | fewest p => p c
  | seq first second => first.mayStart c || (first.width == 0 && second.mayStart c)
  | either first second => first.mayStart c || second.mayStart c
  | group _ inner => inner.mayStart c
  | again .. => true
  | _ => false

/-- Whether a piece may end with the character. -/
def mayEnd (c : Char) : Pattern → Bool
  | one p | many p | fewest p => p c
  | seq first second => second.mayEnd c || (second.width == 0 && first.mayEnd c)
  | either first second => first.mayEnd c || second.mayEnd c
  | group _ inner => inner.mayEnd c
  | again .. => true
  | _ => false

theorem width_le_of_fits (h : pattern.Fits left piece right held kept) :
    pattern.width ≤ piece.length := by
  induction pattern generalizing left piece right held kept with
  | one p =>
    obtain ⟨⟨d, rfl, -⟩, -⟩ := h
    exact Nat.le_refl 1
  | seq first second ih ih' =>
    obtain ⟨front, back, middle, rfl, hf, hf'⟩ := h
    rw [width, List.length_append]
    exact Nat.add_le_add (ih hf) (ih' hf')
  | either first second ih ih' =>
    rcases h with h | h
    · exact (Nat.min_le_left ..).trans (ih h)
    · exact (Nat.min_le_right ..).trans (ih' h)
  | group index inner ih =>
    obtain ⟨middle, hf, -⟩ := h
    exact ih hf
  | _ => exact Nat.zero_le _

theorem ne_nil_of_fits (hw : 0 < pattern.width) (h : pattern.Fits left piece right held kept) :
    piece ≠ [] := by
  rintro rfl
  have := width_le_of_fits h
  simp only [List.length_nil] at this
  omega

/-- **A piece holds no character that the pattern does not read.** -/
theorem notMem_of_fits (hc : pattern.reads c = false)
    (h : pattern.Fits left piece right held kept) : c ∉ piece := by
  induction pattern generalizing left piece right held kept with
  | empty => simp [h.1]
  | one p =>
    obtain ⟨⟨d, rfl, hd⟩, -⟩ := h
    rintro hm
    rw [List.mem_singleton.mp hm] at hc
    exact absurd (hc.symm.trans hd) (by decide)
  | many p =>
    intro hm
    exact absurd (hc.symm.trans (h.1 c hm)) (by decide)
  | fewest p =>
    intro hm
    exact absurd (hc.symm.trans (h.1 c hm)) (by decide)
  | seq first second ih ih' =>
    simp only [reads, Bool.or_eq_false_iff] at hc
    obtain ⟨front, back, middle, rfl, hf, hf'⟩ := h
    rw [List.mem_append, not_or]
    exact ⟨ih hc.1 hf, ih' hc.2 hf'⟩
  | either first second ih ih' =>
    simp only [reads, Bool.or_eq_false_iff] at hc
    exact h.elim (ih hc.1) (ih' hc.2)
  | group index inner ih =>
    obtain ⟨middle, hf, -⟩ := h
    exact ih hc hf
  | again index anyCase => cases hc
  | edge => simp [h.1]
  | notAfter p => simp [h.1]
  | before p => simp [h.1]
  | lineStart => simp [h.1]

theorem reads_of_mem (h : pattern.Fits left piece right held kept) (hc : c ∈ piece) :
    pattern.reads c = true := by
  by_contra hn
  exact notMem_of_fits ((Bool.not_eq_true _).mp hn) h hc

theorem reads_append {first second : Pattern} :
    (first ++ second).reads c = (first.reads c || second.reads c) := rfl

theorem reads_optional : (optional pattern).reads c = pattern.reads c := Bool.or_false _

theorem reads_lit {s : String} : (lit s).reads c = true ↔ c ∈ s.toList := by
  rw [lit]
  induction s.toList with
  | nil => simp [reads]
  | cons d tail ih =>
    rw [List.foldr_cons, List.mem_cons, ← ih]
    exact (iff_of_eq (Bool.or_eq_true _ _)).trans (or_congr_left beq_iff_eq)

theorem mayStart_of_fits (h : pattern.Fits left (c :: piece) right held kept) :
    pattern.mayStart c = true := by
  induction pattern generalizing left piece right held kept with
  | empty => cases h.1
  | one p =>
    obtain ⟨⟨d, hd, hp⟩, -⟩ := h
    rwa [← (List.cons.inj hd).1] at hp
  | many p => exact h.1 c List.mem_cons_self
  | fewest p => exact h.1 c List.mem_cons_self
  | seq first second ih ih' =>
    obtain ⟨front, back, middle, he, hf, hf'⟩ := h
    rw [mayStart, Bool.or_eq_true, Bool.and_eq_true]
    cases front with
    | nil =>
      rw [List.nil_append] at he
      subst he
      exact Or.inr ⟨beq_iff_eq.mpr (Nat.le_zero.mp (width_le_of_fits hf)), ih' hf'⟩
    | cons d front =>
      rw [List.cons_append, List.cons.injEq] at he
      obtain ⟨rfl, -⟩ := he
      exact Or.inl (ih hf)
  | either first second ih ih' =>
    rw [mayStart, Bool.or_eq_true]
    exact h.imp ih ih'
  | group index inner ih =>
    obtain ⟨middle, hf, -⟩ := h
    exact ih hf
  | again index anyCase => rfl
  | edge => cases h.1
  | notAfter p => cases h.1
  | before p => cases h.1
  | lineStart => cases h.1

theorem mayEnd_of_fits (h : pattern.Fits left (piece ++ [c]) right held kept) :
    pattern.mayEnd c = true := by
  have hmem : c ∈ piece ++ [c] := by simp
  induction pattern generalizing left piece right held kept with
  | empty => exact absurd h.1 (by simp)
  | one p =>
    obtain ⟨⟨d, hd, hp⟩, -⟩ := h
    rw [hd, List.mem_singleton] at hmem
    rwa [hmem]
  | many p => exact h.1 c hmem
  | fewest p => exact h.1 c hmem
  | seq first second ih ih' =>
    obtain ⟨front, back, middle, he, hf, hf'⟩ := h
    rw [mayEnd, Bool.or_eq_true, Bool.and_eq_true]
    rcases List.eq_nil_or_concat back with rfl | ⟨back, d, rfl⟩
    · rw [List.append_nil] at he
      subst he
      exact Or.inr ⟨beq_iff_eq.mpr (Nat.le_zero.mp (width_le_of_fits hf')), ih hf hmem⟩
    · rw [List.concat_eq_append, ← List.append_assoc] at he
      rw [List.concat_eq_append, ← (List.append_inj' he rfl).2 |> List.cons.inj |>.1] at hf'
      exact Or.inl (ih' hf' (by simp))
  | either first second ih ih' =>
    rw [mayEnd, Bool.or_eq_true]
    exact h.imp (ih · hmem) (ih' · hmem)
  | group index inner ih =>
    obtain ⟨middle, hf, -⟩ := h
    exact ih hf hmem
  | again index anyCase => rfl
  | edge => exact absurd h.1 (by simp)
  | notAfter p => exact absurd h.1 (by simp)
  | before p => exact absurd h.1 (by simp)
  | lineStart => exact absurd h.1 (by simp)

theorem matchText_widen {found : Match} (h : pattern.matchAt? (between left text) = some found)
    (front behind : Text) : (found.widen front behind).text = found.text := by
  obtain ⟨piece, right, rfl, hs, ht, -⟩ := fits_of_matchAt? h
  have hlen : (left ++ piece).length - left.length = piece.length := by simp
  have hlen' : (front ++ (left ++ piece)).length - (front ++ left).length = piece.length := by
    simp only [List.length_append]
    omega
  simp only [Match.text, Match.widen, hs, ht, Place.widen_between, rest_between, offset_between,
    hlen, hlen', List.append_assoc, List.take_left]

/-! ### Searches that are split -/

theorem ignoresBefore_none : pattern.ignoresBefore none = true := by
  induction pattern with
  | seq first second ih ih' => simp [ignoresBefore, ih, ih']
  | either first second ih ih' => simp [ignoresBefore, ih, ih']
  | group index inner ih => exact ih
  | _ => rfl

theorem ignoresBehind_none (h : pattern.ignoresBehind (some c) = true) :
    pattern.ignoresBehind none = true := by
  induction pattern with
  | seq first second ih ih' =>
    simp only [ignoresBehind, Bool.and_eq_true] at h ⊢
    exact ⟨ih h.1, ih' h.2⟩
  | either first second ih ih' =>
    simp only [ignoresBehind, Bool.and_eq_true] at h ⊢
    exact ⟨ih h.1, ih' h.2⟩
  | group index inner ih => exact ih h
  | again index anyCase => cases h
  | _ => rfl

theorem stays_of_reads (hc : pattern.reads c = false) :
    pattern.Stays left text (c :: right) := by
  intro front back piece right' kept _ _ he hf
  rcases List.append_eq_append_iff.mp he with ⟨more, rfl, hm⟩ | ⟨more, rfl, -⟩
  · cases more with
    | nil => simp
    | cons d more =>
      obtain rfl : c = d := (List.cons.inj hm).1
      exact absurd (by simp) (notMem_of_fits hc hf)
  · simp

theorem not_fitsAt_of_reads (hw : 0 < pattern.width) (hc : pattern.reads c = false) :
    ¬ pattern.FitsAt left (c :: right) := by
  rintro ⟨piece, right', kept, he, hf⟩
  obtain ⟨d, piece, rfl⟩ := List.exists_cons_of_ne_nil (ne_nil_of_fits hw hf)
  obtain rfl : c = d := (List.cons.inj he).1
  exact notMem_of_fits hc hf List.mem_cons_self

/-- **At a character that is never read a search falls into two.** -/
theorem matchesAfter_append_cons (hw : 0 < pattern.width) (hc : pattern.reads c = false)
    (hr : pattern.ignoresBehind (some c) = true) (left text right : Text) :
    pattern.matchesAfter left (text ++ c :: right) =
      (pattern.matchesAfter left text).map (Match.widen [] (c :: right)) ++
        pattern.matchesAfter (left ++ text ++ [c]) right := by
  have hwide := @matchesAfter_widen pattern [] left text (c :: right) hw
    (fun _ => ignoresBefore_none) hr (stays_of_reads hc)
  rw [List.nil_append, List.nil_append] at hwide
  rw [hwide, matchesAfter_of_none (matchAt?_eq_none (not_fitsAt_of_reads hw hc))]

theorem matchesAfter_shift (hw : 0 < pattern.width) (hr : pattern.ignoresBehind none = true)
    {front : Text} (hl : front = [] → pattern.ignoresBefore left.getLast? = true) (text : Text) :
    pattern.matchesAfter (left ++ front) text =
      (pattern.matchesAfter front text).map (Match.widen left []) := by
  have hwide := @matchesAfter_widen pattern left front text [] hw hl hr stays_nil
  rwa [List.append_nil, matchesAfter_nil, List.append_nil] at hwide

theorem length_matchesIn_append_cons (hw : 0 < pattern.width) (hc : pattern.reads c = false)
    (hl : pattern.ignoresBefore (some c) = true) (hr : pattern.ignoresBehind (some c) = true)
    (text right : Text) :
    (pattern.matchesIn (text ++ c :: right)).length =
      (pattern.matchesIn text).length + (pattern.matchesIn right).length := by
  have hshift := @matchesAfter_shift pattern (text ++ [c]) hw (ignoresBehind_none hr) []
    (fun _ => by rwa [List.getLast?_concat]) right
  rw [List.append_nil] at hshift
  rw [matchesIn_eq_matchesAfter, matchesAfter_append_cons hw hc hr, List.nil_append, hshift,
    List.length_append, List.length_map, List.length_map]
  rfl

theorem occursIn_iff_matchesIn (hw : 0 < pattern.width) (text : Text) :
    pattern.occursIn text = true ↔ pattern.matchesIn text ≠ [] := by
  refine ⟨matchesIn_ne_nil hw, fun h => ?_⟩
  obtain ⟨found, more, hm⟩ := List.exists_cons_of_ne_nil h
  obtain ⟨left, piece, right, ht, -, -, hf⟩ :=
    @fits_of_mem_matchesIn pattern text found (by rw [hm]; exact List.mem_cons_self)
  exact occursIn_iff.mpr ⟨left, piece ++ right, ht, piece, right, _, rfl, hf⟩

/-- **At a character that is never read a text falls into two.** -/
theorem occursIn_append_cons (hw : 0 < pattern.width) (hc : pattern.reads c = false)
    (hl : pattern.ignoresBefore (some c) = true) (hr : pattern.ignoresBehind (some c) = true)
    (text right : Text) :
    pattern.occursIn (text ++ c :: right) = (pattern.occursIn text || pattern.occursIn right) := by
  rw [Bool.eq_iff_iff, Bool.or_eq_true, occursIn_iff_matchesIn hw, occursIn_iff_matchesIn hw,
    occursIn_iff_matchesIn hw]
  simp only [← List.length_pos_iff, length_matchesIn_append_cons hw hc hl hr]
  omega

/-! ### Texts on both sides -/

theorem avoids_of_mayStart (hw : 0 < pattern.width) (h : ∀ c ∈ text, pattern.mayStart c = false) :
    pattern.Avoids left text right := by
  rintro front back rfl hb ⟨piece, right', kept, he, hf⟩
  obtain ⟨c, back, rfl⟩ := List.exists_cons_of_ne_nil hb
  obtain ⟨d, piece, rfl⟩ := List.exists_cons_of_ne_nil (ne_nil_of_fits hw hf)
  obtain rfl : c = d := (List.cons.inj he).1
  have hc := h c (by simp)
  rw [mayStart_of_fits hf] at hc
  cases hc

/-- A piece that goes on into a text whose characters end no piece goes on behind it. -/
theorem stays_of_mayEnd (h : ∀ c ∈ right, pattern.mayEnd c = false) :
    pattern.Stays left text right := by
  intro front back piece right' kept _ _ he hf
  rcases List.append_eq_append_iff.mp he with ⟨more, rfl, hm⟩ | ⟨more, rfl, -⟩
  · rcases List.eq_nil_or_concat more with rfl | ⟨more, c, rfl⟩
    · simp
    · rw [List.concat_eq_append] at hf hm
      rw [← List.append_assoc] at hf
      have hc := h c (by rw [hm]; simp)
      rw [mayEnd_of_fits hf] at hc
      cases hc
  · simp

theorem avoids_of_mayEnd (hw : 0 < pattern.width) (h : ∀ c ∈ text, pattern.mayEnd c = false) :
    pattern.Avoids left text [] := by
  rintro front back rfl hb ⟨piece, right', kept, he, hf⟩
  rw [List.append_nil] at he
  rcases List.eq_nil_or_concat piece with rfl | ⟨piece, c, rfl⟩
  · exact ne_nil_of_fits hw hf rfl
  · rw [List.concat_eq_append] at hf he
    have hc := h c (by rw [he]; simp)
    rw [mayEnd_of_fits hf] at hc
    cases hc

/-- **The matches in a text with another one on each side**, if no piece starts in the one in front,
and none ends in the one behind. -/
theorem matchesIn_pad (hw : 0 < pattern.width) (hs : ∀ c ∈ left, pattern.mayStart c = false)
    (he : ∀ c ∈ right, pattern.mayEnd c = false) (hl : pattern.ignoresBefore left.getLast? = true)
    (hr : pattern.ignoresBehind right.head? = true) (text : Text) :
    pattern.matchesIn (left ++ (text ++ right)) =
      (pattern.matchesIn text).map (Match.widen left right) := by
  have hwide :=
    @matchesAfter_widen pattern left [] text right hw (fun _ => hl) hr (stays_of_mayEnd he)
  rw [List.append_nil, List.nil_append] at hwide
  rw [matchesIn_eq_matchesAfter, matchesAfter_append (avoids_of_mayStart hw hs), List.nil_append,
    hwide, matchesAfter_eq_nil (avoids_of_mayEnd hw he), List.append_nil]
  rfl

theorem occursIn_pad (hw : 0 < pattern.width) (hs : ∀ c ∈ left, pattern.mayStart c = false)
    (he : ∀ c ∈ right, pattern.mayEnd c = false) (hl : pattern.ignoresBefore left.getLast? = true)
    (hr : pattern.ignoresBehind right.head? = true) (text : Text) :
    pattern.occursIn (left ++ (text ++ right)) = pattern.occursIn text := by
  rw [Bool.eq_iff_iff, occursIn_iff_matchesIn hw, occursIn_iff_matchesIn hw,
    matchesIn_pad hw hs he hl hr, Ne, List.map_eq_nil_iff]

/-! ### What the groups hold -/

/-- **What a group holds is a part of the piece.** -/
theorem captures_of_fits (h : pattern.Fits left piece right held kept) :
    ∀ entry ∈ kept, entry ∈ held ∨ ∃ front inner back, piece = front ++ (inner ++ back) ∧
      entry.2 = ⟨inner ++ (back ++ right), inner.length⟩ := by
  induction pattern generalizing left piece right held kept with
  | seq first second ih ih' =>
    obtain ⟨front, back, middle, rfl, hf, hf'⟩ := h
    intro entry he
    rcases ih' hf' entry he with hm | ⟨before, inner, after, rfl, hc⟩
    · rcases ih hf entry hm with hh | ⟨before, inner, after, rfl, hc⟩
      · exact Or.inl hh
      · exact Or.inr ⟨before, inner, after ++ back, by simp, by rw [hc]; simp⟩
    · exact Or.inr ⟨front ++ before, inner, after, by simp, hc⟩
  | either first second ih ih' => exact h.elim ih ih'
  | group index inner ih =>
    obtain ⟨middle, hf, rfl⟩ := h
    intro entry he
    rcases List.mem_cons.mp he with rfl | he
    · exact Or.inr ⟨[], piece, [], by simp, by simp⟩
    · exact ih hf entry he
  | empty =>
    rw [h.2]
    exact fun entry he => Or.inl he
  | one p =>
    rw [h.2]
    exact fun entry he => Or.inl he
  | many p =>
    rw [h.2]
    exact fun entry he => Or.inl he
  | fewest p =>
    rw [h.2]
    exact fun entry he => Or.inl he
  | again index anyCase =>
    rw [h.2.2]
    exact fun entry he => Or.inl he
  | edge =>
    rw [h.2.1]
    exact fun entry he => Or.inl he
  | notAfter p =>
    rw [h.2.1]
    exact fun entry he => Or.inl he
  | before p =>
    rw [h.2.1]
    exact fun entry he => Or.inl he
  | lineStart =>
    rw [h.2.1]
    exact fun entry he => Or.inl he

theorem text_cons (index i : Nat) (capture : Capture) (groups : Groups) :
    Groups.text ((i, capture) :: groups) index =
      if index = i then capture.text else groups.text index := by
  rw [Groups.text, List.lookup_cons]
  by_cases h : index = i
  · simp [h]
  · rw [if_neg h, beq_false_of_ne h]
    rfl

theorem exists_of_mem_text {index : Nat} (h : c ∈ kept.text index) :
    ∃ capture, (index, capture) ∈ kept ∧ c ∈ capture.text := by
  induction kept with
  | nil => cases h
  | cons entry kept ih =>
    obtain ⟨i, capture⟩ := entry
    rw [text_cons] at h
    split at h
    next hi => exact ⟨capture, by rw [hi]; exact List.mem_cons_self, h⟩
    next =>
      obtain ⟨capture', hm, hc⟩ := ih h
      exact ⟨capture', List.mem_cons_of_mem _ hm, hc⟩

theorem mem_of_mem_text (h : pattern.Fits left piece right [] kept) {index : Nat}
    (hc : c ∈ kept.text index) : c ∈ piece := by
  obtain ⟨capture, hm, hc⟩ := exists_of_mem_text hc
  rcases captures_of_fits h _ hm with hm | ⟨front, inner, back, rfl, he⟩
  · cases hm
  · have he : capture = ⟨inner ++ (back ++ right), inner.length⟩ := he
    rw [he, Capture.text, List.take_left] at hc
    simp [hc]

theorem text_widen_of_le {more : Text} {index : Nat}
    (h : ∀ entry ∈ kept, entry.2.length ≤ entry.2.source.length) :
    (kept.widen more).text index = kept.text index := by
  induction kept with
  | nil => rfl
  | cons entry kept ih =>
    obtain ⟨i, capture⟩ := entry
    obtain ⟨hc, hk⟩ := List.forall_mem_cons.mp h
    have htext : Capture.text ⟨capture.source ++ more, capture.length⟩ = capture.text :=
      List.take_append_of_le_length hc
    show Groups.text ((i, ⟨capture.source ++ more, capture.length⟩) :: Groups.widen more kept)
      index = _
    rw [text_cons, text_cons, htext, ih hk]

/-- **What the groups hold stays the same in a longer text.** -/
theorem text_widen (h : pattern.Fits left piece right [] kept) (more : Text) (index : Nat) :
    (kept.widen more).text index = kept.text index := by
  refine text_widen_of_le fun entry he => ?_
  rcases captures_of_fits h entry he with hm | ⟨front, inner, back, -, hc⟩
  · cases hm
  · rw [hc]
    exact (List.prefix_append inner (back ++ right)).length_le

end Pattern

end Snippet
