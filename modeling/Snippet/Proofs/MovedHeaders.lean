import Snippet.Proofs.DefinitionLines

/-!
# Headers around a blank line

A blank line behind a line feed does not change which headers of definitions stand in a text. Those
in front of it and those behind it stay as they are, and one that goes on over the place holds the
blank line among its own blanks (`DefinitionHead.exists_exchange`).

`forall₂_moved`: **the headers of a text, and those of the text with a blank line, are the same one
by one**, each in front of the blank line or moved behind it (`Moved`).
-/

namespace Snippet

open Pattern Place

variable {front line rest : Text}

theorem isBlank_of_mem_blankLine (hb : ∀ c ∈ line, isBlank c = true) :
    ∀ c ∈ line ++ ['\n'], isBlank c = true := by
  intro c hc
  rcases List.mem_append.mp hc with hc | hc
  · exact hb c hc
  · rw [List.mem_singleton.mp hc]
    rfl

/-! ### Headers around blanks -/

theorem forall_isBlank_exchange {before gap gap' : Text}
    (hb : ∀ c ∈ before ++ '\n' :: gap, isBlank c = true) (hg : ∀ c ∈ gap', isBlank c = true) :
    ∀ c ∈ before ++ '\n' :: gap', isBlank c = true := by
  intro c hc
  rcases List.mem_append.mp hc with hc | hc
  · exact hb c (List.mem_append_left _ hc)
  · rcases List.mem_cons.mp hc with rfl | hc
    · decide
    · exact hg c hc

/-- A line feed in a word `async` and what follows it stands in the blanks of that word, which may
then be exchanged, or behind the word. -/
theorem IsAsync.exchange {async right before more : Text} (ha : IsAsync async)
    (h : async ++ right = before ++ '\n' :: more) :
    (∃ gap, more = gap ++ right ∧ (∀ c ∈ gap, isBlank c = true) ∧
      ∀ gap', (∀ c ∈ gap', isBlank c = true) → IsAsync (before ++ '\n' :: gap')) ∨
      ∃ before', before = async ++ before' ∧ right = before' ++ '\n' :: more := by
  rcases ha with rfl | ⟨gap, rfl, -, hb⟩
  · exact Or.inr ⟨before, rfl, h⟩
  · rw [List.append_assoc] at h
    obtain ⟨before, rfl, hgap⟩ := Text.eq_append_of_notMem (by decide) h
    rcases Text.append_eq_append_cons hgap with ⟨more, rfl, rfl⟩ | ⟨before', rfl, hright⟩
    · refine Or.inl ⟨more, rfl, fun c hc => hb c (by simp [hc]), fun gap' hg => ?_⟩
      exact Or.inr ⟨_, List.append_assoc .., by simp, forall_isBlank_exchange hb hg⟩
    · exact Or.inr ⟨before', (List.append_assoc ..).symm, hright⟩

/-- What follows the blanks in a header, up to its parenthesis. -/
inductive FollowsBlanks : Text → Prop
  | definition (text : Text) : FollowsBlanks ("def".toList ++ text)
  | name {name space : Text} (isPlainName : IsPlainName name)
      (isBlank_of_mem_space : ∀ c ∈ space, isBlank c = true) :
      FollowsBlanks (name ++ (space ++ ['(']))
  | parenthesis : FollowsBlanks ['(']

theorem FollowsBlanks.visible {text : Text} (h : FollowsBlanks text) (rest : Text) :
    (text ++ rest).head?.any (!isBlank ·) = true := by
  cases h with
  | definition text => rfl
  | name isPlainName _ =>
    obtain ⟨c, more, rfl, hc, -⟩ := isPlainName
    have hvisible : isBlank c = false := by
      rw [← Bool.not_eq_true]
      intro hb
      exact absurd (isWord_of_isNameStart hc) (by simp [isWord_of_isBlank hb])
    simp [hvisible]
  | parenthesis => rfl

/-- **The blanks of a header behind a line feed may be exchanged.** -/
theorem DefinitionHead.exists_exchange (head : DefinitionHead) {front more : Text}
    (hl : front.getLast? = some '\n') (h : head.text = front ++ more) :
    ∃ gap back, more = gap ++ back ∧ (∀ c ∈ gap, isBlank c = true) ∧ FollowsBlanks back ∧
      ∀ gap', (∀ c ∈ gap', isBlank c = true) → ∃ head' : DefinitionHead,
        head'.text = front ++ (gap' ++ back) ∧ head'.lead = head.lead ∧ head'.name = head.name := by
  obtain ⟨before, rfl⟩ := List.getLast?_eq_some_iff.mp hl
  rw [List.append_assoc, List.singleton_append, text] at h
  have hlead : '\n' ∉ head.lead := fun hm => absurd (head.lead_eq _ hm) (by decide)
  have hname : '\n' ∉ head.name :=
    fun hm => absurd (head.isPlainName.isWord_of_mem _ hm) (by decide)
  obtain ⟨front, rfl, hasync⟩ := Text.eq_append_of_notMem hlead h
  rcases head.isAsync.exchange hasync with ⟨gap, rfl, hb, hexchange⟩ | ⟨front, rfl, hword⟩
  · refine ⟨gap, _, rfl, hb, .definition _, fun gap' hg => ?_⟩
    exact ⟨{ head with async := _, isAsync := hexchange gap' hg }, by simp [text], rfl, rfl⟩
  obtain ⟨front, rfl, hgap⟩ := Text.eq_append_of_notMem (by decide) hword
  rcases Text.append_eq_append_cons hgap with ⟨gap, he, rfl⟩ | ⟨front, rfl, htail⟩
  · have hb := he ▸ head.isBlank_of_mem_gap
    refine ⟨gap, _, rfl, fun c hc => hb c (by simp [hc]),
      .name head.isPlainName head.isBlank_of_mem_space, fun gap' hg => ?_⟩
    exact ⟨{ head with
      gap := _
      gap_ne_nil := by simp
      isBlank_of_mem_gap := forall_isBlank_exchange hb hg }, by simp [text], rfl, rfl⟩
  obtain ⟨front, rfl, hspace⟩ := Text.eq_append_of_notMem hname htail
  rcases Text.append_eq_append_cons hspace with ⟨gap, he, rfl⟩ | ⟨front, rfl, hround⟩
  · have hb := he ▸ head.isBlank_of_mem_space
    refine ⟨gap, _, rfl, fun c hc => hb c (by simp [hc]), .parenthesis, fun gap' hg => ?_⟩
    exact ⟨{ head with
      space := _
      isBlank_of_mem_space := forall_isBlank_exchange hb hg }, by simp [text], rfl, rfl⟩
  · have hm : '\n' ∈ ['('] := hround ▸ by simp
    exact absurd hm (by decide)

theorem exists_gap_of_blank {blanks gap visible : Text} (hb : ∀ c ∈ blanks, isBlank c = true)
    (hv : visible.head?.any (!isBlank ·) = true) (h : blanks ++ rest = gap ++ visible) :
    ∃ more, gap = blanks ++ more ∧ rest = more ++ visible := by
  rcases List.append_eq_append_iff.mp h with ⟨more, hg, hr⟩ | ⟨more, hg, hr⟩
  · exact ⟨more, hg, hr⟩
  · cases more with
    | nil => exact ⟨[], by rw [hg, List.append_nil, List.append_nil], hr.symm⟩
    | cons c more =>
      have hc : isBlank c = true := hb c (by simp [hg])
      rw [hr, List.cons_append, List.head?_cons, Option.any_some, hc] at hv
      cases hv

/-! ### Headers on both sides of a blank line -/

/-- The header of a definition in a text, and in the text with `blanks` behind `front`: both start
in front of the blanks, or both behind them. -/
inductive Moved (front blanks : Text) : Match → Match → Prop
  | ahead {header header' : Match} (start : header'.start.offset = header.start.offset)
      (lt : header.start.offset < front.length)
      (stop : header'.stop.offset = header.stop.offset ∨
        front.length ≤ header.stop.offset ∧ front.length ≤ header'.stop.offset)
      (lead : header'.groups.text 1 = header.groups.text 1)
      (name : header'.groups.text 2 = header.groups.text 2) : Moved front blanks header header'
  | behind (found : Match) :
      Moved front blanks (found.widen front []) (found.widen (front ++ blanks) [])

section

variable (hb : ∀ c ∈ line, isBlank c = true)

include hb

theorem not_fitsAt_blankLine (left rest : Text) :
    ¬ indentedHeader.FitsAt left (line ++ '\n' :: rest) := by
  rintro ⟨_, right, kept, he, hf⟩
  obtain ⟨-, head, rfl, -⟩ := fits_indentedHeader_iff.mp hf
  have hlead : '\n' ∉ head.lead := fun hm => absurd (head.lead_eq _ hm) (by decide)
  rw [DefinitionHead.text, List.append_assoc] at he
  obtain ⟨more, rfl, hmore⟩ := Text.eq_append_of_notMem hlead he.symm
  have hblank : (more ++ '\n' :: rest).head?.any isBlank = true := by
    cases more with
    | nil => rfl
    | cons c more => exact hb c (by simp)
  rw [← hmore, List.append_assoc, List.append_assoc, head.any_head?_async] at hblank
  cases hblank

theorem avoids_blankLine (hn : '\n' ∉ line) (left rest : Text) :
    indentedHeader.Avoids left (line ++ ['\n']) rest := by
  have hfirst : ∀ {c : Char} {more : Text}, line ++ ['\n'] = c :: more →
      ¬ indentedHeader.FitsAt left (c :: (more ++ rest)) := by
    intro c more he
    rw [← List.cons_append, ← he, List.append_assoc]
    exact not_fitsAt_blankLine hb left rest
  cases line with
  | nil =>
    intro before back hr hback
    rcases List.append_eq_singleton_iff.mp hr.symm with ⟨rfl, rfl⟩ | ⟨-, rfl⟩
    · rw [List.append_nil]
      exact hfirst rfl
    · exact absurd rfl hback
  | cons c line =>
    rw [List.mem_cons, not_or] at hn
    rw [List.cons_append]
    refine @Avoids.append indentedHeader left [c] (line ++ ['\n']) rest ?_ ?_
    · intro before back hr hback
      rcases List.append_eq_singleton_iff.mp hr.symm with ⟨rfl, rfl⟩ | ⟨-, rfl⟩
      · rw [List.append_nil]
        exact hfirst rfl
      · exact absurd rfl hback
    · exact avoids_indentedHeader_of_notMem List.getLast?_concat (Ne.symm hn.1) hn.2

theorem fitsAt_of_blankLine {left text : Text} (hl : text.getLast? = some '\n')
    (h : indentedHeader.FitsAt left (text ++ (line ++ '\n' :: rest))) :
    indentedHeader.FitsAt left (text ++ rest) := by
  obtain ⟨_, right, kept, he, hf⟩ := h
  obtain ⟨hstart, head, rfl, -⟩ := fits_indentedHeader_iff.mp hf
  suffices h : ∃ (head' : DefinitionHead) (right' : Text), text ++ rest = head'.text ++ right' by
    obtain ⟨head', right', he'⟩ := h
    exact ⟨_, right', _, he', fits_indentedHeader_iff.mpr ⟨hstart, head', rfl, rfl⟩⟩
  rcases List.append_eq_append_iff.mp he with ⟨more, hm, hmore⟩ | ⟨more, rfl, -⟩
  · obtain ⟨gap, back, rfl, hgap, hback, hexchange⟩ := head.exists_exchange hl hm
    -- the blank line is a part of the blanks of the header
    rw [← List.singleton_append, ← List.append_assoc, List.append_assoc gap] at hmore
    obtain ⟨gap', hg, hrest⟩ :=
      exists_gap_of_blank (isBlank_of_mem_blankLine hb) (hback.visible right) hmore
    obtain ⟨head', hh, -⟩ := hexchange gap' fun c hc => hgap c (by simp [hg, hc])
    exact ⟨head', right, by rw [hh, hrest]; simp⟩
  · exact ⟨head, more ++ rest, List.append_assoc ..⟩

omit hb in
theorem forall₂_moved_behind (hf : front.EndsInLineFeed) (text right : Text) :
    List.Forall₂ (Moved front (line ++ ['\n']))
      (indentedHeader.matchesAfter (front ++ text) right)
      (indentedHeader.matchesAfter (front ++ (line ++ ['\n']) ++ text) right) := by
  have hshift : ∀ front : Text, front.EndsInLineFeed →
      indentedHeader.matchesAfter (front ++ text) right =
        (indentedHeader.matchesAfter text right).map (Match.widen front []) := by
    intro front hf
    refine matchesAfter_shift (by decide) (by rfl) (fun _ => ?_) right
    rcases hf with hf | hf <;> rw [hf] <;> rfl
  have hline : (front ++ (line ++ ['\n'])).EndsInLineFeed := Or.inr (by simp)
  rw [hshift front hf, hshift _ hline, List.forall₂_map_left_iff, List.forall₂_map_right_iff,
    List.forall₂_same]
  exact fun found _ => .behind found

theorem forall₂_moved_across {left text back right : Text} {head : DefinitionHead}
    (hs : left.getLast?.all (· == '\n') = true) (hf : (left ++ text).EndsInLineFeed)
    (hl : text.getLast? = some '\n') (hh : head.text = text ++ back) :
    List.Forall₂ (Moved (left ++ text) (line ++ ['\n']))
      (indentedHeader.matchesAfter left (head.text ++ right))
      (indentedHeader.matchesAfter left (text ++ (line ++ '\n' :: (back ++ right)))) := by
  have hmatch := fun right (head : DefinitionHead) => matchesAfter_of_match
    (matchAt?_indentedHeader hs head right) rfl head.text_ne_nil
  have hlt : left.length < (left ++ text).length := by
    have := List.length_pos_iff.mpr (show text ≠ [] by rintro rfl; cases hl)
    rw [List.length_append]
    omega
  obtain ⟨gap, visible, rfl, hgap, -, hexchange⟩ := head.exists_exchange hl hh
  obtain ⟨head', hh', hlead, hname⟩ := hexchange (line ++ '\n' :: gap)
    (forall_isBlank_exchange (isBlank_of_mem_blankLine hb) hgap)
  have htext : text ++ (line ++ '\n' :: (gap ++ visible ++ right)) = head'.text ++ right := by
    rw [hh']
    simp
  have hbehind := @forall₂_moved_behind _ line hf (gap ++ visible) right
  rw [htext, hmatch, hmatch]
  refine .cons (.ahead rfl hlt (Or.inr ?_) ?_ ?_) ?_
  · simp only [offset_between, hh, hh', List.length_append]
    omega
  · simp [hlead]
  · simp [hname]
  · simpa [hh, hh'] using hbehind

/-- **The headers of the definitions are the same ones with a blank line.** -/
theorem forall₂_moved (hn : '\n' ∉ line) {left text : Text} (hf : (left ++ text).EndsInLineFeed) :
    List.Forall₂ (Moved (left ++ text) (line ++ ['\n']))
      (indentedHeader.matchesAfter left (text ++ rest))
      (indentedHeader.matchesAfter left (text ++ (line ++ '\n' :: rest))) := by
  induction hlen : text.length using Nat.strong_induction_on generalizing left text with
  | _ n ih =>
    subst hlen
    by_cases ht : text = []
    · subst ht
      have hpass := matchesAfter_append (avoids_blankLine hb hn left rest)
      have hbehind := @forall₂_moved_behind _ line hf [] rest
      rw [List.append_assoc, List.singleton_append] at hpass
      simpa [hpass] using hbehind
    have hl : text.getLast? = some '\n' := by
      rw [← List.getLast?_append_of_ne_nil left ht]
      exact hf.resolve_left (by simp [ht])
    obtain ⟨c, more, rfl⟩ := List.exists_cons_of_ne_nil ht
    cases hm : indentedHeader.matchAt? (between left (c :: (more ++ rest))) with
    | none =>
      have hnone : ¬ indentedHeader.FitsAt left (c :: (more ++ rest)) := by
        rw [← isSome_matchAt?_iff, hm]
        exact Bool.false_ne_true
      have hnone' := matchAt?_eq_none (mt (fitsAt_of_blankLine hb hl) hnone)
      have hi := @ih more.length (by simp) (left ++ [c]) more (by simpa using hf) rfl
      rw [List.cons_append] at hnone'
      rw [List.cons_append, List.cons_append, matchesAfter_of_none hm, matchesAfter_of_none hnone']
      simpa using hi
    | some found =>
      obtain ⟨_, right, he, -, -, hfits⟩ := fits_of_matchAt? hm
      obtain ⟨hstart, head, rfl, -⟩ := fits_indentedHeader_iff.mp hfits
      have hmatch := fun right (head : DefinitionHead) => matchesAfter_of_match
        (matchAt?_indentedHeader hstart head right) rfl head.text_ne_nil
      rw [← List.cons_append] at he
      have hlt : left.length < (left ++ c :: more).length := by simp
      -- the header goes on behind the blank line, or is over in front of it
      rcases List.append_eq_append_iff.mp he with ⟨back, hh, rfl⟩ | ⟨back, hh, rfl⟩
      · rw [he]
        exact forall₂_moved_across hb hstart hf hl hh
      · have hlen : back.length < (c :: more).length := by
          have := List.length_pos_iff.mpr head.text_ne_nil
          rw [hh, List.length_append]
          omega
        rw [hh] at hf hlt ⊢
        have hi := ih back.length hlen (by rwa [List.append_assoc]) rfl
        rw [List.append_assoc, List.append_assoc, hmatch, hmatch]
        refine .cons (.ahead rfl hlt (Or.inl rfl) ?_ ?_) ?_
        · simp
        · simp
        · rwa [List.append_assoc] at hi

end

end Snippet
