import Snippet.Loop
import Snippet.Proofs.Marks

/-!
# The words that loops open with

The headers of loops in braces open with `for`, `while` or `do` (`opens_loopHeader`), and the
clauses of comprehensions with `for` (`opens_forWord`).  A stretch without these words holds no such
match, even if the text goes on behind it, as long as no word goes on across its end
(`Opens.avoids`).
-/

namespace Snippet

namespace Pattern

open Place

variable {pattern : Pattern} {left text stretch right : Text} {options : List Text}

/-- **A stretch without the words that a pattern opens with holds no match of it.** -/
theorem Opens.avoids (h : pattern.Opens options)
    (hw : ∀ word ∈ options, word ≠ [] ∧ ∀ c ∈ word, isWord c = true) (hl : stretch.Lacks options)
    (hr : stretch.getLast?.any isWord = false ∨ right.head?.any isWord = false) :
    pattern.Avoids left stretch right := by
  rintro front back rfl hb hf
  obtain ⟨word, hm, rest, he, hleft, hright⟩ := h _ _ hf
  obtain ⟨hn, hword⟩ := hw word hm
  obtain ⟨more, rfl, hrest⟩ : ∃ more, back = word ++ more ∧ rest = more ++ right := by
    rcases List.append_eq_append_iff.mp he with ⟨more, rfl, rfl⟩ | hin
    · cases more with
      | nil => exact ⟨[], by simp, by simp⟩
      | cons c more =>
        -- the word would go on across the end of the stretch
        exfalso
        rcases hr with hr | hr
        · rw [List.getLast?_append_of_ne_nil _ hb, List.getLast?_eq_getLast_of_ne_nil hb,
            Option.any_some, hword _ (List.mem_append_left _ (List.getLast_mem hb))] at hr
          cases hr
        · have hc := hword c (by simp)
          simp [hc] at hr
    · exact hin
  refine hl word hm (Text.mem_words hword ?_ ?_)
  · by_cases hf : front = []
    · rw [hf]
      rfl
    · rwa [List.getLast?_append_of_ne_nil _ hf] at hleft
  · by_cases hm : more = []
    · rw [hm]
      rfl
    · rwa [hrest, List.head?_append_of_ne_nil _ hm] at hright

theorem fits_append_assoc {first second third : Pattern} {piece : Text} {held kept : Groups}
    (h : (first ++ second ++ third).Fits left piece right held kept) :
    (first ++ (second ++ third)).Fits left piece right held kept := by
  obtain ⟨_, back, middle, rfl, ⟨front, inner, between, rfl, hf, hs⟩, ht⟩ := h
  rw [← List.append_assoc] at hf ht
  exact ⟨front, inner ++ back, between, List.append_assoc _ _ _, hf, inner, back, middle, rfl, hs,
    ht⟩

theorem endsWord_blanks_before {c : Char} (hc : isWord c = false) :
    (blanks ++ before (· == c)).EndsWord := by
  rintro left piece right held kept hl ⟨gap, _, _, rfl, ⟨hg, rfl⟩, rfl, rfl, hb⟩
  cases gap with
  | nil =>
    cases right with
    | nil => cases hb
    | cons d right =>
      have hd : d = c := by simpa using hb
      subst hd
      exact hc
  | cons d gap => exact isWord_of_isBlank (hg d List.mem_cons_self)

theorem opens_forWord : forWord.Opens ["for".toList] :=
  opens_lit (by decide) (by decide) endsWord_edge

/-- **The header of a loop opens with the word of the loop.** -/
theorem opens_loopHeader : loopHeader.Opens ["for".toList, "while".toList, "do".toList] := by
  have hhead : (edge ++ firstOf (["for", "while"].map lit) ++ next '(').Opens
      (["for", "while"].map String.toList) :=
    opens_firstOf (by decide) (endsWord_next (by decide))
  have hdo : (edge ++ lit "do" ++ (blanks ++ before (· == '\x7b'))).Opens ["do".toList] :=
    opens_lit (by decide) (by decide) (endsWord_blanks_before (by decide))
  have hassoc : (edge ++ lit "do" ++ blanks ++ before (· == '\x7b')).Opens ["do".toList] := by
    rintro left text ⟨piece, right, kept, hr, hf⟩
    exact hdo left text ⟨piece, right, kept, hr, fits_append_assoc hf⟩
  exact hhead.either hassoc

/-! ### Lines that open loops -/

/-- The words of loops whose body follows them. -/
def loopWords : List String := ["for", "while"]

theorem isWord_of_mem_loopWords :
    ∀ s ∈ loopWords, s.toList ≠ [] ∧ ∀ c ∈ s.toList, isWord c = true := by
  decide

theorem any_head?_of_isEdge {word : Text} (hw : ∀ c ∈ word, isWord c = true) (hn : word ≠ [])
    (he : (between (left ++ word) right).isEdge = true) : right.head?.any isWord = false := by
  have hlast : (left ++ word).getLast?.any isWord = true := by
    rw [List.getLast?_append_of_ne_nil _ hn, List.getLast?_eq_getLast_of_ne_nil hn]
    exact hw _ (List.getLast_mem hn)
  rw [isEdge, last_between, rest_between, hlast] at he
  simpa using he

/-- What a line that opens a loop starts with: a loop word, possibly with `async` and blanks before
it. -/
theorem exists_of_fits_loopLine {piece : Text} {held kept : Groups}
    (h : loopLine.Fits left piece right held kept) :
    ∃ front, ∃ s ∈ loopWords, piece = front ++ s.toList ∧ kept = held ∧
      right.head?.any isWord = false ∧
      (front = [] ∨ ∃ c gap, isBlank c = true ∧ (∀ d ∈ gap, isBlank d = true) ∧
        front = "async".toList ++ c :: gap) := by
  obtain ⟨_, _, _, rfl, ⟨front, word, _, rfl, hopt, hfirst⟩, rfl, rfl, hedge⟩ := h
  obtain ⟨_, hm, hlit⟩ := fits_firstOf.mp hfirst
  obtain ⟨s, hs, rfl⟩ := List.mem_map.mp (show _ ∈ loopWords.map lit from hm)
  obtain ⟨rfl, rfl⟩ := fits_lit.mp hlit
  obtain ⟨hn, hw⟩ := isWord_of_mem_loopWords s hs
  rw [← List.append_assoc] at hedge
  have hend := any_head?_of_isEdge hw hn hedge
  rcases hopt with hopt | ⟨rfl, rfl⟩
  · obtain ⟨_, _, _, rfl, hasync, _, gap, _, rfl, ⟨⟨c, rfl, hc⟩, rfl⟩, hg, rfl⟩ := hopt
    obtain ⟨rfl, rfl⟩ := fits_lit.mp hasync
    exact ⟨_, s, hs, by simp, rfl, hend, Or.inr ⟨c, gap, hc, hg, rfl⟩⟩
  · exact ⟨[], s, hs, by simp, rfl, hend, Or.inl rfl⟩

theorem any_getLast?_of_async {front : Text}
    (h : front = [] ∨ ∃ c gap, isBlank c = true ∧ (∀ d ∈ gap, isBlank d = true) ∧
      front = "async".toList ++ c :: gap) : front.getLast?.any isWord = false := by
  rcases h with rfl | ⟨c, gap, hc, hg, rfl⟩
  · rfl
  · have hblank : ∀ d ∈ c :: gap, isBlank d = true := List.forall_mem_cons.mpr ⟨hc, hg⟩
    rw [List.getLast?_append_of_ne_nil _ (List.cons_ne_nil c gap),
      List.getLast?_eq_getLast_of_ne_nil (List.cons_ne_nil c gap), Option.any_some]
    exact isWord_of_isBlank (hblank _ (List.getLast_mem _))

/-- **A line without the words opens no loop.** -/
theorem not_fitsAt_loopLine {line : Text} (h : line.Lacks (loopWords.map String.toList)) :
    ¬ loopLine.FitsAt [] line := by
  rintro ⟨piece, right, kept, rfl, hf⟩
  obtain ⟨front, s, hs, rfl, -, hend, hfront⟩ := exists_of_fits_loopLine hf
  refine h s.toList (List.mem_map_of_mem hs) ?_
  rw [List.append_assoc]
  exact Text.mem_words (isWord_of_mem_loopWords s hs).2 (any_getLast?_of_async hfront) hend

/-- **A line that starts with a loop word opens a loop.** -/
theorem matchAt?_loopLine {s : String} (hs : s ∈ loopWords) {rest : Text}
    (hr : rest.head?.any isWord = false) :
    loopLine.matchAt? (between [] (s.toList ++ rest)) =
      some ⟨between [] (s.toList ++ rest), between ([] ++ s.toList) rest, []⟩ := by
  obtain ⟨hn, hw⟩ := isWord_of_mem_loopWords s hs
  have hedge : (between s.toList rest).isEdge = true := by
    refine isEdge_between_of_right ?_ hr
    rw [List.getLast?_eq_getLast_of_ne_nil hn]
    exact hw _ (List.getLast_mem hn)
  refine matchAt?_eq_of_fits ?_ ?_
  · refine ⟨s.toList, [], [], by simp, ⟨[], s.toList, [], rfl, Or.inr ⟨rfl, rfl⟩, ?_⟩, rfl, rfl, ?_⟩
    · exact fits_firstOf.mpr ⟨lit s, List.mem_map_of_mem hs, fits_lit.mpr ⟨rfl, rfl⟩⟩
    · simpa using hedge
  · intro piece' right' kept' hcut hf
    obtain ⟨front, s', hs', rfl, rfl, -, hfront⟩ := exists_of_fits_loopLine hf
    have hhead := congrArg List.head? hcut
    rcases hfront with rfl | ⟨c, gap, -, -, rfl⟩
    · -- two different loop words have different first letters
      fin_cases hs <;> fin_cases hs' <;> simp_all
    · fin_cases hs <;> simp at hhead

end Pattern

end Snippet
