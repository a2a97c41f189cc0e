import Mathlib.Tactic
import Snippet.Print

/-!
# Where print calls read a snippet

Print calls are found in the mask, and only their arguments are cut out of the snippet itself. The
ranges in which that happens can be told from the mask alone (`Language.argumentRanges`), so the
rest of the snippet is never looked at: two snippets with the same mask that read alike on these
ranges have the same print calls (`printCalls_eq_of_agreeOn`).
-/

namespace Snippet

/-! ### Texts that read alike on a range -/

namespace Text

/-- Two texts have the same characters from the first position of a range up to, and without, its
last. -/
def AgreeOn (text text' : Text) (range : Nat × Nat) : Prop :=
  ∀ i : Nat, range.1 ≤ i → i < range.2 → text[i]? = text'[i]?

variable {text text' : Text} {first last : Nat}

theorem AgreeOn.slice_eq (h : AgreeOn text text' (first, last)) {start stop : Nat}
    (hf : first ≤ start) (hl : stop ≤ last) : slice text start stop = slice text' start stop := by
  apply List.ext_getElem?
  intro i
  rw [slice, slice, List.getElem?_take, List.getElem?_take, List.getElem?_drop, List.getElem?_drop]
  split
  next hi =>
    apply h
    · exact Nat.le_add_right_of_le hf
    · show start + i < last
      omega
  next => rfl

/-- **A change in the middle of a text is not seen from outside.** -/
theorem agreeOn_of_outside {front middle middle' rest : Text}
    (hlen : middle.length = middle'.length) {range : Nat × Nat}
    (h : range.2 ≤ front.length ∨ front.length + middle.length ≤ range.1) :
    AgreeOn (front ++ (middle ++ rest)) (front ++ (middle' ++ rest)) range := by
  intro i hfirst hlast
  rcases h with h | h
  · have hi : i < front.length := by omega
    rw [List.getElem?_append_left hi, List.getElem?_append_left hi]
  · have hi : front.length ≤ i := by omega
    have hm : middle.length ≤ i - front.length := by omega
    have hm' : middle'.length ≤ i - front.length := by omega
    rw [List.getElem?_append_right hi, List.getElem?_append_right hi,
      List.getElem?_append_right hm, List.getElem?_append_right hm', hlen]

end Text

/-! ### The parts of a range -/

namespace Bracket

theorem snd_le_of_mem_partsFrom {separator : Text} {length : Nat} {suffixes : List Text}
    {depth : Int} {begun here skip : Nat} {found : List (Nat × Nat)}
    (h : partsFrom separator length depth begun here skip suffixes = some found) :
    ∀ part ∈ found, part.2 ≤ length := by
  induction suffixes generalizing depth begun here skip found with
  | nil =>
    rw [partsFrom] at h
    split at h
    · cases h
      simp
    · cases h
  | cons suffix more ih =>
    unfold partsFrom at h
    split at h
    · cases h
      simp
    next hl =>
      split at h
      · exact ih h
      · cases h
      · split at h
        · exact ih h
        · split at h
          · exact ih h
          · split at h
            · dsimp only at h
              obtain ⟨others, ho, rfl⟩ := Option.map_eq_some_iff.mp h
              intro part hp
              rcases List.mem_cons.mp hp with rfl | hp
              · exact Nat.le_of_not_le hl
              · exact ih ho part hp
            · exact ih h

theorem mem_partsWithin {text separator : Text} {start stop : Nat} {part : Nat × Nat}
    (h : part ∈ partsWithin text start stop separator) :
    start ≤ part.1 ∧ part.2 ≤ start + (stop - start) := by
  rw [partsWithin] at h
  obtain ⟨inner, hi, rfl⟩ := List.mem_map.mp h
  refine ⟨Nat.le_add_right start inner.1, Nat.add_le_add_left ?_ start⟩
  cases hp : partsFrom separator (stop - start) 0 0 0 0
      (Text.suffixes (stop - start) (text.drop start)) with
  | none => rw [hp] at hi; cases hi
  | some found =>
    rw [hp] at hi
    exact snd_le_of_mem_partsFrom hp inner hi

end Bracket

/-! ### The ranges that are read -/

namespace PrintCall

open Pattern

variable {code code' mask : Text}

/-- The range between the parentheses of a call, if they are closed. -/
def callRange? (found : Match) : Option (Nat × Nat) :=
  (Bracket.round.closing? 1 found.stop.offset found.stop.rest).map (found.stop.offset, ·)

/-- The range from an insertion into the standard output stream to the next semicolon. -/
def streamRange (mask : Text) (found : Match) : Nat × Nat :=
  (found.stop.offset,
    match Text.position? ';' found.stop.rest with
    | some distance => found.stop.offset + distance
    | none => mask.length)

/-- **The pieces of a range are read within it.** -/
theorem pieces_eq_of_agreeOn {start stop : Nat} (h : Text.AgreeOn code code' (start, stop))
    (separator : Text) :
    pieces code (Bracket.partsWithin mask start stop separator) =
      pieces code' (Bracket.partsWithin mask start stop separator) := by
  have hwithin : Text.AgreeOn code code' (start, start + (stop - start)) := by
    intro i hfirst hlast
    apply h i hfirst
    dsimp only at hfirst hlast ⊢
    omega
  have hslice : ∀ part ∈ Bracket.partsWithin mask start stop separator,
      Text.trim (Text.slice code part.1 part.2) = Text.trim (Text.slice code' part.1 part.2) := by
    intro part hp
    obtain ⟨hfirst, hlast⟩ := Bracket.mem_partsWithin hp
    rw [hwithin.slice_eq hfirst hlast]
  rw [pieces, pieces, List.map_congr_left hslice]

theorem ofRoutine_eq_ranges (code mask : Text) (routine : Routine) :
    ofRoutine code mask routine =
      ((callPattern routine).matchesIn mask).filterMap fun found =>
        (callRange? found).map fun range =>
          (found.start.offset,
            ⟨routine, pieces code (Bracket.partsWithin mask range.1 range.2 [',']),
              routine.endsLine⟩) := by
  apply List.filterMap_congr
  intro found _
  rw [callRange?, Option.map_map]
  rfl

theorem ofStream_eq_ranges (code mask : Text) :
    ofStream code mask =
      (streamPattern.matchesIn mask).map fun found =>
        let range := streamRange mask found
        let segments := pieces code (Bracket.partsWithin mask range.1 range.2 ['<', '<'])
        (found.start.offset,
          ⟨.stream, segments.filter (!isLineEnder ·), segments.any isLineEnder⟩) :=
  rfl

theorem ofRoutine_eq_of_agreeOn {routine : Routine}
    (h : ∀ range ∈ ((callPattern routine).matchesIn mask).filterMap callRange?,
      Text.AgreeOn code code' range) :
    ofRoutine code mask routine = ofRoutine code' mask routine := by
  rw [ofRoutine_eq_ranges, ofRoutine_eq_ranges]
  apply List.filterMap_congr
  intro found hm
  cases hr : callRange? found with
  | none => rfl
  | some range =>
    have hagree := h range (List.mem_filterMap.mpr ⟨found, hm, hr⟩)
    rw [Option.map_some, Option.map_some, pieces_eq_of_agreeOn hagree]

theorem ofStream_eq_of_agreeOn
    (h : ∀ range ∈ (streamPattern.matchesIn mask).map (streamRange mask),
      Text.AgreeOn code code' range) :
    ofStream code mask = ofStream code' mask := by
  rw [ofStream_eq_ranges, ofStream_eq_ranges]
  apply List.map_congr_left
  intro found hm
  have hagree : Text.AgreeOn code code' ((streamRange mask found).1, (streamRange mask found).2) :=
    h _ (List.mem_map_of_mem hm)
  dsimp only
  rw [pieces_eq_of_agreeOn hagree]

end PrintCall

namespace Language

open PrintCall

variable {language : Language} {code code' : Text}

/-- The ranges of a snippet with a given mask that hold the arguments of its print calls. -/
def argumentRanges (language : Language) (mask : Text) : List (Nat × Nat) :=
  language.routines.flatMap (fun routine =>
      ((callPattern routine).matchesIn mask).filterMap callRange?) ++
    (if language = cpp then (streamPattern.matchesIn mask).map (streamRange mask) else [])

/-- **Print calls are read off the mask and the ranges of their arguments.** -/
theorem printCalls_eq_of_agreeOn (hm : language.mask code = language.mask code')
    (h : ∀ range ∈ language.argumentRanges (language.mask code), Text.AgreeOn code code' range) :
    language.printCalls code = language.printCalls code' := by
  have hroutines : language.routines.flatMap (ofRoutine code (language.mask code)) =
      language.routines.flatMap (ofRoutine code' (language.mask code)) := by
    apply List.flatMap_congr
    intro routine hr
    apply ofRoutine_eq_of_agreeOn
    intro range hrange
    exact h range (List.mem_append_left _ (List.mem_flatMap.mpr ⟨routine, hr, hrange⟩))
  have hstream : (if language = cpp then ofStream code (language.mask code) else []) =
      if language = cpp then ofStream code' (language.mask code) else [] := by
    by_cases hl : language = cpp
    · rw [if_pos hl, if_pos hl]
      apply ofStream_eq_of_agreeOn
      intro range hrange
      apply h range
      rw [argumentRanges, if_pos hl]
      exact List.mem_append_right _ hrange
    · rw [if_neg hl, if_neg hl]
  rw [printCalls, printCalls, printCallsByRoutine, printCallsByRoutine, ← hm, hroutines, hstream]

end Language

end Snippet
