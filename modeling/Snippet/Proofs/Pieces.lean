import Mathlib.Data.List.Basic
import Snippet.Text.Basic

/-!
# Pieces between separators

The pieces of a text between the occurrences of a character are those of the library
(`Text.splitOn_eq`), which knows that splitting undoes joining.
-/

namespace Snippet

namespace Text

variable {separator : Char}

theorem splitOn_eq (separator : Char) (text : Text) :
    splitOn separator text = List.splitOn separator text := by
  induction text with
  | nil => rfl
  | cons c rest ih =>
    rw [splitOn, ih, List.splitOn_cons_eq_if_modifyHead]
    by_cases hc : c = separator
    · rw [if_pos hc, if_pos (beq_iff_eq.mpr hc)]
    · rw [if_neg hc, if_neg (by simpa using hc)]
      cases hs : List.splitOn separator rest with
      | nil => exact absurd hs (List.splitOn_ne_nil separator rest)
      | cons piece more => rfl

theorem join_eq_intercalate (separator : Text) (pieces : List Text) :
    join separator pieces = separator.intercalate pieces := by
  induction pieces with
  | nil => rfl
  | cons piece more ih =>
    cases more with
    | nil => exact List.intercalate_singleton.symm
    | cons next others =>
      rw [join, ih, List.intercalate_cons_cons]
      exact List.cons_ne_nil next others

/-- **Splitting undoes joining** where no piece holds the separator. -/
theorem splitOn_join {pieces : List Text} (hn : pieces ≠ [])
    (h : ∀ piece ∈ pieces, separator ∉ piece) :
    splitOn separator (join [separator] pieces) = pieces := by
  rw [join_eq_intercalate, splitOn_eq]
  exact List.splitOn_intercalate separator h hn

theorem notMem_of_mem_splitOn {text piece : Text} (h : piece ∈ splitOn separator text) :
    separator ∉ piece := by
  induction text generalizing piece with
  | nil =>
    obtain rfl := List.mem_singleton.mp h
    exact List.not_mem_nil
  | cons c rest ih =>
    rw [splitOn] at h
    split at h
    · rcases List.mem_cons.mp h with rfl | h
      · exact List.not_mem_nil
      · exact ih h
    next hc =>
      cases hs : splitOn separator rest with
      | nil =>
        rw [hs] at h
        obtain rfl := List.mem_singleton.mp h
        simpa using Ne.symm hc
      | cons first more =>
        rw [hs] at h ih
        rcases List.mem_cons.mp h with rfl | h
        · exact List.not_mem_cons_of_ne_of_not_mem (Ne.symm hc) (ih List.mem_cons_self)
        · exact ih (List.mem_cons_of_mem _ h)

end Text

end Snippet
