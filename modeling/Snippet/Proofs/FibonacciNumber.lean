import Mathlib.Data.Nat.Fib.Basic
import Mathlib.Tactic
import Snippet.Synthesis

/-!
# Fibonacci numbers in full

The sequence that starts with 0 and 1 is that of the Fibonacci numbers (`fibonacci_eq`). They grow
slowly enough for every argument up to 20000 to have a number of at most 4300 digits, so with a
greatest argument in that range a Fibonacci text is refused for its argument, or over another number
that it names (`fibonacciText_of_lt`, `fibonacciText_of_long`), or not at all
(`fibonacciText_of_le`).
-/

namespace Snippet

theorem sequenceTerm_fib (k n : Nat) :
    sequenceTerm (Nat.fib k) (Nat.fib (k + 1)) n = Nat.fib (k + 1 + n) := by
  induction n generalizing k with
  | zero => rfl
  | succ n ih =>
    have hk : k + 1 + (n + 1) = k + 1 + 1 + n := by omega
    rw [sequenceTerm, ← Nat.fib_add_two, ih (k + 1), hk]

/-- **The terms of the sequence are the Fibonacci numbers.** -/
theorem fibonacci_eq (n : Int) : fibonacci n = Nat.fib n.toNat := by
  rw [fibonacci]
  split
  next hn => rw [Int.toNat_of_nonpos hn, Nat.fib_zero]
  next =>
    split
    next hone => rw [hone, Int.toNat_one, Nat.fib_one]
    next =>
      -- the second of two terms is one ahead of the steps
      have hk : 0 + 1 + (n - 1).toNat = n.toNat := by omega
      calc sequenceTerm 0 1 (n - 1).toNat
          = sequenceTerm (Nat.fib 0) (Nat.fib 1) (n - 1).toNat := rfl
        _ = Nat.fib (0 + 1 + (n - 1).toNat) := sequenceTerm_fib 0 _
        _ = Nat.fib n.toNat := by rw [hk]

theorem fib_lt_limit : Nat.fib 20000 < Nat.pow 10 digitLimit := by
  have h : Nat.fastFib 20000 < Nat.pow 10 digitLimit := by decide +kernel
  rwa [Nat.fastFib_eq] at h

theorem write_fibonacci {n : Int} (h : n ≤ 20000) :
    Numeral.write (fibonacci n) = .ok (toString (Nat.fib n.toNat)) := by
  have hf : Nat.fib n.toNat ≤ Nat.fib 20000 := Nat.fib_mono (by omega)
  have hl : ¬ Nat.pow 10 digitLimit ≤ ((fibonacci n : Int)).natAbs := by
    rw [Int.natAbs_natCast, fibonacci_eq]
    exact Nat.not_le.mpr (Nat.lt_of_le_of_lt hf fib_lt_limit)
  rw [Numeral.write, if_neg hl, fibonacci_eq]
  rfl

/-! ### Numbers that are read and written -/

namespace IntervalTree

variable {α : Type}

theorem mem_of_mem_build {count : Nat} {entries : List (Nat × Nat × α)} {entry : Nat × Nat × α}
    (h : entry ∈ (build count entries).2) : entry ∈ entries := by
  induction count, entries using build.induct with
  | case1 entries => simpa [build] using h
  | case2 count entries hc left hl ih =>
    rw [build, dif_neg hc] at h
    simp only [left] at hl
    simp [hl] at h
  | case3 count entries hc left lo hi value rest hl ihl ihr =>
    rw [build, dif_neg hc] at h
    simp only [left] at hl
    simp only [hl] at h
    exact ihl (by rw [hl]; exact List.mem_cons_of_mem _ (ihr h))

/-- **What is found in a tree is an interval of its list that holds the number.** -/
theorem exists_of_find?_build {count : Nat} {entries : List (Nat × Nat × α)} {n lo : Nat}
    {value : α} (h : (build count entries).1.find? n = some (lo, value)) :
    ∃ hi, (lo, hi, value) ∈ entries ∧ lo ≤ n ∧ n ≤ hi := by
  induction count, entries using build.induct with
  | case1 entries => simp [build, find?] at h
  | case2 count entries hc left hl ih =>
    rw [build, dif_neg hc] at h
    simp only [left] at hl
    simp only [hl] at h
    exact ih h
  | case3 count entries hc left lo' hi' value' rest hl ihl ihr =>
    rw [build, dif_neg hc] at h
    simp only [left] at hl
    have hmem : ∀ entry ∈ (lo', hi', value') :: rest, entry ∈ entries :=
      fun entry he => mem_of_mem_build (hl ▸ he)
    simp only [hl, find?] at h
    split at h
    · exact ihl h
    · split at h
      · obtain ⟨hi, he, hle⟩ := ihr h
        exact ⟨hi, hmem _ (List.mem_cons_of_mem _ he), hle⟩
      · cases h
        exact ⟨hi', hmem _ List.mem_cons_self, by omega, by omega⟩

end IntervalTree

theorem digitValue?_le {c : Char} {value : Nat} (h : digitValue? c = some value) : value ≤ 9 := by
  rw [digitValue?] at h
  split at h
  · split at h
    next hd =>
      cases h
      have hle : c.toNat ≤ 57 := (Char.isDigit_iff_toNat.mp hd).2
      omega
    next => cases h
  · obtain ⟨⟨lo, _⟩, hf, rfl⟩ := Option.map_eq_some_iff.mp h
    obtain ⟨hi, he, hlo, hhi⟩ := IntervalTree.exists_of_find?_build hf
    obtain ⟨⟨lo', hi'⟩, hm, he⟩ := List.mem_map.mp he
    obtain ⟨start, _, hs⟩ := List.mem_map.mp hm
    cases hs
    cases he
    dsimp only
    omega

namespace Numeral

theorem value_lt (digits : Text) : value digits < 10 ^ digits.length := by
  induction digits using List.reverseRecOn with
  | nil => decide
  | append_singleton digits c ih =>
    rw [value] at ih ⊢
    rw [List.foldl_append, List.foldl_cons, List.foldl_nil, List.length_append,
      List.length_singleton, Nat.pow_succ]
    cases hv : digitValue? c with
    | none => rw [Option.getD_none]; omega
    | some digit =>
      have := digitValue?_le hv
      rw [Option.getD_some]
      omega

/-- A number is not too long to be written. -/
def IsShort (n : Int) : Prop := n.natAbs < Nat.pow 10 digitLimit

instance : DecidablePred IsShort := fun n =>
  inferInstanceAs (Decidable (n.natAbs < Nat.pow 10 digitLimit))

theorem write_of_isShort {n : Int} (h : IsShort n) : write n = .ok (toString n) :=
  if_neg (Nat.not_le.mpr h)

theorem write_of_not_isShort {n : Int} (h : ¬ IsShort n) : write n = .error .tooLongToWrite :=
  if_pos (Nat.not_lt.mp h)

theorem isShort_value {digits : Text} (h : digits.length ≤ digitLimit) :
    IsShort (value digits) := by
  have hpow : ∀ {count limit : Nat}, count ≤ limit → Nat.pow 10 count ≤ Nat.pow 10 limit :=
    fun h => Nat.pow_le_pow_right (by decide) h
  exact Nat.lt_of_lt_of_le (value_lt digits) (hpow h)

end Numeral

namespace Synthesis

variable {maximum n : Int} {wrapped : Bool}

/-- The numbers that a Fibonacci text names besides the result: the argument, unless the result
stands alone, and the greatest argument where the argument is refused. -/
def namedNumbers (maximum n : Int) (wrapped : Bool) : List Int :=
  if maximum < n then [n, maximum] else if wrapped then [] else [n]

theorem written_of_isShort (h : Numeral.IsShort n) : written n = .ok (toString n) := by
  rw [written, Numeral.write_of_isShort h]
  rfl

theorem written_of_not_isShort (h : ¬ Numeral.IsShort n) :
    written n = .error (.numeral .tooLongToWrite) := by
  rw [written, Numeral.write_of_not_isShort h]
  rfl

theorem fibonacciText_of_lt (h : maximum < n)
    (hs : ∀ k ∈ namedNumbers maximum n wrapped, Numeral.IsShort k) :
    fibonacciText maximum n wrapped = .error (.argumentTooLarge n maximum) := by
  rw [namedNumbers, if_pos h] at hs
  rw [fibonacciText, if_pos h, written_of_isShort (hs n (by simp)),
    written_of_isShort (hs maximum (by simp))]
  rfl

/-- **With a greatest argument of at most 20000, no smaller argument is refused.** -/
theorem fibonacciText_of_le (hm : maximum ≤ 20000) (h : n ≤ maximum)
    (hs : ∀ k ∈ namedNumbers maximum n wrapped, Numeral.IsShort k) :
    fibonacciText maximum n wrapped =
      .ok (if wrapped then toString (Nat.fib n.toNat)
        else "Fibonacci(" ++ toString n ++ ") = " ++ toString (Nat.fib n.toNat)) := by
  have hvalue : written (fibonacci n) = .ok (toString (Nat.fib n.toNat)) := by
    rw [written, write_fibonacci (by omega)]
    rfl
  rw [namedNumbers, if_neg (by omega)] at hs
  rw [fibonacciText, if_neg (by omega), hvalue]
  cases wrapped with
  | true => rfl
  | false =>
    rw [written_of_isShort (hs n (by simp))]
    rfl

/-- What is reported of an argument that is too great. -/
def refusal (maximum n : Int) : SynthesisError :=
  if Numeral.IsShort maximum then .argumentTooLarge n maximum else .numeral .tooLongToWrite

/-- **A number that is too long leaves nothing to print.** -/
theorem fibonacciText_of_long (hs : ¬ ∀ k ∈ namedNumbers maximum n wrapped, Numeral.IsShort k) :
    fibonacciText maximum n wrapped = .error (.numeral .tooLongToWrite) := by
  rw [namedNumbers] at hs
  rw [fibonacciText]
  by_cases h : maximum < n
  · rw [if_pos h] at hs ⊢
    by_cases hn : Numeral.IsShort n
    · have hmaximum : ¬ Numeral.IsShort maximum := fun hmax => hs (by simp [hn, hmax])
      rw [written_of_isShort hn, written_of_not_isShort hmaximum]
      rfl
    · rw [written_of_not_isShort hn]
      rfl
  · rw [if_neg h] at hs ⊢
    cases wrapped with
    | true => exact absurd (fun k hk => absurd hk List.not_mem_nil) hs
    | false =>
      have hn : ¬ Numeral.IsShort n := fun hn => hs (by simpa using hn)
      rw [written_of_not_isShort hn]
      rfl

/-- **An argument that is not too long is refused if it is too great**, and otherwise its number is
printed. -/
theorem fibonacciText_of_isShort (hm : maximum ≤ 20000) (hn : Numeral.IsShort n) :
    fibonacciText maximum n wrapped =
      if maximum < n then .error (refusal maximum n)
      else .ok (if wrapped then toString (Nat.fib n.toNat)
        else "Fibonacci(" ++ toString n ++ ") = " ++ toString (Nat.fib n.toNat)) := by
  by_cases h : maximum < n
  · rw [if_pos h, refusal]
    by_cases hmaximum : Numeral.IsShort maximum
    · rw [if_pos hmaximum, fibonacciText_of_lt h (by simp [namedNumbers, h, hn, hmaximum])]
    · rw [if_neg hmaximum, fibonacciText_of_long (by simp [namedNumbers, h, hmaximum])]
  · rw [if_neg h, fibonacciText_of_le hm (by omega)]
    rw [namedNumbers, if_neg h]
    cases wrapped <;> simp [hn]

end Synthesis

end Snippet
