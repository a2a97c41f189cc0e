import Mathlib.Algebra.BigOperators.Intervals
import Mathlib.Data.List.TakeWhile
import Snippet.Proofs.FibonacciNumber
import Snippet.Proofs.Lookup
import Snippet.Proofs.Pieces
import Snippet.Proofs.PrintCalls
import Snippet.Record.Outcome

/-!
# What is computed, and what is printed of it

The numbers that are computed are those of the textbook: the term of a sequence that carries two
numbers along is the Fibonacci number of the doubly recursive definition, and the running product is
the factorial (`factorial_eq`).

`Outcome.numbers_and_outputs` says what comes of an outcome that asks for a Fibonacci number, with a
greatest argument of at most 20000: **the argument is refused exactly if it is greater, and
otherwise the output ends in its Fibonacci number, which is never too long to be written.**  An
outcome may hold an argument of any size, though, so this holds only where the argument and the
greatest one are not too long either, as far as the output names them; otherwise there is no output,
and it is not for its size that the argument is refused (`not_refused_longArgument`).
-/

namespace Snippet

open scoped Nat

/-! ### The numbers -/

/-- The Fibonacci numbers by their doubly recursive definition. -/
def doublyRecursive : Nat → Nat
  | 0 => 0
  | 1 => 1
  | k + 2 => doublyRecursive (k + 1) + doublyRecursive k

theorem doublyRecursive_eq (k : Nat) : doublyRecursive k = Nat.fib k := by
  fun_induction doublyRecursive k with
  | case1 => rfl
  | case2 => rfl
  | case3 k ih ih' => rw [ih, ih', Nat.fib_add_two, Nat.add_comm]

/-- **Fibonacci numbers are short** up to this argument. -/
theorem doublyRecursive_lt_limit {n : Int} (h : n ≤ 20000) :
    doublyRecursive n.toNat < Nat.pow 10 digitLimit := by
  rw [doublyRecursive_eq]
  exact Nat.lt_of_le_of_lt (Nat.fib_mono (by omega)) fib_lt_limit

theorem productAfter_factorial (n k : Nat) : productAfter (n !) n k = (n + k)! := by
  induction k generalizing n with
  | zero => rfl
  | succ k ih =>
    have hk : n + (k + 1) = n + 1 + k := by omega
    rw [productAfter, Nat.mul_comm, ← Nat.factorial_succ, ih, hk]

/-- **The running product is the factorial.** It starts behind the factor one. -/
theorem factorial_eq (n : Int) : factorial n = ∏ k ∈ Finset.Icc 1 n.toNat, k := by
  have hfactors : (1 + (n - 1).toNat)! = n.toNat ! := by
    rcases le_or_gt n 0 with hn | hn
    · have hsteps : (n - 1).toNat = 0 := by omega
      rw [hsteps, Int.toNat_of_nonpos hn, Nat.factorial_zero, Nat.add_zero, Nat.factorial_one]
    · have hk : 1 + (n - 1).toNat = n.toNat := by omega
      rw [hk]
  calc factorial n = productAfter (1 !) 1 (n - 1).toNat := rfl
    _ = (1 + (n - 1).toNat)! := productAfter_factorial 1 _
    _ = n.toNat ! := hfactors
    _ = ∏ k ∈ Finset.Ico 1 (n.toNat + 1), k :=
      (Finset.prod_Ico_id_eq_factorial _).symm
    _ = ∏ k ∈ Finset.Icc 1 n.toNat, k := by rw [Finset.Ico_add_one_right_eq_Icc]

/-! ### Numbers that are written -/

namespace Numeral

/-- Characters of which each is a digit, and nothing that may stand around or between digits. -/
def IsRun (digits : Text) : Prop :=
  ∀ c ∈ digits, isDecimal c = true ∧ isPadding c = false ∧ c ≠ '_' ∧ c ≠ '-' ∧ c ≠ '+'

/-- **A run of too many digits writes no number**, though it does for a reader. -/
theorem readInteger_of_long {digits : Text} (h : IsRun digits) (hl : digitLimit < digits.length) :
    readInteger digits = .error (.tooLongToRead digits.length) := by
  have hpad : digits.dropWhile isPadding = digits :=
    Text.dropWhile_eq_self (by
      cases digits with
      | nil => rfl
      | cons c rest => exact (h c List.mem_cons_self).2.1)
  have hsign : spanSign digits = (false, digits) := by
    cases digits with
    | nil => rfl
    | cons c rest =>
      obtain ⟨-, -, -, hminus, hplus⟩ := h c List.mem_cons_self
      rw [spanSign]
      · exact fun _ hc => hminus (List.cons.inj hc).1
      · exact fun _ hc => hplus (List.cons.inj hc).1
  have hrun : digits.takeWhile (fun c => isDecimal c || c == '_') = digits :=
    List.takeWhile_eq_self_iff.mpr fun c hc => by rw [(h c hc).1]; rfl
  have hgroups : ungroup? digits = some digits := by
    have hs : Text.splitOn '_' digits = [digits] :=
      Text.splitOn_join (List.cons_ne_nil digits [])
        (List.forall_mem_singleton.mpr fun hu => (h '_' hu).2.2.1 rfl)
    have hne : digits ≠ [] := List.ne_nil_of_length_pos (Nat.zero_lt_of_lt hl)
    rw [ungroup?, hs, if_neg (by simpa using hne), List.flatten_singleton]
  rw [readInteger, hpad, hsign]
  dsimp only
  rw [hrun, hgroups]
  dsimp only
  rw [read, if_pos hl]
  rfl

end Numeral

/-! ### Outputs -/

namespace Outcome

open Synthesis (namedNumbers)

variable {maximum n : Int} {wrapped : Bool} {language : Language}
variable {outcome : Outcome} {parameter : Json}

theorem output_eq (hc : outcome.case = .fibonacci) (hp : outcome.param? "n" = some parameter) :
    outcome.output maximum language = (wholeNumber parameter).bind fun n =>
      ((Synthesis.fibonacciText maximum n (outcome.flag "wrapped")).map .str).mapError
        .synthesis := by
  rw [output, hc]
  dsimp only
  rw [hp]
  rfl

/-- An output answers for the argument `n`: it is refused exactly if it is too large, and otherwise
the text ends in its Fibonacci number, or is nothing else where the number is printed by itself. -/
structure Answers (maximum n : Int) (wrapped : Bool) (output : Except Error Json) : Prop where
  refused_iff : output = .error (.synthesis (.argumentTooLarge n maximum)) ↔ maximum < n
  printed : n ≤ maximum → ∃ label, (wrapped = true → label = "") ∧
    output = .ok (.str (label ++ toString (doublyRecursive n.toNat)))

theorem answers_fibonacciText (hm : maximum ≤ 20000)
    (hs : ∀ k ∈ namedNumbers maximum n wrapped, Numeral.IsShort k) :
    Answers maximum n wrapped
      (((Synthesis.fibonacciText maximum n wrapped).map .str).mapError .synthesis) := by
  rcases lt_or_ge maximum n with hn | hn
  · rw [Synthesis.fibonacciText_of_lt hn hs]
    exact ⟨⟨fun _ => hn, fun _ => rfl⟩, fun hle => absurd hle (by omega)⟩
  · rw [Synthesis.fibonacciText_of_le hm hn hs, ← doublyRecursive_eq]
    refine ⟨⟨fun h => ?_, fun h => absurd h (by omega)⟩, fun _ => ?_⟩
    · cases h
    · cases wrapped with
      | true => exact ⟨"", fun _ => rfl, by simp [Except.map, Except.mapError]⟩
      | false =>
        exact ⟨"Fibonacci(" ++ toString n ++ ") = ", nofun, by simp [Except.map, Except.mapError]⟩

theorem not_answers_tooLong :
    ¬ Answers maximum n wrapped (.error (.synthesis (.numeral .tooLongToWrite))) := by
  intro h
  rcases lt_or_ge maximum n with hn | hn
  · cases h.refused_iff.mpr hn
  · obtain ⟨label, -, hl⟩ := h.printed hn
    cases hl

/-- The outcome that asks for the Fibonacci number of a parameter. -/
def asking (parameter : Json) (wrapped : Bool) : Outcome :=
  ⟨.fibonacci, "fibonacci", [("n", parameter), ("wrapped", .bool wrapped)]⟩

theorem asking_param? (parameter : Json) (wrapped : Bool) :
    (asking parameter wrapped).param? "n" = some parameter := rfl

/-- **The numbers are those of the textbook, and no Fibonacci number that is computed is too long.**
The output answers for the argument exactly if the numbers that it names besides are not too long
either. -/
theorem numbers_and_outputs (hm : maximum ≤ 20000) :
    (∀ n : Int, fibonacci n = doublyRecursive n.toNat ∧
      factorial n = ∏ k ∈ Finset.Icc 1 n.toNat, k) ∧
    ∀ (language : Language) (outcome : Outcome) (parameter : Json) (n : Int),
      outcome.case = .fibonacci → outcome.param? "n" = some parameter →
      wholeNumber parameter = .ok n →
        (n ≤ maximum → doublyRecursive n.toNat < Nat.pow 10 digitLimit) ∧
        (Answers maximum n (outcome.flag "wrapped") (outcome.output maximum language) ↔
          ∀ k ∈ namedNumbers maximum n (outcome.flag "wrapped"), Numeral.IsShort k) ∧
        ((¬ ∀ k ∈ namedNumbers maximum n (outcome.flag "wrapped"), Numeral.IsShort k) →
          outcome.output maximum language = .error (.synthesis (.numeral .tooLongToWrite))) := by
  refine ⟨fun n => ⟨(fibonacci_eq n).trans (doublyRecursive_eq _).symm, factorial_eq n⟩, ?_⟩
  intro language outcome parameter n hc hp hn
  rw [output_eq hc hp, hn, Except.bind]
  refine ⟨fun hle => doublyRecursive_lt_limit (by omega), ⟨fun h => ?_, fun hshort => ?_⟩,
    fun hlong => ?_⟩
  · by_contra hlong
    rw [Synthesis.fibonacciText_of_long hlong] at h
    exact not_answers_tooLong h
  · exact answers_fibonacciText hm hshort
  · rw [Synthesis.fibonacciText_of_long hlong]
    rfl

/-- Two outcomes with a greatest argument of 1000: the tenth Fibonacci number is printed, and the
argument 5000 is refused. -/
theorem numbers_and_outputs_ten :
    ((1000 : Int) ≤ 20000 ∧ wholeNumber (.int 10) = .ok 10 ∧ wholeNumber (.int 5000) = .ok 5000) ∧
    (asking (.int 10) true).output 1000 .python = .ok (.str "55") ∧
    (asking (.int 5000) true).output 1000 .python =
      .error (.synthesis (.argumentTooLarge 5000 1000)) := by
  have hm : (1000 : Int) ≤ 20000 := by decide
  have hten : wholeNumber (.int 10) = .ok 10 := rfl
  have hmany : wholeNumber (.int 5000) = .ok 5000 := rfl
  refine ⟨⟨hm, hten, hmany⟩, ?_, ?_⟩
  · obtain ⟨-, hiff, -⟩ :=
      (numbers_and_outputs hm).2 .python (asking (.int 10) true) (.int 10) 10 rfl rfl hten
    obtain ⟨label, hl, hout⟩ := (hiff.mpr (by decide +kernel)).printed (by decide)
    rw [hout, hl rfl]
    rfl
  · obtain ⟨-, hiff, -⟩ :=
      (numbers_and_outputs hm).2 .python (asking (.int 5000) true) (.int 5000) 5000 rfl rfl hmany
    refine (hiff.mpr ?_).refused_iff.mpr (by decide)
    decide +kernel

/-- **An argument of too many digits is not refused for its size**: neither as a number, which the
refusal would have to name, nor as the text that writes the number. -/
theorem not_refused_longArgument :
    ¬ Answers 20000 (Nat.pow 10 digitLimit : Nat) true
        ((asking (.int (Nat.pow 10 digitLimit : Nat)) true).output 20000 .python) ∧
    ¬ Answers 20000 (Nat.pow 10 digitLimit : Nat) true
        ((asking (.ofText ('1' :: List.replicate digitLimit '0')) true).output 20000 .python) := by
  have hlarge : (20000 : Int) < (Nat.pow 10 digitLimit : Nat) := by decide +kernel
  constructor
  · rw [output_eq rfl (asking_param? _ _), wholeNumber, Except.bind,
      Synthesis.fibonacciText_of_long (by decide +kernel)]
    exact not_answers_tooLong
  · intro h
    have hrun : Numeral.IsRun ('1' :: List.replicate digitLimit '0') := by
      intro c hc
      rcases List.mem_cons.mp hc with rfl | hc
      · decide
      · rw [List.eq_of_mem_replicate hc]
        decide
    have hread : wholeNumber (.ofText ('1' :: List.replicate digitLimit '0')) =
        .error (.synthesis (.numeral (.tooLongToRead (digitLimit + 1)))) := by
      rw [Json.ofText, wholeNumber, String.toList_ofList,
        Numeral.readInteger_of_long hrun (by simp)]
      simp [Except.mapError]
    have hout := h.refused_iff.mpr hlarge
    rw [output_eq rfl (asking_param? _ _), hread] at hout
    cases hout

end Outcome

end Snippet
