import Snippet.Proofs.BracedProgram

/-!
# Conditions behind `do` blocks

The condition behind the block of a `do` loop looks like the header of a `while` loop, and it is
listed as one, with a reach of its own.  It reaches to the end of the next statement; if that is
the semicolon of the `do` loop, then there is no loop in it.  At the end of a block, where there is
no next statement, it reaches on behind the closing brace: to the first semicolon, or to the end of
the first block if that opens before.

So a program tells its reaches (`Program.spans`) if one knows where those end that are open at its
end.  `Program.found` counts how deep they are nested, from the reaches that are open in front of
the program (`Program.forall_cover_le_iff`).  This is not less than the loops are nested, and it is
their nesting if each condition has a simple statement behind it (`Program.found_of_closed`).
-/

namespace Snippet

open Pattern Place

/-! ### One more reach -/

theorem nesting_cons (first last : Nat) (spans : List (Nat × Nat)) (place : Nat) :
    nesting ((first, last) :: spans) place =
      nesting spans place + if first < place ∧ place < last then 1 else 0 := by
  rw [nesting, nesting, List.filter_cons]
  by_cases h : first < place ∧ place < last
  · simp [h.1, h.2]
  · rw [if_neg h, if_neg (by simpa using h)]

theorem nesting_cons_append (first last : Nat) (spans more : List (Nat × Nat)) (place : Nat) :
    nesting ((first, last) :: (spans ++ more)) place + 1 =
      nesting spans place + nesting more place + if first < place ∧ place < last then 1 else 0 := by
  have := nesting_append spans more place
  rw [nesting_cons]
  omega

theorem foldl_max_le_iff (numbers : List Nat) (bound : Nat) :
    numbers.foldl max 0 ≤ bound ↔ ∀ n ∈ numbers, n ≤ bound := by
  rw [List.foldl_max, Nat.zero_max]
  cases hm : numbers.max? with
  | none =>
    rw [List.max?_eq_none_iff.mp hm]
    simp
  | some greatest => exact List.max?_le_iff hm

namespace Braced

variable {language : Language} {left right : Text}

/-! ### Programs -/

/-- Simple statements and loops, one behind the other. The semicolon behind the condition of a `do`
loop is a simple statement that is empty. -/
inductive Program (language : Language) where
  | done (gap : Gap)
  | simple (gap : Gap) (code : Simple language) (rest : Program language)
  | loop (gap : Gap) (word : String) (mem_loopWords : word ∈ loopWords) (header : Header language)
      (gap' : Gap) (inside rest : Program language)
  | doLoop (gap gap' : Gap) (inside : Program language) (gap'' : Gap) (condition : Header language)
      (rest : Program language)

namespace Program

/-- The text of a program. -/
def render : Program language → Text
  | done gap => gap.text
  | simple gap code rest => gap.text ++ (code.text ++ ';' :: rest.render)
  | loop gap word _ header gap' inside rest =>
    gap.text ++ (header.render word ++
      (gap'.text ++ '\x7b' :: (inside.render ++ '\x7d' :: rest.render)))
  | doLoop gap gap' inside gap'' condition rest =>
    gap.text ++ ("do".toList ++ gap'.text ++ '\x7b' :: (inside.render ++ '\x7d' ::
      (gap''.text ++ (condition.render "while" ++ rest.render))))

/-- The number of loops. -/
def loops : Program language → Nat
  | done _ => 0
  | simple _ _ rest => rest.loops
  | loop _ _ _ _ _ inside rest => inside.loops + 1 + rest.loops
  | doLoop _ _ inside _ _ rest => inside.loops + 1 + rest.loops

/-- The number of loops with their condition behind their block. -/
def doLoops : Program language → Nat
  | done _ => 0
  | simple _ _ rest => rest.doLoops
  | loop _ _ _ _ _ inside rest => inside.doLoops + rest.doLoops
  | doLoop _ _ inside _ _ rest => inside.doLoops + 1 + rest.doLoops

/-- How deep the loops are nested. -/
def depth : Program language → Nat
  | done _ => 0
  | simple _ _ rest => rest.depth
  | loop _ _ _ _ _ inside rest => max (inside.depth + 1) rest.depth
  | doLoop _ _ inside _ _ rest => max (inside.depth + 1) rest.depth

/-- How many conditions reach beyond the program. Of those that stand in front of it, `ahead` reach
to the end of the next statement, and `late` to the next semicolon or block. -/
def beyond (ahead late : Nat) : Program language → Nat
  | done _ => ahead + late
  | simple _ _ rest => rest.beyond 0 0
  | loop _ _ _ _ _ inside rest => rest.beyond 0 (inside.beyond 0 0)
  | doLoop _ _ inside _ condition rest =>
    rest.beyond 1 (if ';' ∈ condition.text then 0 else inside.beyond 0 0)

/-- How deep the loops are found to be nested, if `outer` loops are found around the program and
`ahead` and `late` conditions reach into it. -/
def found (outer ahead late : Nat) : Program language → Nat
  | done _ => 0
  | simple _ _ rest => rest.found outer 0 0
  | loop _ _ _ header _ inside rest =>
    max (outer + ahead + late + 1)
      (max (inside.found (outer + ahead + (if ';' ∈ header.text then 0 else late) + 1) 0 0)
        (rest.found outer 0 (inside.beyond 0 0)))
  | doLoop _ _ inside _ condition rest =>
    max (outer + ahead + late + 1)
      (max (inside.found (outer + ahead + late + 1) 0 0)
        (max (outer + inside.beyond 0 0 + 1)
          (rest.found outer 1 (if ';' ∈ condition.text then 0 else inside.beyond 0 0))))

end Program

/-! ### The reaches of a program -/

/-- Where the first semicolon of a header ends, or else `otherwise`. -/
def Header.semicolonEnd (word : String) (header : Header language) (start otherwise : Nat) : Nat :=
  match Text.position? ';' header.text with
  | some s => start + (word.toList.length + (header.gap.text.length + 1 + s)) + 1
  | none => otherwise

theorem Header.length_render (word : String) (header : Header language) :
    (header.render word).length =
      word.toList.length + (header.gap.text.length + 1 + header.text.length) + 1 := by
  simp only [render, headerText, List.length_append, List.length_cons, List.length_nil]
  omega

theorem position?_eq_none {c : Char} {text : Text} (h : c ∉ text) :
    Text.position? c text = none := by
  have hp := position?_append h []
  rwa [List.append_nil] at hp

theorem Header.semicolonEnd_of_notMem (word : String) {header : Header language}
    (h : ';' ∉ header.text) (start otherwise : Nat) :
    header.semicolonEnd word start otherwise = otherwise := by
  rw [semicolonEnd, position?_eq_none h]

theorem Header.semicolonEnd_of_eq_append (word : String) {header : Header language}
    {before behind : Text} (h : header.text = before ++ ';' :: behind) (hb : ';' ∉ before)
    (start otherwise : Nat) : header.semicolonEnd word start otherwise =
      start + (word.toList ++ (header.gap.text ++ '(' :: before)).length + 1 := by
  rw [semicolonEnd, h, position?_append hb, Text.position?, if_pos rfl]
  simp only [Option.map_some, List.length_append, List.length_cons]
  omega

theorem Header.semicolonEnd_of_mem (word : String) {header : Header language}
    (h : ';' ∈ header.text) (start otherwise : Nat) :
    start < header.semicolonEnd word start otherwise ∧
      header.semicolonEnd word start otherwise ≤ start + (header.render word).length := by
  obtain ⟨before, behind, hcut, hb⟩ := List.eq_append_cons_of_mem h
  rw [header.semicolonEnd_of_eq_append word hcut hb, header.length_render, hcut]
  simp only [List.length_append, List.length_cons]
  omega

theorem Header.lt_semicolonEnd (word : String) (header : Header language) {start otherwise : Nat}
    (h : start < otherwise) : start < header.semicolonEnd word start otherwise := by
  by_cases hm : ';' ∈ header.text
  · exact (header.semicolonEnd_of_mem word hm start otherwise).1
  · rwa [header.semicolonEnd_of_notMem word hm]

/-- Behind a header without a semicolon the same is open as in front of it, and behind one with a
semicolon nothing. -/
theorem Header.open_behind (word : String) (header : Header language) {start place : Nat}
    (hp : start + (header.render word).length ≤ place) (otherwise late : Nat) :
    (if place < header.semicolonEnd word start otherwise then late else 0) =
      if place < otherwise then (if ';' ∈ header.text then 0 else late) else 0 := by
  by_cases h : ';' ∈ header.text
  · have := Header.semicolonEnd_of_mem word h start otherwise
    rw [if_neg (by omega), if_pos h, ite_self]
  · rw [Header.semicolonEnd_of_notMem word h, if_neg h]

namespace Program

/-- Where the first statement of a program ends that starts at `base`; if there is none, what is
open reaches to `out`. -/
def nextEnd (base out : Nat) : Program language → Nat
  | done _ => out
  | simple gap code _ => base + gap.text.length + code.text.length + 1
  | loop gap word _ header gap' inside _ =>
    base + gap.text.length + (header.render word).length + gap'.text.length + 1 +
      inside.render.length + 1
  | doLoop gap gap' inside _ _ _ =>
    base + gap.text.length + 2 + gap'.text.length + 1 + inside.render.length + 1

/-- Where the first semicolon of a program stands, or the first block ends if that opens before. -/
def lateEnd (base out : Nat) : Program language → Nat
  | done _ => out
  | simple gap code rest => (simple gap code rest).nextEnd base out
  | loop gap word mem_loopWords header gap' inside rest =>
    header.semicolonEnd word (base + gap.text.length)
      ((loop gap word mem_loopWords header gap' inside rest).nextEnd base out)
  | doLoop gap gap' inside gap'' condition rest =>
    (doLoop gap gap' inside gap'' condition rest).nextEnd base out

/-- The reaches that are found in a program that starts at `base`: those of its loops, and those of
the conditions behind `do` blocks. -/
def spans (base out : Nat) : Program language → List (Nat × Nat)
  | done _ => []
  | simple gap code rest => rest.spans (base + gap.text.length + code.text.length + 1) out
  | loop gap word _ header gap' inside rest =>
    let start := base + gap.text.length
    let place := start + (header.render word).length + gap'.text.length + 1
    let stop := place + inside.render.length + 1
    (start, stop) :: (inside.spans place (rest.lateEnd stop out) ++ rest.spans stop out)
  | doLoop gap gap' inside gap'' condition rest =>
    let start := base + gap.text.length
    let place := start + 2 + gap'.text.length + 1
    let stop := place + inside.render.length + 1
    let again := stop + gap''.text.length
    let behind := again + (condition.render "while").length
    (start, stop) ::
      (inside.spans place (condition.semicolonEnd "while" again (rest.lateEnd behind out)) ++
        (again, rest.nextEnd behind out) :: rest.spans behind out)

theorem length_spans (program : Program language) (base out : Nat) :
    (program.spans base out).length = program.loops + program.doLoops := by
  induction program generalizing base out with
  | done => rfl
  | simple gap code rest ih => exact ih _ out
  | loop gap word _ header gap' inside rest ihInside ihRest =>
    simp only [spans, loops, doLoops, List.length_cons, List.length_append, ihInside, ihRest]
    omega
  | doLoop gap gap' inside gap'' condition rest ihInside ihRest =>
    simp only [spans, loops, doLoops, List.length_cons, List.length_append, ihInside, ihRest]
    omega

/-! ### How the reaches are nested -/

/-- If a program has a statement, then what is open in front of it ends in it. -/
theorem done_or_ends (program : Program language) (base out : Nat) :
    (∃ gap, program = done gap) ∨
      ((base < program.nextEnd base out ∧
          program.nextEnd base out ≤ base + program.render.length) ∧
        (base < program.lateEnd base out ∧
          program.lateEnd base out ≤ base + program.render.length) ∧
        ∀ ahead late, program.beyond ahead late = program.beyond 0 0) := by
  have hdo : "do".toList.length = 2 := rfl
  cases program with
  | done gap => exact Or.inl ⟨gap, rfl⟩
  | simple gap code rest =>
    refine Or.inr ?_
    simp only [lateEnd, nextEnd, render, List.length_append, List.length_cons]
    exact ⟨by omega, by omega, fun _ _ => rfl⟩
  | loop gap word hword header gap' inside rest =>
    have hnext : base < (loop gap word hword header gap' inside rest).nextEnd base out ∧
        (loop gap word hword header gap' inside rest).nextEnd base out ≤
          base + (loop gap word hword header gap' inside rest).render.length := by
      simp only [nextEnd, render, List.length_append, List.length_cons]
      omega
    refine Or.inr ⟨hnext, ?_, fun _ _ => rfl⟩
    rw [lateEnd]
    by_cases h : ';' ∈ header.text
    · have := Header.semicolonEnd_of_mem word h (base + gap.text.length)
        ((loop gap word hword header gap' inside rest).nextEnd base out)
      simp only [render, List.length_append, List.length_cons]
      omega
    · rwa [Header.semicolonEnd_of_notMem word h]
  | doLoop gap gap' inside gap'' condition rest =>
    refine Or.inr ?_
    simp only [lateEnd, nextEnd, render, List.length_append, List.length_cons]
    exact ⟨by omega, by omega, fun _ _ => rfl⟩

theorem base_le_ends (program : Program language) {base out : Nat}
    (hout : base + program.render.length ≤ out) :
    base ≤ program.nextEnd base out ∧ base ≤ program.lateEnd base out := by
  rcases program.done_or_ends base out with ⟨gap, rfl⟩ | ⟨hnext, hlate, -⟩
  · have hle : base ≤ out := by omega
    exact ⟨hle, hle⟩
  · omega

/-- How many of the conditions in front of a program reach over a place in it or behind it. -/
def into (base out ahead late place : Nat) (program : Program language) : Nat :=
  (if place < program.nextEnd base out then ahead else 0) +
    if place < program.lateEnd base out then late else 0

/-- How deep a place in a program or behind it is nested, with the reaches counted that go into the
program. -/
def cover (base out ahead late place : Nat) (program : Program language) : Nat :=
  program.into base out ahead late place + nesting (program.spans base out) place

theorem into_zero (program : Program language) (base out place : Nat) :
    program.into base out 0 0 place = 0 := by
  rw [into, ite_self, ite_self]

theorem cover_zero (program : Program language) (base out place : Nat) :
    program.cover base out 0 0 place = nesting (program.spans base out) place := by
  rw [cover, into_zero, Nat.zero_add]

theorem within_of_mem_spans (program : Program language) {base out : Nat} :
    ∀ span ∈ program.spans base out, base ≤ span.1 ∧ span.1 < base + program.render.length := by
  have hdo : "do".toList.length = 2 := rfl
  induction program generalizing base out with
  | done gap => simp [spans]
  | simple gap code rest ih =>
    intro span hs
    have := ih span hs
    simp only [render, List.length_append, List.length_cons]
    omega
  | loop gap word hword header gap' inside rest ihInside ihRest =>
    simp only [spans, render, List.length_append, List.length_cons]
    refine List.forall_mem_cons.mpr ⟨by dsimp only; omega, List.forall_mem_append.mpr ⟨?_, ?_⟩⟩
    · intro span hs
      have := ihInside span hs
      omega
    · intro span hs
      have := ihRest span hs
      omega
  | doLoop gap gap' inside gap'' condition rest ihInside ihRest =>
    have hpos := condition.length_render_pos "while"
    simp only [spans, render, List.length_append, List.length_cons]
    refine List.forall_mem_cons.mpr ⟨by dsimp only; omega, List.forall_mem_append.mpr ⟨?_,
      List.forall_mem_cons.mpr ⟨by dsimp only; omega, ?_⟩⟩⟩
    · intro span hs
      have := ihInside span hs
      omega
    · intro span hs
      have := ihRest span hs
      omega

theorem nesting_ahead (program : Program language) {base place : Nat} (hp : place ≤ base)
    (out : Nat) : nesting (program.spans base out) place = 1 := by
  refine nesting_eq_one fun span hs => Or.inl ?_
  have := program.within_of_mem_spans span hs
  omega

theorem cover_simple {gap : Gap} {code : Simple language} {rest : Program language}
    {base place : Nat} (hp : base + gap.text.length + code.text.length + 1 ≤ place)
    (out ahead late : Nat) :
    (simple gap code rest).cover base out ahead late place =
      rest.cover (base + gap.text.length + code.text.length + 1) out 0 0 place := by
  rw [cover, into, lateEnd, nextEnd, if_neg (by omega), if_neg (by omega), cover_zero, spans]
  exact Nat.zero_add _

/-! The places of a loop: its header starts at `start`, what is in its block at `first`, and what
is behind that at `stop`. -/

section

variable {gap gap' : Gap} {word : String} {hword : word ∈ loopWords} {header : Header language}
  {inside rest : Program language} {base start first stop place : Nat}
  (hstart : start = base + gap.text.length)
  (hfirst : first = start + (header.render word).length + gap'.text.length + 1)
  (hstop : stop = first + inside.render.length + 1)

include hstart hfirst hstop

theorem cover_loop (place out ahead late : Nat) :
    (loop gap word hword header gap' inside rest).cover base out ahead late place + 1 =
      (if place < stop then ahead else 0) +
        (if place < header.semicolonEnd word start stop then late else 0) +
        nesting (inside.spans first (rest.lateEnd stop out)) place +
        nesting (rest.spans stop out) place + if start < place ∧ place < stop then 1 else 0 := by
  have hnesting := nesting_cons_append start stop (inside.spans first (rest.lateEnd stop out))
    (rest.spans stop out) place
  have hspans : (loop gap word hword header gap' inside rest).spans base out =
      (start, stop) :: (inside.spans first (rest.lateEnd stop out) ++ rest.spans stop out) := by
    rw [hstop, hfirst, hstart]
    rfl
  rw [cover, Nat.add_assoc, hspans, hnesting]
  rw [into, lateEnd, nextEnd, ← hstart, ← hfirst, ← hstop]
  omega

theorem cover_loop_start (out ahead late : Nat) :
    (loop gap word hword header gap' inside rest).cover base out ahead late start =
      ahead + late + 1 := by
  have hpos := header.length_render_pos word
  have hcover : (loop gap word hword header gap' inside rest).cover base out ahead late start + 1 =
      _ := cover_loop hstart hfirst hstop start out ahead late
  rw [if_pos (by omega), if_pos (header.lt_semicolonEnd word (by omega)), if_neg (by omega),
    inside.nesting_ahead (by omega), rest.nesting_ahead (by omega)] at hcover
  omega

theorem cover_loop_inside (hp : first ≤ place) (hp' : place < stop) (out ahead late : Nat) :
    (loop gap word hword header gap' inside rest).cover base out ahead late place =
      ahead + (if ';' ∈ header.text then 0 else late) + 1 +
        inside.cover first (rest.lateEnd stop out) 0 0 place := by
  have hpos := header.length_render_pos word
  have hcover : (loop gap word hword header gap' inside rest).cover base out ahead late place + 1 =
      _ := cover_loop hstart hfirst hstop place out ahead late
  rw [if_pos hp', header.open_behind word (by omega), if_pos hp',
    if_pos (show start < place ∧ place < stop by omega), rest.nesting_ahead (by omega)] at hcover
  rw [cover_zero]
  omega

theorem cover_loop_behind (hp : stop ≤ place) {out : Nat}
    (hinside : nesting (inside.spans first (rest.lateEnd stop out)) place =
      1 + if place < rest.lateEnd stop out then inside.beyond 0 0 else 0) (ahead late : Nat) :
    (loop gap word hword header gap' inside rest).cover base out ahead late place =
      rest.cover stop out 0 (inside.beyond 0 0) place := by
  have hcover : (loop gap word hword header gap' inside rest).cover base out ahead late place + 1 =
      _ := cover_loop hstart hfirst hstop place out ahead late
  have hrest : rest.cover stop out 0 (inside.beyond 0 0) place =
      (if place < rest.lateEnd stop out then inside.beyond 0 0 else 0) +
        nesting (rest.spans stop out) place := by
    rw [cover, into, ite_self, Nat.zero_add]
  rw [if_neg (by omega), header.open_behind word (by omega), if_neg (by omega), if_neg (by omega),
    hinside] at hcover
  omega

end

section

variable {gap gap' gap'' : Gap} {inside : Program language} {condition : Header language}
  {rest : Program language} {base start first stop again next place : Nat}
  (hstart : start = base + gap.text.length) (hfirst : first = start + 2 + gap'.text.length + 1)
  (hstop : stop = first + inside.render.length + 1) (hagain : again = stop + gap''.text.length)
  (hnext : next = again + (condition.render "while").length)

include hstart hfirst hstop hagain hnext

theorem cover_doLoop (place out ahead late : Nat) :
    (doLoop gap gap' inside gap'' condition rest).cover base out ahead late place + 1 =
      (if place < stop then ahead else 0) + (if place < stop then late else 0) +
        nesting (inside.spans first
          (condition.semicolonEnd "while" again (rest.lateEnd next out))) place +
        nesting (rest.spans next out) place +
        (if again < place ∧ place < rest.nextEnd next out then 1 else 0) +
        if start < place ∧ place < stop then 1 else 0 := by
  have hnesting := nesting_cons_append start stop
    (inside.spans first (condition.semicolonEnd "while" again (rest.lateEnd next out)))
    ((again, rest.nextEnd next out) :: rest.spans next out) place
  rw [nesting_cons again] at hnesting
  have hspans : (doLoop gap gap' inside gap'' condition rest).spans base out =
      (start, stop) :: (inside.spans first (condition.semicolonEnd "while" again
        (rest.lateEnd next out)) ++ (again, rest.nextEnd next out) :: rest.spans next out) := by
    rw [hnext, hagain, hstop, hfirst, hstart]
    rfl
  rw [cover, Nat.add_assoc, hspans, hnesting]
  rw [into, lateEnd, nextEnd, ← hstart, ← hfirst, ← hstop]
  omega

theorem cover_doLoop_start (out ahead late : Nat) :
    (doLoop gap gap' inside gap'' condition rest).cover base out ahead late start =
      ahead + late + 1 := by
  have hcover :
      (doLoop gap gap' inside gap'' condition rest).cover base out ahead late start + 1 = _ :=
    cover_doLoop hstart hfirst hstop hagain hnext start out ahead late
  rw [if_pos (by omega), if_pos (by omega), if_neg (by omega), if_neg (by omega),
    inside.nesting_ahead (by omega), rest.nesting_ahead (by omega)] at hcover
  omega

theorem cover_doLoop_inside (hp : first ≤ place) (hp' : place < stop) (out ahead late : Nat) :
    (doLoop gap gap' inside gap'' condition rest).cover base out ahead late place =
      ahead + late + 1 + inside.cover first
        (condition.semicolonEnd "while" again (rest.lateEnd next out)) 0 0 place := by
  have hcover :
      (doLoop gap gap' inside gap'' condition rest).cover base out ahead late place + 1 = _ :=
    cover_doLoop hstart hfirst hstop hagain hnext place out ahead late
  rw [if_pos hp', if_pos hp', if_neg (by omega), if_pos ⟨by omega, hp'⟩,
    rest.nesting_ahead (by omega)] at hcover
  rw [cover_zero]
  omega

/-- At the condition what is open at the end of the block is counted. -/
theorem cover_doLoop_again {out : Nat} (hout : next ≤ rest.lateEnd next out)
    (hinside : nesting (inside.spans first
        (condition.semicolonEnd "while" again (rest.lateEnd next out))) again =
      1 + if again < condition.semicolonEnd "while" again (rest.lateEnd next out) then
        inside.beyond 0 0 else 0) (ahead late : Nat) :
    (doLoop gap gap' inside gap'' condition rest).cover base out ahead late again =
      inside.beyond 0 0 + 1 := by
  have hpos := condition.length_render_pos "while"
  have hcover :
      (doLoop gap gap' inside gap'' condition rest).cover base out ahead late again + 1 = _ :=
    cover_doLoop hstart hfirst hstop hagain hnext again out ahead late
  rw [if_neg (by omega), if_neg (by omega), if_neg (by omega), if_neg (by omega),
    rest.nesting_ahead (by omega), hinside,
    if_pos (condition.lt_semicolonEnd "while" (by omega))] at hcover
  omega

theorem cover_doLoop_behind (hp : next ≤ place) {out : Nat}
    (hinside : nesting (inside.spans first
        (condition.semicolonEnd "while" again (rest.lateEnd next out))) place =
      1 + if place < condition.semicolonEnd "while" again (rest.lateEnd next out) then
        inside.beyond 0 0 else 0) (ahead late : Nat) :
    (doLoop gap gap' inside gap'' condition rest).cover base out ahead late place =
      rest.cover next out 1 (if ';' ∈ condition.text then 0 else inside.beyond 0 0) place := by
  have hpos := condition.length_render_pos "while"
  have hcover :
      (doLoop gap gap' inside gap'' condition rest).cover base out ahead late place + 1 = _ :=
    cover_doLoop hstart hfirst hstop hagain hnext place out ahead late
  have hlisted : (if again < place ∧ place < rest.nextEnd next out then 1 else 0) =
      if place < rest.nextEnd next out then 1 else 0 :=
    if_congr (and_iff_right (by omega)) rfl rfl
  have hrest : rest.cover next out 1 (if ';' ∈ condition.text then 0 else inside.beyond 0 0) place =
      (if place < rest.nextEnd next out then 1 else 0) +
        (if place < rest.lateEnd next out then
          (if ';' ∈ condition.text then 0 else inside.beyond 0 0) else 0) +
        nesting (rest.spans next out) place := by
    rw [cover, into]
  rw [if_neg (by omega), if_neg (by omega), hlisted,
    if_neg (show ¬ (start < place ∧ place < stop) by omega), hinside,
    condition.open_behind "while" (by omega)] at hcover
  omega

end

/-- **What is open behind a program** is what is open at its end. -/
theorem cover_behind (program : Program language) {base place : Nat} (out ahead late : Nat)
    (hp : base + program.render.length ≤ place) :
    program.cover base out ahead late place =
      1 + if place < out then program.beyond ahead late else 0 := by
  have hdo : "do".toList.length = 2 := rfl
  induction program generalizing base out ahead late with
  | done gap =>
    have hnesting : nesting [] place = 1 := rfl
    rw [cover, into, lateEnd, nextEnd, spans, beyond, hnesting]
    split <;> omega
  | simple gap code rest ih =>
    simp only [render, List.length_append, List.length_cons] at hp
    rw [cover_simple (by omega), ih out 0 0 (by omega), beyond]
  | loop gap word hword header gap' inside rest ihInside ihRest =>
    simp only [render, List.length_append, List.length_cons] at hp
    rw [cover_loop_behind rfl rfl rfl (by omega), ihRest _ _ _ (by omega), beyond]
    rw [← cover_zero]
    exact ihInside _ 0 0 (by omega)
  | doLoop gap gap' inside gap'' condition rest ihInside ihRest =>
    simp only [render, List.length_append, List.length_cons] at hp
    rw [cover_doLoop_behind rfl rfl rfl rfl rfl (by omega), ihRest _ _ _ (by omega), beyond]
    rw [← cover_zero]
    exact ihInside _ 0 0 (by omega)

theorem nesting_behind (program : Program language) {base place : Nat} (out : Nat)
    (hp : base + program.render.length ≤ place) :
    nesting (program.spans base out) place =
      1 + if place < out then program.beyond 0 0 else 0 := by
  rw [← cover_zero]
  exact program.cover_behind out 0 0 hp

/-- **How deep the loops and the conditions of a program are nested.** -/
theorem forall_cover_le_iff (program : Program language) {base out : Nat}
    (hout : base + program.render.length ≤ out) (outer ahead late bound : Nat) :
    (∀ span ∈ program.spans base out,
        outer + program.cover base out ahead late span.1 ≤ bound) ↔
      program.found outer ahead late ≤ bound := by
  have hdo : "do".toList.length = 2 := rfl
  induction program generalizing base out outer ahead late with
  | done gap => simp [spans, found]
  | simple gap code rest ih =>
    simp only [render, List.length_append, List.length_cons] at hout
    have hrest := ih (show base + gap.text.length + code.text.length + 1 + rest.render.length ≤ out
      by omega) outer 0 0
    refine Iff.trans (forall₂_congr fun span hs => ?_) hrest
    rw [cover_simple (rest.within_of_mem_spans span hs).1]
  | loop gap word hword header gap' inside rest ihInside ihRest =>
    simp only [render, List.length_append, List.length_cons] at hout
    obtain ⟨start, hstart⟩ : ∃ n, n = base + gap.text.length := ⟨_, rfl⟩
    obtain ⟨first, hfirst⟩ : ∃ n, n = start + (header.render word).length + gap'.text.length + 1 :=
      ⟨_, rfl⟩
    obtain ⟨stop, hstop⟩ : ∃ n, n = first + inside.render.length + 1 := ⟨_, rfl⟩
    obtain ⟨-, hlate⟩ := rest.base_le_ends (show stop + rest.render.length ≤ out by omega)
    rw [spans, found, max_le_iff, max_le_iff, List.forall_mem_cons, List.forall_mem_append,
      ← hstart, ← hfirst, ← hstop]
    refine and_congr ?_ (and_congr ?_ ?_)
    · rw [cover_loop_start hstart hfirst hstop, ← Nat.add_assoc, ← Nat.add_assoc]
    · have hinside := ihInside (show first + inside.render.length ≤ rest.lateEnd stop out by omega)
        (outer + ahead + (if ';' ∈ header.text then 0 else late) + 1) 0 0
      refine Iff.trans (forall₂_congr fun span hs => ?_) hinside
      have hwithin := inside.within_of_mem_spans span hs
      rw [cover_loop_inside hstart hfirst hstop hwithin.1 (by omega)]
      omega
    · have hrest := ihRest (show stop + rest.render.length ≤ out by omega) outer 0
        (inside.beyond 0 0)
      refine Iff.trans (forall₂_congr fun span hs => ?_) hrest
      have hwithin := rest.within_of_mem_spans span hs
      rw [cover_loop_behind hstart hfirst hstop hwithin.1 (inside.nesting_behind _ (by omega))]
  | doLoop gap gap' inside gap'' condition rest ihInside ihRest =>
    simp only [render, List.length_append, List.length_cons] at hout
    obtain ⟨start, hstart⟩ : ∃ n, n = base + gap.text.length := ⟨_, rfl⟩
    obtain ⟨first, hfirst⟩ : ∃ n, n = start + 2 + gap'.text.length + 1 := ⟨_, rfl⟩
    obtain ⟨stop, hstop⟩ : ∃ n, n = first + inside.render.length + 1 := ⟨_, rfl⟩
    obtain ⟨again, hagain⟩ : ∃ n, n = stop + gap''.text.length := ⟨_, rfl⟩
    obtain ⟨next, hnext⟩ : ∃ n, n = again + (condition.render "while").length := ⟨_, rfl⟩
    obtain ⟨-, hlate⟩ := rest.base_le_ends (show next + rest.render.length ≤ out by omega)
    have hbehind : again < condition.semicolonEnd "while" again (rest.lateEnd next out) := by
      have := condition.length_render_pos "while"
      exact condition.lt_semicolonEnd "while" (by omega)
    rw [spans, found, max_le_iff, max_le_iff, max_le_iff, List.forall_mem_cons,
      List.forall_mem_append, List.forall_mem_cons, ← hstart, ← hfirst, ← hstop, ← hagain, ← hnext]
    refine and_congr ?_ (and_congr ?_ (and_congr ?_ ?_))
    · rw [cover_doLoop_start hstart hfirst hstop hagain hnext, ← Nat.add_assoc, ← Nat.add_assoc]
    · have hinside := ihInside (show first + inside.render.length ≤
        condition.semicolonEnd "while" again (rest.lateEnd next out) by omega)
        (outer + ahead + late + 1) 0 0
      refine Iff.trans (forall₂_congr fun span hs => ?_) hinside
      have hwithin := inside.within_of_mem_spans span hs
      rw [cover_doLoop_inside hstart hfirst hstop hagain hnext hwithin.1 (by omega)]
      omega
    · rw [cover_doLoop_again hstart hfirst hstop hagain hnext hlate
        (inside.nesting_behind _ (by omega)), ← Nat.add_assoc]
    · have hrest := ihRest (show next + rest.render.length ≤ out by omega) outer 1
        (if ';' ∈ condition.text then 0 else inside.beyond 0 0)
      refine Iff.trans (forall₂_congr fun span hs => ?_) hrest
      have hwithin := rest.within_of_mem_spans span hs
      rw [cover_doLoop_behind hstart hfirst hstop hagain hnext hwithin.1
        (inside.nesting_behind _ (by omega))]

/-! ### Programs with a statement behind each condition -/

/-- Each condition has a simple statement behind it, such as its semicolon. -/
def Closed : Program language → Prop
  | done _ => True
  | simple _ _ rest => rest.Closed
  | loop _ _ _ _ _ inside rest => inside.Closed ∧ rest.Closed
  | doLoop _ _ inside _ _ rest =>
    inside.Closed ∧ (∃ gap code more, rest = simple gap code more) ∧ rest.Closed

theorem add_depth_le_found (program : Program language) (outer ahead late : Nat)
    (hd : 0 < program.depth) : outer + program.depth ≤ program.found outer ahead late := by
  induction program generalizing outer ahead late with
  | done gap => exact absurd hd (Nat.lt_irrefl 0)
  | simple gap code rest ih => exact ih outer 0 0 hd
  | loop gap word hword header gap' inside rest ihInside ihRest =>
    have hinside := ihInside (outer + ahead + (if ';' ∈ header.text then 0 else late) + 1) 0 0
    have hrest := ihRest outer 0 (inside.beyond 0 0)
    rw [depth, found]
    omega
  | doLoop gap gap' inside gap'' condition rest ihInside ihRest =>
    have hinside := ihInside (outer + ahead + late + 1) 0 0
    have hrest := ihRest outer 1 (if ';' ∈ condition.text then 0 else inside.beyond 0 0)
    rw [depth, found]
    omega

theorem beyond_of_closed {program : Program language} (h : program.Closed) :
    program.beyond 0 0 = 0 := by
  induction program with
  | done gap => rfl
  | simple gap code rest ih => exact ih h
  | loop gap word hword header gap' inside rest ihInside ihRest =>
    rw [beyond, ihInside h.1]
    exact ihRest h.2
  | doLoop gap gap' inside gap'' condition rest ihInside ihRest =>
    obtain ⟨hinside, ⟨_, _, _, rfl⟩, hrest⟩ := h
    exact ihRest hrest

/-- **The nesting of a program whose conditions are closed.** -/
theorem found_of_closed {program : Program language} (h : program.Closed) (outer : Nat) :
    program.found outer 0 0 = if program.depth = 0 then 0 else outer + program.depth := by
  induction program generalizing outer with
  | done gap => rfl
  | simple gap code rest ih => exact ih h outer
  | loop gap word hword header gap' inside rest ihInside ihRest =>
    rw [found, beyond_of_closed h.1, ite_self, ihInside h.1, ihRest h.2, depth]
    split_ifs <;> omega
  | doLoop gap gap' inside gap'' condition rest ihInside ihRest =>
    obtain ⟨hinside, ⟨gap₁, code, more, rfl⟩, hrest⟩ := h
    -- the statement behind the condition ends what is open
    have hfound : (simple gap₁ code more).found outer 1 0 =
        if more.depth = 0 then 0 else outer + more.depth := ihRest hrest outer
    have hdepth : (doLoop gap gap' inside gap'' condition (simple gap₁ code more)).depth =
        max (inside.depth + 1) more.depth := rfl
    rw [found, beyond_of_closed hinside, ite_self, hfound, ihInside hinside, hdepth]
    split_ifs <;> omega

end Program

end Braced

end Snippet
