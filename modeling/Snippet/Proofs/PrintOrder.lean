import Snippet.Finding
import Snippet.Proofs.Boundaries
import Snippet.Proofs.PrintCalls

/-!
# The order of the print calls

Each routine is searched for by a pattern of its own, and the calls are put in order afterwards.
Two facts make the order a strict one: the matches of one pattern start at increasing positions
(`pairwise_start_matchesIn`), and no two of the patterns describe pieces that start at the same
place (`PrintCall.callPattern_injective`).

The mark of printing is written down once more for each language. Wherever one of the routines of
the language is found, that mark is found as well (`PrintCall.fitsAt_printMark`), so a snippet
with a print call has it.

* `pairwise_printCallsByRoutine`: no two calls start at one position.
* `hasPrint_of_printCalls`: a snippet with a print call has the mark of printing.
* `printCalls_ordered`: **the calls are listed in strictly increasing order**, and what a literal
  output is read off is well formed.
-/

namespace Snippet

open Pattern Place Routine

/-! ### Sorting by distinct positions -/

/-- **What has distinct positions is sorted strictly.** -/
theorem pairwise_lt_mergeSort {α : Type} {found : List (Nat × α)}
    (h : found.Pairwise fun a b => a.1 ≠ b.1) :
    (found.mergeSort fun a b => a.1 ≤ b.1).Pairwise fun a b => a.1 < b.1 := by
  have hle : (found.mergeSort fun a b => a.1 ≤ b.1).Pairwise fun a b =>
      decide (a.1 ≤ b.1) = true := by
    refine List.pairwise_mergeSort ?_ ?_ found
    · intro a b c hab hbc
      rw [decide_eq_true_eq] at hab hbc ⊢
      exact hab.trans hbc
    · intro a b
      rw [Bool.or_eq_true, decide_eq_true_eq, decide_eq_true_eq]
      exact Nat.le_total a.1 b.1
  have hne : (found.mergeSort fun a b => a.1 ≤ b.1).Pairwise fun a b => a.1 ≠ b.1 :=
    ((List.mergeSort_perm found _).pairwise_iff fun hab => hab.symm).mpr h
  exact hle.imp₂ (fun a b hab hn => Nat.lt_of_le_of_ne (of_decide_eq_true hab) hn) hne

namespace Pattern

/-- A described piece starts at an offset of a text. -/
def StartsAt (pattern : Pattern) (text : Text) (offset : Nat) : Prop :=
  ∃ left right, text = left ++ right ∧ left.length = offset ∧ pattern.FitsAt left right

theorem startsAt_of_mem_matchesIn {pattern : Pattern} {text : Text} {found : Match}
    (h : found ∈ pattern.matchesIn text) : pattern.StartsAt text found.start.offset := by
  obtain ⟨left, piece, right, ht, hs, -, hf⟩ := fits_of_mem_matchesIn h
  exact ⟨left, piece ++ right, ht, by rw [hs, offset_between], piece, right, _, rfl, hf⟩

end Pattern

namespace PrintCall

variable {routine routine' : Routine} {left text : Text}

/-! ### One routine at a place -/

/-- What the calls of a routine are searched for by. -/
def pattern : Routine → Pattern
  | .stream => streamPattern
  | routine => callPattern routine

theorem pattern_of_ne (h : routine ≠ .stream) : pattern routine = callPattern routine := by
  cases routine <;> first | rfl | exact absurd rfl h

theorem callPattern_injective (h : (callPattern routine).FitsAt left text)
    (h' : (callPattern routine').FitsAt left text) : routine = routine' := by
  obtain ⟨_, right, _, rfl, hf⟩ := h
  obtain ⟨_, right', _, hr, hf'⟩ := h'
  obtain ⟨-, ⟨gap, hg, rfl⟩, -⟩ := fits_callPattern.mp hf
  obtain ⟨-, ⟨gap', hg', rfl⟩, -⟩ := fits_callPattern.mp hf'
  simp only [List.append_assoc, List.singleton_append] at hr
  have hi := Text.append_inj_of_head (isNamePart_of_mem_name routine)
    (isNamePart_of_mem_name routine') (any_head?_gap hg right) (any_head?_gap hg' right') hr
  exact name_injective hi.1

theorem exists_mayStart {described : Pattern} (hw : 0 < described.width)
    (h : described.FitsAt left text) : ∃ c, text.head? = some c ∧ described.mayStart c = true := by
  obtain ⟨piece, right, _, rfl, hf⟩ := h
  obtain ⟨c, piece, rfl⟩ := List.exists_cons_of_ne_nil (ne_nil_of_fits hw hf)
  exact ⟨c, rfl, mayStart_of_fits hf⟩

theorem not_fitsAt_streamPattern (hr : routine = .printf)
    (h : (callPattern routine).FitsAt left text) : ¬ streamPattern.FitsAt left text := by
  intro h'
  subst hr
  obtain ⟨c, hc, hm⟩ := exists_mayStart (by decide) h'
  obtain ⟨_, right, _, rfl, hf⟩ := h
  obtain ⟨-, ⟨gap, -, rfl⟩, -⟩ := fits_callPattern.mp hf
  obtain rfl : 'p' = c := Option.some.inj hc
  exact absurd hm (by decide)

/-! ### From a call to its place -/

variable {code mask : Text} {found : Nat × PrintCall}

theorem startsAt_of_mem_ofRoutine (h : found ∈ ofRoutine code mask routine) :
    found.2.routine = routine ∧ (callPattern routine).StartsAt mask found.1 := by
  obtain ⟨found', hm, hf⟩ := List.mem_filterMap.mp h
  obtain ⟨close, -, rfl⟩ := Option.map_eq_some_iff.mp hf
  exact ⟨rfl, startsAt_of_mem_matchesIn hm⟩

theorem startsAt_of_mem_ofStream (h : found ∈ ofStream code mask) :
    found.2.routine = .stream ∧ streamPattern.StartsAt mask found.1 := by
  obtain ⟨found', hm, rfl⟩ := List.mem_map.mp h
  exact ⟨rfl, startsAt_of_mem_matchesIn hm⟩

theorem pairwise_ofRoutine (code mask : Text) (routine : Routine) :
    (ofRoutine code mask routine).Pairwise fun a b => a.1 < b.1 := by
  rw [ofRoutine, List.pairwise_filterMap]
  refine (pairwise_start_matchesIn _ mask).imp ?_
  intro found later hlt a ha b hb
  obtain ⟨_, -, rfl⟩ := Option.map_eq_some_iff.mp ha
  obtain ⟨_, -, rfl⟩ := Option.map_eq_some_iff.mp hb
  exact hlt

theorem pairwise_ofStream (code mask : Text) :
    (ofStream code mask).Pairwise fun a b => a.1 < b.1 := by
  rw [ofStream, List.pairwise_map]
  exact pairwise_start_matchesIn _ mask

/-! ### The arguments of a call -/

theorem pieces_trimmed {ranges : List (Nat × Nat)} {piece : Text} (h : piece ∈ pieces code ranges) :
    piece ≠ [] ∧ Text.trim piece = piece := by
  obtain ⟨hm, hn⟩ := List.mem_filter.mp h
  obtain ⟨_, -, rfl⟩ := List.mem_map.mp hm
  refine ⟨?_, Text.trim_trim _⟩
  rintro he
  rw [he] at hn
  cases hn

/-- **The arguments of a call are trimmed and not empty.** -/
theorem arguments_of_mem_ofRoutine (h : found ∈ ofRoutine code mask routine) :
    ∀ argument ∈ found.2.arguments, argument ≠ [] ∧ Text.trim argument = argument := by
  obtain ⟨_, -, hf⟩ := List.mem_filterMap.mp h
  obtain ⟨_, -, rfl⟩ := Option.map_eq_some_iff.mp hf
  exact fun argument hm => pieces_trimmed hm

theorem arguments_of_mem_ofStream (h : found ∈ ofStream code mask) :
    ∀ argument ∈ found.2.arguments, argument ≠ [] ∧ Text.trim argument = argument := by
  obtain ⟨_, -, rfl⟩ := List.mem_map.mp h
  exact fun argument hm => pieces_trimmed (List.mem_of_mem_filter hm)

/-! ### The mark of printing -/

theorem exists_of_fitsAt_callPattern (h : (callPattern routine).FitsAt left text) :
    (between left text).isEdge = true ∧ ∃ gap right, (∀ d ∈ gap, isBlank d = true) ∧
      text = routine.name.toList ++ (gap ++ ['(']) ++ right := by
  obtain ⟨_, right, _, rfl, hf⟩ := h
  obtain ⟨hl, ⟨gap, hg, rfl⟩, -⟩ := fits_callPattern.mp hf
  refine ⟨isEdge_between_of_left ?_ ?_, gap, right, hg, rfl⟩
  · cases hlast : left.getLast? with
    | none => rfl
    | some c =>
      rw [hlast, Option.any_some, isNamePart, Bool.or_eq_false_iff] at hl
      exact hl.1
  · rw [List.append_assoc, List.head?_append_of_ne_nil _ (by cases routine <;> decide)]
    exact head?_name routine

theorem fitsAt_callOf (h : (callPattern routine).FitsAt left text) :
    (Language.callOf routine.name).FitsAt left text := by
  obtain ⟨hedge, gap, right, hg, rfl⟩ := exists_of_fitsAt_callPattern h
  rw [List.append_assoc] at hedge
  refine ⟨_, right, [], rfl, routine.name.toList, gap ++ ['('], [], rfl, ?_,
    fits_next.mpr ⟨gap, hg, rfl, rfl⟩⟩
  exact ⟨[], routine.name.toList, [], rfl, ⟨rfl, rfl, hedge⟩, fits_lit.mpr ⟨rfl, rfl⟩⟩

/-- Where the mark names several routines by what their names open with, it leaves room for the
rest of the name. -/
theorem fitsAt_stem {stem : String} {ending : Pattern} {tail : Text}
    (hn : routine.name.toList = stem.toList ++ tail)
    (ht : ∀ left right, ending.Fits left tail right [] [])
    (h : (callPattern routine).FitsAt left text) :
    (edge ++ lit stem ++ ending ++ next '(').FitsAt left text := by
  obtain ⟨hedge, gap, right, hg, rfl⟩ := exists_of_fitsAt_callPattern h
  rw [hn, List.append_assoc, List.append_assoc] at hedge
  rw [hn]
  refine ⟨_, right, [], rfl, stem.toList ++ tail, gap ++ ['('], [], rfl, ?_,
    fits_next.mpr ⟨gap, hg, rfl, rfl⟩⟩
  refine ⟨stem.toList, tail, [], rfl, ?_, ht _ _⟩
  exact ⟨[], stem.toList, [], rfl, ⟨rfl, rfl, hedge⟩, fits_lit.mpr ⟨rfl, rfl⟩⟩

/-- **The mark of printing is found wherever a routine of the language is found.** -/
theorem fitsAt_printMark {language : Language} (hr : routine ∈ language.routines)
    (h : (callPattern routine).FitsAt left text) : language.printMark.FitsAt left text := by
  have hcall := fitsAt_callOf h
  cases language with
  | python =>
    obtain rfl : routine = .print := List.mem_singleton.mp hr
    exact hcall
  | javascript =>
    obtain rfl : routine = .consoleLog := List.mem_singleton.mp hr
    exact hcall
  | cpp =>
    obtain rfl : routine = .printf := List.mem_singleton.mp hr
    exact fitsAt_either.mpr (Or.inr hcall)
  | c =>
    rcases List.mem_pair.mp hr with rfl | rfl
    · exact fitsAt_either.mpr (Or.inl hcall)
    · exact fitsAt_either.mpr (Or.inr hcall)
  | java =>
    have hnames : routine = .systemPrintln ∨ routine = .systemPrintf ∨ routine = .systemPrint := by
      simpa [Language.routines] using hr
    show (edge ++ lit "System.out.print" ++ optional (firstOf [lit "ln", lit "f"]) ++
      next '(').FitsAt left text
    rcases hnames with rfl | rfl | rfl
    · have hn : Routine.systemPrintln.name.toList = "System.out.print".toList ++ "ln".toList := by
        decide
      refine fitsAt_stem hn (fun left right => Or.inl (fits_firstOf.mpr ?_)) h
      exact ⟨lit "ln", by simp, fits_lit.mpr ⟨rfl, rfl⟩⟩
    · have hn : Routine.systemPrintf.name.toList = "System.out.print".toList ++ "f".toList := by
        decide
      refine fitsAt_stem hn (fun left right => Or.inl (fits_firstOf.mpr ?_)) h
      exact ⟨lit "f", by simp, fits_lit.mpr ⟨rfl, rfl⟩⟩
    · have hn : Routine.systemPrint.name.toList = "System.out.print".toList ++ [] := by decide
      exact fitsAt_stem hn (fun left right => Or.inr ⟨rfl, rfl⟩) h

/-- An insertion into the stream has the mark of one, perhaps behind the name of its space. -/
theorem exists_fitsAt_cout (h : streamPattern.FitsAt left text) :
    ∃ front rest, text = front ++ rest ∧ Language.cpp.printMark.FitsAt (left ++ front) rest := by
  obtain ⟨_, right, _, rfl, _, _, _, rfl,
    ⟨_, gap, _, rfl, ⟨_, _, _, rfl, ⟨space, _, _, rfl, -, rfl, -, he⟩, hcout⟩, hgap, -⟩,
    hshifts⟩ := h
  obtain ⟨rfl, -⟩ := fits_lit.mp hcout
  obtain ⟨rfl, -⟩ := fits_lit.mp hshifts
  simp only [List.append_nil, List.append_assoc] at he ⊢
  refine ⟨space, _, rfl, fitsAt_either.mpr (Or.inl ⟨"cout".toList ++ gap ++ "<<".toList, right, [],
    by simp only [List.append_assoc], "cout".toList ++ gap, "<<".toList, [], rfl, ?_,
    fits_lit.mpr ⟨rfl, rfl⟩⟩)⟩
  refine ⟨"cout".toList, gap, [], rfl, ?_, hgap, rfl⟩
  exact ⟨[], "cout".toList, [], rfl, ⟨rfl, rfl, he⟩, fits_lit.mpr ⟨rfl, rfl⟩⟩

end PrintCall

/-! ### All routines together -/

variable {language : Language} {code : Text} {found : Nat × PrintCall}

theorem mem_printCallsByRoutine (h : found ∈ language.printCallsByRoutine code) :
    (∃ routine ∈ language.routines,
      found ∈ PrintCall.ofRoutine code (language.mask code) routine) ∨
    language = .cpp ∧ found ∈ PrintCall.ofStream code (language.mask code) := by
  rcases List.mem_append.mp h with h | h
  · exact Or.inl (List.mem_flatMap.mp h)
  · split at h
    next hl => exact Or.inr ⟨hl, h⟩
    next => cases h

theorem stream_notMem_routines (language : Language) : Routine.stream ∉ language.routines := by
  cases language <;> decide

/-- **A call that is listed starts where its routine is found.** -/
theorem startsAt_of_mem_printCallsByRoutine (h : found ∈ language.printCallsByRoutine code) :
    (PrintCall.pattern found.2.routine).StartsAt (language.mask code) found.1 := by
  rcases mem_printCallsByRoutine h with ⟨routine, hr, hm⟩ | ⟨-, hm⟩
  · obtain ⟨rfl, hs⟩ := PrintCall.startsAt_of_mem_ofRoutine hm
    rwa [PrintCall.pattern_of_ne fun he => stream_notMem_routines language (he ▸ hr)]
  · obtain ⟨he, hs⟩ := PrintCall.startsAt_of_mem_ofStream hm
    rwa [he]

/-- **No two calls start at one position.** -/
theorem pairwise_printCallsByRoutine (language : Language) (code : Text) :
    (language.printCallsByRoutine code).Pairwise fun a b => a.1 ≠ b.1 := by
  -- at one position, two pieces are described between the same two texts
  have same : ∀ {pattern pattern' : Pattern} {a b : Nat × PrintCall},
      pattern.StartsAt (language.mask code) a.1 → pattern'.StartsAt (language.mask code) b.1 →
      a.1 = b.1 → ∃ left text, pattern.FitsAt left text ∧ pattern'.FitsAt left text := by
    rintro pattern pattern' a b ⟨left, right, ht, hl, hf⟩ ⟨left', right', ht', hl', hf'⟩ hab
    obtain ⟨rfl, rfl⟩ := List.append_inj (ht.symm.trans ht') (by rw [hl, hl', hab])
    exact ⟨left, right, hf, hf'⟩
  refine List.pairwise_append.mpr ⟨List.pairwise_flatMap.mpr ⟨?_, ?_⟩, ?_, ?_⟩
  · intro routine _
    exact (PrintCall.pairwise_ofRoutine code _ routine).imp Nat.ne_of_lt
  · have hn : language.routines.Nodup := by cases language <;> decide
    refine hn.imp fun hne a ha b hb hab => hne ?_
    obtain ⟨left, text, hf, hf'⟩ := same (PrintCall.startsAt_of_mem_ofRoutine ha).2
      (PrintCall.startsAt_of_mem_ofRoutine hb).2 hab
    exact PrintCall.callPattern_injective hf hf'
  · split
    · exact (PrintCall.pairwise_ofStream code _).imp Nat.ne_of_lt
    · exact List.Pairwise.nil
  · intro a ha b hb hab
    split at hb
    next hl =>
      obtain ⟨routine, hr, ha⟩ := List.mem_flatMap.mp ha
      rw [hl] at hr
      obtain ⟨left, text, hf, hf'⟩ := same (PrintCall.startsAt_of_mem_ofRoutine ha).2
        (PrintCall.startsAt_of_mem_ofStream hb).2 hab
      exact PrintCall.not_fitsAt_streamPattern (List.mem_singleton.mp hr) hf hf'
    next => cases hb

theorem pairwise_mergeSort_printCallsByRoutine (language : Language) (code : Text) :
    ((language.printCallsByRoutine code).mergeSort fun a b => a.1 ≤ b.1).Pairwise
      fun a b => a.1 < b.1 :=
  pairwise_lt_mergeSort (pairwise_printCallsByRoutine language code)

theorem mem_printCalls {call : PrintCall} :
    call ∈ language.printCalls code ↔
      ∃ offset, (offset, call) ∈ language.printCallsByRoutine code := by
  rw [Language.printCalls, List.mem_map]
  constructor
  · rintro ⟨⟨offset, _⟩, hm, rfl⟩
    exact ⟨offset, List.mem_mergeSort.mp hm⟩
  · rintro ⟨offset, hm⟩
    exact ⟨(offset, call), List.mem_mergeSort.mpr hm, rfl⟩

theorem eq_of_mem_printCallsByRoutine {offset : Nat} {call call' : PrintCall}
    (h : (offset, call) ∈ language.printCallsByRoutine code)
    (h' : (offset, call') ∈ language.printCallsByRoutine code) : call = call' := by
  have hn : ((language.printCallsByRoutine code).map (·.1)).Nodup := by
    rw [List.Nodup, List.pairwise_map]
    exact pairwise_printCallsByRoutine language code
  exact (Prod.mk.inj (List.inj_on_of_nodup_map hn h h' rfl)).2

theorem head?_printCalls {call : PrintCall} (h : (0, call) ∈ language.printCallsByRoutine code) :
    (language.printCalls code).head? = some call := by
  have hp := pairwise_mergeSort_printCallsByRoutine language code
  have hm : (0, call) ∈ (language.printCallsByRoutine code).mergeSort fun a b => a.1 ≤ b.1 :=
    List.mem_mergeSort.mpr h
  rw [Language.printCalls]
  cases hs : (language.printCallsByRoutine code).mergeSort fun a b => a.1 ≤ b.1 with
  | nil =>
    rw [hs] at hm
    cases hm
  | cons first others =>
    rw [hs] at hm hp
    rcases List.mem_cons.mp hm with rfl | hm
    · rfl
    · exact absurd ((List.pairwise_cons.mp hp).1 _ hm) (Nat.not_lt_zero _)

theorem arguments_of_mem_printCalls {call : PrintCall} (h : call ∈ language.printCalls code) :
    ∀ argument ∈ call.arguments, argument ≠ [] ∧ Text.trim argument = argument := by
  obtain ⟨offset, hm⟩ := mem_printCalls.mp h
  rcases mem_printCallsByRoutine hm with ⟨routine, -, hr⟩ | ⟨-, hs⟩
  · exact PrintCall.arguments_of_mem_ofRoutine hr
  · exact PrintCall.arguments_of_mem_ofStream hs

/-- **A snippet with a print call has the mark of printing.** -/
theorem hasPrint_of_printCalls (h : language.printCalls code ≠ []) :
    language.hasPrint code = true := by
  obtain ⟨call, hc⟩ := List.exists_mem_of_ne_nil _ h
  obtain ⟨offset, hm⟩ := mem_printCalls.mp hc
  refine occursIn_iff.mpr ?_
  rcases mem_printCallsByRoutine hm with ⟨routine, hr, hm⟩ | ⟨rfl, hm⟩
  · obtain ⟨-, left, right, ht, -, hf⟩ := PrintCall.startsAt_of_mem_ofRoutine hm
    exact ⟨left, right, ht, PrintCall.fitsAt_printMark hr hf⟩
  · obtain ⟨-, left, right, ht, -, hf⟩ := PrintCall.startsAt_of_mem_ofStream hm
    obtain ⟨front, rest, rfl, hmark⟩ := PrintCall.exists_fitsAt_cout hf
    exact ⟨left ++ front, rest, by rw [ht, List.append_assoc], hmark⟩

/-! ### The literal output -/

theorem Literal.of_ofCalls?_eq_some {calls : List PrintCall} {output : Text}
    (h : Literal.ofCalls? calls = some output) :
    calls ≠ [] ∧ Text.isBlankText output = false ∧ output.getLast? ≠ some '\n' := by
  rw [Literal.ofCalls?] at h
  split at h
  · cases h
  next hn =>
    obtain ⟨pieces, -, h⟩ := Option.bind_eq_some_iff.mp h
    dsimp only at h
    split at h
    · cases h
    next hb =>
      obtain rfl := Option.some.inj h
      refine ⟨fun he => hn (by rw [he]; rfl), Bool.eq_false_of_not_eq_true hb, ?_⟩
      intro hl
      have ht := Text.getLast?_dropEndWhile (· == '\n') pieces.flatten
      rw [hl] at ht
      exact absurd ht (by decide)

/-- **The calls of a snippet.** They are those of all its routines, each of which starts where its
routine is found, in strictly increasing order of these positions. All their arguments are trimmed
and not empty, a snippet with a call has the mark of printing, and a literal output is only found
where there is that mark; it is not blank and ends with no line feed. -/
theorem printCalls_ordered (language : Language) (code : Text) :
    (∃ located : List (Nat × PrintCall),
      located.Perm (language.printCallsByRoutine code) ∧
      located.map (·.2) = language.printCalls code ∧
      located.Pairwise (fun a b => a.1 < b.1) ∧
      ∀ found ∈ located,
        (PrintCall.pattern found.2.routine).StartsAt (language.mask code) found.1) ∧
    (∀ call ∈ language.printCalls code, ∀ argument ∈ call.arguments,
      argument ≠ [] ∧ Text.trim argument = argument) ∧
    (language.printCalls code ≠ [] → language.hasPrint code = true) ∧
    (Detector.literalOutput.recognises language code = true →
      language.hasPrint code = true ∧
      ∃ text, Detector.literalOutput.extract language code = .ok (.literalOutput text) ∧
        Text.isBlankText text = false ∧ text.getLast? ≠ some '\n') := by
  refine ⟨⟨_, List.mergeSort_perm _ _, rfl, pairwise_mergeSort_printCallsByRoutine language code,
    fun found hm => startsAt_of_mem_printCallsByRoutine (List.mem_mergeSort.mp hm)⟩,
    fun call hc => arguments_of_mem_printCalls hc, hasPrint_of_printCalls, fun hd => ?_⟩
  obtain ⟨text, ht⟩ := Option.isSome_iff_exists.mp hd
  obtain ⟨hn, hb, hl⟩ := Literal.of_ofCalls?_eq_some ht
  refine ⟨hasPrint_of_printCalls hn, text, ?_, hb, hl⟩
  rw [Detector.extract, ht, Option.getD_some]

end Snippet
