import Snippet.Proofs.HeadersInRow
import Snippet.Proofs.Lookup
import Snippet.Proofs.SearchDepth

/-!
# The steps to the end of a statement

The end of a statement that opens with the header of a loop is that of the statement behind the
header, which may open with a header again. Here the search is taken apart into such steps
(`StatementStep`), with all lookups checked, for texts of any kind. Each step takes a frame.

* `StatementStep.exists_ofPlace`: **a step is never refused.** It finds an end between its place and
  the end of the text, or it leads on by at least two characters, which is what the shortest header
  takes (`width_loopHeader`), to a statement that takes one frame less.
* `StatementStep.follow_eq`: so what the steps find with a given number of frames is what the search
  finds with them, which is the end of the statement if there are enough.

`loopSpans_within`: **the reaches of the loops lie within the text, in the order of their starts**,
if they are found. Half as many frames as there are characters suffice for that, but no given number
of frames suffices for every text (`not_ended_row`).
-/

namespace Snippet

open Pattern Place

variable {mask : Text} {place : Place}

/-! ### Places of a text -/

theorem Place.Within.offset_le (h : place.Within mask) : place.offset ≤ mask.length := by
  rw [← h.textEnd_eq, textEnd]
  exact Nat.le_add_right ..

theorem within_ofOffset (mask : Text) (offset : Nat) : (ofOffset mask offset).Within mask :=
  Within.advance ⟨[], mask, rfl, rfl⟩ offset

theorem offset_ofOffset {offset : Nat} (h : offset ≤ mask.length) :
    (ofOffset mask offset).offset = offset := by
  rw [ofOffset, offset_advance h]
  exact Nat.zero_add offset

theorem offset_le_skipBlanks (h : place.Within mask) :
    place.offset ≤ (skipBlanks place).offset := by
  have hle := length_rest_skipBlanks place
  have hend := h.textEnd_eq
  have hend' := h.skipBlanks.textEnd_eq
  rw [textEnd] at hend hend'
  omega

theorem within_of_afterCloser? {bracket : Bracket} {stop : Place} (h : place.Within mask)
    (ha : afterCloser? bracket place = some stop) :
    stop.Within mask ∧ place.offset ≤ stop.offset := by
  obtain ⟨position, hc, rfl, ho⟩ := offset_of_afterCloser? ha
  have hbounds := Bracket.closing?_bounds hc
  exact ⟨h.advance _, by omega⟩

theorem within_of_loopHeader {header : Match} (h : place.Within mask)
    (hm : loopHeader.matchAt? place = some header) :
    header.stop.Within mask ∧ place.offset + 2 ≤ header.stop.offset := by
  obtain ⟨-, piece, -, ho, hl⟩ := reads_of_matchAt? hm
  rw [width_loopHeader] at hl
  exact ⟨within_of_matchAt? h hm, by omega⟩

theorem blockEnd_bounds (h : place.Within mask) :
    place.offset ≤ blockEnd place ∧ blockEnd place ≤ mask.length := by
  rw [blockEnd]
  cases ha : afterCloser? .curly place with
  | none => exact ⟨Nat.le_add_right .., h.textEnd_eq.le⟩
  | some stop =>
    obtain ⟨hw, hle⟩ := within_of_afterCloser? h ha
    exact ⟨hle, hw.offset_le⟩

theorem simpleEnd_bounds (h : place.Within mask) :
    place.offset ≤ simpleEnd place ∧ simpleEnd place ≤ mask.length := by
  have semicolon : ∀ {s}, Text.position? ';' place.rest = some s →
      place.offset ≤ place.offset + s + 1 ∧ place.offset + s + 1 ≤ mask.length := by
    intro s hs
    have hend := h.textEnd_eq
    obtain ⟨front, rest, hr, rfl⟩ := position?_eq_some hs
    rw [textEnd, hr, List.length_append, List.length_cons] at hend
    omega
  have block : ∀ {b}, Text.position? '\x7b' place.rest = some b →
      place.offset ≤ blockEnd (place.advance (b + 1)) ∧
        blockEnd (place.advance (b + 1)) ≤ mask.length := by
    intro b hb
    obtain ⟨hbehind, ho⟩ := behind_of_position? h hb
    have hbounds := blockEnd_bounds hbehind.within
    omega
  rw [simpleEnd_eq]
  cases hb : Text.position? '\x7b' place.rest with
  | none =>
    cases hs : Text.position? ';' place.rest with
    | none => exact ⟨Nat.le_add_right .., h.textEnd_eq.le⟩
    | some s => exact semicolon hs
  | some b =>
    cases hs : Text.position? ';' place.rest with
    | none => exact block hb
    | some s =>
      dsimp only
      split
      · exact block hb
      · exact semicolon hs

/-! ### Steps -/

/-- What one step towards the end of a statement finds. -/
inductive StatementStep where
  /-- The end of the statement. -/
  | ends (position : Nat)
  /-- The place of a statement that ends where the first one does. -/
  | goesOn (place : Place)

namespace StatementStep

/-- The step over the header of a loop, with its lookup checked. -/
def ofHeader (mask : Text) (header : Match) : Except LookupError StatementStep :=
  if isDoHeader header then .ok (.goesOn header.stop)
  else
    (Bracket.lookUpCloser mask header.stop.offset).map fun
      | some close => .goesOn (header.stop.advance (close + 1 - header.stop.offset))
      | none => .ends mask.length

/-- The step from the place of a statement, with its lookups checked. -/
def ofPlace (mask : Text) (place : Place) : Except LookupError StatementStep :=
  let start := skipBlanks place
  match start.rest with
  | [] => .ok (.ends mask.length)
  | c :: _ =>
    if c = '\x7b' then (lookUpBlockEnd mask (start.offset + 1)).map .ends
    else
      match loopHeader.matchAt? start with
      | none => (lookUpSimpleEnd mask start).map .ends
      | some header => ofHeader mask header

/-- The end of a statement, if so many frames suffice for the steps to it. -/
def follow (mask : Text) : Nat → Place → Except LookupError (Option Nat)
  | 0, _ => .ok none
  | frames + 1, place =>
    (ofPlace mask place).bind fun
      | ends position => .ok (some position)
      | goesOn later => follow mask frames later

/-- A step from a place towards `stop` finds it, within the text, or leads on to a later statement
that ends there; `depth` says how many frames this takes. -/
def Leads (mask : Text) (place : Place) (stop depth : Nat) : StatementStep → Prop
  | ends position =>
    position = stop ∧ depth = 1 ∧ place.offset ≤ position ∧ position ≤ mask.length
  | goesOn later =>
    statementEnd later = stop ∧ depth = statementDepth later + 1 ∧
      place.offset + 2 ≤ later.offset ∧ later.Within mask

theorem exists_ofHeader {header : Match} (h : place.Within mask)
    (hm : loopHeader.matchAt? place = some header) :
    ∃ step, ofHeader mask header = .ok step ∧
      step.Leads mask place (loopEnd header) (loopFrames header + 1) := by
  obtain ⟨hw, hle⟩ := within_of_loopHeader h hm
  rw [ofHeader, loopEnd, loopFrames]
  by_cases hd : isDoHeader header = true
  · rw [if_pos hd, if_pos hd, if_pos hd]
    exact ⟨_, rfl, rfl, rfl, hle, hw⟩
  · rw [if_neg hd, if_neg hd, if_neg hd]
    rw [Bool.not_eq_true] at hd
    rw [(behind_of_loopHeader h hm hd).lookUpCloser_eq]
    cases ha : afterCloser? .round header.stop with
    | none =>
      rw [Option.map_eq_none_iff.mp ha]
      exact ⟨_, rfl, hw.textEnd_eq.symm, rfl, h.offset_le, le_rfl⟩
    | some stop =>
      obtain ⟨hwithin, hbehind⟩ := within_of_afterCloser? hw ha
      obtain ⟨position, hc, rfl, -⟩ := offset_of_afterCloser? ha
      rw [hc]
      exact ⟨_, rfl, rfl, rfl, hle.trans hbehind, hwithin⟩

theorem Leads.of_le {start : Place} {stop depth : Nat} {step : StatementStep}
    (h : step.Leads mask start stop depth) (hle : place.offset ≤ start.offset) :
    step.Leads mask place stop depth := by
  cases step with
  | ends position =>
    obtain ⟨hend, hdepth, hstart, hlength⟩ := h
    exact ⟨hend, hdepth, hle.trans hstart, hlength⟩
  | goesOn later =>
    obtain ⟨hend, hdepth, hlater, hw⟩ := h
    exact ⟨hend, hdepth, by omega, hw⟩

/-- **A step is never refused**, and it finds the end or leads on. -/
theorem exists_ofPlace (h : place.Within mask) :
    ∃ step, ofPlace mask place = .ok step ∧
      step.Leads mask place (statementEnd place) (statementDepth place) := by
  have hs := h.skipBlanks
  have hle := offset_le_skipBlanks h
  rw [ofPlace]
  cases hr : (skipBlanks place).rest with
  | nil =>
    have hend : statementEnd place = mask.length := by
      rw [statementEnd]
      simp only [hr]
      exact h.textEnd_eq
    exact ⟨.ends mask.length, rfl, hend.symm, statementDepth_of_nil hr, h.offset_le, le_rfl⟩
  | cons c rest =>
    dsimp only
    by_cases hc : c = '\x7b'
    · subst hc
      have hb := behind_advance_one hs hr
      have ho : ((skipBlanks place).advance 1).offset = (skipBlanks place).offset + 1 :=
        offset_advance (by rw [hr]; simp)
      have hbounds := blockEnd_bounds hb.within
      rw [if_pos rfl, ← ho, lookUpBlockEnd_eq hb]
      exact ⟨_, rfl, (statementEnd_of_brace hr).symm, statementDepth_of_brace hr, by omega,
        hbounds.2⟩
    · rw [if_neg hc]
      cases hm : loopHeader.matchAt? (skipBlanks place) with
      | none =>
        have hbounds := simpleEnd_bounds hs
        dsimp only
        rw [lookUpSimpleEnd_eq hs]
        exact ⟨_, rfl, (statementEnd_of_simple hr hc hm).symm, statementDepth_of_simple hr hc hm,
          hle.trans hbounds.1, hbounds.2⟩
      | some header =>
        have he : place.textEnd = header.stop.textEnd := by
          rw [h.textEnd_eq, (within_of_matchAt? hs hm).textEnd_eq]
        obtain ⟨step, hstep, hleads⟩ := exists_ofHeader hs hm
        rw [statementEnd_of_header hr hc hm he, statementDepth_of_header hr hc hm]
        exact ⟨step, hstep, hleads.of_le hle⟩

/-- **The steps find what the search finds** with the same frames, and no lookup is refused. -/
theorem follow_eq (h : place.Within mask) (frames : Nat) :
    follow mask frames place = .ok (statementEndWithin frames place).toOption := by
  rw [statementEndWithin_eq]
  induction frames generalizing place with
  | zero =>
    rw [if_neg (Nat.not_le.mpr (statementDepth_pos place))]
    rfl
  | succ frames ih =>
    obtain ⟨step, hstep, hl⟩ := exists_ofPlace h
    rw [follow, hstep]
    cases step with
    | ends position =>
      obtain ⟨rfl, hdepth, -⟩ := hl
      rw [if_pos (by omega)]
      rfl
    | goesOn later =>
      obtain ⟨hend, hdepth, -, hw⟩ := hl
      rw [hdepth, ← hend]
      simp only [Nat.add_le_add_iff_right]
      exact ih hw

end StatementStep

/-! ### Reaches of loops -/

/-- **A statement ends within the text**, at its place or behind it. -/
theorem statementEnd_bounds (h : place.Within mask) :
    place.offset ≤ statementEnd place ∧ statementEnd place ≤ mask.length := by
  induction hd : statementDepth place generalizing place with
  | zero =>
    have := statementDepth_pos place
    omega
  | succ depth ih =>
    obtain ⟨step, -, hl⟩ := StatementStep.exists_ofPlace h
    cases step with
    | ends position =>
      obtain ⟨rfl, -, hbounds⟩ := hl
      exact hbounds
    | goesOn later =>
      obtain ⟨hend, hdepth, hlater, hw⟩ := hl
      have hbounds := ih hw (by omega)
      omega

theorem loopEnd_bounds {header : Match} (h : place.Within mask)
    (hm : loopHeader.matchAt? place = some header) :
    place.offset < loopEnd header ∧ loopEnd header ≤ mask.length := by
  obtain ⟨hw, hle⟩ := within_of_loopHeader h hm
  rw [loopEnd]
  split
  · have := statementEnd_bounds hw
    omega
  · cases ha : afterCloser? .round header.stop with
    | none =>
      have := hw.offset_le
      have := hw.textEnd_eq
      dsimp only
      omega
    | some stop =>
      obtain ⟨hwithin, hbehind⟩ := within_of_afterCloser? hw ha
      have := statementEnd_bounds hwithin
      dsimp only
      omega

theorem isShallowMask_of_length {frames : Nat} (h : mask.length ≤ 2 * frames + 1) :
    IsShallowMask frames mask := by
  intro header hm
  obtain ⟨left, right, rfl, hmatch⟩ := exists_of_mem_matchesAfter [] hm
  have hlength := length_rest_of_loopHeader hmatch
  have hframes := loopFrames_le header
  simp only [rest_between, List.nil_append, List.length_append] at hlength h
  omega

/-- **The ends of statements and the reaches of loops.** For every text, malformed or not, and every
number of frames: from every position the search for the end of a statement finds that end, between
the position and the end of the text, if the frames suffice, and breaks off otherwise; half as many
frames as there are characters left suffice, and one more. No lookup of a bracket is refused in it.
So the reaches of the loops are found without a lookup being refused, or the search for them breaks
off; they are in strict order of their starts, and each ends behind its start, within the text. -/
theorem loopSpans_within (mask : Text) (frames : Nat) :
    (∀ position ≤ mask.length,
      StatementStep.follow mask frames (ofOffset mask position) =
        .ok (statementEndWithin frames (ofOffset mask position)).toOption ∧
      statementEndWithin frames (ofOffset mask position) =
        (if statementDepth (ofOffset mask position) ≤ frames then
          .ok (statementEnd (ofOffset mask position))
        else .error .tooDeep) ∧
      2 * statementDepth (ofOffset mask position) ≤ mask.length - position + 2 ∧
      position ≤ statementEnd (ofOffset mask position) ∧
      statementEnd (ofOffset mask position) ≤ mask.length) ∧
    lookUpLoopSpans mask = .ok (loopSpans mask) ∧
    loopSpansWithin frames mask =
      (if IsShallowMask frames mask then .ok (loopSpans mask) else .error .tooDeep) ∧
    (mask.length ≤ 2 * frames + 1 → IsShallowMask frames mask) ∧
    ((loopSpans mask).map Prod.fst).Pairwise (· < ·) ∧
    ∀ span ∈ loopSpans mask, span.1 < span.2 ∧ span.2 ≤ mask.length := by
  refine ⟨fun position hp => ?_, lookUpLoopSpans_eq mask, loopSpansWithin_eq frames mask,
    isShallowMask_of_length, ?_, ?_⟩
  · have hw := within_ofOffset mask position
    have hdepth := two_mul_statementDepth_le (ofOffset mask position)
    have hbounds := statementEnd_bounds hw
    have hend := hw.textEnd_eq
    rw [textEnd, offset_ofOffset hp] at hend
    rw [offset_ofOffset hp] at hbounds
    exact ⟨StatementStep.follow_eq hw frames, statementEndWithin_eq frames _, by omega, hbounds⟩
  · rw [loopSpans, List.map_map, List.pairwise_map]
    exact pairwise_start_matchesIn loopHeader mask
  · refine List.forall_mem_map.mpr fun header hm => ?_
    obtain ⟨left, right, rfl, hmatch⟩ := exists_of_mem_matchesAfter [] hm
    rw [(reads_of_matchAt? hmatch).1]
    exact loopEnd_bounds ⟨left, right, rfl, rfl⟩ hmatch

/-- The first header leads on to the second one, whose bracket is never closed: two frames find that
the statement reaches to the end of the text, and one frame does not. -/
theorem loopSpans_within_unclosed :
    StatementStep.follow "for (a) while (b".toList 2 (ofOffset "for (a) while (b".toList 0) =
        .ok (some 16) ∧
      statementEndWithin 2 (ofOffset "for (a) while (b".toList 0) = .ok 16 ∧
      statementEndWithin 1 (ofOffset "for (a) while (b".toList 0) = .error .tooDeep := by
  have hend : statementEndWithin 2 (ofOffset "for (a) while (b".toList 0) = .ok 16 := by rfl
  have hsteps := ((loopSpans_within "for (a) while (b".toList 2).1 0 (by decide)).1
  rw [hend] at hsteps
  exact ⟨hsteps, hend, by rfl⟩

/-- **Even with all of the stack, the search does not always come to an end.** -/
theorem not_ended_row :
    statementEndWithin stackLimit (ofOffset (rowOfLoops 6000) 0) = .error .tooDeep ∧
      loopSpansWithin stackLimit (rowOfLoops 6000) = .error .tooDeep := by
  have hdepth : 6000 < statementDepth (ofOffset (rowOfLoops 6000) 0) :=
    @lt_statementDepth_row [] 6000 rfl
  have hframes : stackLimit ≤ 5999 := by decide
  have hdeep : ¬ IsShallowMask stackLimit (rowOfLoops 6000) := by
    intro hs
    refine @not_isShallow_row .javascript rfl stackLimit 5999 hframes fun _ => ?_
    rwa [mask_row]
  constructor
  · rw [statementEndWithin_eq, if_neg (by omega)]
  · rw [loopSpansWithin_eq, if_neg hdeep]

end Snippet
