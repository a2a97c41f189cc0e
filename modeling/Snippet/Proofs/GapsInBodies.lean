import Mathlib.Data.List.GetD
import Snippet.Proofs.Gaps
import Snippet.Proofs.OwnCalls

/-!
# Gaps in the bodies of definitions

The definitions in two texts that differ in the width of one gap are the same but for gaps
(`forall₂_indentedDefinitions`), so that **the same functions call themselves**
(`recursiveNames_eq_of_gap`).

A header never reads a quote mark.  So the headers are those in front of the gap and those behind
it (`matchesIn_indentedHeader`), and an offset in one text corresponds to one in the other
(`Corresponds`).  The line of a header is counted in line feeds, which need not be the line where it
stands; what is left of that line behind the header is compared for any number (`restOfLine_same`).
-/

namespace Snippet

open Pattern Place

variable {quote : Char} {front rest : Text} {n m : Nat}

/-! ### Calls -/

theorem ignores_lit (c : Char) (chars : List Char) :
    (lit (String.ofList chars)).ignoresBefore (some c) = true ∧
      (lit (String.ofList chars)).ignoresBehind (some c) = true := by
  rw [lit, String.toList_ofList]
  induction chars with
  | nil => exact ⟨rfl, rfl⟩
  | cons d chars ih => exact ih

theorem skipsGaps_callOfName (hq : quote ∈ Language.python.quotes) {name : Text}
    (hn : quote ∉ name) : SkipsGaps quote (callOfName name) := by
  obtain ⟨hblank, -, hword, -⟩ := not_blank_of_mem_quotes quote hq
  have hmark : ∀ c ∈ Language.python.quotes, c ≠ '$' ∧ c ≠ '(' := by decide
  obtain ⟨hdollar, hround⟩ := hmark quote hq
  obtain ⟨hbefore, hbehind⟩ := ignores_lit quote name
  have hreads : (lit (String.ofList name)).reads quote = false := by
    rwa [Bool.eq_false_iff, Ne, reads_lit, String.toList_ofList]
  refine ⟨Nat.succ_pos _, ?_, ?_, ?_, rfl⟩
  · show ((false || (lit _).reads quote) || (isBlank quote || quote == '(')) = false
    simp [hreads, hblank, hround]
  · show ((!(isWord quote || quote == '$') && (lit _).ignoresBefore (some quote)) && true) = true
    simp [hbefore, hword, hdollar]
  · show ((true && (lit _).ignoresBehind (some quote)) && true) = true
    simp [hbehind]

/-! ### Headers -/

/-- Two definitions of one name whose bodies are the same but for gaps. -/
structure SameDefinition (quote : Char) (definition definition' : Definition) : Prop where
  name : definition.name = definition'.name
  notMem : quote ∉ definition.name
  body : SameButGaps quote definition.body definition'.body

theorem SameDefinition.isRecursive (hq : quote ∈ Language.python.quotes)
    {definition definition' : Definition} (h : SameDefinition quote definition definition') :
    definition.isRecursive = definition'.isRecursive := by
  rw [Definition.isRecursive, Definition.isRecursive, ← h.name,
    (skipsGaps_callOfName hq h.notMem).occursIn_eq h.body]

/-- What is left of the line `number` behind the offset `stop` of the text. -/
def restOfLine (lines : List Text) (number stop : Nat) : Text :=
  (lines.getD number []).drop (stop - (lines.take number).flatten.length)

theorem indentedDefinition_eq (mask : Text) (lines : List Text) (header : Match) :
    indentedDefinition mask lines header =
      let number := (mask.take header.start.offset).count '\n'
      ⟨header.groups.text 2, afterColon (restOfLine lines number header.stop.offset) ++
        (blockLines (header.groups.text 1).length (lines.drop (number + 1))).flatten⟩ := rfl

/-- An offset in the text around a gap, for the two widths of the gap: one in front of the gap, or
one behind it. -/
def Corresponds (front : Text) (n m offset offset' : Nat) : Prop :=
  (offset = offset' ∧ offset ≤ front.length) ∨
    ∃ behind, offset = front.length + n + 2 + behind ∧ offset' = front.length + m + 2 + behind

theorem length_gapped (n : Nat) (rest : Text) :
    (gapped quote n rest).length = n + 2 + rest.length := by
  simp [gapped]
  omega

theorem drop_gapped (front : Text) (n : Nat) (rest : Text) (behind : Nat) :
    (front ++ gapped quote n rest).drop (front.length + n + 2 + behind) = rest.drop behind := by
  have hsplit : front ++ gapped quote n rest =
      (front ++ quote :: (List.replicate n ' ' ++ [quote])) ++ rest := by simp [gapped]
  have hlen : (front ++ quote :: (List.replicate n ' ' ++ [quote])).length =
      front.length + n + 2 := by simp; omega
  rw [hsplit, ← hlen, ← List.drop_drop, List.drop_left]

theorem take_gapped (front : Text) (n : Nat) (rest : Text) (behind : Nat) :
    (front ++ gapped quote n rest).take (front.length + n + 2 + behind) =
      front ++ gapped quote n (rest.take behind) := by
  have hsplit : ∀ rest : Text, front ++ gapped quote n rest =
      (front ++ quote :: (List.replicate n ' ' ++ [quote])) ++ rest := by simp [gapped]
  have hlen : (front ++ quote :: (List.replicate n ' ' ++ [quote])).length =
      front.length + n + 2 := by simp; omega
  rw [hsplit, hsplit, ← hlen, List.take_length_add_append]

theorem restOfLine_eq_nil {lines : List Text} {number stop : Nat} (h : number < lines.length)
    (hs : lines.flatten.length ≤ stop) : restOfLine lines number stop = [] := by
  have hsplit := congrArg (List.length ∘ List.flatten) (List.take_append_drop number lines)
  rw [List.drop_eq_getElem_cons h] at hsplit
  simp only [Function.comp, List.flatten_append, List.flatten_cons, List.length_append] at hsplit
  rw [restOfLine, List.getD_eq_getElem _ _ h, List.drop_eq_nil_of_le (by omega)]

theorem restOfLine_append {lines : List Text} {number : Nat} (h : number < lines.length)
    (more : List Text) (stop : Nat) :
    restOfLine (lines ++ more) number stop = restOfLine lines number stop := by
  rw [restOfLine, List.getD_append _ _ _ _ h, List.take_append_of_le_length h.le, restOfLine]

theorem restOfLine_append_right {before : List Text} {number : Nat} (h : before.length ≤ number)
    (lines : List Text) (stop : Nat) :
    restOfLine (before ++ lines) number (before.flatten.length + stop) =
      restOfLine lines (number - before.length) stop := by
  obtain ⟨k, rfl⟩ := Nat.exists_eq_add_of_le h
  rw [restOfLine, List.getD_append_right _ _ _ _ h, List.take_length_add_append,
    List.flatten_append, List.length_append, Nat.add_sub_add_left, Nat.add_sub_cancel_left,
    restOfLine]

/-- **What is left of a line is the same but for gaps.** -/
theorem restOfLine_same {before more : List Text} {line first : Text} {stop stop' : Nat}
    (h : Corresponds (before.flatten ++ line) n m stop stop') (number : Nat) :
    SameButGaps quote
      (restOfLine (before ++ (line ++ gapped quote n first) :: more) number stop)
      (restOfLine (before ++ (line ++ gapped quote m first) :: more) number stop') := by
  simp only [Corresponds, List.length_append] at h
  rcases Nat.lt_trichotomy number before.length with hlt | rfl | hgt
  · -- a line in front of the gap, which is over if the offset is behind the gap
    rw [restOfLine_append hlt, restOfLine_append hlt]
    rcases h with ⟨rfl, -⟩ | ⟨behind, rfl, rfl⟩
    · exact .same _
    · rw [restOfLine_eq_nil hlt (by omega), restOfLine_eq_nil hlt (by omega)]
      exact .same _
  · -- the line of the gap
    simp only [restOfLine, List.take_left, List.getD_append_right _ _ _ _ (Nat.le_refl _),
      Nat.sub_self, List.getD_cons_zero]
    rcases h with ⟨rfl, hle⟩ | ⟨behind, rfl, rfl⟩
    · rw [List.drop_append_of_le_length (by omega), List.drop_append_of_le_length (by omega)]
      exact .gap _ n m (.same first)
    · have hbehind : ∀ n : Nat, (before.flatten.length + line.length + n + 2 + behind) -
          before.flatten.length = line.length + n + 2 + behind := by omega
      rw [hbehind, hbehind, drop_gapped, drop_gapped]
      exact .same _
  · -- a line behind the gap, which has not begun if the offset is in front of the gap
    obtain ⟨k, rfl⟩ := Nat.exists_eq_add_of_lt hgt
    have hk : before.length + k + 1 - before.length = k + 1 := by omega
    simp only [restOfLine, List.take_append, List.take_of_length_le hgt.le,
      List.getD_append_right _ _ _ _ hgt.le, hk, List.take_succ_cons, List.getD_cons_succ,
      List.flatten_append, List.flatten_cons, List.length_append, length_gapped]
    rcases h with ⟨rfl, hle⟩ | ⟨behind, rfl, rfl⟩
    · have hover : ∀ n, stop - (before.flatten.length +
          (line.length + (n + 2 + first.length) + (more.take k).flatten.length)) = 0 := by omega
      rw [hover, hover]
      exact .same _
    · have hover : ∀ n, before.flatten.length + line.length + n + 2 + behind -
          (before.flatten.length + (line.length + (n + 2 + first.length) +
            (more.take k).flatten.length)) =
              behind - (first.length + (more.take k).flatten.length) := by omega
      rw [hover, hover]
      exact .same _

section

variable (hq : quote ∈ Language.python.quotes)

include hq

theorem matchesIn_indentedHeader (front : Text) (n : Nat) (rest : Text) :
    indentedHeader.matchesIn (front ++ gapped quote n rest) =
      (indentedHeader.matchesIn front).map (Match.widen [] (gapped quote n rest)) ++
        (indentedHeader.matchesAfter [quote] rest).map
          (Match.widen (front ++ quote :: List.replicate n ' ') []) := by
  have h : ∀ c ∈ Language.python.quotes, 0 < indentedHeader.width ∧
      indentedHeader.reads c = false ∧ indentedHeader.ignoresBehind (some c) = true ∧
        indentedHeader.mayEnd ' ' = false := by
    decide
  obtain ⟨hw, hr, hb, he⟩ := h quote hq
  have hgap : indentedHeader.matchesAfter (front ++ [quote]) (List.replicate n ' ') = [] := by
    refine matchesAfter_eq_nil (avoids_of_mayEnd hw fun c hc => ?_)
    rw [List.eq_of_mem_replicate hc]
    exact he
  have hshift := @matchesAfter_shift indentedHeader (front ++ quote :: List.replicate n ' ') hw
    (ignoresBehind_none hb) [quote] (by simp) rest
  rw [matchesIn_eq_matchesAfter, gapped, matchesAfter_append_cons hw hr hb, List.nil_append,
    matchesAfter_append_cons hw hr hb, hgap, List.map_nil, List.nil_append, ← hshift]
  simp [matchesIn_eq_matchesAfter]

/-- What a header says is told by its offsets and its groups. -/
structure SameHeader (front : Text) (n m : Nat) (header header' : Match) : Prop where
  start : Corresponds front n m header.start.offset header'.start.offset
  stop : Corresponds front n m header.stop.offset header'.stop.offset
  text : ∀ index, header.groups.text index = header'.groups.text index

theorem count_take_eq {offset offset' : Nat} (h : Corresponds front n m offset offset') :
    ((front ++ gapped quote n rest).take offset).count '\n' =
      ((front ++ gapped quote m rest).take offset').count '\n' := by
  obtain ⟨-, hbreak, -⟩ := not_blank_of_mem_quotes quote hq
  have hfeed : quote ≠ '\n' := by
    rintro rfl
    exact absurd hbreak (by decide)
  rcases h with ⟨rfl, hle⟩ | ⟨behind, rfl, rfl⟩
  · rw [List.take_append_of_le_length hle, List.take_append_of_le_length hle]
  · rw [take_gapped, take_gapped]
    simp [gapped, hfeed, List.count_replicate]

/-- **The definitions with corresponding headers are the same but for gaps.** -/
theorem indentedDefinition_same {header header' : Match}
    (h : SameHeader front n m header header') (hn : quote ∉ header.groups.text 2) :
    let mask := front ++ gapped quote n rest
    let mask' := front ++ gapped quote m rest
    SameDefinition quote (indentedDefinition mask (Text.lines mask) header)
      (indentedDefinition mask' (Text.lines mask') header') := by
  intro mask mask'
  have hlines : SameButGaps quote mask mask' := .gap front n m (.same rest)
  have hnumber : (mask.take header.start.offset).count '\n' =
      (mask'.take header'.start.offset).count '\n' := count_take_eq hq h.start
  rw [indentedDefinition_eq, indentedDefinition_eq]
  refine ⟨h.text 2, hn, ?_⟩
  rw [← hnumber, ← h.text 1]
  refine .append (.afterColon hq ?_) (SameButGaps.flatten_blockLines hq ?_ _)
  · obtain ⟨before, line, rfl, hl⟩ := exists_lines_gapped hq front
    rw [hl, hl]
    exact restOfLine_same h.stop _
  · exact List.forall₂_drop _ (hlines.forall₂_lines hq)

/-- **The definitions in two texts that differ in a gap are the same but for gaps.** -/
theorem forall₂_indentedDefinitions (front : Text) (n m : Nat) (rest : Text) :
    List.Forall₂ (SameDefinition quote) (indentedDefinitions (front ++ gapped quote n rest))
      (indentedDefinitions (front ++ gapped quote m rest)) := by
  have hreads : ∀ c ∈ Language.python.quotes, indentedHeader.reads c = false := by decide
  have hname : ∀ {left piece right : Text} {kept : Groups},
      indentedHeader.Fits left piece right [] kept → quote ∉ kept.text 2 := fun hf hm =>
    notMem_of_fits (hreads quote hq) hf (mem_of_mem_text hf hm)
  simp only [indentedDefinitions, matchesIn_indentedHeader hq, List.map_append, List.map_map]
  refine List.rel_append ?_ ?_
  · rw [List.forall₂_map_left_iff, List.forall₂_map_right_iff, List.forall₂_same]
    intro found hm
    obtain ⟨left, piece, right, rfl, hstart, hstop, hf⟩ := fits_of_mem_matchesIn hm
    have hle : found.start.offset ≤ (left ++ (piece ++ right)).length ∧
        found.stop.offset ≤ (left ++ (piece ++ right)).length := by
      rw [hstart, hstop]
      simp only [offset_between, List.length_append]
      omega
    refine indentedDefinition_same hq ⟨Or.inl ⟨rfl, ?_⟩, Or.inl ⟨rfl, ?_⟩, fun index => ?_⟩ ?_
    · simpa [Match.widen, Place.widen] using hle.1
    · simpa [Match.widen, Place.widen] using hle.2
    · exact (text_widen hf _ index).trans (text_widen hf _ index).symm
    · rw [Match.widen, text_widen hf]
      exact hname hf
  · rw [List.forall₂_map_left_iff, List.forall₂_map_right_iff, List.forall₂_same]
    intro found hm
    obtain ⟨before, after, rfl, hmatch⟩ := exists_of_mem_matchesAfter [quote] hm
    obtain ⟨piece, right, rfl, hstart, hstop, hf⟩ := fits_of_matchAt? hmatch
    have hbehind : ∀ (n : Nat) (place : Place) (text behind : Text),
        place = between ([quote] ++ text) behind →
          (place.widen (front ++ quote :: List.replicate n ' ') []).offset =
            front.length + n + 2 + text.length := by
      rintro n place text behind rfl
      simp [Place.widen]
      omega
    have hcorresponds : ∀ (place : Place) (text behind : Text),
        place = between ([quote] ++ text) behind →
          Corresponds front n m (place.widen (front ++ quote :: List.replicate n ' ') []).offset
            (place.widen (front ++ quote :: List.replicate m ' ') []).offset :=
      fun place text behind hp => Or.inr ⟨text.length, hbehind n place text behind hp,
        hbehind m place text behind hp⟩
    rw [List.append_assoc] at hstop
    refine indentedDefinition_same hq ⟨?_, ?_, fun index => ?_⟩ ?_
    · exact hcorresponds _ _ _ hstart
    · exact hcorresponds _ _ _ hstop
    · exact (text_widen hf _ index).trans (text_widen hf _ index).symm
    · exact (text_widen hf _ 2).symm ▸ hname hf

end

/-- **The same functions call themselves** in two snippets whose masks differ in a gap. -/
theorem recursiveNames_eq_of_gap (hq : quote ∈ Language.python.quotes) {code code' : Text}
    (h : Language.python.mask code = front ++ gapped quote n rest)
    (h' : Language.python.mask code' = front ++ gapped quote m rest) :
    Language.python.recursiveNames code = Language.python.recursiveNames code' := by
  have hsame := (forall₂_indentedDefinitions hq front n m rest).imp fun _ _ h =>
    SameCalls.mk h.name (h.isRecursive hq)
  have hnames := (map_name_of_sameCalls hsame).2
  simp only [Language.recursiveNames, Language.definitions, Language.usesBraces, h, h',
    Bool.false_eq_true, if_false, hnames]

end Snippet
