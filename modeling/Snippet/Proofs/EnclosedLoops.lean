import Snippet.Proofs.Boundaries
import Snippet.Proofs.LoopReach

/-!
# Loops in an enclosing block

A text that stands in the block of a longer one has the loops that it has on its own, if the text in
front of it holds no word of a loop and the one behind it holds only white space and closing braces.
A closing brace behind the text may close a block that is open in the text.  So the reach of a loop
that is open at the end of the text is not the same in the longer one, but it goes to the end of the
text in both (`SameReach`), and that is all that the nesting of the loops depends on.

* `Encloses` says what may stand around the text.
* `Encloses.sameReach_statementEnd`: how far the statement at a place of the text reaches.  The
  induction is on the length of what is left of the text.
* `Encloses.forall₂_loopSpans`: the list of the reaches, loop by loop.
* `Encloses.loopDepthOfMask`, `Encloses.loopCountOfMask`: **the nesting and the number of the loops
  stay the same.**
-/

namespace Snippet

open Pattern Place

variable {front left text rest behind : Text} {bracket : Bracket}

/-! ### Brackets in a longer text -/

namespace Bracket

theorem closing?_append_of_some {depth here position : Nat}
    (h : bracket.closing? depth here text = some position) (behind : Text) :
    bracket.closing? depth here (text ++ behind) = some position := by
  induction text generalizing depth here with
  | nil => cases h
  | cons c text ih =>
    rw [closing?] at h
    rw [List.cons_append, closing?]
    split_ifs at h ⊢ with ho hc hd
    · exact ih h
    · exact h
    · exact ih h
    · exact ih h

theorem le_of_closing?_append {depth here position : Nat}
    (h : bracket.closing? depth here text = none)
    (h' : bracket.closing? depth here (text ++ behind) = some position) :
    here + text.length ≤ position := by
  induction text generalizing depth here with
  | nil => exact (closing?_bounds h').1
  | cons c text ih =>
    rw [closing?] at h
    rw [List.cons_append, closing?] at h'
    rw [List.length_cons]
    split_ifs at h h' with ho hc hd
    · have := ih h h'
      omega
    · have := ih h h'
      omega
    · have := ih h h'
      omega

theorem closing?_append_of_notMem {depth here : Nat}
    (h : bracket.closing? depth here text = none) (hb : bracket.closer ∉ behind) :
    bracket.closing? depth here (text ++ behind) = none := by
  induction text generalizing depth here with
  | nil =>
    clear h
    rw [List.nil_append]
    induction behind generalizing depth here with
    | nil => rfl
    | cons c behind ih =>
      obtain ⟨hc, hb⟩ := List.ne_and_not_mem_of_not_mem_cons hb
      rw [closing?, if_neg hc.symm]
      split_ifs <;> exact ih hb
  | cons c text ih =>
    rw [closing?] at h
    rw [List.cons_append, closing?]
    split_ifs at h ⊢ with ho hc hd <;> exact ih h

end Bracket

/-- **A bracket that is closed in a text is closed at that place of a longer one.** -/
theorem afterCloser?_widen {stop : Place} (h : afterCloser? bracket (between left rest) = some stop)
    (front behind : Text) :
    afterCloser? bracket (between (front ++ left) (rest ++ behind)) =
      some (stop.widen front behind) := by
  obtain ⟨position, hc, rfl, -⟩ := offset_of_afterCloser? h
  rw [offset_between, rest_between] at hc
  obtain ⟨hle, hlt⟩ := Bracket.closing?_bounds hc
  have hc' : bracket.closing? 1 (front ++ left).length (rest ++ behind) =
      some (position + front.length) := by
    rw [List.length_append, Nat.add_comm, Bracket.closing?_add,
      Bracket.closing?_append_of_some hc, Option.map_some]
  have hn : position + front.length + 1 - (front ++ left).length =
      position + 1 - left.length := by
    rw [List.length_append]
    omega
  rw [afterCloser?, offset_between, rest_between, hc', Option.map_some, hn, offset_between,
    advance_eq_between, advance_eq_between, Place.widen_between, List.append_assoc,
    List.take_append_of_le_length (by omega), List.drop_append_of_le_length (by omega)]

theorem afterCloser?_eq_none (h : afterCloser? bracket (between left rest) = none)
    (hb : bracket.closer ∉ behind) (front : Text) :
    afterCloser? bracket (between (front ++ left) (rest ++ behind)) = none := by
  have hc := Bracket.closing?_append_of_notMem (Option.map_eq_none_iff.mp h) hb
  rw [afterCloser?, Option.map_eq_none_iff, offset_between, rest_between, List.length_append,
    Nat.add_comm, Bracket.closing?_add, Option.map_eq_none_iff]
  exact hc

/-! ### Reaches in a longer text -/

/-- Two places mean the same, one in a text of length `length` and one in a longer text with `shift`
characters in front of it: they are the same place of the text, or both are behind all of it. -/
def SameReach (shift length stop stop' : Nat) : Prop :=
  stop' = shift + stop ∨ length ≤ stop ∧ shift + length ≤ stop'

/-- White space and closing braces. -/
def ClosesBlocks (text : Text) : Prop := ∀ c ∈ text, isBlank c = true ∨ c = '\x7d'

theorem ClosesBlocks.notMem (h : ClosesBlocks behind) {c : Char} (hc : isBlank c = false)
    (hn : c ≠ '\x7d') : c ∉ behind := by
  intro hm
  rcases h c hm with hb | hb
  · rw [hc] at hb
    cases hb
  · exact hn hb

theorem ClosesBlocks.isWord (h : ClosesBlocks behind) : ∀ c ∈ behind, isWord c = false := by
  intro c hc
  rcases h c hc with hb | rfl
  · exact isWord_of_isBlank hb
  · decide

theorem textEnd_between (left rest : Text) :
    (between left rest).textEnd = left.length + rest.length := rfl

theorem sameReach_textEnd (front left rest behind : Text) :
    SameReach front.length (left.length + rest.length) (between left rest).textEnd
      (between (front ++ left) (rest ++ behind)).textEnd := by
  refine Or.inr ⟨le_refl _, ?_⟩
  simp only [textEnd_between, List.length_append]
  omega

theorem sameReach_blockEnd (front left rest behind : Text) :
    SameReach front.length (left.length + rest.length) (blockEnd (between left rest))
      (blockEnd (between (front ++ left) (rest ++ behind))) := by
  cases h : afterCloser? .curly (between left rest) with
  | some stop =>
    rw [blockEnd, h, blockEnd, afterCloser?_widen h]
    exact Or.inl rfl
  | none =>
    refine Or.inr ⟨?_, ?_⟩
    · rw [blockEnd, h]
      exact le_refl _
    · rw [blockEnd]
      cases h' : afterCloser? .curly (between (front ++ left) (rest ++ behind)) with
      | some stop =>
        obtain ⟨position, hc, -, ho⟩ := offset_of_afterCloser? h'
        rw [offset_between, rest_between, List.length_append, Nat.add_comm front.length,
          Bracket.closing?_add] at hc
        obtain ⟨position', hc', rfl⟩ := Option.map_eq_some_iff.mp hc
        have hle := Bracket.le_of_closing?_append (Option.map_eq_none_iff.mp h) hc'
        rw [offset_between, rest_between] at hle
        dsimp only
        omega
      | none =>
        simp only [textEnd_between, List.length_append]
        omega

/-! ### Ends of statements -/

theorem position?_append_of_notMem {c : Char} (h : c ∉ behind) (rest : Text) :
    Text.position? c (rest ++ behind) = Text.position? c rest := by
  induction rest with
  | nil =>
    have hp := position?_append h []
    rwa [List.append_nil] at hp
  | cons d rest ih => rw [List.cons_append, Text.position?, Text.position?, ih]

theorem simpleEnd_between (left rest : Text) :
    simpleEnd (between left rest) =
      match Text.position? '\x7b' rest, Text.position? ';' rest with
      | some b, none => blockEnd ((between left rest).advance (b + 1))
      | some b, some s =>
        if b < s then blockEnd ((between left rest).advance (b + 1)) else left.length + s + 1
      | none, some s => left.length + s + 1
      | none, none => (between left rest).textEnd :=
  simpleEnd_eq (between left rest)

theorem sameReach_simpleEnd (hb : ClosesBlocks behind) (front left rest : Text) :
    SameReach front.length (left.length + rest.length) (simpleEnd (between left rest))
      (simpleEnd (between (front ++ left) (rest ++ behind))) := by
  rw [simpleEnd_between, simpleEnd_between,
    position?_append_of_notMem (hb.notMem (by decide) (by decide)),
    position?_append_of_notMem (hb.notMem (by decide) (by decide))]
  have hblock : ∀ b, Text.position? '\x7b' rest = some b →
      SameReach front.length (left.length + rest.length)
        (blockEnd ((between left rest).advance (b + 1)))
        (blockEnd ((between (front ++ left) (rest ++ behind)).advance (b + 1))) := by
    intro b hp
    obtain ⟨inner, more, rfl, rfl⟩ := position?_eq_some hp
    have hlen : inner.length + 1 = (inner ++ ['\x7b']).length := by simp
    have hsplit : inner ++ '\x7b' :: more = inner ++ ['\x7b'] ++ more := by simp
    rw [hlen, hsplit, advance_between, List.append_assoc _ more, advance_between]
    have hreach := sameReach_blockEnd front (left ++ (inner ++ ['\x7b'])) more behind
    simpa [Nat.add_assoc, Nat.add_comm 1] using hreach
  have hstop : ∀ s, SameReach front.length (left.length + rest.length) (left.length + s + 1)
      ((front ++ left).length + s + 1) := by
    intro s
    refine Or.inl ?_
    rw [List.length_append]
    omega
  cases hp : Text.position? '\x7b' rest with
  | none =>
    cases Text.position? ';' rest with
    | none => exact sameReach_textEnd front left rest behind
    | some s => exact hstop s
  | some b =>
    cases Text.position? ';' rest with
    | none => exact hblock b hp
    | some s =>
      dsimp only
      split
      · exact hblock b hp
      · exact hstop s

/-- **A block ends where its brace is closed.** -/
theorem statementEnd_brace {gap : Text} (hg : ∀ c ∈ gap, isBlank c = true) (left rest : Text) :
    statementEnd (between left (gap ++ '\x7b' :: rest)) =
      blockEnd (between (left ++ gap ++ ['\x7b']) rest) := by
  have hstart : skipBlanks (between left (gap ++ '\x7b' :: rest)) =
      between (left ++ gap) ('\x7b' :: rest) := skipBlanks_between hg rfl left
  have hopen : (between (left ++ gap) ('\x7b' :: rest)).advance 1 =
      between (left ++ gap ++ ['\x7b']) rest := advance_between _ ['\x7b'] _
  rw [← hopen, ← hstart]
  exact statementEnd_of_brace (by rw [hstart, rest_between])

theorem exists_gap_append (text : Text) : ∃ gap rest, text = gap ++ rest ∧
    (∀ c ∈ gap, isBlank c = true) ∧ rest.head?.any isBlank = false := by
  refine ⟨_, _, List.takeWhile_append_dropWhile.symm, fun c hc => List.mem_takeWhile_imp hc, ?_⟩
  cases hd : text.dropWhile isBlank with
  | nil => rfl
  | cons c rest =>
    have hc := List.head_dropWhile_not isBlank (by rw [hd]; exact List.cons_ne_nil c rest)
    simpa [hd] using hc

/-- A statement that starts behind the text goes to the very end. -/
theorem statementEnd_of_closesBlocks (h : ClosesBlocks rest) (left : Text) :
    statementEnd (between left rest) = (between left rest).textEnd := by
  obtain ⟨gap, more, rfl, hg, hm⟩ := exists_gap_append rest
  have hmore : ClosesBlocks more := fun c hc => h c (List.mem_append_right _ hc)
  have hstart := skipBlanks_between hg hm left
  cases more with
  | nil =>
    rw [statementEnd, hstart]
    rfl
  | cons c more =>
    obtain ⟨hc, hrest⟩ := List.forall_mem_cons.mp hmore
    obtain rfl : c = '\x7d' := by
      refine hc.resolve_left ?_
      rw [show isBlank c = false from hm]
      decide
    have hnone : loopHeader.matchAt? (between (left ++ gap) ('\x7d' :: more)) = none := by
      cases hmatch : loopHeader.matchAt? (between (left ++ gap) ('\x7d' :: more)) with
      | none => rfl
      | some header =>
        obtain ⟨d, _, hd, hw⟩ := exists_cons_of_loopHeader hmatch
        rw [← (List.cons.inj hd).1] at hw
        exact absurd hw (by decide)
    have hsimple : simpleEnd (between (left ++ gap) ('\x7d' :: more)) =
        (between (left ++ gap) ('\x7d' :: more)).textEnd := by
      have hnone : ∀ d, isBlank d = false → d ≠ '\x7d' →
          Text.position? d ('\x7d' :: more) = none :=
        fun d hd hn => position?_append_of_notMem (hmore.notMem hd hn) []
      rw [simpleEnd_between, hnone '\x7b' (by decide) (by decide),
        hnone ';' (by decide) (by decide)]
    rw [← hstart] at hnone
    rw [statementEnd_of_simple (by rw [hstart]; rfl) (by decide) hnone, hstart, hsimple]
    simp [textEnd_between, Nat.add_assoc]

/-! ### Loops in a longer text -/

/-- The reach of a loop in the text, and that of the loop in the longer text. -/
def SameSpan (shift length : Nat) (span span' : Nat × Nat) : Prop :=
  span.1 < length ∧ span'.1 = shift + span.1 ∧ SameReach shift length span.2 span'.2

/-- **A loop is nested in the same loops.** -/
theorem nesting_eq_of_forall₂ {shift length place : Nat} {spans spans' : List (Nat × Nat)}
    (hs : List.Forall₂ (SameSpan shift length) spans spans') (hp : place < length) :
    nesting spans' (shift + place) = nesting spans place := by
  have hiff : ∀ span span', SameSpan shift length span span' →
      (((span.1 < place && place < span.2) : Bool) = true ↔
        ((span'.1 < shift + place && shift + place < span'.2) : Bool) = true) := by
    rintro span span' ⟨-, hfirst, hlast⟩
    simp only [Bool.and_eq_true, decide_eq_true_eq]
    rcases hlast with hlast | hlast <;> omega
  have hfilter := List.rel_filter (fun _ _ hr => hiff _ _ hr) hs
  rw [nesting, nesting]
  exact congrArg (· + 1) hfilter.length_eq.symm

/-- What stands around the lines of a block: there is no word of a loop in front, and there are only
white space and closing braces behind. -/
structure Encloses (front behind : Text) : Prop where
  lacks : front.Lacks headerWords
  getLast?_front : front.getLast? = some '\n'
  closesBlocks : ClosesBlocks behind
  head?_behind : behind.head? = some '\n'

namespace Encloses

variable (h : Encloses front behind)

include h

theorem stays_loopHeader (left text : Text) : loopHeader.Stays left text behind := by
  have hnone : ∀ c, isBlank c = false → c ≠ '\x7d' → c ∉ behind := fun c => h.closesBlocks.notMem
  intro before back piece right kept _ _ he hf
  rcases List.append_eq_append_iff.mp he with ⟨more, rfl, hm⟩ | ⟨more, rfl, -⟩
  · rcases List.eq_nil_or_concat more with rfl | ⟨more, c, rfl⟩
    · simp
    · obtain ⟨-, gap, -, ⟨s, -, hs⟩ | ⟨-, hr⟩⟩ := exists_of_fits_loopHeader hf
      · -- a parenthesis ends the header
        rw [List.concat_eq_append, ← List.append_assoc, ← List.append_assoc] at hs
        obtain rfl : c = '(' := by simpa using (List.append_inj' hs rfl).2
        exact absurd (by rw [hm]; simp) (hnone '(' (by decide) (by decide))
      · -- a brace stands behind the header
        have hmem := List.mem_append_right (more.concat c) (List.mem_of_head? hr)
        exact absurd (hm ▸ hmem) (hnone '\x7b' (by decide) (by decide))
  · simp

/-- **The header of a loop in the text is one in the longer text.** -/
theorem matchAt?_loopHeader (left : Text) {rest : Text} (hr : rest ≠ []) :
    loopHeader.matchAt? (between (front ++ left) (rest ++ behind)) =
      (loopHeader.matchAt? (between left rest)).map (Match.widen front behind) := by
  refine matchAt?_widen (fun _ => ?_) ?_ hr (h.stays_loopHeader _ rest)
  · rw [h.getLast?_front]
    decide
  · rw [h.head?_behind]
    decide

theorem matchesIn_loopHeader (text : Text) :
    loopHeader.matchesIn (front ++ (text ++ behind)) =
      (loopHeader.matchesIn text).map (Match.widen front behind) := by
  have hlast : front.getLast?.any isWord = false := by
    rw [h.getLast?_front]
    decide
  have hbehind : behind.Lacks headerWords :=
    Text.lacks_of_forall h.closesBlocks.isWord fun word hw => (isWord_of_mem_headerWords word hw).1
  have hnone : loopHeader.matchesAfter (front ++ text) (behind ++ []) = [] := by
    rw [matchesAfter_append (avoids_loopHeader hbehind (Or.inr rfl) _)]
    rfl
  have hwide := @matchesAfter_widen loopHeader front [] text behind (by decide)
    (fun _ => by rw [h.getLast?_front]; decide) (by rw [h.head?_behind]; decide)
    (h.stays_loopHeader _ text)
  rw [List.append_nil, List.nil_append] at hwide
  rw [List.append_nil] at hnone
  rw [matchesIn_eq_matchesAfter, matchesAfter_append (avoids_loopHeader h.lacks (Or.inl hlast) []),
    List.nil_append, hwide, hnone, List.append_nil]
  rfl

/-- **How far the loop with a given header reaches**, if that is known of statements behind it. -/
theorem sameReach_loopEnd {left rest : Text} {header : Match}
    (hm : loopHeader.matchAt? (between left rest) = some header)
    (further : ∀ left' rest', left' ++ rest' = left ++ rest → rest'.length < rest.length →
      SameReach front.length (left'.length + rest'.length) (statementEnd (between left' rest'))
        (statementEnd (between (front ++ left') (rest' ++ behind)))) :
    SameReach front.length (left.length + rest.length) (loopEnd header)
      (loopEnd (header.widen front behind)) := by
  obtain ⟨piece, right, rfl, -, hstop, hfits⟩ := fits_of_matchAt? hm
  have hp := List.length_pos_iff.mpr (ne_nil_of_fits (by decide) hfits)
  have hdo : isDoHeader (header.widen front behind) = isDoHeader header := by
    rw [isDoHeader, isDoHeader, matchText_widen hm]
  have hstop' : (header.widen front behind).stop =
      between (front ++ (left ++ piece)) (right ++ behind) := by
    rw [Match.widen, hstop, Place.widen_between]
  have hlen : left.length + (piece ++ right).length = (left ++ piece).length + right.length := by
    simp only [List.length_append]
    omega
  rw [loopEnd, loopEnd, hdo, hstop, hstop', hlen]
  split
  · refine further (left ++ piece) right (List.append_assoc ..) ?_
    rw [List.length_append]
    omega
  · cases ha : afterCloser? .round (between (left ++ piece) right) with
    | some stop =>
      have hwide := afterCloser?_widen ha front behind
      obtain ⟨position, -, rfl, -⟩ := offset_of_afterCloser? ha
      rw [offset_between, advance_eq_between] at hwide ⊢
      rw [hwide, Place.widen_between]
      generalize position + 1 - (left ++ piece).length = n
      have hreach := further (left ++ piece ++ right.take n) (right.drop n)
        (by rw [List.append_assoc, List.take_append_drop, List.append_assoc])
        (by rw [List.length_drop, List.length_append]; omega)
      have hlen : (left ++ piece ++ right.take n).length + (right.drop n).length =
          (left ++ piece).length + right.length := by
        rw [@List.length_append _ (left ++ piece), Nat.add_assoc, ← List.length_append,
          List.take_append_drop]
      rwa [hlen] at hreach
    | none =>
      rw [afterCloser?_eq_none ha (h.closesBlocks.notMem (by decide) (by decide))]
      exact sameReach_textEnd front (left ++ piece) right behind

/-- **How far the statement at a place of the text reaches.** -/
theorem sameReach_statementEnd (left rest : Text) :
    SameReach front.length (left.length + rest.length) (statementEnd (between left rest))
      (statementEnd (between (front ++ left) (rest ++ behind))) := by
  induction hlen : rest.length using Nat.strong_induction_on generalizing left rest with
  | _ n ih =>
    subst hlen
    obtain ⟨gap, more, rfl, hg, hm⟩ := exists_gap_append rest
    cases more with
    | nil =>
      have hgap : ClosesBlocks (gap ++ []) := by
        rw [List.append_nil]
        exact fun c hc => Or.inl (hg c hc)
      have hall : ClosesBlocks (gap ++ [] ++ behind) :=
        List.forall_mem_append.mpr ⟨hgap, h.closesBlocks⟩
      rw [statementEnd_of_closesBlocks hgap, statementEnd_of_closesBlocks hall]
      exact sameReach_textEnd front left (gap ++ []) behind
    | cons c more =>
      have hstart := skipBlanks_between hg hm left
      have hm' : (c :: more ++ behind).head?.any isBlank = false := hm
      have hstart' := skipBlanks_between hg hm' (front ++ left)
      have hlen : left.length + (gap ++ c :: more).length =
          (left ++ gap).length + (c :: more).length := by
        simp only [List.length_append]
        omega
      rw [List.append_assoc gap]
      by_cases hc : c = '\x7b'
      · subst hc
        rw [statementEnd_brace hg, List.cons_append, statementEnd_brace hg]
        have hreach := sameReach_blockEnd front (left ++ gap ++ ['\x7b']) more behind
        simpa [Nat.add_assoc, Nat.add_comm 1] using hreach
      · have hwide := h.matchAt?_loopHeader (left ++ gap) (List.cons_ne_nil c more)
        rw [← List.append_assoc] at hwide
        cases hmatch : loopHeader.matchAt? (between (left ++ gap) (c :: more)) with
        | none =>
          rw [hmatch, Option.map_none, ← hstart'] at hwide
          rw [← hstart] at hmatch
          rw [statementEnd_of_simple (by rw [hstart]; rfl) hc hmatch,
            statementEnd_of_simple (by rw [hstart']; rfl) hc hwide, hstart, hstart', hlen,
            List.append_assoc front]
          exact sameReach_simpleEnd h.closesBlocks front (left ++ gap) (c :: more)
        | some header =>
          rw [hmatch, Option.map_some] at hwide
          rw [statementEnd_header hg hmatch, statementEnd_header hg hwide, hlen]
          refine h.sameReach_loopEnd hmatch fun left' rest' he hl => ?_
          refine ih _ ?_ left' rest' rfl
          rw [List.length_append]
          omega

/-- **The reaches of the loops are the same, one by one.** -/
theorem forall₂_loopSpans (text : Text) :
    List.Forall₂ (SameSpan front.length text.length) (loopSpans text)
      (loopSpans (front ++ (text ++ behind))) := by
  rw [loopSpans, loopSpans, h.matchesIn_loopHeader, List.map_map, List.forall₂_map_left_iff,
    List.forall₂_map_right_iff, List.forall₂_same]
  intro header hmem
  obtain ⟨left, right, rfl, hm⟩ := exists_of_mem_matchesAfter [] hmem
  rw [List.nil_append] at hm
  have hstart := (reads_of_matchAt? hm).1
  have hlen := length_rest_of_loopHeader hm
  rw [rest_between] at hlen
  have hreach := h.sameReach_loopEnd hm fun left' rest' _ _ => h.sameReach_statementEnd left' rest'
  rw [← List.length_append] at hreach
  refine ⟨?_, ?_, hreach⟩
  · rw [hstart, offset_between, List.length_append]
    omega
  · show (header.start.widen front behind).offset = front.length + header.start.offset
    rw [hstart, Place.widen_between, offset_between, offset_between, List.length_append]

variable {language : Language} (hl : language.usesBraces = true)

include hl

theorem loopCountOfMask (text : Text) :
    language.loopCountOfMask (front ++ (text ++ behind)) = language.loopCountOfMask text := by
  rw [Language.loopCountOfMask, Language.loopCountOfMask, if_pos hl, if_pos hl]
  exact (h.forall₂_loopSpans text).length_eq.symm

theorem loopDepthOfMask (text : Text) :
    language.loopDepthOfMask (front ++ (text ++ behind)) = language.loopDepthOfMask text := by
  have hspans := h.forall₂_loopSpans text
  have hnestings : List.Forall₂ Eq
      ((loopSpans text).map fun span => nesting (loopSpans text) span.1)
      ((loopSpans (front ++ (text ++ behind))).map fun span =>
        nesting (loopSpans (front ++ (text ++ behind))) span.1) := by
    rw [List.forall₂_map_left_iff, List.forall₂_map_right_iff]
    refine hspans.imp fun span span' hspan => ?_
    rw [hspan.2.1, nesting_eq_of_forall₂ hspans hspan.1]
  rw [List.forall₂_eq_eq_eq] at hnestings
  rw [Language.loopDepthOfMask, Language.loopDepthOfMask, if_pos hl, if_pos hl]
  dsimp only
  rw [hnestings]

end Encloses

end Snippet
