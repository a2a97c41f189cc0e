import Snippet.Definition
import Snippet.Loop
import Snippet.Print
import Snippet.Proofs.WholeWord

/-!
# Brackets are looked up where there are brackets

`Bracket.partner?` and `Bracket.parts` refuse a position without an opener and a range beyond the
text. Print calls, loops and definitions ask for partners and parts all the time, always at
positions that a match in the mask has led to. Here each of these questions is put to the operations
that check, and none of them is refused:

* `lookUpPrintCalls_eq`: the print calls of a snippet,
* `lookUpLoopSpans_eq`: the reaches of the loops in a mask,
* `lookUpDefinitions_eq`: the definitions in a mask with braces.

The reason is the same everywhere. A pattern that ends with an opener (`EndsWith`) leads to a place
just behind an opener of the mask, and there a partner is looked up (`partner?_of_opener`). Nesting
is followed to any depth.
-/

namespace Snippet

/-! ### Lookups in a text -/

namespace Bracket

theorem closing?_add (bracket : Bracket) (shift : Nat) (text : Text) (depth here : Nat) :
    bracket.closing? depth (here + shift) text =
      (bracket.closing? depth here text).map (· + shift) := by
  induction text generalizing depth here with
  | nil => rfl
  | cons c rest ih =>
    have hs : here + shift + 1 = here + 1 + shift := by omega
    rw [closing?, closing?, hs]
    split
    · exact ih (depth + 1) (here + 1)
    · split
      · split
        · rfl
        · exact ih (depth - 1) (here + 1)
      · exact ih depth (here + 1)

theorem closing?_bounds {bracket : Bracket} {text : Text} {depth here position : Nat}
    (h : bracket.closing? depth here text = some position) :
    here ≤ position ∧ position < here + text.length := by
  induction text generalizing depth here with
  | nil => cases h
  | cons c rest ih =>
    rw [closing?] at h
    rw [List.length_cons]
    split at h
    · have := ih h
      omega
    · split at h
      · split at h
        · cases h
          omega
        · have := ih h
          omega
      · have := ih h
        omega

theorem ofOpener?_opener (bracket : Bracket) : ofOpener? bracket.opener = some bracket := by
  cases bracket <;> decide

theorem closing?_opener (bracket : Bracket) (depth here : Nat) (rest : Text) :
    bracket.closing? depth here (bracket.opener :: rest) =
      bracket.closing? (depth + 1) (here + 1) rest := by
  rw [closing?, if_pos rfl]

/-- **At an opener a partner is found or missed, but not refused.** -/
theorem partner?_of_opener (bracket : Bracket) (left right : Text) :
    partner? (left ++ bracket.opener :: right) left.length =
      .ok ((bracket.closing? 1 (left.length + 1) right).map Int.ofNat) := by
  have hn : ¬ ((left.length : Int) < 0) := by omega
  rw [partner?]
  simp only [if_neg hn, Int.toNat_natCast, List.drop_left, ofOpener?_opener, List.append_nil,
    closing?_opener, Nat.zero_add]
  rw [Nat.add_comm, closing?_add]
  cases bracket.closing? 1 1 right with
  | none => rfl
  | some position => exact congrArg (fun p => Except.ok (some p)) (Int.add_comm ..)

/-! ### Parts of a range -/

theorem length_suffixes {count : Nat} {text : Text} (h : count ≤ text.length) :
    (Text.suffixes count text).length = count := by
  induction count generalizing text with
  | zero => rfl
  | succ count ih =>
    cases text with
    | nil => cases h
    | cons c rest =>
      rw [Text.suffixes, List.length_cons, ih (Nat.le_of_succ_le_succ h)]

theorem ne_nil_of_mem_suffixes (count : Nat) (text : Text) {suffix : Text}
    (h : suffix ∈ Text.suffixes count text) : suffix ≠ [] := by
  induction count generalizing text with
  | zero => cases h
  | succ count ih =>
    cases text with
    | nil => cases h
    | cons c rest =>
      rcases List.mem_cons.mp h with rfl | h
      · exact List.cons_ne_nil c rest
      · exact ih rest h

theorem isSome_partsFrom (separator : Text) {length : Nat} {readings : List Text}
    (depth : Int) (begun here skip : Nat) (hr : ∀ reading ∈ readings, reading ≠ [])
    (hl : length ≤ here + readings.length) :
    (partsFrom separator length depth begun here skip readings).isSome = true := by
  induction readings generalizing depth begun here skip with
  | nil =>
    rw [List.length_nil, Nat.add_zero] at hl
    rw [partsFrom, if_pos hl]
    rfl
  | cons reading more ih =>
    rw [List.length_cons] at hl
    obtain ⟨hn, hr⟩ := List.forall_mem_cons.mp hr
    have next : ∀ depth begun skip,
        (partsFrom separator length depth begun (here + 1) skip more).isSome = true :=
      fun depth begun skip => ih depth begun (here + 1) skip hr (by omega)
    cases reading with
    | nil => exact absurd rfl hn
    | cons c rest =>
      unfold partsFrom
      split
      · rfl
      · rw [List.head?_cons]
        cases skip with
        | succ skip => exact next _ _ _
        | zero =>
          dsimp only
          split
          · exact next _ _ _
          · split
            · exact next _ _ _
            · split
              · rw [Option.isSome_map]
                exact next _ _ _
              · exact next _ _ _

/-- **The parts of a range within the text are found, not refused.** -/
theorem parts_eq {text : Text} {start stop : Nat} (separator : Text) (h : start ≤ stop)
    (h' : stop ≤ text.length) :
    parts text start stop separator =
      .ok ((partsWithin text start stop separator).map fun part =>
        ((part.1 : Int), (part.2 : Int))) := by
  rw [parts, partsWithin]
  by_cases he : stop ≤ start
  · obtain rfl : start = stop := by omega
    rw [if_pos (le_refl _), Nat.sub_self]
    rfl
  · have hd : ((stop : Int) - start).toNat = stop - start := by omega
    have hc : stop - start ≤ (text.drop start).length := by
      rw [List.length_drop]
      omega
    have hs := isSome_partsFrom separator 0 0 0 0
      (fun _ => ne_nil_of_mem_suffixes (stop - start) (text.drop start))
      (show stop - start ≤ 0 + _ by rw [length_suffixes hc]; omega)
    obtain ⟨found, hf⟩ := Option.isSome_iff_exists.mp hs
    rw [if_neg (by omega)]
    simp only [hd, readings?, if_neg (show ¬ ((start : Int) < 0) by omega), Int.toNat_natCast,
      Option.bind_some, hf, Option.getD_some, List.map_map]
    congr 1

/-- The parts of a range, looked up with checks. -/
def lookUpParts (text : Text) (start stop : Nat) (separator : Text) :
    Except LookupError (List (Nat × Nat)) :=
  (parts text start stop separator).map (·.map fun (first, last) => (first.toNat, last.toNat))

theorem lookUpParts_eq {text : Text} {start stop : Nat} (separator : Text) (h : start ≤ stop)
    (h' : stop ≤ text.length) :
    lookUpParts text start stop separator = .ok (partsWithin text start stop separator) := by
  rw [lookUpParts, parts_eq separator h h', Except.map, List.map_map]
  exact congrArg Except.ok (List.map_id _)

/-- The position that closes the bracket whose opener stands just before a position, looked up with
checks. -/
def lookUpCloser (text : Text) (inside : Nat) : Except LookupError (Option Nat) :=
  (partner? text (inside - 1)).map (·.map Int.toNat)

end Bracket

/-! ### Places behind openers -/

open Pattern Place

theorem position?_eq_some {c : Char} {text : Text} {distance : Nat}
    (h : Text.position? c text = some distance) :
    ∃ front rest, text = front ++ c :: rest ∧ front.length = distance := by
  induction text generalizing distance with
  | nil => cases h
  | cons d rest ih =>
    rw [Text.position?] at h
    split at h
    next hd =>
      cases h
      exact ⟨[], rest, by rw [hd]; rfl, rfl⟩
    next =>
      obtain ⟨more, hm, rfl⟩ := Option.map_eq_some_iff.mp h
      obtain ⟨front, rest, rfl, rfl⟩ := ih hm
      exact ⟨d :: front, rest, rfl, rfl⟩

namespace Place

theorem advance_eq_between (n : Nat) (left right : Text) :
    advance n (between left right) = between (left ++ right.take n) (right.drop n) := by
  by_cases hn : n ≤ right.length
  · have ha := advance_between left (right.take n) (right.drop n)
    rwa [List.take_append_drop, List.length_take_of_le hn] at ha
  · induction right generalizing n left with
    | nil => cases n <;> simp [advance]
    | cons c right ih =>
      cases n with
      | zero => exact absurd (Nat.zero_le _) hn
      | succ n =>
        have hi := ih n (left ++ [c]) fun h => hn (Nat.succ_le_succ h)
        rw [← between_snoc, List.append_assoc, List.singleton_append] at hi
        exact hi

/-- The place lies in the text. -/
def Within (text : Text) (place : Place) : Prop :=
  ∃ left right, text = left ++ right ∧ place = between left right

theorem Within.advance {text : Text} {place : Place} (h : place.Within text) (n : Nat) :
    (place.advance n).Within text := by
  obtain ⟨left, right, rfl, rfl⟩ := h
  refine ⟨left ++ right.take n, right.drop n, ?_, advance_eq_between n left right⟩
  rw [List.append_assoc, List.take_append_drop]

theorem Within.textEnd_eq {text : Text} {place : Place} (h : place.Within text) :
    place.textEnd = text.length := by
  obtain ⟨left, right, rfl, rfl⟩ := h
  rw [textEnd, List.length_append]
  rfl

/-- The place lies in the text, just behind the opener of a bracket. -/
def Behind (text : Text) (bracket : Bracket) (place : Place) : Prop :=
  ∃ left right, text = left ++ bracket.opener :: right ∧
    place = between (left ++ [bracket.opener]) right

variable {text : Text} {bracket : Bracket} {place : Place}

theorem Behind.within (h : place.Behind text bracket) : place.Within text := by
  obtain ⟨left, right, rfl, rfl⟩ := h
  exact ⟨left ++ [bracket.opener], right, by simp, rfl⟩

/-- **Behind an opener its closer is found or missed, but not refused.** -/
theorem Behind.lookUpCloser_eq (h : place.Behind text bracket) :
    Bracket.lookUpCloser text place.offset =
      .ok (bracket.closing? 1 place.offset place.rest) := by
  obtain ⟨left, right, rfl, rfl⟩ := h
  have hp : ((between (left ++ [bracket.opener]) right).offset : Int) - 1 = left.length := by
    rw [offset_between, List.length_append, List.length_singleton]
    omega
  rw [Bracket.lookUpCloser, hp, Bracket.partner?_of_opener, offset_between, List.length_append,
    List.length_singleton, rest_between]
  cases bracket.closing? 1 (left.length + 1) right <;> rfl

end Place

namespace Pattern

variable {pattern first second : Pattern} {c : Char} {text : Text}

/-- Whatever the pattern describes ends with the character. -/
def EndsWith (pattern : Pattern) (c : Char) : Prop :=
  ∀ left piece right held kept, pattern.Fits left piece right held kept →
    ∃ front, piece = front ++ [c]

theorem endsWith_char (c : Char) : (char c).EndsWith c :=
  fun _ _ _ _ _ hf => ⟨[], (fits_char.mp hf).1⟩

theorem EndsWith.of_append (h : second.EndsWith c) (first : Pattern) :
    (first ++ second).EndsWith c := by
  rintro left _ right held kept ⟨front, _, _, rfl, _, hs⟩
  obtain ⟨more, rfl⟩ := h _ _ _ _ _ hs
  exact ⟨front ++ more, (List.append_assoc ..).symm⟩

theorem endsWith_next (c : Char) : (next c).EndsWith c := (endsWith_char c).of_append blanks

theorem within_of_matchAt? {place : Place} {found : Match} (hp : place.Within text)
    (h : pattern.matchAt? place = some found) : found.stop.Within text := by
  obtain ⟨left, _, rfl, rfl⟩ := hp
  obtain ⟨piece, right, rfl, _, hs, _⟩ := fits_of_matchAt? h
  exact ⟨left ++ piece, right, (List.append_assoc ..).symm, hs⟩

theorem within_of_mem_matchesIn {found : Match} (h : found ∈ pattern.matchesIn text) :
    found.stop.Within text := by
  obtain ⟨left, piece, right, rfl, _, hs, _⟩ := fits_of_mem_matchesIn h
  exact ⟨left ++ piece, right, (List.append_assoc ..).symm, hs⟩

/-- **A pattern that ends with an opener leads behind an opener.** -/
theorem behind_of_mem_matchesIn {bracket : Bracket} {found : Match}
    (hp : pattern.EndsWith bracket.opener) (h : found ∈ pattern.matchesIn text) :
    found.stop.Behind text bracket := by
  obtain ⟨left, _, right, rfl, _, hs, hf⟩ := fits_of_mem_matchesIn h
  obtain ⟨front, rfl⟩ := hp _ _ _ _ _ hf
  exact ⟨left ++ front, right, by simp, by rw [hs, List.append_assoc]⟩

end Pattern

/-! ### Many lookups -/

section

variable {α β ε : Type} {items : List α}

theorem mapM_eq_ok {f : α → Except ε β} {g : α → β} (h : ∀ item ∈ items, f item = .ok (g item)) :
    items.mapM f = .ok (items.map g) := by
  induction items with
  | nil => rfl
  | cons item items ih =>
    obtain ⟨hi, hs⟩ := List.forall_mem_cons.mp h
    rw [List.mapM_cons, hi, ih hs]
    rfl

/-- What is found for some items, if nothing is refused. -/
def lookUpEach (f : α → Except ε (Option β)) (items : List α) : Except ε (List β) :=
  (items.mapM f).map List.reduceOption

theorem lookUpEach_eq {f : α → Except ε (Option β)} {g : α → Option β}
    (h : ∀ item ∈ items, f item = .ok (g item)) : lookUpEach f items = .ok (items.filterMap g) := by
  rw [lookUpEach, mapM_eq_ok h]
  show Except.ok ((items.map g).filterMap id) = _
  rw [List.filterMap_map]
  rfl

end

/-! ### Print calls -/

namespace PrintCall

/-- A call of a routine, with its lookups checked. -/
def lookUpCall (code mask : Text) (routine : Routine) (found : Match) :
    Except LookupError (Option (Nat × PrintCall)) := do
  let inside := found.stop.offset
  match ← Bracket.lookUpCloser mask inside with
  | none => return none
  | some close =>
    let ranges ← Bracket.lookUpParts mask inside close [',']
    return some (found.start.offset, ⟨routine, pieces code ranges, routine.endsLine⟩)

/-- The calls of one routine, with their lookups checked. -/
def lookUpRoutine (code mask : Text) (routine : Routine) :
    Except LookupError (List (Nat × PrintCall)) :=
  lookUpEach (lookUpCall code mask routine) ((callPattern routine).matchesIn mask)

/-- An insertion into the standard output stream, with its lookup checked. -/
def lookUpInsertion (code mask : Text) (found : Match) :
    Except LookupError (Nat × PrintCall) := do
  let first := found.stop.offset
  let stop := match Text.position? ';' found.stop.rest with
    | some distance => first + distance
    | none => mask.length
  let ranges ← Bracket.lookUpParts mask first stop ['<', '<']
  let segments := pieces code ranges
  return (found.start.offset,
    ⟨.stream, segments.filter (!isLineEnder ·), segments.any isLineEnder⟩)

/-- The insertions into the standard output stream, with their lookups checked. -/
def lookUpStream (code mask : Text) : Except LookupError (List (Nat × PrintCall)) :=
  (streamPattern.matchesIn mask).mapM (lookUpInsertion code mask)

theorem endsWith_callPattern (routine : Routine) :
    (callPattern routine).EndsWith Bracket.round.opener :=
  (endsWith_next '(').of_append _

theorem lookUpRoutine_eq (code mask : Text) (routine : Routine) :
    lookUpRoutine code mask routine = .ok (ofRoutine code mask routine) := by
  refine lookUpEach_eq ?_
  intro found hf
  have hb := behind_of_mem_matchesIn (endsWith_callPattern routine) hf
  have he := hb.within.textEnd_eq
  rw [textEnd] at he
  rw [lookUpCall, hb.lookUpCloser_eq]
  dsimp only
  cases hc : Bracket.round.closing? 1 found.stop.offset found.stop.rest with
  | none => rfl
  | some close =>
    have hl := Bracket.closing?_bounds hc
    show (Bracket.lookUpParts mask found.stop.offset close [',']).bind _ = _
    rw [Bracket.lookUpParts_eq [','] hl.1 (by omega)]
    rfl

theorem lookUpStream_eq (code mask : Text) :
    lookUpStream code mask = .ok (ofStream code mask) := by
  refine mapM_eq_ok ?_
  intro found hf
  have he := (within_of_mem_matchesIn hf).textEnd_eq
  rw [textEnd] at he
  have ends : ∀ stop, found.stop.offset ≤ stop → stop ≤ mask.length →
      Bracket.lookUpParts mask found.stop.offset stop ['<', '<'] =
        .ok (Bracket.partsWithin mask found.stop.offset stop ['<', '<']) :=
    fun stop h h' => Bracket.lookUpParts_eq ['<', '<'] h h'
  rw [lookUpInsertion]
  cases hp : Text.position? ';' found.stop.rest with
  | none =>
    show (Bracket.lookUpParts mask found.stop.offset mask.length ['<', '<']).bind _ = _
    rw [ends mask.length (by omega) (le_refl _)]
    rfl
  | some distance =>
    obtain ⟨front, rest, hr, rfl⟩ := position?_eq_some hp
    have hl : front.length ≤ found.stop.rest.length := by rw [hr, List.length_append]; omega
    show (Bracket.lookUpParts mask found.stop.offset (found.stop.offset + front.length)
      ['<', '<']).bind _ = _
    rw [ends (found.stop.offset + front.length) (by omega) (by omega)]
    rfl

end PrintCall

namespace Language

/-- The statements of a snippet that print, with all lookups checked. -/
def lookUpPrintCalls (language : Language) (code : Text) : Except LookupError (List PrintCall) := do
  let mask := language.mask code
  let called ← language.routines.mapM (PrintCall.lookUpRoutine code mask)
  let inserted ← (if language = cpp then PrintCall.lookUpStream code mask else .ok [])
  return ((called.flatten ++ inserted).mergeSort fun a b => a.1 ≤ b.1).map (·.2)

/-- **The print calls of a snippet are found without a lookup being refused.** -/
theorem lookUpPrintCalls_eq (language : Language) (code : Text) :
    language.lookUpPrintCalls code = .ok (language.printCalls code) := by
  rw [lookUpPrintCalls, printCalls, printCallsByRoutine, List.flatMap]
  rw [mapM_eq_ok fun routine _ => PrintCall.lookUpRoutine_eq code (language.mask code) routine,
    PrintCall.lookUpStream_eq]
  by_cases hl : language = cpp
  · rw [if_pos hl, if_pos hl]
    rfl
  · rw [if_neg hl, if_neg hl]
    rfl

end Language

/-! ### Loops -/

theorem offset_advance {n : Nat} {place : Place} (h : n ≤ place.rest.length) :
    (place.advance n).offset = place.offset + n := by
  induction n generalizing place with
  | zero => rfl
  | succ n ih =>
    rw [advance]
    split
    next hr =>
      rw [hr] at h
      cases h
    next c rest hr =>
      rw [hr, List.length_cons] at h
      rw [ih (Nat.le_of_succ_le_succ h)]
      show place.offset + 1 + n = place.offset + (n + 1)
      omega

theorem offset_of_afterCloser? {bracket : Bracket} {place stop : Place}
    (h : afterCloser? bracket place = some stop) :
    ∃ position, bracket.closing? 1 place.offset place.rest = some position ∧
      stop = place.advance (position + 1 - place.offset) ∧ stop.offset = position + 1 := by
  obtain ⟨position, hc, rfl⟩ := Option.map_eq_some_iff.mp h
  have hl := Bracket.closing?_bounds hc
  refine ⟨position, hc, rfl, ?_⟩
  rw [offset_advance (by omega)]
  omega

theorem textEnd_advance (n : Nat) (place : Place) : (place.advance n).textEnd = place.textEnd := by
  induction n generalizing place with
  | zero => rfl
  | succ n ih =>
    rw [advance]
    split
    · rfl
    next c rest hr =>
      rw [ih, textEnd, textEnd, hr]
      exact Nat.succ_add ..

/-- Where the block ends whose brace stands just in front of a place. -/
def blockEnd (place : Place) : Nat :=
  match afterCloser? .curly place with
  | some stop => stop.offset
  | none => place.textEnd

/-- The end of a statement that is neither a block nor a loop: behind its semicolon, or that of the
block that opens in front of any semicolon. -/
theorem simpleEnd_eq (place : Place) :
    simpleEnd place =
      match Text.position? '\x7b' place.rest, Text.position? ';' place.rest with
      | some b, none => blockEnd (place.advance (b + 1))
      | some b, some s =>
        if b < s then blockEnd (place.advance (b + 1)) else place.offset + s + 1
      | none, some s => place.offset + s + 1
      | none, none => place.textEnd := by
  have hblock : ∀ b, blockEnd (place.advance (b + 1)) =
      match afterCloser? .curly (place.advance (b + 1)) with
      | some stop => stop.offset
      | none => place.textEnd := by
    intro b
    rw [blockEnd, textEnd_advance]
  rw [simpleEnd]
  cases Text.position? '\x7b' place.rest with
  | none => cases Text.position? ';' place.rest <;> rfl
  | some b =>
    cases Text.position? ';' place.rest with
    | none => exact (hblock b).symm
    | some s =>
      exact congrArg (fun stop => if b < s then stop else place.offset + s + 1) (hblock b).symm

theorem statementEnd_of_brace {place : Place} {rest : Text}
    (hr : (skipBlanks place).rest = '\x7b' :: rest) :
    statementEnd place = blockEnd ((skipBlanks place).advance 1) := by
  have hend : ((skipBlanks place).advance 1).textEnd = place.textEnd := by
    rw [textEnd_advance, skipBlanks, textEnd_advance]
  rw [statementEnd, blockEnd, hend]
  cases afterCloser? .curly ((skipBlanks place).advance 1) <;> simp only [hr, if_true]

/-- The end of a block whose brace stands just before a position, with its lookup checked. -/
def lookUpBlockEnd (mask : Text) (inside : Nat) : Except LookupError Nat :=
  (Bracket.lookUpCloser mask inside).map fun
    | some close => close + 1
    | none => mask.length

/-- The end of a statement that is neither a block nor a loop, with its lookup checked. -/
def lookUpSimpleEnd (mask : Text) (place : Place) : Except LookupError Nat :=
  let semicolon := Text.position? ';' place.rest
  let brace := Text.position? '\x7b' place.rest
  match brace, semicolon with
  | some b, none => lookUpBlockEnd mask (place.offset + b + 1)
  | some b, some s =>
    if b < s then lookUpBlockEnd mask (place.offset + b + 1) else .ok (place.offset + s + 1)
  | none, some s => .ok (place.offset + s + 1)
  | none, none => .ok mask.length

/-- The end of a statement, with all lookups checked. -/
def lookUpStatementEnd (mask : Text) (place : Place) : Except LookupError Nat :=
  let start := skipBlanks place
  match start.rest with
  | [] => .ok mask.length
  | c :: _ =>
    if c = '\x7b' then lookUpBlockEnd mask (start.offset + 1)
    else
      match _h : loopHeader.matchAt? start with
      | none => lookUpSimpleEnd mask start
      | some header =>
        if isDoHeader header then lookUpStatementEnd mask header.stop
        else
          match Bracket.lookUpCloser mask header.stop.offset with
          | .error e => .error e
          | .ok none => .ok mask.length
          | .ok (some close) =>
            lookUpStatementEnd mask (header.stop.advance (close + 1 - header.stop.offset))
termination_by place.rest.length
decreasing_by
  · have := length_rest_of_loopHeader _h
    have : start.rest.length ≤ place.rest.length := length_rest_skipBlanks place
    omega
  · have := length_rest_of_loopHeader _h
    have : start.rest.length ≤ place.rest.length := length_rest_skipBlanks place
    rw [rest_advance, List.length_drop]
    omega

/-- The end of the loop with a given header, with all lookups checked. -/
def lookUpLoopEnd (mask : Text) (header : Match) : Except LookupError Nat :=
  if isDoHeader header then lookUpStatementEnd mask header.stop
  else
    match Bracket.lookUpCloser mask header.stop.offset with
    | .error e => .error e
    | .ok none => .ok mask.length
    | .ok (some close) =>
      lookUpStatementEnd mask (header.stop.advance (close + 1 - header.stop.offset))

/-- The reach of every loop in a mask, with all lookups checked. -/
def lookUpLoopSpans (mask : Text) : Except LookupError (List (Nat × Nat)) :=
  (loopHeader.matchesIn mask).mapM fun header =>
    (lookUpLoopEnd mask header).map (header.start.offset, ·)

theorem lookUpBlockEnd_eq {mask : Text} {place : Place} (h : place.Behind mask .curly) :
    lookUpBlockEnd mask place.offset = .ok (blockEnd place) := by
  rw [lookUpBlockEnd, h.lookUpCloser_eq, blockEnd, h.within.textEnd_eq]
  cases ha : afterCloser? .curly place with
  | none =>
    rw [Option.map_eq_none_iff.mp ha]
    rfl
  | some stop =>
    obtain ⟨position, hc, _, ho⟩ := offset_of_afterCloser? ha
    rw [hc]
    exact congrArg Except.ok ho.symm

theorem behind_of_position? {mask : Text} {place : Place} {distance : Nat}
    (h : place.Within mask) (hp : Text.position? '\x7b' place.rest = some distance) :
    (place.advance (distance + 1)).Behind mask .curly ∧
      (place.advance (distance + 1)).offset = place.offset + distance + 1 := by
  obtain ⟨left, right, rfl, rfl⟩ := h
  obtain ⟨front, rest, hr, rfl⟩ := position?_eq_some hp
  rw [rest_between] at hr
  subst hr
  constructor
  · refine ⟨left ++ front, rest, by rw [List.append_assoc]; rfl, ?_⟩
    have ha := advance_between left (front ++ ['\x7b']) rest
    rw [List.append_assoc, List.length_append] at ha
    rw [List.append_assoc]
    exact ha
  · rw [offset_advance (by simp)]
    omega

theorem lookUpSimpleEnd_eq {mask : Text} {place : Place} (h : place.Within mask) :
    lookUpSimpleEnd mask place = .ok (simpleEnd place) := by
  have block : ∀ {distance}, Text.position? '\x7b' place.rest = some distance →
      lookUpBlockEnd mask (place.offset + distance + 1) =
        .ok (blockEnd (place.advance (distance + 1))) := by
    intro distance hp
    obtain ⟨hb, ho⟩ := behind_of_position? h hp
    rw [← ho, lookUpBlockEnd_eq hb]
  rw [lookUpSimpleEnd, simpleEnd_eq]
  cases hb : Text.position? '\x7b' place.rest with
  | none =>
    cases Text.position? ';' place.rest with
    | none => rw [h.textEnd_eq]
    | some s => rfl
  | some b =>
    cases Text.position? ';' place.rest with
    | none => exact block hb
    | some s =>
      dsimp only
      split
      · exact block hb
      · rfl

theorem Place.Within.skipBlanks {mask : Text} {place : Place} (h : place.Within mask) :
    (skipBlanks place).Within mask := h.advance _

theorem behind_of_loopHeader {mask : Text} {place : Place} {header : Match}
    (hp : place.Within mask) (h : loopHeader.matchAt? place = some header)
    (hd : isDoHeader header = false) : header.stop.Behind mask .round := by
  obtain ⟨left, _, rfl, rfl⟩ := hp
  obtain ⟨piece, right, rfl, hs, ht, hf⟩ := fits_of_matchAt? h
  rcases hf with hf | hf
  · obtain ⟨front, rfl⟩ := (endsWith_next '(').of_append _ _ _ _ _ _ hf
    exact ⟨left ++ front, right, by simp [Bracket.opener], by rw [ht, List.append_assoc]; rfl⟩
  · obtain ⟨front, _, _, rfl, hf, _⟩ := hf
    obtain ⟨_, _, _, rfl, hf, _⟩ := hf
    obtain ⟨_, _, _, rfl, ⟨rfl, rfl, _⟩, hf⟩ := fits_append.mp hf
    obtain ⟨rfl, rfl⟩ := fits_lit.mp hf
    rw [isDoHeader, Match.text, hs, ht, rest_between, List.nil_append] at hd
    simp [List.isPrefixOf] at hd

theorem behind_advance_one {mask : Text} {place : Place} {rest : Text} (h : place.Within mask)
    (hr : place.rest = '\x7b' :: rest) : (place.advance 1).Behind mask .curly := by
  obtain ⟨left, _, rfl, rfl⟩ := h
  rw [rest_between] at hr
  subst hr
  exact ⟨left, rest, rfl, advance_between left ['\x7b'] rest⟩

/-- Behind a loop header, the checked lookups go on as the statement does. -/
theorem lookUpLoopEnd_eq {mask : Text} {place : Place} {header : Match} (hp : place.Within mask)
    (hm : loopHeader.matchAt? place = some header)
    (further : ∀ place : Place, place.Within mask →
      place.rest.length ≤ header.stop.rest.length →
      lookUpStatementEnd mask place = .ok (statementEnd place)) :
    lookUpLoopEnd mask header = .ok (loopEnd header) := by
  have hw := within_of_matchAt? hp hm
  rw [lookUpLoopEnd, loopEnd]
  split
  next hd => exact further header.stop hw (le_refl _)
  next hd =>
    rw [Bool.not_eq_true] at hd
    rw [(behind_of_loopHeader hp hm hd).lookUpCloser_eq]
    cases ha : afterCloser? .round header.stop with
    | none =>
      rw [Option.map_eq_none_iff.mp ha, hw.textEnd_eq]
    | some stop =>
      have hl := length_rest_of_afterCloser? ha
      obtain ⟨position, hc, rfl, _⟩ := offset_of_afterCloser? ha
      rw [hc]
      exact further _ (hw.advance _) hl

theorem statementEnd_of_simple {place : Place} {c : Char} {rest : Text}
    (hr : (skipBlanks place).rest = c :: rest) (hc : c ≠ '\x7b')
    (hm : loopHeader.matchAt? (skipBlanks place) = none) :
    statementEnd place = simpleEnd (skipBlanks place) := by
  rw [statementEnd]
  simp only [hr, if_neg hc]
  split
  next => rfl
  next hm' => rw [hm] at hm'; cases hm'

theorem lookUpStatementEnd_of_simple {mask : Text} {place : Place} {c : Char} {rest : Text}
    (hr : (skipBlanks place).rest = c :: rest) (hc : c ≠ '\x7b')
    (hm : loopHeader.matchAt? (skipBlanks place) = none) :
    lookUpStatementEnd mask place = lookUpSimpleEnd mask (skipBlanks place) := by
  rw [lookUpStatementEnd]
  simp only [hr, if_neg hc]
  split
  next => rfl
  next hm' => rw [hm] at hm'; cases hm'

theorem statementEnd_of_header {place : Place} {c : Char} {rest : Text} {header : Match}
    (hr : (skipBlanks place).rest = c :: rest) (hc : c ≠ '\x7b')
    (hm : loopHeader.matchAt? (skipBlanks place) = some header)
    (he : place.textEnd = header.stop.textEnd) : statementEnd place = loopEnd header := by
  rw [statementEnd]
  simp only [hr, if_neg hc]
  split
  next hm' => rw [hm] at hm'; cases hm'
  next header' hm' =>
    obtain rfl := Option.some.inj (hm.symm.trans hm')
    rw [loopEnd, he]
    split
    · rfl
    · split
      next ha => rw [ha]
      next ha => rw [ha]

theorem lookUpStatementEnd_of_header {mask : Text} {place : Place} {c : Char} {rest : Text}
    {header : Match} (hr : (skipBlanks place).rest = c :: rest) (hc : c ≠ '\x7b')
    (hm : loopHeader.matchAt? (skipBlanks place) = some header) :
    lookUpStatementEnd mask place = lookUpLoopEnd mask header := by
  rw [lookUpStatementEnd]
  simp only [hr, if_neg hc]
  split
  next hm' => rw [hm] at hm'; cases hm'
  next header' hm' =>
    obtain rfl := Option.some.inj (hm.symm.trans hm')
    rfl

/-- **The end of every statement is found without a lookup being refused.** -/
theorem lookUpStatementEnd_eq {mask : Text} (place : Place) (h : place.Within mask) :
    lookUpStatementEnd mask place = .ok (statementEnd place) := by
  induction hn : place.rest.length using Nat.strong_induction_on generalizing place with
  | _ n ih =>
    subst hn
    have hs := h.skipBlanks
    have hle := length_rest_skipBlanks place
    cases hr : (skipBlanks place).rest with
    | nil =>
      rw [lookUpStatementEnd, statementEnd]
      simp only [hr]
      rw [h.textEnd_eq]
    | cons c rest =>
      by_cases hc : c = '\x7b'
      · subst hc
        have hb := behind_advance_one hs hr
        have ho : ((skipBlanks place).advance 1).offset = (skipBlanks place).offset + 1 :=
          offset_advance (by rw [hr]; simp)
        rw [lookUpStatementEnd, statementEnd_of_brace hr, ← lookUpBlockEnd_eq hb, ho]
        simp only [hr, if_true]
      · cases hm : loopHeader.matchAt? (skipBlanks place) with
        | none =>
          rw [statementEnd_of_simple hr hc hm, lookUpStatementEnd_of_simple hr hc hm]
          exact lookUpSimpleEnd_eq hs
        | some header =>
          have hl := length_rest_of_loopHeader hm
          have he : place.textEnd = header.stop.textEnd := by
            rw [h.textEnd_eq, (within_of_matchAt? hs hm).textEnd_eq]
          rw [statementEnd_of_header hr hc hm he, lookUpStatementEnd_of_header hr hc hm]
          exact lookUpLoopEnd_eq hs hm fun place' hw hl' => ih _ (by omega) place' hw rfl

/-- **The reaches of the loops in a mask are found without a lookup being refused.** -/
theorem lookUpLoopSpans_eq (mask : Text) : lookUpLoopSpans mask = .ok (loopSpans mask) := by
  refine mapM_eq_ok ?_
  intro header hm
  obtain ⟨left, right, hr, hm⟩ := exists_of_mem_matchesAfter [] hm
  rw [lookUpLoopEnd_eq ⟨left, right, hr, rfl⟩ hm fun place hw _ => lookUpStatementEnd_eq place hw]
  rfl

/-! ### Definitions -/

/-- The definition with a given header, with its lookup checked. -/
def lookUpDefinition (mask : Text) (header : Match) : Except LookupError (Option Definition) :=
  let name := header.groups.text 1
  if controlWords.contains (String.ofList name) then .ok none
  else
    (Bracket.lookUpCloser mask header.stop.offset).map fun
      | some close => some ⟨name, Text.slice mask header.stop.offset close⟩
      | none => some ⟨name, mask.drop header.stop.offset⟩

/-- The definitions in a mask with braces, with all lookups checked. -/
def lookUpDefinitions (mask : Text) : Except LookupError (List Definition) :=
  lookUpEach (lookUpDefinition mask) (bracedHeader.matchesIn mask ++ assignedHeader.matchesIn mask)

theorem endsWith_bracedHeader : bracedHeader.EndsWith Bracket.curly.opener :=
  (endsWith_next '\x7b').of_append _

theorem endsWith_assignedHeader : assignedHeader.EndsWith Bracket.curly.opener :=
  (endsWith_char '\x7b').of_append _

/-- **The definitions in a mask are found without a lookup being refused.** -/
theorem lookUpDefinitions_eq (mask : Text) :
    lookUpDefinitions mask = .ok (bracedDefinitions mask) := by
  refine lookUpEach_eq ?_
  intro header hm
  have hb : header.stop.Behind mask .curly := by
    rcases List.mem_append.mp hm with hm | hm
    · exact behind_of_mem_matchesIn endsWith_bracedHeader hm
    · exact behind_of_mem_matchesIn endsWith_assignedHeader hm
  obtain ⟨left, right, rfl, hs⟩ := hb.within
  rw [lookUpDefinition, bracedDefinition?, hb.lookUpCloser_eq]
  rw [hs, offset_between, rest_between]
  have hd := Bracket.closing?_add .curly left.length right 1 0
  rw [Nat.zero_add] at hd
  rw [hd]
  dsimp only
  split
  · rfl
  · cases Bracket.curly.closing? 1 0 right with
    | none => simp [Except.map]
    | some length => simp [Except.map, Text.slice]

end Snippet
