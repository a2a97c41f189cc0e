import Snippet.LoopSearch
import Snippet.Proofs.Lookup

/-!
# How deep the search for loops goes

A search for the end of a statement takes a frame, and another one for each header of a loop that it
comes to, as long as no brace stands behind the header (`statementDepth`). With a limit the search
breaks off exactly if it would take more frames than there are, and otherwise it finds what it finds
without a limit (`statementEndWithin_eq`, `loopSpansWithin_eq`).

* `Language.IsShallow` says that the frames suffice for every loop of a snippet; this decides on
  every question about its loops (`Language.loopDepthWithin_eq`).
* `two_mul_statementDepth_le`: a header takes two characters at least, so a search takes no more
  frames than half of the characters that are left, and one.
-/

namespace Snippet

open Pattern Place

variable {frames : Nat} {mask : Text} {place : Place} {header : Match}

/-! ### Frames of a search -/

/-- The frames that the search for the end of a statement takes. -/
def statementDepth (place : Place) : Nat :=
  let start := skipBlanks place
  match start.rest with
  | [] => 1
  | c :: _ =>
    if c = '\x7b' then 1
    else
      match _h : loopHeader.matchAt? start with
      | none => 1
      | some header =>
        if isDoHeader header then statementDepth header.stop + 1
        else
          match _h' : afterCloser? .round header.stop with
          | some stop => statementDepth stop + 1
          | none => 1
termination_by place.rest.length
decreasing_by
  · have := length_rest_of_loopHeader _h
    have : start.rest.length ≤ place.rest.length := length_rest_skipBlanks place
    omega
  · have := length_rest_of_loopHeader _h
    have := length_rest_of_afterCloser? _h'
    have : start.rest.length ≤ place.rest.length := length_rest_skipBlanks place
    omega

/-- The frames that the search for the end of a loop takes. A loop whose parenthesis is never closed
takes none. -/
def loopFrames (header : Match) : Nat :=
  if isDoHeader header then statementDepth header.stop
  else
    match afterCloser? .round header.stop with
    | some stop => statementDepth stop
    | none => 0

theorem statementDepth_pos (place : Place) : 0 < statementDepth place := by
  rw [statementDepth]
  split
  · exact Nat.one_pos
  · split
    · exact Nat.one_pos
    · split
      · exact Nat.one_pos
      · split
        · exact Nat.succ_pos _
        · split
          · exact Nat.succ_pos _
          · exact Nat.one_pos

theorem statementDepth_of_nil (hr : (skipBlanks place).rest = []) : statementDepth place = 1 := by
  rw [statementDepth]
  simp only [hr]

theorem statementDepth_of_brace {rest : Text} (hr : (skipBlanks place).rest = '\x7b' :: rest) :
    statementDepth place = 1 := by
  rw [statementDepth]
  simp only [hr, if_true]

theorem statementDepth_of_simple {c : Char} {rest : Text} (hr : (skipBlanks place).rest = c :: rest)
    (hc : c ≠ '\x7b') (hm : loopHeader.matchAt? (skipBlanks place) = none) :
    statementDepth place = 1 := by
  rw [statementDepth]
  simp only [hr, if_neg hc]
  split
  · rfl
  next hm' => rw [hm] at hm'; cases hm'

theorem statementDepth_of_header {c : Char} {rest : Text} (hr : (skipBlanks place).rest = c :: rest)
    (hc : c ≠ '\x7b') (hm : loopHeader.matchAt? (skipBlanks place) = some header) :
    statementDepth place = loopFrames header + 1 := by
  rw [statementDepth, loopFrames]
  simp only [hr, if_neg hc]
  split
  next hm' => rw [hm] at hm'; cases hm'
  next header' hm' =>
    obtain rfl := Option.some.inj (hm.symm.trans hm')
    split
    · rfl
    · split
      next ha => rw [ha]
      next ha => rw [ha]

/-- **A limited search finds the end, or it would take too many frames.** -/
theorem statementEndWithin_eq (frames : Nat) (place : Place) :
    statementEndWithin frames place =
      if statementDepth place ≤ frames then .ok (statementEnd place) else .error .tooDeep := by
  induction frames generalizing place with
  | zero => rw [statementEndWithin, if_neg (Nat.not_le.mpr (statementDepth_pos place))]
  | succ frames ih =>
    rw [statementEndWithin, statementEnd, statementDepth]
    cases hr : (skipBlanks place).rest with
    | nil => simp
    | cons c rest =>
      by_cases hc : c = '\x7b'
      · simp only [hc, if_true]
        cases afterCloser? .curly ((skipBlanks place).advance 1) <;> simp
      · simp only [if_neg hc]
        cases hm : loopHeader.matchAt? (skipBlanks place) with
        | none => simp
        | some header =>
          dsimp only
          by_cases hd : isDoHeader header = true
          · simp only [if_pos hd, ih, Nat.add_le_add_iff_right]
          · simp only [if_neg hd]
            cases ha : afterCloser? .round header.stop with
            | none => simp
            | some stop => simp only [ih, Nat.add_le_add_iff_right]

theorem loopEndWithin_eq (frames : Nat) (header : Match) :
    loopEndWithin frames header =
      if loopFrames header ≤ frames then .ok (loopEnd header) else .error .tooDeep := by
  rw [loopEndWithin, loopEnd, loopFrames]
  by_cases hd : isDoHeader header = true
  · simp only [if_pos hd, statementEndWithin_eq]
  · simp only [if_neg hd]
    cases afterCloser? .round header.stop with
    | none => simp
    | some stop => simp only [statementEndWithin_eq]

/-- A header takes two characters, so a search takes no more frames than half of them, and one. -/
theorem two_mul_statementDepth_le (place : Place) :
    2 * statementDepth place ≤ place.rest.length + 2 := by
  fun_induction statementDepth place with
  | case1 | case2 | case3 => omega
  | case4 place start c rest hr hc header hm hd ih =>
    have := length_rest_of_loopHeader hm
    have : start.rest.length ≤ place.rest.length := length_rest_skipBlanks place
    omega
  | case5 place start c rest hr hc header hm hd stop ha ih =>
    have := length_rest_of_loopHeader hm
    have := length_rest_of_afterCloser? ha
    have : start.rest.length ≤ place.rest.length := length_rest_skipBlanks place
    omega
  | case6 => omega

theorem loopFrames_le (header : Match) :
    2 * loopFrames header ≤ header.stop.rest.length + 2 := by
  rw [loopFrames]
  split
  · exact two_mul_statementDepth_le header.stop
  · cases ha : afterCloser? .round header.stop with
    | none => exact Nat.zero_le _
    | some stop =>
      have := two_mul_statementDepth_le stop
      have := length_rest_of_afterCloser? ha
      dsimp only
      omega

/-! ### Frames of a text -/

/-- Two steps that may break off in the same way are one step. -/
theorem bind_ite {α β γ ε : Type} {fine fine' : Prop} [Decidable fine] [Decidable fine'] {a : α}
    {b : β} {e : ε} (f : α → β → γ) :
    ((if fine then .ok a else .error e : Except ε α) >>= fun first =>
      (if fine' then .ok b else .error e : Except ε β) >>= fun second => pure (f first second)) =
    if fine ∧ fine' then .ok (f a b) else .error e := by
  by_cases h : fine
  · by_cases h' : fine'
    · rw [if_pos h, if_pos h', if_pos ⟨h, h'⟩]
      rfl
    · rw [if_pos h, if_neg h', if_neg (not_and_of_not_right fine h')]
      rfl
  · rw [if_neg h, if_neg (not_and_of_not_left fine' h)]
    rfl

/-- A map that breaks off at the items of one kind gives all of its results or breaks off. -/
theorem mapM_eq_ite {α β ε : Type} {f : α → Except ε β} {g : α → β} {fine : α → Prop}
    [DecidablePred fine] {e : ε}
    (h : ∀ item, f item = if fine item then .ok (g item) else .error e) (items : List α) :
    items.mapM f = if ∀ item ∈ items, fine item then .ok (items.map g) else .error e := by
  induction items with
  | nil => rfl
  | cons item items ih =>
    rw [List.mapM_cons, h, ih, bind_ite]
    simp only [List.forall_mem_cons, List.map_cons]

/-- The frames suffice for the search for the end of every loop in a mask. -/
def IsShallowMask (frames : Nat) (mask : Text) : Prop :=
  ∀ header ∈ loopHeader.matchesIn mask, loopFrames header ≤ frames

instance (frames : Nat) (mask : Text) : Decidable (IsShallowMask frames mask) :=
  inferInstanceAs (Decidable (∀ header ∈ loopHeader.matchesIn mask, loopFrames header ≤ frames))

/-- **With a limit the loops are found as they are without one, or not at all.** -/
theorem loopSpansWithin_eq (frames : Nat) (mask : Text) :
    loopSpansWithin frames mask =
      if IsShallowMask frames mask then .ok (loopSpans mask) else .error .tooDeep := by
  refine mapM_eq_ite (fun header => ?_) (loopHeader.matchesIn mask)
  rw [loopEndWithin_eq]
  split <;> rfl

namespace Language

variable {language : Language} {code : Text}

/-- The frames suffice for every question about the loops of a snippet. Where blocks are told by
indentation none are taken. -/
def IsShallow (language : Language) (frames : Nat) (code : Text) : Prop :=
  language.usesBraces = true → IsShallowMask frames (language.mask code)

instance (language : Language) (frames : Nat) (code : Text) :
    Decidable (language.IsShallow frames code) :=
  inferInstanceAs (Decidable (_ → _))

/-- What is told of the loops of a snippet, by `told` from their reaches in a mask with braces. -/
theorem tellWithin_eq {α : Type} (told : List (Nat × Nat) → α) (other : α) (language : Language)
    (frames : Nat) (code : Text) :
    (if language.usesBraces then (loopSpansWithin frames (language.mask code)).map told
      else .ok other) =
      if language.IsShallow frames code then
        .ok (if language.usesBraces then told (loopSpans (language.mask code)) else other)
      else .error .tooDeep := by
  rw [loopSpansWithin_eq]
  by_cases hb : language.usesBraces = true
  · by_cases hs : IsShallowMask frames (language.mask code)
    · simp [hb, IsShallow, hs, Except.map]
    · simp [hb, IsShallow, hs, Except.map]
  · simp [hb, IsShallow]

/-- **The depth of loops is told exactly where the frames suffice.** -/
theorem loopDepthWithin_eq (language : Language) (frames : Nat) (code : Text) :
    language.loopDepthWithin frames code =
      if language.IsShallow frames code then .ok (language.loopDepth code)
      else .error .tooDeep :=
  tellWithin_eq
    (fun spans => (spans.map fun span : Nat × Nat => nesting spans span.1).foldl max 0) _ language
    frames code

theorem loopCountWithin_eq (language : Language) (frames : Nat) (code : Text) :
    language.loopCountWithin frames code =
      if language.IsShallow frames code then .ok (language.loopCount code)
      else .error .tooDeep :=
  tellWithin_eq List.length _ language frames code

theorem hasLoopWithin_eq (language : Language) (frames : Nat) (code : Text) :
    language.hasLoopWithin frames code =
      if language.IsShallow frames code then .ok (language.hasLoop code) else .error .tooDeep := by
  rw [hasLoopWithin, loopDepthWithin_eq]
  split <;> rfl

theorem hasNestedLoopsWithin_eq (language : Language) (frames : Nat) (code : Text) :
    language.hasNestedLoopsWithin frames code =
      if language.IsShallow frames code then .ok (language.hasNestedLoops code)
      else .error .tooDeep := by
  rw [hasNestedLoopsWithin, loopDepthWithin_eq]
  split <;> rfl

end Language

end Snippet
