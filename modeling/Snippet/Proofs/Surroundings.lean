import Snippet.Proofs.Search

/-!
# A text within a longer text

What a pattern finds in a text it also finds where `left` stands in front of the text and `right`
behind it, as long as it cannot tell these from the ends of the text.  Two things could give them
away: the pattern may look at the neighbours of what it describes (`ignoresBefore`,
`ignoresBehind`), and it may describe a piece that goes on into `right`.

* `run_congr`: a run asks about described pieces only.
* `run_widen`: a run in the longer text that accepts nothing in `right` is the run in the text.
* `matchAt?_widen`, `matchesAfter_widen`: **the matches in the text are the matches in the longer
  text**, each at its place there, if no described piece goes on into `right`.

A character that the pattern never reads (`reads`) keeps every piece on its side, so a search may be
split there (`occursIn_append_cons`).
-/

namespace Snippet

/-! ### Places in a longer text -/

/-- A place of a text in the text that has `left` in front of it and `right` behind it. -/
def Place.widen (left right : Text) (place : Place) : Place :=
  ⟨place.last.or left.getLast?, left.length + place.offset, place.rest ++ right⟩

/-- Captured pieces in a text that goes on with `right`. -/
def Groups.widen (right : Text) (groups : Groups) : Groups :=
  groups.map fun (index, capture) => (index, ⟨capture.source ++ right, capture.length⟩)

/-- A match in a text, in the text that has `left` in front of it and `right` behind it. -/
def Match.widen (left right : Text) (found : Match) : Match :=
  ⟨found.start.widen left right, found.stop.widen left right, found.groups.widen right⟩

theorem Place.widen_between (left front rest right : Text) :
    (between front rest).widen left right = between (left ++ front) (rest ++ right) := by
  simp [widen, between, List.getLast?_append]

namespace Pattern

open Place

variable {α β : Type} {pattern : Pattern} {left front rest right : Text} {held kept : Groups}

/-! ### Neighbours -/

/-- Whether the pattern cannot tell the start of a text from a character in front of it. -/
def ignoresBefore (last : Option Char) : Pattern → Bool
  | seq first second | either first second => first.ignoresBefore last && second.ignoresBefore last
  | group _ inner => inner.ignoresBefore last
  | edge => !last.any isWord
  | notAfter p => !last.any p
  | lineStart => last.all (· == '\n')
  | _ => true

/-- Whether the pattern cannot tell the end of a text from a character behind it. A repeated group
is compared with all that follows. -/
def ignoresBehind (next : Option Char) : Pattern → Bool
  | seq first second | either first second => first.ignoresBehind next && second.ignoresBehind next
  | group _ inner => inner.ignoresBehind next
  | edge => !next.any isWord
  | before p => !next.any p
  | again .. => false
  | _ => true

theorem any_getLast?_append {p : Char → Bool} (h : front = [] → left.getLast?.any p = false) :
    (left ++ front).getLast?.any p = front.getLast?.any p := by
  by_cases hf : front = []
  · subst hf
    rw [List.append_nil, h rfl]
    rfl
  · rw [List.getLast?_append_of_ne_nil _ hf]

theorem any_head?_append {p : Char → Bool} (h : right.head?.any p = false) :
    (rest ++ right).head?.any p = rest.head?.any p := by
  cases rest with
  | nil => exact h
  | cons => rfl

/-! ### One character of a run -/

section

variable (left : Text) (c : Char) (rest : Text) (held : Groups)
  (accept : Place → Groups → Option α) (p : Char → Bool)

theorem run_one_between : (one p).run (between left (c :: rest)) held accept =
    if p c then accept (between (left ++ [c]) rest) held else none := by
  rw [← between_snoc]
  rfl

theorem run_many_between : (many p).run (between left (c :: rest)) held accept =
    if p c then ((many p).run (between (left ++ [c]) rest) held accept).or
      (accept (between left (c :: rest)) held)
    else accept (between left (c :: rest)) held := by
  rw [← between_snoc]
  show runMany p held accept left.getLast? left.length (c :: rest) = _
  rw [runMany]
  refine ite_congr rfl (fun _ => ?_) fun _ => rfl
  show _ = (runMany p held accept (some c) (left.length + 1) rest).or _
  cases runMany p held accept (some c) (left.length + 1) rest <;> rfl

theorem run_fewest_between : (fewest p).run (between left (c :: rest)) held accept =
    (accept (between left (c :: rest)) held).or
      (if p c then (fewest p).run (between (left ++ [c]) rest) held accept else none) := by
  rw [← between_snoc]
  show runFewest p held accept left.getLast? left.length (c :: rest) = _
  rw [runFewest]
  show _ = (accept ⟨left.getLast?, left.length, c :: rest⟩ held).or _
  cases accept ⟨left.getLast?, left.length, c :: rest⟩ held <;> rfl

end

/-! ### A run asks about described pieces -/

theorem run_many_congr {p : Char → Bool} {accept accept' : Place → Groups → Option α}
    (h : ∀ piece right, rest = piece ++ right → (∀ c ∈ piece, p c = true) →
      accept (between (left ++ piece) right) held = accept' (between (left ++ piece) right) held) :
    (many p).run (between left rest) held accept =
      (many p).run (between left rest) held accept' := by
  have hstay := h [] rest rfl (by simp)
  rw [List.append_nil] at hstay
  induction rest generalizing left with
  | nil => exact hstay
  | cons c rest ih =>
    rw [run_many_between, run_many_between, hstay]
    refine ite_congr rfl (fun hc => ?_) fun _ => rfl
    have hmore : ∀ piece right, rest = piece ++ right → (∀ c ∈ piece, p c = true) →
        accept (between (left ++ [c] ++ piece) right) held =
          accept' (between (left ++ [c] ++ piece) right) held := by
      rintro piece right rfl hp
      have hmore := h (c :: piece) right rfl (List.forall_mem_cons.mpr ⟨hc, hp⟩)
      rwa [List.append_cons] at hmore
    have hnext := hmore [] rest rfl (by simp)
    rw [List.append_nil] at hnext
    rw [ih hmore hnext]

theorem run_fewest_congr {p : Char → Bool} {accept accept' : Place → Groups → Option α}
    (h : ∀ piece right, rest = piece ++ right → (∀ c ∈ piece, p c = true) →
      accept (between (left ++ piece) right) held = accept' (between (left ++ piece) right) held) :
    (fewest p).run (between left rest) held accept =
      (fewest p).run (between left rest) held accept' := by
  have hstay := h [] rest rfl (by simp)
  rw [List.append_nil] at hstay
  induction rest generalizing left with
  | nil => exact hstay
  | cons c rest ih =>
    rw [run_fewest_between, run_fewest_between, hstay]
    refine congrArg _ (ite_congr rfl (fun hc => ?_) fun _ => rfl)
    have hmore : ∀ piece right, rest = piece ++ right → (∀ c ∈ piece, p c = true) →
        accept (between (left ++ [c] ++ piece) right) held =
          accept' (between (left ++ [c] ++ piece) right) held := by
      rintro piece right rfl hp
      have hmore := h (c :: piece) right rfl (List.forall_mem_cons.mpr ⟨hc, hp⟩)
      rwa [List.append_cons] at hmore
    have hnext := hmore [] rest rfl (by simp)
    rw [List.append_nil] at hnext
    exact ih hmore hnext

theorem accept_of_fits_nil {accept accept' : Place → Groups → Option α}
    (h : ∀ piece right kept, rest = piece ++ right → pattern.Fits left piece right held kept →
      accept (between (left ++ piece) right) kept = accept' (between (left ++ piece) right) kept)
    (hf : pattern.Fits left [] rest held held) :
    accept (between left rest) held = accept' (between left rest) held := by
  have hstay := h [] rest held rfl hf
  rwa [List.append_nil] at hstay

/-- **A run asks about described pieces only.** -/
theorem run_congr {accept accept' : Place → Groups → Option α}
    (h : ∀ piece right kept, rest = piece ++ right → pattern.Fits left piece right held kept →
      accept (between (left ++ piece) right) kept = accept' (between (left ++ piece) right) kept) :
    pattern.run (between left rest) held accept = pattern.run (between left rest) held accept' := by
  induction pattern generalizing left rest held accept accept' with
  | empty => exact accept_of_fits_nil h ⟨rfl, rfl⟩
  | one p =>
    cases rest with
    | nil => rfl
    | cons c rest =>
      by_cases hc : p c = true
      · have hone := h [c] rest held rfl ⟨⟨c, rfl, hc⟩, rfl⟩
        rw [← between_snoc] at hone
        show (if p c then _ else _ : Option α) = if p c then _ else _
        rw [if_pos hc, if_pos hc]
        exact hone
      · show (if p c then _ else _ : Option α) = if p c then _ else _
        rw [if_neg hc, if_neg hc]
  | many p => exact run_many_congr fun piece right hr hp => h piece right held hr ⟨hp, rfl⟩
  | fewest p => exact run_fewest_congr fun piece right hr hp => h piece right held hr ⟨hp, rfl⟩
  | seq first second ih ih' =>
    refine ih ?_
    rintro piece right middle rfl hf
    refine ih' ?_
    rintro piece' right' kept rfl hf'
    rw [List.append_assoc]
    exact h (piece ++ piece') right' kept (by rw [List.append_assoc])
      ⟨piece, piece', middle, rfl, hf, hf'⟩
  | either first second ih ih' =>
    rw [run_either, run_either,
      ih fun piece right kept hr hf => h piece right kept hr (Or.inl hf),
      ih' fun piece right kept hr hf => h piece right kept hr (Or.inr hf)]
  | group index inner ih =>
    refine ih ?_
    rintro piece right middle rfl hf
    have hl : (left ++ piece).length - left.length = piece.length := by simp
    show accept _ ((index, ⟨piece ++ right, (left ++ piece).length - left.length⟩) :: middle) =
      accept' _ ((index, ⟨piece ++ right, (left ++ piece).length - left.length⟩) :: middle)
    rw [hl]
    exact h piece right _ rfl ⟨middle, hf, rfl⟩
  | again index anyCase =>
    refine ite_congr rfl (fun ho => ?_) fun _ => rfl
    rw [rest_between] at ho
    have hl := length_le_of_opensWith ho
    have hcut := List.take_append_drop (held.text index).length rest
    have hpiece : (rest.take (held.text index).length).length = (held.text index).length := by
      rw [List.length_take, Nat.min_eq_left hl]
    have hagain := h _ _ held hcut.symm ⟨by rwa [hcut], hpiece, rfl⟩
    rwa [← advance_between, hcut, hpiece] at hagain
  | edge =>
    simp only [run]
    split
    next he => exact accept_of_fits_nil h ⟨rfl, rfl, he⟩
    · rfl
  | notAfter p =>
    simp only [run]
    split
    · rfl
    next hp => exact accept_of_fits_nil h ⟨rfl, rfl, by rwa [Bool.not_eq_true] at hp⟩
  | before p =>
    simp only [run]
    split
    next hp => exact accept_of_fits_nil h ⟨rfl, rfl, hp⟩
    · rfl
  | lineStart =>
    simp only [run]
    split
    next hp => exact accept_of_fits_nil h ⟨rfl, rfl, hp⟩
    · rfl

/-! ### A run within a longer text -/

theorem run_eq_none {place : Place} {accept : Place → Groups → Option α}
    (h : ∀ stop kept, accept stop kept = none) : pattern.run place held accept = none := by
  rw [Option.eq_none_iff_forall_ne_some]
  intro result hr
  obtain ⟨stop, kept, -, ha⟩ := exists_of_run_eq_some hr
  rw [h] at ha
  cases ha

theorem run_eq_none_of_forall {accept : Place → Groups → Option α}
    (h : ∀ piece right kept, rest = piece ++ right →
      accept (between (left ++ piece) right) kept = none) :
    pattern.run (between left rest) held accept = none := by
  have hnone : pattern.run (between left rest) held accept =
      pattern.run (between left rest) held fun _ _ => none :=
    run_congr fun piece right kept hr _ => h piece right kept hr
  rw [hnone]
  exact run_eq_none fun _ _ => rfl

/-- Two ways of accepting answer alike for the places in a text and in the longer text, and nothing
is accepted further to the right. -/
structure Answers (left front rest right : Text) (f : α → β)
    (accept : Place → Groups → Option α) (accept' : Place → Groups → Option β) : Prop where
  within : ∀ piece rest' kept, rest = piece ++ rest' →
    accept' (between (left ++ (front ++ piece)) (rest' ++ right)) (kept.widen right) =
      (accept (between (front ++ piece) rest') kept).map f
  beyond : ∀ piece right' kept, right = piece ++ right' → piece ≠ [] →
    accept' (between (left ++ (front ++ rest) ++ piece) right') kept = none

namespace Answers

variable {f : α → β} {accept : Place → Groups → Option α} {accept' : Place → Groups → Option β}

theorem here (h : Answers left front rest right f accept accept') (kept : Groups) :
    accept' (between (left ++ front) (rest ++ right)) (kept.widen right) =
      (accept (between front rest) kept).map f := by
  have hw := h.within [] rest kept rfl
  rwa [List.append_nil] at hw

theorem tail (piece : Text) (h : Answers left front (piece ++ rest) right f accept accept') :
    Answers left (front ++ piece) rest right f accept accept' where
  within more rest' kept hr := by
    have hw := h.within (piece ++ more) rest' kept (by rw [hr, List.append_assoc])
    rwa [← List.append_assoc front] at hw
  beyond more right' kept hr hn := by
    have hb := h.beyond more right' kept hr hn
    rwa [← List.append_assoc front] at hb

theorem run_eq_none_of_beyond (h : Answers left front rest right f accept accept')
    (piece : Text) {right' : Text} (hr : right = piece ++ right') (hn : piece ≠ [])
    (pattern : Pattern) (held : Groups) :
    pattern.run (between (left ++ (front ++ rest) ++ piece) right') held accept' = none := by
  refine run_eq_none_of_forall fun more right'' kept hr' => ?_
  rw [List.append_assoc]
  exact h.beyond (piece ++ more) right'' kept (by rw [hr, hr', List.append_assoc]) (by simp [hn])

end Answers

section

variable {f : α → β} {accept : Place → Groups → Option α} {accept' : Place → Groups → Option β}

theorem ite_eq_map {p p' : Prop} [Decidable p] [Decidable p'] (hp : p ↔ p') {x z : Option α}
    {y w : Option β} (h : y = x.map f) (h' : w = z.map f) :
    (if p then y else w) = (if p' then x else z).map f := by
  by_cases hx : p
  · rw [if_pos hx, if_pos (hp.mp hx), h]
  · rw [if_neg hx, if_neg (mt hp.mpr hx), h']

theorem run_one_widen {p : Char → Bool} (h : Answers left front rest right f accept accept') :
    (one p).run (between (left ++ front) (rest ++ right)) (held.widen right) accept' =
      ((one p).run (between front rest) held accept).map f := by
  cases rest with
  | nil =>
    cases right with
    | nil => rfl
    | cons c right =>
      have hb := h.beyond [c] right (held.widen (c :: right)) rfl (by simp)
      rw [List.append_nil] at hb
      rw [List.nil_append, run_one_between, hb, ite_self]
      rfl
  | cons c rest =>
    have hw := (Answers.tail [c] h).here held
    rw [List.cons_append, run_one_between, run_one_between, List.append_assoc, hw]
    split <;> rfl

/-- Behind the text nothing is accepted, so that a repetition stops at its end. -/
theorem run_many_end {p : Char → Bool} (h : Answers left front [] right f accept accept') :
    (many p).run (between (left ++ front) right) held accept' =
      accept' (between (left ++ front) right) held := by
  cases right with
  | nil => rfl
  | cons c right =>
    have hb := h.run_eq_none_of_beyond [c] rfl (by simp) (many p) held
    rw [List.append_nil] at hb
    rw [run_many_between, hb]
    exact ite_self _

theorem run_fewest_end {p : Char → Bool} (h : Answers left front [] right f accept accept') :
    (fewest p).run (between (left ++ front) right) held accept' =
      accept' (between (left ++ front) right) held := by
  cases right with
  | nil => rfl
  | cons c right =>
    have hb := h.run_eq_none_of_beyond [c] rfl (by simp) (fewest p) held
    rw [List.append_nil] at hb
    rw [run_fewest_between, hb, ite_self, Option.or_none]

theorem run_many_widen {p : Char → Bool} (h : Answers left front rest right f accept accept') :
    (many p).run (between (left ++ front) (rest ++ right)) (held.widen right) accept' =
      ((many p).run (between front rest) held accept).map f := by
  have hhere := h.here held
  induction rest generalizing front with
  | nil => rw [List.nil_append] at hhere ⊢; rw [run_many_end h, hhere]; rfl
  | cons c rest ih =>
    have htail := Answers.tail [c] h
    rw [List.cons_append] at hhere ⊢
    rw [run_many_between, run_many_between, List.append_assoc, ih htail (htail.here held), hhere]
    split
    · rw [Option.map_or]
    · rfl

theorem run_fewest_widen {p : Char → Bool} (h : Answers left front rest right f accept accept') :
    (fewest p).run (between (left ++ front) (rest ++ right)) (held.widen right) accept' =
      ((fewest p).run (between front rest) held accept).map f := by
  have hhere := h.here held
  induction rest generalizing front with
  | nil => rw [List.nil_append] at hhere ⊢; rw [run_fewest_end h, hhere]; rfl
  | cons c rest ih =>
    have htail := Answers.tail [c] h
    rw [List.cons_append] at hhere ⊢
    rw [run_fewest_between, run_fewest_between, List.append_assoc, ih htail (htail.here held),
      hhere, Option.map_or]
    split <;> rfl

/-- **A run in the longer text** that accepts nothing further to the right is the run in the
text. -/
theorem run_widen (hl : front = [] → pattern.ignoresBefore left.getLast? = true)
    (hr : pattern.ignoresBehind right.head? = true)
    (h : Answers left front rest right f accept accept') :
    pattern.run (between (left ++ front) (rest ++ right)) (held.widen right) accept' =
      (pattern.run (between front rest) held accept).map f := by
  induction pattern generalizing front rest held accept accept' with
  | empty => exact h.here held
  | one p => exact run_one_widen h
  | many p => exact run_many_widen h
  | fewest p => exact run_fewest_widen h
  | seq first second ih ih' =>
    simp only [ignoresBehind, Bool.and_eq_true] at hr
    have hl' : front = [] → first.ignoresBefore left.getLast? = true ∧
        second.ignoresBefore left.getLast? = true := by
      simpa only [ignoresBefore, Bool.and_eq_true] using hl
    refine ih (fun hf => (hl' hf).1) hr.1 ⟨?_, ?_⟩
    · rintro piece rest' kept rfl
      refine ih' (fun hf => (hl' (List.append_eq_nil_iff.mp hf).1).2) hr.2 (Answers.tail piece h)
    · intro piece right' kept hr' hn
      exact h.run_eq_none_of_beyond piece hr' hn second kept
  | either first second ih ih' =>
    simp only [ignoresBehind, Bool.and_eq_true] at hr
    have hl' : front = [] → first.ignoresBefore left.getLast? = true ∧
        second.ignoresBefore left.getLast? = true := by
      simpa only [ignoresBefore, Bool.and_eq_true] using hl
    rw [run_either, run_either, ih (fun hf => (hl' hf).1) hr.1 h,
      ih' (fun hf => (hl' hf).2) hr.2 h, Option.map_or]
  | group index inner ih =>
    refine ih hl hr ⟨?_, ?_⟩
    · rintro piece rest' kept rfl
      have hlen : (left ++ (front ++ piece)).length - (left ++ front).length =
          (front ++ piece).length - front.length := by
        simp only [List.length_append]
        omega
      show accept' _ ((index, ⟨piece ++ rest' ++ right,
        (left ++ (front ++ piece)).length - (left ++ front).length⟩) :: kept.widen right) = _
      rw [hlen]
      exact h.within piece rest'
        ((index, ⟨piece ++ rest', (front ++ piece).length - front.length⟩) :: kept) rfl
    · intro piece right' kept hr' hn
      exact h.beyond piece right' _ hr' hn
  | again index anyCase => cases hr
  | edge =>
    have hlast : (left ++ front).getLast?.any isWord = front.getLast?.any isWord :=
      any_getLast?_append fun hf => by simpa [ignoresBefore] using hl hf
    have hhead : (rest ++ right).head?.any isWord = rest.head?.any isWord :=
      any_head?_append (by simpa [ignoresBehind] using hr)
    refine ite_eq_map ?_ (h.here held) rfl
    rw [isEdge, isEdge, last_between, last_between, rest_between, rest_between, hlast, hhead]
  | notAfter p =>
    have hlast : (left ++ front).getLast?.any p = front.getLast?.any p :=
      any_getLast?_append fun hf => by simpa [ignoresBefore] using hl hf
    refine ite_eq_map ?_ rfl (h.here held)
    rw [last_between, last_between, hlast]
  | before p =>
    have hhead : (rest ++ right).head?.any p = rest.head?.any p :=
      any_head?_append (by simpa [ignoresBehind] using hr)
    refine ite_eq_map ?_ (h.here held) rfl
    rw [rest_between, rest_between, hhead]
  | lineStart =>
    have hlast : (left ++ front).getLast?.all (· == '\n') = front.getLast?.all (· == '\n') := by
      by_cases hf : front = []
      · subst hf
        rw [List.append_nil]
        exact hl rfl
      · rw [List.getLast?_append_of_ne_nil _ hf]
    refine ite_eq_map ?_ (h.here held) rfl
    rw [last_between, last_between, hlast]

end

/-! ### Matches in the longer text -/

/-- No described piece that starts in `rest` goes on into `right`. -/
def Stays (pattern : Pattern) (left rest right : Text) : Prop :=
  ∀ front back piece right' kept, rest = front ++ back → back ≠ [] →
    back ++ right = piece ++ right' → pattern.Fits (left ++ front) piece right' [] kept →
    piece.length ≤ back.length

theorem Stays.tail {piece : Text} (h : pattern.Stays left (piece ++ rest) right) :
    pattern.Stays (left ++ piece) rest right := by
  rintro front back piece' right' kept rfl hb he hf
  rw [List.append_assoc] at hf
  exact h (piece ++ front) back piece' right' kept (List.append_assoc ..).symm hb he hf

theorem stays_nil : pattern.Stays left rest [] := by
  intro front back piece right' kept _ _ he _
  rw [List.append_nil] at he
  rw [he, List.length_append]
  omega

/-- **A match in the text is the match in the longer text.** -/
theorem matchAt?_widen (hl : front = [] → pattern.ignoresBefore left.getLast? = true)
    (hr : pattern.ignoresBehind right.head? = true) (hn : rest ≠ [])
    (hs : pattern.Stays (left ++ front) rest right) :
    pattern.matchAt? (between (left ++ front) (rest ++ right)) =
      (pattern.matchAt? (between front rest)).map (Match.widen left right) := by
  -- nothing is lost if what stops further to the right is refused
  have hcut : pattern.matchAt? (between (left ++ front) (rest ++ right)) =
      pattern.run (between (left ++ front) (rest ++ right)) (Groups.widen right []) fun stop kept =>
        if stop.offset ≤ (left ++ (front ++ rest)).length then
          some ⟨between (left ++ front) (rest ++ right), stop, kept⟩
        else none := by
    refine run_congr fun piece right' kept he hf => ?_
    have hlen := hs [] rest piece right' kept rfl hn he (by rwa [List.append_nil])
    rw [if_pos]
    simp only [offset_between, List.length_append]
    omega
  rw [hcut]
  refine run_widen hl hr ⟨?_, ?_⟩
  · rintro piece rest' kept rfl
    rw [if_pos (by simp only [offset_between, List.length_append]; omega), Option.map_some,
      Match.widen, Place.widen_between, Place.widen_between]
  · intro piece right' kept _ hp
    have hpos := List.length_pos_iff.mpr hp
    rw [if_neg]
    simp only [offset_between, List.length_append]
    omega

theorem matchesAfter_of_none {c : Char}
    (h : pattern.matchAt? (between left (c :: rest)) = none) :
    pattern.matchesAfter left (c :: rest) = pattern.matchesAfter (left ++ [c]) rest := by
  refine @matchesAfter_append pattern left [c] rest ?_
  intro before back hr hb hf
  rcases List.append_eq_singleton_iff.mp hr.symm with ⟨rfl, rfl⟩ | ⟨-, rfl⟩
  · rw [List.append_nil] at hf
    have hs := isSome_matchAt?_iff.mpr hf
    rw [List.singleton_append, h] at hs
    cases hs
  · exact absurd rfl hb

/-- Induction along a search in the text, which goes on in the same steps in the longer text: over a
character where no match starts, or over a match. -/
theorem widen_induction {motive : Text → Text → Prop} (hw : 0 < pattern.width)
    (hr : pattern.ignoresBehind right.head? = true) (nil : ∀ front, motive front [])
    (none : ∀ front c rest, pattern.matchAt? (between front (c :: rest)) = none →
      pattern.matchAt? (between (left ++ front) (c :: (rest ++ right))) = none →
      motive (front ++ [c]) rest → motive front (c :: rest))
    (some : ∀ front piece rest found, piece ≠ [] →
      pattern.matchAt? (between front (piece ++ rest)) = some found →
      found.stop = between (front ++ piece) rest →
      pattern.matchAt? (between (left ++ front) (piece ++ (rest ++ right))) =
        some (found.widen left right) →
      (found.widen left right).stop = between (left ++ front ++ piece) (rest ++ right) →
      motive (front ++ piece) rest → motive front (piece ++ rest))
    (hl : front = [] → pattern.ignoresBefore left.getLast? = true)
    (hs : pattern.Stays (left ++ front) rest right) : motive front rest := by
  induction hlen : rest.length using Nat.strong_induction_on generalizing front rest with
  | _ n ih =>
    subst hlen
    cases rest with
    | nil => exact nil front
    | cons c rest =>
      have hwide := matchAt?_widen hl hr (List.cons_ne_nil c rest) hs
      cases hm : pattern.matchAt? (between front (c :: rest)) with
      | none =>
        rw [hm, Option.map_none] at hwide
        refine none front c rest hm hwide ?_
        exact ih rest.length (by simp) (fun hf => by simp at hf)
          (by rw [← List.append_assoc]; exact Stays.tail hs) rfl
      | some found =>
        obtain ⟨piece, right', he, -, hstop, -⟩ := fits_of_matchAt? hm
        have hp : piece ≠ [] := by
          rintro rfl
          have hl := (reads_of_matchAt? hm).2.length_add_le
          rw [hstop, rest_between, rest_between, he, List.nil_append] at hl
          omega
        have hlt : right'.length < (c :: rest).length := by
          have := List.length_pos_iff.mpr hp
          rw [he, List.length_append]
          omega
        rw [he] at hm hs hwide ⊢
        rw [hm, Option.map_some, List.append_assoc] at hwide
        have hstop' : (found.widen left right).stop =
            between (left ++ front ++ piece) (right' ++ right) := by
          rw [Match.widen, hstop, Place.widen_between, List.append_assoc]
        refine some front piece right' found hp hm hstop hwide hstop' ?_
        exact ih right'.length hlt (fun hf => by simp [hp] at hf)
          (by rw [← List.append_assoc]; exact Stays.tail hs) rfl

/-- **The matches in the text are matches in the longer text**, each at its place there, and behind
them the search goes on. -/
theorem matchesAfter_widen (hw : 0 < pattern.width)
    (hl : front = [] → pattern.ignoresBefore left.getLast? = true)
    (hr : pattern.ignoresBehind right.head? = true)
    (hs : pattern.Stays (left ++ front) rest right) :
    pattern.matchesAfter (left ++ front) (rest ++ right) =
      (pattern.matchesAfter front rest).map (Match.widen left right) ++
        pattern.matchesAfter (left ++ (front ++ rest)) right := by
  refine widen_induction (motive := fun front rest =>
    pattern.matchesAfter (left ++ front) (rest ++ right) =
      (pattern.matchesAfter front rest).map (Match.widen left right) ++
        pattern.matchesAfter (left ++ (front ++ rest)) right) hw hr ?_ ?_ ?_ hl hs
  · intro front
    rw [List.nil_append, List.append_nil]
    rfl
  · intro front c rest hm hwide hi
    rw [List.cons_append, matchesAfter_of_none hwide, matchesAfter_of_none hm, List.append_assoc,
      hi]
    simp
  · intro front piece rest found hp hm hstop hwide hstop' hi
    rw [List.append_assoc, matchesAfter_of_match hwide hstop' hp, matchesAfter_of_match hm hstop hp,
      List.append_assoc left, hi]
    simp

end Pattern

end Snippet
