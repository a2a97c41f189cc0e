import Snippet.Print
import Snippet.Proofs.WholeWord

/-!
# How a print call is read

A printing routine is found by its name in front of a parenthesis (`fitsAt_callPattern`). From there
the closing parenthesis is looked for (`closing?_append`), and what stands in between is cut at its
commas, of which there may be none (`partsWithin_eq_singleton`).
-/

namespace Snippet

/-! ### Texts that are read in one way -/

namespace Text

/-- **A text falls into a stretch of some class and a rest that does not open with that class in one
way only.** -/
theorem append_inj_of_head {p : Char → Bool} {word word' rest rest' : Text}
    (hw : ∀ c ∈ word, p c = true) (hw' : ∀ c ∈ word', p c = true)
    (hr : rest.head?.any p = false) (hr' : rest'.head?.any p = false)
    (h : word ++ rest = word' ++ rest') : word = word' ∧ rest = rest' := by
  induction word generalizing word' with
  | nil =>
    cases word' with
    | nil => exact ⟨rfl, h⟩
    | cons c word' =>
      rw [List.nil_append] at h
      rw [h, List.cons_append, List.head?_cons, Option.any_some, hw' c List.mem_cons_self] at hr
      cases hr
  | cons c word ih =>
    obtain ⟨hc, hw⟩ := List.forall_mem_cons.mp hw
    cases word' with
    | nil =>
      rw [List.nil_append] at h
      rw [← h, List.cons_append, List.head?_cons, Option.any_some, hc] at hr'
      cases hr'
    | cons d word' =>
      obtain ⟨rfl, ht⟩ := List.cons.inj h
      obtain ⟨rfl, rfl⟩ := ih hw (List.forall_mem_cons.mp hw').2 ht
      exact ⟨rfl, rfl⟩

theorem append_eq_append_cons {left right before behind : Text} {c : Char}
    (h : left ++ right = before ++ c :: behind) :
    (∃ more, left = before ++ c :: more ∧ behind = more ++ right) ∨
      ∃ more, before = left ++ more ∧ right = more ++ c :: behind := by
  rcases List.append_eq_append_iff.mp h with ⟨more, hm, hr⟩ | ⟨more, hm, hr⟩
  · exact Or.inr ⟨more, hm, hr⟩
  · cases more with
    | nil => exact Or.inr ⟨[], by rw [hm, List.append_nil, List.append_nil], hr.symm⟩
    | cons d more =>
      obtain ⟨rfl, rfl⟩ := List.cons.inj hr
      exact Or.inl ⟨more, hm, rfl⟩

theorem eq_append_of_notMem {left right before behind : Text} {c : Char} (hc : c ∉ left)
    (h : left ++ right = before ++ c :: behind) :
    ∃ more, before = left ++ more ∧ right = more ++ c :: behind := by
  refine (append_eq_append_cons h).resolve_left ?_
  rintro ⟨more, rfl, -⟩
  simp at hc

theorem dropWhile_eq_self {p : Char → Bool} {text : Text} (h : text.head?.any p = false) :
    text.dropWhile p = text := by
  cases text with
  | nil => rfl
  | cons c rest => rw [List.dropWhile_cons_of_neg (by simpa using h)]

theorem dropEndWhile_eq_self {p : Char → Bool} {text : Text} (h : text.getLast?.any p = false) :
    dropEndWhile p text = text := by
  rw [dropEndWhile, dropWhile_eq_self (by rwa [List.head?_reverse]), List.reverse_reverse]

theorem trim_eq_self {text : Text} (hh : text.head?.any isBlank = false)
    (hl : text.getLast?.any isBlank = false) : trim text = text := by
  rw [trim, dropWhile_eq_self hh, dropEndWhile_eq_self hl]

theorem head?_dropWhile (p : Char → Bool) (text : Text) :
    (text.dropWhile p).head?.any p = false := by
  induction text with
  | nil => rfl
  | cons c rest ih =>
    rw [List.dropWhile_cons]
    split
    · exact ih
    next hc => exact Bool.eq_false_of_not_eq_true hc

theorem getLast?_dropEndWhile (p : Char → Bool) (text : Text) :
    (dropEndWhile p text).getLast?.any p = false := by
  rw [dropEndWhile, List.getLast?_reverse]
  exact head?_dropWhile p text.reverse

theorem dropEndWhile_prefix (p : Char → Bool) (text : Text) : dropEndWhile p text <+: text := by
  rw [dropEndWhile, ← List.reverse_suffix, List.reverse_reverse]
  exact List.dropWhile_suffix p

/-- **A trimmed text is not trimmed again.** -/
theorem trim_trim (text : Text) : trim (trim text) = trim text := by
  refine trim_eq_self ?_ (getLast?_dropEndWhile isBlank _)
  obtain ⟨more, hm⟩ := dropEndWhile_prefix isBlank (text.dropWhile isBlank)
  have hh := head?_dropWhile isBlank text
  rw [← hm] at hh
  rw [trim]
  cases hd : dropEndWhile isBlank (text.dropWhile isBlank) with
  | nil => rfl
  | cons c rest => rwa [hd] at hh

theorem slice_append (left piece right : Text) :
    slice (left ++ (piece ++ right)) left.length (left.length + piece.length) = piece := by
  simp [slice]

end Text

/-! ### Brackets and parts -/

namespace Bracket

variable {bracket : Bracket}

/-- **What holds no bracket of the kind is passed over.** -/
theorem closing?_append {front : Text} (h : ∀ c ∈ front, c ≠ bracket.opener ∧ c ≠ bracket.closer)
    (depth here : Nat) (rest : Text) :
    bracket.closing? depth here (front ++ rest) =
      bracket.closing? depth (here + front.length) rest := by
  induction front generalizing here with
  | nil => rfl
  | cons c front ih =>
    obtain ⟨⟨ho, hc⟩, hf⟩ := List.forall_mem_cons.mp h
    have hs : here + (front.length + 1) = here + 1 + front.length := by omega
    rw [List.cons_append, closing?, if_neg ho, if_neg hc, ih hf, List.length_cons, hs]

theorem closer_ne_opener (bracket : Bracket) : bracket.closer ≠ bracket.opener := by
  cases bracket <;> decide

theorem closing?_closer (here : Nat) (rest : Text) :
    bracket.closing? 1 here (bracket.closer :: rest) = some here := by
  rw [closing?, if_neg bracket.closer_ne_opener, if_pos rfl, if_pos (le_refl 1)]

theorem partsFrom_eq_singleton {piece : Text} (h : ∀ c ∈ piece, c ≠ ',') (right : Text)
    (depth : Int) (begun here : Nat) :
    partsFrom [','] (here + piece.length) depth begun here 0
      (Text.suffixes piece.length (piece ++ right)) = some [(begun, here + piece.length)] := by
  induction piece generalizing depth here with
  | nil => rw [List.length_nil, Text.suffixes, partsFrom, Nat.add_zero, if_pos (le_refl here)]
  | cons c piece ih =>
    obtain ⟨hc, hp⟩ := List.forall_mem_cons.mp h
    have hs : here + (piece.length + 1) = here + 1 + piece.length := by omega
    have hn : [','].isPrefixOf (c :: (piece ++ right)) = false := by
      simp [List.isPrefixOf, hc.symm]
    rw [List.length_cons, List.cons_append, Text.suffixes]
    unfold partsFrom
    rw [if_neg (by omega), List.head?_cons, hn, hs]
    dsimp only
    split
    · exact ih hp _ _
    · split
      · exact ih hp _ _
      · rw [if_neg (by simp)]
        exact ih hp _ _

/-- **A range without commas is a single part.** -/
theorem partsWithin_eq_singleton {piece : Text} (h : ∀ c ∈ piece, c ≠ ',') (left right : Text) :
    partsWithin (left ++ (piece ++ right)) left.length (left.length + piece.length) [','] =
      [(left.length, left.length + piece.length)] := by
  have hp := partsFrom_eq_singleton h right 0 0 0
  rw [Nat.zero_add] at hp
  rw [partsWithin]
  simp only [Nat.add_sub_cancel_left, List.drop_left, hp]
  simp

end Bracket

/-! ### The name of a routine -/

namespace Routine

/-- Whether a character may stand in the name of a routine. -/
def isNamePart (c : Char) : Bool := isWord c || c == '.'

theorem isNamePart_of_mem_name (routine : Routine) :
    ∀ c ∈ routine.name.toList, isNamePart c = true := by
  cases routine <;> decide

theorem isNamePart_of_isBlank {c : Char} (h : isBlank c = true) : isNamePart c = false := by
  simp [isNamePart, isWord_of_isBlank h, ne_of_isBlank h (show isBlank '.' = false by decide)]

theorem name_injective {routine routine' : Routine}
    (h : routine.name.toList = routine'.name.toList) : routine = routine' := by
  cases routine <;> cases routine' <;> first | rfl | exact absurd h (by decide)

theorem head?_name (routine : Routine) : routine.name.toList.head?.any isWord = true := by
  cases routine <;> decide

/-- The word that a name opens with. -/
def firstWord (routine : Routine) : Text := routine.name.toList.takeWhile isWord

/-- What remains of a name behind its first word. -/
def afterFirstWord (routine : Routine) : Text := routine.name.toList.dropWhile isWord

theorem isWord_of_mem_firstWord (routine : Routine) :
    ∀ c ∈ routine.firstWord, isWord c = true := by
  cases routine <;> decide

theorem head?_afterFirstWord (routine : Routine) :
    routine.afterFirstWord.head?.any isWord = false := by
  cases routine <;> decide

end Routine

namespace PrintCall

open Pattern Place Routine

variable {routine routine' : Routine} {left piece right text : Text} {held kept : Groups}

theorem fits_callPattern : (callPattern routine).Fits left piece right held kept ↔
    left.getLast?.any isNamePart = false ∧
      (∃ gap, (∀ d ∈ gap, isBlank d = true) ∧ piece = routine.name.toList ++ (gap ++ ['('])) ∧
      kept = held := by
  constructor
  · rintro ⟨_, _, _, rfl, ⟨_, _, _, rfl, ⟨rfl, rfl, hl⟩, hlit⟩, hn⟩
    obtain ⟨rfl, rfl⟩ := fits_lit.mp hlit
    obtain ⟨gap, hg, rfl, rfl⟩ := fits_next.mp hn
    exact ⟨hl, ⟨gap, hg, rfl⟩, rfl⟩
  · rintro ⟨hl, ⟨gap, hg, rfl⟩, rfl⟩
    refine ⟨routine.name.toList, gap ++ ['('], kept, rfl, ?_, fits_next.mpr ⟨gap, hg, rfl, rfl⟩⟩
    exact ⟨[], routine.name.toList, kept, rfl, ⟨rfl, rfl, hl⟩, fits_lit.mpr ⟨rfl, rfl⟩⟩

theorem any_head?_gap {gap : Text} (hg : ∀ d ∈ gap, isBlank d = true) (rest : Text) :
    (gap ++ '(' :: rest).head?.any isNamePart = false := by
  cases gap with
  | nil => rfl
  | cons d gap => exact isNamePart_of_isBlank (hg d List.mem_cons_self)

/-- **In front of a parenthesis a routine is found by its full name only.** -/
theorem eq_of_fitsAt_callPattern
    (h : (callPattern routine).FitsAt left (routine'.name.toList ++ '(' :: text)) :
    routine = routine' := by
  obtain ⟨_, right, _, hr, hf⟩ := h
  obtain ⟨_, ⟨gap, hg, rfl⟩, _⟩ := fits_callPattern.mp hf
  rw [List.append_assoc, List.append_assoc, List.singleton_append] at hr
  have hi := Text.append_inj_of_head (isNamePart_of_mem_name routine')
    (isNamePart_of_mem_name routine) rfl (any_head?_gap hg right) hr
  exact (name_injective hi.1).symm

theorem matchAt?_callPattern (routine : Routine) (hl : left.getLast?.any isNamePart = false)
    (text : Text) :
    (callPattern routine).matchAt? (between left ((routine.name.toList ++ ['(']) ++ text)) =
      some ⟨between left ((routine.name.toList ++ ['(']) ++ text),
        between (left ++ (routine.name.toList ++ ['('])) text, []⟩ := by
  refine matchAt?_eq_of_fits (fits_callPattern.mpr ⟨hl, ⟨[], by simp, rfl⟩, rfl⟩) ?_
  intro piece' right' kept' hr hf
  obtain ⟨_, ⟨gap, hg, rfl⟩, rfl⟩ := fits_callPattern.mp hf
  rw [List.append_assoc, List.append_assoc, List.append_assoc, List.singleton_append] at hr
  have hi := List.append_cancel_left hr
  cases gap with
  | nil => exact ⟨rfl, rfl⟩
  | cons d gap =>
    obtain ⟨rfl, _⟩ := List.cons.inj hi
    exact absurd (hg '(' List.mem_cons_self) (by decide)

theorem not_fitsAt_callPattern (h : text.head?.any isWord = false) :
    ¬ (callPattern routine).FitsAt left text := by
  rintro ⟨_, right, _, rfl, hf⟩
  obtain ⟨_, ⟨gap, _, rfl⟩, _⟩ := fits_callPattern.mp hf
  have hn := head?_name routine
  cases hname : routine.name.toList with
  | nil => rw [hname] at hn; cases hn
  | cons c name =>
    rw [hname] at h hn
    rw [List.append_assoc, List.cons_append, List.head?_cons, ← List.head?_cons (l := name),
      hn] at h
    cases h

theorem not_fitsAt_callPattern_of_last (h : left.getLast?.any isNamePart = true) :
    ¬ (callPattern routine).FitsAt left text := by
  rintro ⟨_, _, _, _, hf⟩
  rw [(fits_callPattern.mp hf).1] at h
  cases h

theorem avoids_of_forall {stretch : Text} (h : ∀ c ∈ stretch, isWord c = false) (left text : Text) :
    (callPattern routine).Avoids left stretch text := by
  rintro front back rfl hb
  refine not_fitsAt_callPattern ?_
  cases back with
  | nil => exact absurd rfl hb
  | cons c back => exact h c (List.mem_append_right front List.mem_cons_self)

theorem avoids_name (h : routine' ≠ routine) (left text : Text) :
    (callPattern routine).Avoids left routine'.name.toList ('(' :: text) := by
  intro front back hr hb hf
  rcases List.eq_nil_or_concat front with rfl | ⟨init, c, rfl⟩
  · rw [List.nil_append] at hr
    rw [← hr] at hf
    exact h (eq_of_fitsAt_callPattern hf).symm
  · rw [List.concat_eq_append] at hr hf
    have hc : isNamePart c = true := by
      refine isNamePart_of_mem_name routine' c ?_
      rw [hr]
      simp
    refine not_fitsAt_callPattern_of_last ?_ hf
    rw [← List.append_assoc, List.getLast?_concat]
    exact hc

/-- **Nothing is found in a stretch without the first word of the name**, if the stretch ends with
no word character. -/
theorem avoids_of_not_mem_words {stretch : Text} (h : routine.firstWord ∉ stretch.words)
    (hl : stretch.getLast?.any isWord = false) (left text : Text) :
    (callPattern routine).Avoids left stretch text := by
  rintro front back rfl hb ⟨_, right, _, hr, hf⟩
  obtain ⟨hlast, ⟨gap, hg, rfl⟩, _⟩ := fits_callPattern.mp hf
  have hback : back.getLast?.any isWord = false := by
    rwa [List.getLast?_append_of_ne_nil _ hb] at hl
  have hfront : front.getLast?.any isWord = false := by
    cases front with
    | nil => rfl
    | cons c front =>
      rw [List.getLast?_append_of_ne_nil _ (List.cons_ne_nil c front)] at hlast
      cases hg : (c :: front).getLast? with
      | none => rfl
      | some d =>
        rw [hg, Option.any_some, isNamePart, Bool.or_eq_false_iff] at hlast
        exact hlast.1
  have hname : back ++ text =
      routine.firstWord ++ (routine.afterFirstWord ++ (gap ++ '(' :: right)) := by
    rw [hr, ← List.append_assoc routine.firstWord, firstWord, afterFirstWord,
      List.takeWhile_append_dropWhile]
    simp only [List.append_assoc, List.singleton_append]
  have hrest : (routine.afterFirstWord ++ (gap ++ '(' :: right)).head?.any isWord = false := by
    have ha := head?_afterFirstWord routine
    cases hn : routine.afterFirstWord with
    | cons c tail => rw [hn] at ha; exact ha
    | nil =>
      cases gap with
      | nil => rfl
      | cons d gap => exact isWord_of_isBlank (hg d List.mem_cons_self)
  -- the stretch does not stop within the first word, since it ends with no word character
  have hout : ¬ ∀ c ∈ back, isWord c = true := by
    intro hw
    rw [List.getLast?_eq_getLast_of_ne_nil hb, Option.any_some, hw _ (List.getLast_mem hb)] at hback
    cases hback
  rcases List.append_eq_append_iff.mp hname with ⟨middle, hm, _⟩ | ⟨middle, rfl, hm⟩
  · refine hout fun c hc => isWord_of_mem_firstWord routine c ?_
    rw [hm]
    exact List.mem_append_left _ hc
  · cases middle with
    | nil =>
      refine hout fun c hc => isWord_of_mem_firstWord routine c ?_
      rwa [List.append_nil] at hc
    | cons c middle =>
      rw [hm] at hrest
      exact h (Text.mem_words (isWord_of_mem_firstWord routine) hfront hrest)

/-! ### From a match to a call -/

/-- The call that a match of a routine leads to, with its position. -/
def ofMatch? (code mask : Text) (routine : Routine) (found : Match) : Option (Nat × PrintCall) :=
  (Bracket.round.closing? 1 found.stop.offset found.stop.rest).map fun close =>
    (found.start.offset, ⟨routine,
      pieces code (Bracket.partsWithin mask found.stop.offset close [',']), routine.endsLine⟩)

theorem ofRoutine_eq_filterMap (code mask : Text) (routine : Routine) :
    ofRoutine code mask routine =
      ((callPattern routine).matchesIn mask).filterMap (ofMatch? code mask routine) := rfl

/-- A parenthesis with a single argument is read as that argument. In the mask, `shown` stands in
its place. -/
theorem ofMatch?_eq {code mask front front' argument shown back back' : Text} {start : Place}
    (hcode : code = front ++ (argument ++ back)) (hmask : mask = front' ++ (shown ++ ')' :: back'))
    (hf : front.length = front'.length) (ha : argument.length = shown.length)
    (hc : Bracket.round.closing? 1 front'.length (shown ++ ')' :: back') =
      some (front'.length + shown.length))
    (hn : ∀ c ∈ shown, c ≠ ',') (ht : Text.trim argument = argument) (he : argument ≠ []) :
    ofMatch? code mask routine ⟨start, between front' (shown ++ ')' :: back'), held⟩ =
      some (start.offset, ⟨routine, [argument], routine.endsLine⟩) := by
  subst hcode hmask
  have hs : Text.slice (front ++ (argument ++ back)) front'.length
      (front'.length + shown.length) = argument := by
    rw [← hf, ← ha]
    exact Text.slice_append front argument back
  have hp : pieces (front ++ (argument ++ back))
      [(front'.length, front'.length + shown.length)] = [argument] := by
    simp only [pieces, List.map_singleton, hs, ht]
    exact List.filter_cons_of_pos (by simpa using he)
  rw [ofMatch?, offset_between, rest_between, hc, Option.map_some,
    Bracket.partsWithin_eq_singleton hn, hp]

/-- **A routine in front of its parenthesis is read as a call with the argument that stands there.**
The list of calls goes on behind the parenthesis. -/
theorem filterMap_matchesAfter_call (routine : Routine)
    {code mask front front' argument shown back back' : Text}
    (hcode : code = front ++ (routine.name.toList ++ ['(']) ++ (argument ++ back))
    (hmask : mask = front' ++ (routine.name.toList ++ ['(']) ++ (shown ++ ')' :: back'))
    (hf : front.length = front'.length) (ha : argument.length = shown.length)
    (hl : front'.getLast?.any isNamePart = false)
    (hc : ∀ here, Bracket.round.closing? 1 here (shown ++ ')' :: back') =
      some (here + shown.length))
    (hn : ∀ c ∈ shown, c ≠ ',') (ht : Text.trim argument = argument) (he : argument ≠ []) :
    ((callPattern routine).matchesAfter front'
        ((routine.name.toList ++ ['(']) ++ (shown ++ ')' :: back'))).filterMap
        (ofMatch? code mask routine) =
      (front'.length, ⟨routine, [argument], routine.endsLine⟩) ::
        ((callPattern routine).matchesAfter (front' ++ (routine.name.toList ++ ['(']))
          (shown ++ ')' :: back')).filterMap (ofMatch? code mask routine) := by
  have hlen : (front ++ (routine.name.toList ++ ['('])).length =
      (front' ++ (routine.name.toList ++ ['('])).length := by
    simp only [List.length_append, hf]
  rw [matchesAfter_of_match (matchAt?_callPattern routine hl _) rfl (by simp),
    List.filterMap_cons_some (ofMatch?_eq hcode hmask hlen ha (hc _) hn ht he), offset_between]

end PrintCall

/-! ### The order of the calls -/

/-- **What has been found in any order is sorted by position.** -/
theorem mergeSort_eq_of_perm {α : Type} {found located : List (Nat × α)}
    (hp : found.Perm located) (hl : located.Pairwise fun a b => a.1 < b.1) :
    found.mergeSort (fun a b => a.1 ≤ b.1) = located := by
  have hs :
      (found.mergeSort fun a b => a.1 ≤ b.1).Pairwise fun a b => decide (a.1 ≤ b.1) = true := by
    refine List.pairwise_mergeSort ?_ ?_ found
    · intro a b c hab hbc
      rw [decide_eq_true_eq] at hab hbc ⊢
      omega
    · intro a b
      rw [Bool.or_eq_true, decide_eq_true_eq, decide_eq_true_eq]
      omega
  have hl' : located.Pairwise fun a b => decide (a.1 ≤ b.1) = true :=
    hl.imp fun h => decide_eq_true (Nat.le_of_lt h)
  have hn : (located.map (·.1)).Nodup := by
    rw [List.Nodup, List.pairwise_map]
    exact hl.imp fun h => Nat.ne_of_lt h
  have hm := (List.mergeSort_perm found fun a b => a.1 ≤ b.1).trans hp
  refine hm.eq_of_pairwise ?_ hs hl'
  intro a b ha hb hab hba
  rw [decide_eq_true_eq] at hab hba
  exact List.inj_on_of_nodup_map hn (hm.subset ha) hb (Nat.le_antisymm hab hba)

theorem flatMap_ite_eq {α β : Type} [DecidableEq β] {key : β} {groups : List β}
    (hn : groups.Nodup) (h : key ∈ groups) (item : α) :
    (groups.flatMap fun b => if key = b then [item] else []) = [item] := by
  obtain ⟨front, back, rfl⟩ := List.append_of_mem h
  have hf : ∀ b ∈ front, key ≠ b := by
    rintro b hb rfl
    exact (List.nodup_append.mp hn).2.2 key hb key List.mem_cons_self rfl
  have hb : ∀ b ∈ back, key ≠ b := by
    rintro b hb rfl
    exact (List.nodup_cons.mp (List.nodup_append.mp hn).2.1).1 hb
  have none : ∀ list : List β, (∀ b ∈ list, key ≠ b) →
      (list.flatMap fun b => if key = b then [item] else []) = [] := by
    intro list hl
    rw [List.flatMap_eq_nil_iff]
    exact fun b hm => if_neg (hl b hm)
  rw [List.flatMap_append, List.flatMap_cons, none front hf, none back hb, if_pos rfl]
  rfl

/-- **Items that are gathered group by group are all there.** -/
theorem flatMap_filter_perm {α β : Type} [DecidableEq β] {group : α → β} {groups : List β}
    (hn : groups.Nodup) {items : List α} (h : ∀ item ∈ items, group item ∈ groups) :
    (groups.flatMap fun b => items.filter fun item => group item = b).Perm items := by
  induction items with
  | nil => simp
  | cons item items ih =>
    obtain ⟨hi, hs⟩ := List.forall_mem_cons.mp h
    have split : (fun b => (item :: items).filter fun item => group item = b) =
        fun b => (if group item = b then [item] else []) ++
          items.filter fun item => group item = b := by
      funext b
      rw [List.filter_cons]
      by_cases hb : group item = b <;> simp [hb]
    rw [split]
    refine (List.flatMap_append_perm groups _ _).symm.trans ?_
    rw [flatMap_ite_eq hn hi, List.singleton_append]
    exact (ih hs).cons item

end Snippet
