import Snippet.Proofs.LoopReach
import Snippet.Proofs.PrintOrder
import Snippet.Proofs.VisibleText

/-!
# The arguments of a written call

A call is written from its arguments, and its arguments are read off again. An argument may hold
brackets, commas, quote marks and openers of comments, as long as these stand in brackets or in
literals. Two relations say so.

* `Shows language text shown`: the text opens no comment, closes each of its literals on the line on
  which it opens it, and is `shown` with the insides of the literals blanked. The mask shows exactly
  that (`mask_of_shows`).
* `Bracket.Nested commas shown`: the brackets are nested properly, and without `commas` no comma
  stands outside of them. The closing parenthesis of a call is looked for by its own kind alone, the
  commas by the depth of nesting in all three kinds; both pass over such a text
  (`Nested.balanced`, `partsFrom_nested`).

`printCalls_rendered`: **the call is found at the start, with the arguments it was written from.**
-/

namespace Snippet

/-! ### Nested brackets -/

namespace Bracket

/-- The brackets of a text are nested properly, and a comma stands outside of them only if `commas`
allows it. -/
inductive Nested : Bool → Text → Prop
  | nil {commas : Bool} : Nested commas []
  | code {commas : Bool} {c : Char} {text : Text} (ho : isOpener c = false)
      (hc : isCloser c = false) (hcomma : c = ',' → commas = true) (ht : Nested commas text) :
      Nested commas (c :: text)
  | enclosed {commas : Bool} (bracket : Bracket) {inside text : Text} (hi : Nested true inside)
      (ht : Nested commas text) :
      Nested commas (bracket.opener :: (inside ++ bracket.closer :: text))

theorem isOpener_opener (bracket : Bracket) : isOpener bracket.opener = true := by
  cases bracket <;> decide

theorem isOpener_closer (bracket : Bracket) : isOpener bracket.closer = false := by
  cases bracket <;> decide

theorem isCloser_closer (bracket : Bracket) : isCloser bracket.closer = true := by
  cases bracket <;> decide

theorem ne_opener {c : Char} (h : isOpener c = false) (bracket : Bracket) : c ≠ bracket.opener := by
  rintro rfl
  rw [isOpener_opener] at h
  cases h

theorem ne_closer {c : Char} (h : isCloser c = false) (bracket : Bracket) : c ≠ bracket.closer := by
  rintro rfl
  rw [isCloser_closer] at h
  cases h

variable {commas : Bool} {text more : Text}

theorem Nested.append (h : Nested commas text) (h' : Nested commas more) :
    Nested commas (text ++ more) := by
  induction h with
  | nil => exact h'
  | code ho hc hcomma _ ih => exact .code ho hc hcomma (ih h')
  | enclosed bracket hi _ _ ih =>
    rw [List.cons_append, List.append_assoc, List.cons_append]
    exact .enclosed bracket hi (ih h')

theorem nested_of_forall
    (h : ∀ c ∈ text, isOpener c = false ∧ isCloser c = false ∧ (c = ',' → commas = true)) :
    Nested commas text := by
  induction text with
  | nil => exact .nil
  | cons c text ih =>
    obtain ⟨⟨ho, hc, hcomma⟩, ht⟩ := List.forall_mem_cons.mp h
    exact .code ho hc hcomma (ih ht)

/-- **Properly nested brackets are balanced in each kind.** -/
theorem Nested.balanced (h : Nested commas text) (bracket : Bracket) : bracket.Balanced text := by
  induction h with
  | nil => exact balanced_nil
  | @code _ c text ho hc _ _ ih =>
    have hone : bracket.Balanced [c] :=
      balanced_of_forall fun d hd => List.mem_singleton.mp hd ▸ ⟨ne_opener ho _, ne_closer hc _⟩
    exact hone.append ih
  | @enclosed _ kind inside text _ _ ihi ih =>
    by_cases hk : kind = bracket
    · subst hk
      exact ihi.wrap ih
    · -- brackets of another kind are nothing to this one
      have hother : (kind.opener ≠ bracket.opener ∧ kind.opener ≠ bracket.closer) ∧
          (kind.closer ≠ bracket.opener ∧ kind.closer ≠ bracket.closer) := by
        revert hk
        cases kind <;> cases bracket <;> decide
      have hopen : bracket.Balanced [kind.opener] :=
        balanced_of_forall fun d hd => List.mem_singleton.mp hd ▸ hother.1
      have hclose : bracket.Balanced [kind.closer] :=
        balanced_of_forall fun d hd => List.mem_singleton.mp hd ▸ hother.2
      exact hopen.append (ihi.append (hclose.append ih))

/-! ### Parts of nested brackets -/

section

variable {separator : Text} {length begun here : Nat} {depth : Int} {c : Char} {rest : Text}

theorem partsFrom_cons (hl : here < length) (suffixes : List Text) :
    partsFrom separator length depth begun here 0 ((c :: rest) :: suffixes) =
      if isOpener c then partsFrom separator length (depth + 1) begun (here + 1) 0 suffixes
      else if isCloser c then partsFrom separator length (depth - 1) begun (here + 1) 0 suffixes
      else if depth = 0 ∧ separator.isPrefixOf (c :: rest) ∧ separator ≠ [] then
        (partsFrom separator length depth (here + separator.length) (here + 1)
          (separator.length - 1) suffixes).map ((begun, here) :: ·)
      else partsFrom separator length depth begun (here + 1) 0 suffixes := by
  conv_lhs => unfold partsFrom
  rw [if_neg (by omega)]
  rfl

theorem partsFrom_opener (hc : isOpener c = true) (hl : here < length) (suffixes : List Text) :
    partsFrom separator length depth begun here 0 ((c :: rest) :: suffixes) =
      partsFrom separator length (depth + 1) begun (here + 1) 0 suffixes := by
  rw [partsFrom_cons hl]
  exact if_pos hc

theorem partsFrom_closer (ho : isOpener c = false) (hc : isCloser c = true) (hl : here < length)
    (suffixes : List Text) :
    partsFrom separator length depth begun here 0 ((c :: rest) :: suffixes) =
      partsFrom separator length (depth - 1) begun (here + 1) 0 suffixes := by
  rw [partsFrom_cons hl]
  exact (if_neg (by rw [ho]; decide)).trans (if_pos hc)

/-- A character that is no bracket, and at which no separator starts outside of all brackets, is
passed over. -/
theorem partsFrom_code (ho : isOpener c = false) (hc : isCloser c = false)
    (hs : depth = 0 → ¬ separator <+: c :: rest) (hl : here < length) (suffixes : List Text) :
    partsFrom separator length depth begun here 0 ((c :: rest) :: suffixes) =
      partsFrom separator length depth begun (here + 1) 0 suffixes := by
  have hsep : ¬ (depth = 0 ∧ separator.isPrefixOf (c :: rest) = true ∧ separator ≠ []) := by
    rintro ⟨hd, hp, -⟩
    exact hs hd (List.isPrefixOf_iff_prefix.mp hp)
  rw [partsFrom_cons hl]
  exact (if_neg (by rw [ho]; decide)).trans ((if_neg (by rw [hc]; decide)).trans (if_neg hsep))

/-- **At a separator outside of all brackets a part ends.** -/
theorem partsFrom_separator (ho : isOpener c = false) (hc : isCloser c = false)
    (hl : here < length) (suffixes : List Text) :
    partsFrom (c :: more) length 0 begun here 0 ((c :: (more ++ rest)) :: suffixes) =
      (partsFrom (c :: more) length 0 (here + (more.length + 1)) (here + 1) more.length
        suffixes).map ((begun, here) :: ·) := by
  have hp : (c :: more).isPrefixOf (c :: (more ++ rest)) = true :=
    List.isPrefixOf_iff_prefix.mpr (List.prefix_append (c :: more) rest)
  rw [partsFrom_cons hl]
  exact (if_neg (by rw [ho]; decide)).trans
    ((if_neg (by rw [hc]; decide)).trans (if_pos ⟨rfl, hp, List.cons_ne_nil c more⟩))

theorem partsFrom_comma (hl : here < length) (suffixes : List Text) :
    partsFrom [','] length 0 begun here 0 ((',' :: rest) :: suffixes) =
      (partsFrom [','] length 0 (here + 1) (here + 1) 0 suffixes).map ((begun, here) :: ·) :=
  partsFrom_separator (by decide) (by decide) hl suffixes

/-- **A text with nested brackets is passed over**, at any depth at which its commas do not
count. -/
theorem partsFrom_nested (h : Nested commas text) (hd : 0 ≤ depth)
    (hcommas : commas = true → depth ≠ 0) (begun here left : Nat) (rest : Text) :
    partsFrom [','] (here + text.length + left) depth begun here 0
        (Text.suffixes (text.length + left) (text ++ rest)) =
      partsFrom [','] (here + text.length + left) depth begun (here + text.length) 0
        (Text.suffixes left rest) := by
  induction h generalizing depth here left rest with
  | nil => simp
  | @code commas c text ho hc hcomma _ ih =>
    have hlen : here + (c :: text).length = here + 1 + text.length := by
      rw [List.length_cons]
      omega
    have hcount : (c :: text).length + left = text.length + left + 1 := by
      rw [List.length_cons]
      omega
    have hsep : depth = 0 → ¬ [','] <+: c :: (text ++ rest) := fun hz hp =>
      hcommas (hcomma (List.cons_prefix_cons.mp hp).1.symm) hz
    rw [hlen, hcount, List.cons_append, Text.suffixes,
      partsFrom_code ho hc hsep (by omega), ih hd hcommas]
  | @enclosed commas bracket inside text _ _ ihi ih =>
    have hlen : here + (bracket.opener :: (inside ++ bracket.closer :: text)).length =
        here + 1 + inside.length + 1 + text.length := by
      simp only [List.length_cons, List.length_append]
      omega
    have hcount : (bracket.opener :: (inside ++ bracket.closer :: text)).length + left =
        inside.length + (text.length + left + 1) + 1 := by
      simp only [List.length_cons, List.length_append]
      omega
    have hinner := @ihi (depth + 1) (by omega) (fun _ => by omega) (here + 1)
      (text.length + left + 1) (bracket.closer :: (text ++ rest))
    have houter := @ih depth hd hcommas (here + 1 + inside.length + 1) left rest
    have htotal : here + 1 + inside.length + (text.length + left + 1) =
        here + 1 + inside.length + 1 + text.length + left := by omega
    rw [htotal] at hinner
    rw [hlen, hcount, List.cons_append, List.append_assoc, List.cons_append, Text.suffixes,
      partsFrom_opener (isOpener_opener bracket) (by omega), hinner, Text.suffixes,
      partsFrom_closer (isOpener_closer bracket) (isCloser_closer bracket) (by omega),
      Int.add_sub_cancel, houter]

end

end Bracket

/-! ### Literals that are closed on their line -/

/-- The inside of a literal with the mark `quote` that is closed on its line: a backslash goes with
the character that it escapes, and the mark stands only behind one. -/
inductive IsInside (quote : Char) : Text → Prop
  | nil : IsInside quote []
  | plain {c : Char} {text : Text} (hc : c ≠ quote ∧ c ≠ '\\' ∧ c ≠ '\n')
      (ht : IsInside quote text) : IsInside quote (c :: text)
  | escape {c : Char} {text : Text} (hc : c ≠ '\n') (ht : IsInside quote text) :
      IsInside quote ('\\' :: c :: text)

namespace IsInside

variable {quote : Char} {inside : Text}

theorem append_of_forall {front : Text} (hf : ∀ c ∈ front, c ≠ quote ∧ c ≠ '\\' ∧ c ≠ '\n')
    (h : IsInside quote inside) : IsInside quote (front ++ inside) := by
  induction front with
  | nil => exact h
  | cons c front ih =>
    obtain ⟨hc, hf⟩ := List.forall_mem_cons.mp hf
    exact .plain hc (ih hf)

theorem literalBody_eq (h : IsInside quote inside) (hq : quote ≠ '\\') (rest : Text) :
    Language.literalBody quote (inside ++ quote :: rest) = (inside, quote :: rest) := by
  induction h with
  | nil => exact Language.literalBody_of_stop hq (Or.inl rfl) rest
  | @plain c text hc _ ih =>
    have hchar : ∀ d ∈ [c], d ≠ quote ∧ d ≠ '\\' ∧
        (d = '\n' → Language.spansLines quote = true) := by
      intro d hd
      obtain rfl := List.mem_singleton.mp hd
      exact ⟨hc.1, hc.2.1, fun he => absurd he hc.2.2⟩
    have hone := Language.literalBody_append_of_inside hchar (text ++ quote :: rest)
    rw [List.singleton_append, ih] at hone
    exact hone
  | @escape c text _ _ ih =>
    rw [List.cons_append, List.cons_append, Language.literalBody, ih]

theorem notMem_lineFeed (h : IsInside quote inside) : '\n' ∉ inside := by
  induction h with
  | nil => simp
  | plain hc _ ih => simpa [ih] using hc.2.2.symm
  | escape hc _ ih => simpa [ih] using hc.symm

theorem head?_ne (h : IsInside quote inside) (hq : quote ≠ '\\') : inside.head? ≠ some quote := by
  cases h with
  | nil => simp
  | plain hc _ => simpa using hc.1
  | escape _ _ => simpa using hq.symm

end IsInside

namespace Language

variable {language : Language}

/-- The text opens no comment, closes each of its literals on the line on which it opens it, and is
`shown` with the insides of its literals blanked. An empty literal in front of the same mark would
open one with three marks. -/
inductive Shows (language : Language) : Text → Text → Prop
  | nil : Shows language [] []
  | code {c : Char} {text shown : Text} (hq : c ∉ language.quotes)
      (ho : ¬ language.OpensComment (c :: text)) (ht : Shows language text shown) :
      Shows language (c :: text) (c :: shown)
  | literal {quote : Char} {inside text shown : Text} (hq : quote ∈ language.quotes)
      (hi : IsInside quote inside)
      (htriple : language = python → inside = [] → text.head? ≠ some quote)
      (ht : Shows language text shown) :
      Shows language (quote :: (inside ++ quote :: text))
        (quote :: (List.replicate inside.length ' ' ++ quote :: shown))

theorem Shows.length_eq {text shown : Text} (h : language.Shows text shown) :
    shown.length = text.length := by
  induction h with
  | nil => rfl
  | code _ _ _ ih => rw [List.length_cons, List.length_cons, ih]
  | literal _ _ _ _ ih =>
    simp only [List.length_cons, List.length_append, List.length_replicate, ih]

theorem Shows.append_of_plain {front text shown : Text} (hf : ∀ c ∈ front, isPlain c = true)
    (h : language.Shows text shown) : language.Shows (front ++ text) (front ++ shown) := by
  induction front with
  | nil => exact h
  | cons c front ih =>
    obtain ⟨hc, hf⟩ := List.forall_mem_cons.mp hf
    simp only [isPlain, Bool.and_eq_true, bne_iff_ne] at hc
    obtain ⟨⟨⟨⟨hd, hs⟩, hb⟩, hh⟩, hl⟩ := hc
    refine .code ?_ ?_ (ih hf)
    · cases language <;> simp [quotes, hd, hs, hb]
    · rw [not_opensComment_iff]
      exact ⟨isPrefixOf_commentOpener_of_ne hh hl _, by simp [List.isPrefixOf, hl.symm]⟩

/-- What may stand behind an argument: it opens with neither a slash, a star nor a quote mark. -/
def EndsArgument (language : Language) (rest : Text) : Prop :=
  ∀ c, rest.head? = some c → c ≠ '/' ∧ c ≠ '*' ∧ c ∉ language.quotes

theorem not_opensComment_append {c : Char} {text rest : Text} (hr : language.EndsArgument rest)
    (h : ¬ language.OpensComment (c :: text)) : ¬ language.OpensComment (c :: text ++ rest) := by
  cases text with
  | cons d text =>
    rintro ⟨opener, hm, hp⟩
    refine h ⟨opener, hm, List.prefix_of_prefix_length_le hp (List.prefix_append _ rest) ?_⟩
    have hlen : ∀ opener ∈ language.openers, opener.length ≤ 2 := by cases language <;> decide
    have := hlen opener hm
    simp only [List.length_cons]
    omega
  | nil =>
    rintro ⟨opener, hm, hp⟩
    by_cases hone : opener.length ≤ 1
    · exact h ⟨opener, hm, List.prefix_of_prefix_length_le hp (List.prefix_append _ rest) hone⟩
    · -- an opener of two characters has its second one behind the end
      have htwo : ∀ opener ∈ language.openers, ¬ opener.length ≤ 1 →
          opener = ['/', '/'] ∨ opener = ['/', '*'] := by cases language <;> decide
      rcases htwo opener hm hone with rfl | rfl
      · obtain ⟨more, hmore⟩ := (List.cons_prefix_cons.mp hp).2
        exact (hr '/' (by rw [← show ['/'] ++ more = rest from hmore]; rfl)).1 rfl
      · obtain ⟨more, hmore⟩ := (List.cons_prefix_cons.mp hp).2
        exact (hr '*' (by rw [← show ['*'] ++ more = rest from hmore]; rfl)).2.1 rfl

/-- **The mask shows what the text is shown as.** -/
theorem mask_of_shows {text shown rest : Text} (h : language.Shows text shown)
    (hr : language.EndsArgument rest) :
    language.mask (text ++ rest) = shown ++ language.mask rest := by
  induction h with
  | nil => rfl
  | @code c text shown hq ho _ ih =>
    obtain ⟨hcomment, hblock⟩ := not_opensComment_iff.mp (not_opensComment_append hr ho)
    rw [List.cons_append] at hcomment hblock ⊢
    rw [mask_cons, token_of_code hcomment hblock hq, Token.masked_code, ih]
    rfl
  | @literal quote inside text shown hq hi htriple _ ih =>
    have hback := ne_backslash_of_mem_quotes hq
    have hnone : ¬ language.OpensComment (quote :: (inside ++ quote :: (text ++ rest))) :=
      not_opensComment_of_mem (Or.inl hq) _
    obtain ⟨hcomment, hblock⟩ := not_opensComment_iff.mp hnone
    have hthree : ¬ (language = python ∧
        [quote, quote, quote].isPrefixOf
          (quote :: (inside ++ quote :: (text ++ rest))) = true) := by
      rintro ⟨hl, hp⟩
      obtain ⟨-, hp⟩ := List.cons_prefix_cons.mp (List.isPrefixOf_iff_prefix.mp hp)
      cases inside with
      | cons d inside => exact hi.head?_ne hback (by rw [(List.cons_prefix_cons.mp hp).1]; rfl)
      | nil =>
        obtain ⟨more, hmore⟩ := (List.cons_prefix_cons.mp hp).2
        cases text with
        | cons d text =>
          refine htriple hl rfl ?_
          rw [List.cons_append] at hmore
          rw [(List.cons.inj hmore).1]
          rfl
        | nil => exact (hr quote (by rw [← List.nil_append rest, ← hmore]; rfl)).2.2 hq
    have hblanks : inside.map blanked = List.replicate inside.length ' ' := by
      rw [List.eq_replicate_iff, List.length_map]
      refine ⟨rfl, fun d hd => ?_⟩
      obtain ⟨e, he, rfl⟩ := List.mem_map.mp hd
      have hne : e ≠ '\n' := fun hn => hi.notMem_lineFeed (hn ▸ he)
      rw [blanked, if_neg hne]
    have hcut : (quote :: (inside ++ quote :: text)) ++ rest =
        quote :: (inside ++ quote :: (text ++ rest)) := by simp
    rw [hcut, mask_cons, token_of_literal hcomment hblock hq hthree,
      hi.literalBody_eq hback (text ++ rest)]
    simp [Token.masked, hblanks, ih]

end Language

/-! ### Arguments -/

/-- An argument of a call: a trimmed text that is not empty, opens no comment and closes its
literals, and in which brackets are nested properly and commas stand in brackets or literals. -/
structure Argument (language : Language) where
  text : Text
  /-- The text with the insides of its literals blanked. -/
  shown : Text
  shows : language.Shows text shown
  nested : Bracket.Nested false shown
  trimmed : Text.trim text = text
  nonempty : text ≠ []

namespace Argument

variable {language : Language}

/-- What stands between two arguments. -/
def separator : Text := [',', ' ']

/-- The texts of some arguments, with commas between them. -/
def joined (arguments : List (Argument language)) : Text :=
  Text.join separator (arguments.map (·.text))

/-- The joined arguments as they stand in the mask. -/
def joinedShown (arguments : List (Argument language)) : Text :=
  Text.join separator (arguments.map (·.shown))

theorem joined_cons_cons (argument next : Argument language) (more : List (Argument language)) :
    joined (argument :: next :: more) =
      argument.text ++ (',' :: ' ' :: joined (next :: more)) := by
  simp [joined, Text.join, separator]

theorem joinedShown_cons_cons (argument next : Argument language)
    (more : List (Argument language)) :
    joinedShown (argument :: next :: more) =
      argument.shown ++ (',' :: ' ' :: joinedShown (next :: more)) := by
  simp [joinedShown, Text.join, separator]

theorem endsArgument_of_mem {c : Char} (h : c = ',' ∨ c = ')') (rest : Text) :
    language.EndsArgument (c :: rest) := by
  intro d hd
  obtain rfl := Option.some.inj hd
  rcases h with rfl | rfl
  · cases language <;> decide
  · cases language <;> decide

/-- **The mask of the joined arguments.** -/
theorem mask_joined (arguments : List (Argument language)) (rest : Text) :
    language.mask (joined arguments ++ ')' :: rest) =
      joinedShown arguments ++ language.mask (')' :: rest) := by
  induction arguments with
  | nil => rfl
  | cons argument more ih =>
    cases more with
    | nil => exact Language.mask_of_shows argument.shows (endsArgument_of_mem (Or.inr rfl) _)
    | cons next more =>
      rw [joined_cons_cons, joinedShown_cons_cons, List.append_assoc, List.append_assoc,
        List.cons_append,
        Language.mask_of_shows argument.shows (endsArgument_of_mem (Or.inl rfl) _),
        language.mask_cons_of_isPlain (by decide), List.cons_append,
        language.mask_cons_of_isPlain (by decide), ih]
      rfl

theorem balanced_joinedShown (arguments : List (Argument language)) :
    Bracket.round.Balanced (joinedShown arguments) := by
  induction arguments with
  | nil => exact Bracket.balanced_nil
  | cons argument more ih =>
    have hargument := argument.nested.balanced Bracket.round
    cases more with
    | nil => exact hargument
    | cons next more =>
      rw [joinedShown_cons_cons]
      have hseparator : Bracket.round.Balanced [',', ' '] := by decide
      exact hargument.append (hseparator.append ih)

/-! ### Cutting the arguments apart -/

/-- The ranges of the arguments behind the first one. Each begins behind a comma, at `begun` for the
first of them, and takes the space in front of the argument with it. -/
def ranges (begun : Nat) : List (Argument language) → List (Nat × Nat)
  | [] => []
  | argument :: more =>
    (begun, begun + 1 + argument.text.length) ::
      ranges (begun + 1 + argument.text.length + 1) more

theorem map_ranges_add (start begun : Nat) (arguments : List (Argument language)) :
    (ranges begun arguments).map (fun range => (start + range.1, start + range.2)) =
      ranges (start + begun) arguments := by
  induction arguments generalizing begun with
  | nil => rfl
  | cons argument more ih =>
    simp only [ranges, List.map_cons, ih, ← Nat.add_assoc]

/-- **The parts of the joined arguments are their ranges.** -/
theorem partsFrom_joinedShown (argument : Argument language) (more : List (Argument language))
    (begun here : Nat) (rest : Text) :
    Bracket.partsFrom [','] (here + (joinedShown (argument :: more)).length) 0 begun here 0
        (Text.suffixes (joinedShown (argument :: more)).length
          (joinedShown (argument :: more) ++ rest)) =
      some ((begun, here + argument.text.length) ::
        ranges (here + argument.text.length + 1) more) := by
  induction more generalizing argument begun here with
  | nil =>
    have hpass := Bracket.partsFrom_nested argument.nested (le_refl 0) (by simp) begun here 0 rest
    rw [Nat.add_zero, Nat.add_zero] at hpass
    rw [joinedShown, List.map_singleton, Text.join, hpass, argument.shows.length_eq, Text.suffixes,
      Bracket.partsFrom, if_pos (le_refl _)]
    rfl
  | cons next more ih =>
    have hcount : (joinedShown (argument :: next :: more)).length =
        argument.shown.length + ((joinedShown (next :: more)).length + 1 + 1) := by
      simp [joinedShown_cons_cons]
    have hpass := Bracket.partsFrom_nested argument.nested (le_refl 0) (by simp) begun here
      ((joinedShown (next :: more)).length + 1 + 1)
      (',' :: ' ' :: (joinedShown (next :: more) ++ rest))
    have hnext := ih next (here + argument.shown.length + 1) (here + argument.shown.length + 1 + 1)
    have htotal : here + argument.shown.length + ((joinedShown (next :: more)).length + 1 + 1) =
        here + argument.shown.length + 1 + 1 + (joinedShown (next :: more)).length := by omega
    rw [hcount, joinedShown_cons_cons, List.append_assoc, List.cons_append, List.cons_append,
      ← Nat.add_assoc, hpass, Text.suffixes, Bracket.partsFrom_comma (by omega), Text.suffixes,
      Bracket.partsFrom_code (by decide) (by decide) (by simp) (by omega), htotal, hnext,
      argument.shows.length_eq]
    rfl

theorem partsWithin_joinedShown (argument : Argument language) (more : List (Argument language))
    (left right : Text) :
    Bracket.partsWithin (left ++ (joinedShown (argument :: more) ++ right)) left.length
        (left.length + (joinedShown (argument :: more)).length) [','] =
      (left.length, left.length + argument.text.length) ::
        ranges (left.length + argument.text.length + 1) more := by
  have hparts := partsFrom_joinedShown argument more 0 0 right
  rw [Nat.zero_add, Nat.zero_add] at hparts
  rw [Bracket.partsWithin]
  simp only [Nat.add_sub_cancel_left, List.drop_left, hparts, Option.getD_some, List.map_cons,
    map_ranges_add, Nat.add_zero, Nat.add_assoc]

theorem pieces_cons {code gap : Text} {first last : Nat} {ranges : List (Nat × Nat)}
    (argument : Argument language) (hg : ∀ c ∈ gap, isBlank c = true)
    (h : Text.slice code first last = gap ++ argument.text) :
    PrintCall.pieces code ((first, last) :: ranges) =
      argument.text :: PrintCall.pieces code ranges := by
  have htrim : Text.trim (gap ++ argument.text) = argument.text := by
    rw [Text.trim, Text.dropWhile_pad hg]
    exact argument.trimmed
  rw [PrintCall.pieces, List.map_cons]
  dsimp only
  rw [h, htrim]
  exact List.filter_cons_of_pos (by simpa using argument.nonempty)

/-- **What is cut out of the call and trimmed are the arguments.** -/
theorem pieces_ranges (argument : Argument language) (more : List (Argument language))
    {gap : Text} (hg : ∀ c ∈ gap, isBlank c = true) (left right : Text) :
    PrintCall.pieces (left ++ (gap ++ (joined (argument :: more) ++ right)))
        ((left.length, left.length + gap.length + argument.text.length) ::
          ranges (left.length + gap.length + argument.text.length + 1) more) =
      (argument :: more).map (·.text) := by
  induction more generalizing argument gap left with
  | nil =>
    refine pieces_cons argument hg ?_
    have hslice := Text.slice_append left (gap ++ argument.text) right
    rwa [List.length_append, List.append_assoc, ← Nat.add_assoc] at hslice
  | cons next more ih =>
    have hslice := Text.slice_append left (gap ++ argument.text)
      (',' :: ' ' :: (joined (next :: more) ++ right))
    have hspace : ∀ c ∈ [' '], isBlank c = true := by decide
    have hbehind := ih next hspace (left ++ (gap ++ (argument.text ++ [','])))
    have hleft : (left ++ (gap ++ (argument.text ++ [',']))).length =
        left.length + gap.length + argument.text.length + 1 := by
      simp only [List.length_append, List.length_singleton]
      omega
    have hcode : left ++ (gap ++ (argument.text ++ [','])) ++
        ([' '] ++ (joined (next :: more) ++ right)) =
        left ++ (gap ++ (joined (argument :: next :: more) ++ right)) := by
      rw [joined_cons_cons]
      simp
    rw [hleft, hcode] at hbehind
    rw [List.map_cons, ← hbehind]
    refine pieces_cons argument hg ?_
    rw [← hslice, List.length_append, ← Nat.add_assoc, joined_cons_cons]
    simp

end Argument

/-! ### Calls -/

namespace PrintCall

variable {language : Language}

/-- A call as it is written, with its arguments in parentheses. -/
def rendered (routine : Routine) (arguments : List (Argument language)) : Text :=
  routine.name.toList ++ '(' :: (Argument.joined arguments ++ [')'])

/-- The call that is written. -/
def written (routine : Routine) (arguments : List (Argument language)) : PrintCall :=
  ⟨routine, arguments.map (·.text), routine.endsLine⟩

theorem isPlain_of_isNamePart {c : Char} (h : Routine.isNamePart c = true) : isPlain c = true := by
  rw [Routine.isNamePart, Bool.or_eq_true, beq_iff_eq] at h
  rcases h with h | rfl
  · exact isPlain_of_isWord h
  · decide

theorem mask_rendered (routine : Routine) (arguments : List (Argument language)) :
    language.mask (rendered routine arguments) =
      (routine.name.toList ++ ['(']) ++ (Argument.joinedShown arguments ++ [')']) := by
  have hname : ∀ c ∈ routine.name.toList ++ ['('], isPlain c = true := by
    intro c hc
    rcases List.mem_append.mp hc with hc | hc
    · exact isPlain_of_isNamePart (Routine.isNamePart_of_mem_name routine c hc)
    · rw [List.mem_singleton.mp hc]
      decide
  rw [rendered, List.append_cons, language.mask_append_of_plain hname, Argument.mask_joined,
    language.mask_eq_self (by decide)]

theorem pieces_rendered (routine : Routine) (arguments : List (Argument language)) :
    pieces (rendered routine arguments)
        (Bracket.partsWithin (language.mask (rendered routine arguments))
          (routine.name.toList ++ ['(']).length
          ((routine.name.toList ++ ['(']).length + (Argument.joinedShown arguments).length) [',']) =
      arguments.map (·.text) := by
  rw [mask_rendered]
  cases arguments with
  | nil =>
    have hnone : ∀ c ∈ ([] : Text), c ≠ ',' := by simp
    have hparts := Bracket.partsWithin_eq_singleton hnone (routine.name.toList ++ ['(']) [')']
    have hslice := Text.slice_append (routine.name.toList ++ ['(']) [] [')']
    have hcode : rendered routine ([] : List (Argument language)) =
        routine.name.toList ++ ['('] ++ ([] ++ [')']) := by
      simp [rendered, Argument.joined, Text.join]
    rw [← hcode] at hslice
    rw [show Argument.joinedShown ([] : List (Argument language)) = [] from rfl, hparts, pieces,
      List.map_singleton]
    dsimp only
    rw [hslice]
    rfl
  | cons argument more =>
    have hnone : ∀ c ∈ ([] : Text), isBlank c = true := by simp
    have hpieces := Argument.pieces_ranges argument more hnone (routine.name.toList ++ ['(']) [')']
    rw [Argument.partsWithin_joinedShown, ← hpieces, rendered, List.append_cons]
    rfl

theorem ofRoutine_rendered (routine : Routine) (arguments : List (Argument language)) :
    ∃ others, ofRoutine (rendered routine arguments)
        (language.mask (rendered routine arguments)) routine =
      (0, written routine arguments) :: others := by
  have hpieces := pieces_rendered routine arguments
  have hstart : ([] : Text).getLast?.any Routine.isNamePart = false := rfl
  have hmatch := matchAt?_callPattern routine hstart (Argument.joinedShown arguments ++ [')'])
  have hclose : Bracket.round.closing? 1 (routine.name.toList ++ ['(']).length
      (Argument.joinedShown arguments ++ [')']) =
        some ((routine.name.toList ++ ['(']).length + (Argument.joinedShown arguments).length) := by
    rw [Bracket.closing?_openAfter? (Argument.balanced_joinedShown arguments)]
    exact Bracket.closing?_closer _ []
  rw [mask_rendered] at hpieces ⊢
  rw [ofRoutine_eq_filterMap, Pattern.matchesIn_eq_matchesAfter,
    Pattern.matchesAfter_of_match hmatch rfl (by simp)]
  refine ⟨_, List.filterMap_cons_some ?_⟩
  simp only [ofMatch?, Place.offset_between, Place.rest_between, List.nil_append, hclose,
    Option.map_some, hpieces, List.length_nil]
  rfl

end PrintCall

/-- **The arguments of a call are those it was written from.**  For every language, every routine
that it calls like a function and every list of arguments, the call written from them is the one
call at the start of its snippet, and the first one that is listed. Brackets, commas, quote marks
behind backslashes and openers of comments may stand in the literals of the arguments. -/
theorem printCalls_rendered {language : Language} {routine : Routine}
    (hr : routine ∈ language.routines) (arguments : List (Argument language)) :
    (∀ call, (0, call) ∈ language.printCallsByRoutine (PrintCall.rendered routine arguments) ↔
      call = ⟨routine, arguments.map (·.text), routine.endsLine⟩) ∧
    (language.printCalls (PrintCall.rendered routine arguments)).head? =
      some ⟨routine, arguments.map (·.text), routine.endsLine⟩ := by
  obtain ⟨others, ho⟩ := PrintCall.ofRoutine_rendered routine arguments
  have hmem : (0, PrintCall.written routine arguments) ∈
      language.printCallsByRoutine (PrintCall.rendered routine arguments) :=
    List.mem_append_left _
      (List.mem_flatMap.mpr ⟨routine, hr, by rw [ho]; exact List.mem_cons_self⟩)
  refine ⟨fun call => ⟨fun hc => eq_of_mem_printCallsByRoutine hc hmem, ?_⟩, head?_printCalls hmem⟩
  rintro rfl
  exact hmem

namespace Argument

/-- A call with a list and a literal that holds a comma and an opening parenthesis. -/
def nestedCall : Argument .javascript where
  text := "f(\"a, (b\", [1, 2])".toList
  shown := "f(\"     \", [1, 2])".toList
  shows := by
    have hname : ∀ c ∈ "f(".toList, isPlain c = true := by decide
    have hlist : Language.javascript.Shows (", [1, 2])".toList ++ []) (", [1, 2])".toList ++ []) :=
      .append_of_plain (by decide) .nil
    have hinside : IsInside '"' ("a, (b".toList ++ []) := .append_of_forall (by decide) .nil
    exact .append_of_plain hname
      (.literal (by decide) hinside (fun he => absurd he (by decide)) hlist)
  nested := by
    have hname : Bracket.Nested false ['f'] := Bracket.nested_of_forall (by decide)
    have hliteral : Bracket.Nested true "\"     \", ".toList := Bracket.nested_of_forall (by decide)
    have hpair : Bracket.Nested true "1, 2".toList := Bracket.nested_of_forall (by decide)
    exact hname.append (.enclosed .round (hliteral.append (.enclosed .square hpair .nil)) .nil)
  trimmed := by decide
  nonempty := by decide

/-- A literal that holds its mark behind a backslash, and what would open a comment. -/
def quotedMark : Argument .javascript where
  text := "'it\\'s // it'".toList
  shown := "'           '".toList
  shows := by
    have hbehind : IsInside '\'' ("s // it".toList ++ []) := .append_of_forall (by decide) .nil
    have hinside : IsInside '\'' ("it".toList ++ '\\' :: '\'' :: ("s // it".toList ++ [])) :=
      .append_of_forall (by decide) (.escape (by decide) hbehind)
    exact .literal (by decide) hinside (fun he => absurd he (by decide)) .nil
  nested := Bracket.nested_of_forall (by decide)
  trimmed := by decide
  nonempty := by decide

end Argument

theorem printCalls_rendered_nestedCall :
    Routine.consoleLog ∈ Language.javascript.routines ∧
    PrintCall.rendered .consoleLog [Argument.nestedCall, Argument.quotedMark] =
      "console.log(f(\"a, (b\", [1, 2]), 'it\\'s // it')".toList ∧
    (∀ call, (0, call) ∈ Language.javascript.printCallsByRoutine
        (PrintCall.rendered .consoleLog [Argument.nestedCall, Argument.quotedMark]) ↔
      call = ⟨.consoleLog, ["f(\"a, (b\", [1, 2])".toList, "'it\\'s // it'".toList], true⟩) ∧
    (Language.javascript.printCalls
        (PrintCall.rendered .consoleLog [Argument.nestedCall, Argument.quotedMark])).head? =
      some ⟨.consoleLog, ["f(\"a, (b\", [1, 2])".toList, "'it\\'s // it'".toList], true⟩ :=
  ⟨by decide, rfl, printCalls_rendered (by decide) [Argument.nestedCall, Argument.quotedMark]⟩

end Snippet
