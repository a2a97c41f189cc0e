import Snippet.Proofs.Lookup
import Snippet.Proofs.LoopWords
import Snippet.Proofs.MaskedLines

/-!
# How far a statement reaches

The end of a statement is found without a parse: a block ends where its brace is closed, a loop
where its body ends, and anything else behind its first semicolon.  Here each of these is followed
through a text.

* `afterCloser?_balanced`: a bracket is closed behind any text that is `Balanced` in its kind.
* `matchAt?_headed`, `matchAt?_do`: the header of a loop is matched where its word stands.
* `statementEnd_semicolon`, `statementEnd_block`, `statementEnd_header`: the end of a statement of
  each kind, and `loopEnd_headed`, `loopEnd_do`: the end of a loop from that of its body.
-/

namespace Snippet

open Pattern Place

/-! ### Balanced brackets -/

namespace Bracket

variable {bracket : Bracket} {text more inside : Text} {depth stop : Nat}

/-- The number of brackets that are open behind a text, if `depth` are open in front of it. There is
none if the text closes more than are open. -/
def openAfter? (bracket : Bracket) (depth : Nat) : Text → Option Nat
  | [] => some depth
  | c :: rest =>
    if c = bracket.opener then openAfter? bracket (depth + 1) rest
    else if c = bracket.closer then
      if depth = 0 then none else openAfter? bracket (depth - 1) rest
    else openAfter? bracket depth rest

/-- Each bracket of the kind that the text opens is closed in it, and no others are. -/
def Balanced (bracket : Bracket) (text : Text) : Prop := bracket.openAfter? 0 text = some 0

instance : Decidable (bracket.Balanced text) :=
  inferInstanceAs (Decidable (bracket.openAfter? 0 text = some 0))

theorem openAfter?_append (depth : Nat) (text more : Text) :
    bracket.openAfter? depth (text ++ more) =
      (bracket.openAfter? depth text).bind (bracket.openAfter? · more) := by
  induction text generalizing depth with
  | nil => rfl
  | cons c text ih =>
    simp only [List.cons_append, openAfter?, ih]
    split
    · rfl
    · split
      · split <;> rfl
      · rfl

theorem openAfter?_cons_eq_some {c : Char} (h : bracket.openAfter? depth (c :: text) = some stop) :
    (c = bracket.opener ∧ bracket.openAfter? (depth + 1) text = some stop) ∨
      (c = bracket.closer ∧ ∃ less, depth = less + 1 ∧ bracket.openAfter? less text = some stop) ∨
      ((c ≠ bracket.opener ∧ c ≠ bracket.closer) ∧ bracket.openAfter? depth text = some stop) := by
  rw [openAfter?] at h
  split at h
  next ho => exact Or.inl ⟨ho, h⟩
  next ho =>
    split at h
    next hc =>
      cases depth with
      | zero => cases h
      | succ less => exact Or.inr (Or.inl ⟨hc, less, rfl, h⟩)
    next hc => exact Or.inr (Or.inr ⟨⟨ho, hc⟩, h⟩)

theorem openAfter?_add (outer : Nat) (h : bracket.openAfter? depth text = some stop) :
    bracket.openAfter? (outer + depth) text = some (outer + stop) := by
  induction text generalizing depth with
  | nil =>
    cases h
    rfl
  | cons c text ih =>
    obtain ⟨rfl, ht⟩ | ⟨rfl, less, rfl, ht⟩ | ⟨⟨ho, hc⟩, ht⟩ := openAfter?_cons_eq_some h
    · rw [openAfter?, if_pos rfl]
      exact ih ht
    · rw [openAfter?, if_neg bracket.closer_ne_opener, if_pos rfl, if_neg (by omega)]
      exact ih ht
    · rw [openAfter?, if_neg ho, if_neg hc]
      exact ih ht

theorem openAfter?_balanced (h : bracket.Balanced text) (depth : Nat) :
    bracket.openAfter? depth text = some depth := openAfter?_add depth h

theorem balanced_nil : bracket.Balanced [] := rfl

theorem Balanced.append (h : bracket.Balanced text) (h' : bracket.Balanced more) :
    bracket.Balanced (text ++ more) := by
  rw [Balanced, openAfter?_append, h, Option.bind_some]
  exact h'

theorem Balanced.wrap (h : bracket.Balanced inside) (h' : bracket.Balanced more) :
    bracket.Balanced (bracket.opener :: (inside ++ bracket.closer :: more)) := by
  rw [Balanced, openAfter?, if_pos rfl, openAfter?_append, openAfter?_balanced h, Option.bind_some,
    openAfter?, if_neg bracket.closer_ne_opener, if_pos rfl]
  exact h'

theorem balanced_of_forall (h : ∀ c ∈ text, c ≠ bracket.opener ∧ c ≠ bracket.closer) :
    bracket.Balanced text := by
  induction text with
  | nil => rfl
  | cons c text ih =>
    obtain ⟨⟨ho, hc⟩, ht⟩ := List.forall_mem_cons.mp h
    rw [Balanced, openAfter?, if_neg ho, if_neg hc]
    exact ih ht

theorem closing?_openAfter? (h : bracket.openAfter? depth text = some stop) (here : Nat)
    (rest : Text) :
    bracket.closing? (depth + 1) here (text ++ rest) =
      bracket.closing? (stop + 1) (here + text.length) rest := by
  induction text generalizing depth here with
  | nil =>
    cases h
    rfl
  | cons c text ih =>
    have hshift : here + (text.length + 1) = here + 1 + text.length := by omega
    rw [List.cons_append, List.length_cons, closing?, hshift]
    obtain ⟨rfl, ht⟩ | ⟨rfl, less, rfl, ht⟩ | ⟨⟨ho, hc⟩, ht⟩ := openAfter?_cons_eq_some h
    · rw [if_pos rfl]
      exact ih ht _
    · rw [if_neg bracket.closer_ne_opener, if_pos rfl, if_neg (by omega)]
      exact ih ht _
    · rw [if_neg ho, if_neg hc]
      exact ih ht _

end Bracket

variable {left right text inside gap : Text}

/-- **A bracket is closed behind a balanced text.** -/
theorem afterCloser?_balanced {bracket : Bracket} (h : bracket.Balanced inside)
    (left right : Text) :
    afterCloser? bracket (between left (inside ++ bracket.closer :: right)) =
      some (between (left ++ (inside ++ [bracket.closer])) right) := by
  have hclose : bracket.closing? 1 left.length (inside ++ bracket.closer :: right) =
      some (left.length + inside.length) := by
    rw [Bracket.closing?_openAfter? h, Bracket.closing?_closer]
  have hlength : left.length + inside.length + 1 - left.length =
      (inside ++ [bracket.closer]).length := by
    rw [List.length_append, List.length_singleton]
    omega
  have hstop := advance_between left (inside ++ [bracket.closer]) right
  rw [List.append_assoc, List.singleton_append] at hstop
  rw [afterCloser?, offset_between, rest_between, hclose, Option.map_some, hlength, hstop]

/-! ### Headers -/

namespace Pattern

/-- The words that loop headers open with. -/
def headerWords : List Text := ["for".toList, "while".toList, "do".toList]

theorem isWord_of_mem_headerWords :
    ∀ word ∈ headerWords, word ≠ [] ∧ ∀ c ∈ word, isWord c = true := by
  decide

/-- **A stretch without the words of loops holds no header.** -/
theorem avoids_loopHeader (h : text.Lacks headerWords)
    (hr : text.getLast?.any isWord = false ∨ right.head?.any isWord = false) (left : Text) :
    loopHeader.Avoids left text right :=
  opens_loopHeader.avoids isWord_of_mem_headerWords h hr

/-- The header of a loop is its word with a parenthesis, or `do` in front of a brace. -/
theorem exists_of_fits_loopHeader {piece : Text} {held kept : Groups}
    (h : loopHeader.Fits left piece right held kept) :
    kept = held ∧ ∃ gap, (∀ c ∈ gap, isBlank c = true) ∧
      ((∃ s ∈ loopWords, piece = s.toList ++ (gap ++ ['('])) ∨
        (piece = "do".toList ++ gap ∧ right.head? = some '\x7b')) := by
  rcases h with h | h
  · obtain ⟨_, back, _, rfl, ⟨_, word, _, rfl, ⟨rfl, rfl, _⟩, hfirst⟩, hnext⟩ := h
    obtain ⟨_, hm, hlit⟩ := fits_firstOf.mp hfirst
    obtain ⟨s, hs, rfl⟩ := List.mem_map.mp (show _ ∈ loopWords.map lit from hm)
    obtain ⟨rfl, rfl⟩ := fits_lit.mp hlit
    obtain ⟨gap, hg, rfl, rfl⟩ := fits_next.mp hnext
    exact ⟨rfl, gap, hg, Or.inl ⟨s, hs, by simp⟩⟩
  · obtain ⟨_, _, _, rfl, ⟨_, gap, _, rfl, hdo, hg, rfl⟩, rfl, rfl, hb⟩ := h
    obtain ⟨_, _, _, rfl, ⟨rfl, rfl, _⟩, hlit⟩ := hdo
    obtain ⟨rfl, rfl⟩ := fits_lit.mp hlit
    refine ⟨rfl, gap, hg, Or.inr ⟨by simp, ?_⟩⟩
    cases right with
    | nil => cases hb
    | cons c right => simpa using hb

/-- The match of `piece` between two texts, without groups. -/
def matchOf (left piece right : Text) : Match :=
  ⟨between left (piece ++ right), between (left ++ piece) right, []⟩

theorem text_matchOf (left piece right : Text) : (matchOf left piece right).text = piece := by
  simp [Match.text, matchOf]

theorem any_head?_word {word : Text} (hm : word ∈ headerWords) (rest : Text) :
    (word ++ rest).head?.any isWord = true := by
  obtain ⟨hn, hw⟩ := isWord_of_mem_headerWords word hm
  rw [List.head?_append_of_ne_nil _ hn, List.head?_eq_some_head hn]
  exact hw _ (List.head_mem hn)

/-- **The word of a loop and a parenthesis are a header.** -/
theorem matchAt?_headed {s : String} (hs : s ∈ loopWords) (hl : left.getLast?.any isWord = false)
    (hg : ∀ c ∈ gap, isBlank c = true) (right : Text) :
    loopHeader.matchAt? (between left (s.toList ++ (gap ++ ['(']) ++ right)) =
      some (matchOf left (s.toList ++ (gap ++ ['('])) right) := by
  have hm : s.toList ∈ headerWords := by
    fin_cases hs <;> decide
  refine matchAt?_eq_of_fits ?_ ?_
  · refine Or.inl ⟨s.toList, gap ++ ['('], [], rfl, ⟨[], s.toList, [], rfl, ?_, ?_⟩, ?_⟩
    · exact ⟨rfl, rfl, isEdge_between_of_left hl (any_head?_word hm _)⟩
    · exact fits_firstOf.mpr ⟨lit s, List.mem_map_of_mem hs, fits_lit.mpr ⟨rfl, rfl⟩⟩
    · exact fits_next.mpr ⟨gap, hg, rfl, rfl⟩
  · intro piece' right' kept' hcut hf
    obtain ⟨rfl, gap', hg', ⟨s', hs', rfl⟩ | ⟨rfl, -⟩⟩ := exists_of_fits_loopHeader hf
    · -- different words of loops have different first letters
      have hword : s = s' := by
        have hhead := congrArg List.head? hcut
        fin_cases hs <;> fin_cases hs' <;> simp_all
      subst hword
      rw [List.append_assoc, List.append_assoc, List.append_assoc s.toList,
        List.append_cancel_left_eq, List.append_assoc] at hcut
      obtain ⟨rfl, -⟩ := Text.append_inj_of_head hg hg' (by rfl) (by rfl) hcut
      exact ⟨rfl, rfl⟩
    · have hhead := congrArg List.head? hcut
      fin_cases hs <;> simp at hhead

/-- **The word `do` in front of a brace is a header.** -/
theorem matchAt?_do (hl : left.getLast?.any isWord = false) (hg : ∀ c ∈ gap, isBlank c = true)
    (right : Text) :
    loopHeader.matchAt? (between left ("do".toList ++ gap ++ '\x7b' :: right)) =
      some (matchOf left ("do".toList ++ gap) ('\x7b' :: right)) := by
  have hm : "do".toList ∈ headerWords := by decide
  refine matchAt?_eq_of_fits ?_ ?_
  · refine Or.inr
      ⟨"do".toList ++ gap, [], [], by simp, ⟨"do".toList, gap, [], rfl, ?_, hg, rfl⟩, ?_⟩
    · exact ⟨[], "do".toList, [], rfl, ⟨rfl, rfl, isEdge_between_of_left hl (any_head?_word hm _)⟩,
        fits_lit.mpr ⟨rfl, rfl⟩⟩
    · exact ⟨rfl, rfl, rfl⟩
  · intro piece' right' kept' hcut hf
    obtain ⟨rfl, gap', hg', ⟨s, hs, rfl⟩ | ⟨rfl, hbrace⟩⟩ := exists_of_fits_loopHeader hf
    · have hhead := congrArg List.head? hcut
      fin_cases hs <;> simp at hhead
    · rw [List.append_assoc, List.append_assoc, List.append_cancel_left_eq] at hcut
      have hstop : right'.head?.any isBlank = false := by
        rw [hbrace]
        rfl
      obtain ⟨rfl, -⟩ := Text.append_inj_of_head hg hg' (by rfl) hstop hcut
      exact ⟨rfl, rfl⟩

end Pattern

/-! ### Ends of statements -/

theorem skipBlanks_between (hg : ∀ c ∈ gap, isBlank c = true) (ht : text.head?.any isBlank = false)
    (left : Text) : skipBlanks (between left (gap ++ text)) = between (left ++ gap) text := by
  rw [skipBlanks, rest_between, Text.indent_pad hg ht, advance_between]

theorem position?_append {c : Char} (h : c ∉ left) (right : Text) :
    Text.position? c (left ++ right) = (Text.position? c right).map (· + left.length) := by
  induction left with
  | nil => simp
  | cons d left ih =>
    obtain ⟨hd, hl⟩ := List.ne_and_not_mem_of_not_mem_cons h
    rw [List.cons_append, Text.position?, if_neg (Ne.symm hd), ih hl, Option.map_map]
    refine congrArg (Option.map · _) (funext fun n => ?_)
    simp [Nat.add_assoc]

theorem simpleEnd_semicolon (hb : '\x7b' ∉ text) (hs : ';' ∉ text) (left right : Text) :
    simpleEnd (between left (text ++ ';' :: right)) = left.length + text.length + 1 := by
  have hsemicolon : Text.position? ';' (text ++ ';' :: right) = some text.length := by
    rw [position?_append hs, Text.position?, if_pos rfl, Option.map_some, Nat.zero_add]
  have hbrace : ∀ b, Text.position? '\x7b' (text ++ ';' :: right) = some b → ¬ b < text.length := by
    intro b h
    rw [position?_append hb] at h
    obtain ⟨n, -, rfl⟩ := Option.map_eq_some_iff.mp h
    omega
  simp only [simpleEnd, rest_between, offset_between, hsemicolon]
  split
  next h => cases h
  next b s h' h =>
    cases h
    rw [if_neg (hbrace b h')]
  next h =>
    cases h
    rfl
  next h => cases h

theorem exists_cons_of_loopHeader {header : Match}
    (h : loopHeader.matchAt? (between left text) = some header) :
    ∃ c rest, text = c :: rest ∧ isWord c = true := by
  have hfits : loopHeader.FitsAt left text :=
    isSome_matchAt?_iff.mp (Option.isSome_iff_exists.mpr ⟨header, h⟩)
  obtain ⟨word, hm, rest, rfl, -⟩ := opens_loopHeader _ _ hfits
  have hhead := any_head?_word hm rest
  cases hcons : word ++ rest with
  | nil =>
    rw [hcons] at hhead
    cases hhead
  | cons c more =>
    rw [hcons] at hhead
    exact ⟨c, more, rfl, by simpa using hhead⟩

theorem skipBlanks_header {header : Match} (hg : ∀ c ∈ gap, isBlank c = true)
    (h : loopHeader.matchAt? (between (left ++ gap) text) = some header) :
    skipBlanks (between left (gap ++ text)) = between (left ++ gap) text ∧
      ∃ c rest, text = c :: rest ∧ c ≠ '\x7b' := by
  obtain ⟨c, rest, rfl, hc⟩ := exists_cons_of_loopHeader h
  have hblank : isBlank c = false := by
    rw [← Bool.not_eq_true]
    intro hb
    rw [isWord_of_isBlank hb] at hc
    cases hc
  have hhead : (c :: rest).head?.any isBlank = false := hblank
  exact ⟨skipBlanks_between hg hhead left, c, rest, rfl, ne_of_isWord hc (by decide)⟩

/-- **A loop ends where its header says.** -/
theorem statementEnd_header {header : Match} (hg : ∀ c ∈ gap, isBlank c = true)
    (h : loopHeader.matchAt? (between (left ++ gap) text) = some header) :
    statementEnd (between left (gap ++ text)) = loopEnd header := by
  obtain ⟨hstart, c, rest, hcons, hc⟩ := skipBlanks_header hg h
  obtain ⟨piece, right, rfl, -, hstop, -⟩ := fits_of_matchAt? h
  have hrest : (skipBlanks (between left (gap ++ (piece ++ right)))).rest = c :: rest := by
    rw [hstart, rest_between, hcons]
  -- what is never closed reaches to the end of the text, wherever that is read off
  have hend : (between left (gap ++ (piece ++ right))).textEnd = header.stop.textEnd := by
    rw [hstop]
    simp [Place.textEnd, Nat.add_assoc]
  rw [← hstart] at h
  exact statementEnd_of_header hrest hc h hend

/-- **A block ends at its brace.** -/
theorem statementEnd_block (hg : ∀ c ∈ gap, isBlank c = true) (hb : Bracket.curly.Balanced inside)
    (left right : Text) :
    statementEnd (between left (gap ++ '\x7b' :: (inside ++ '\x7d' :: right))) =
      left.length + gap.length + inside.length + 2 := by
  have hstart : skipBlanks (between left (gap ++ '\x7b' :: (inside ++ '\x7d' :: right))) =
      between (left ++ gap) ('\x7b' :: (inside ++ '\x7d' :: right)) :=
    skipBlanks_between hg rfl left
  have hopen : (between (left ++ gap) ('\x7b' :: (inside ++ '\x7d' :: right))).advance 1 =
      between (left ++ gap ++ ['\x7b']) (inside ++ '\x7d' :: right) := advance_between _ ['\x7b'] _
  have hclose := afterCloser?_balanced hb (left ++ gap ++ ['\x7b']) right
  rw [statementEnd, hstart]
  simp only [rest_between, if_true]
  rw [hopen, show '\x7d' = Bracket.curly.closer from rfl, hclose]
  simp only [offset_between, List.length_append, List.length_singleton]
  omega

/-- **Anything else ends behind its semicolon.** -/
theorem statementEnd_semicolon (hb : '\x7b' ∉ text) (hs : ';' ∉ text) (hl : text.Lacks headerWords)
    (left right : Text) :
    statementEnd (between left (text ++ ';' :: right)) = left.length + text.length + 1 := by
  have hhead : (text.dropWhile isBlank ++ ';' :: right).head?.any isBlank = false := by
    cases hd : text.dropWhile isBlank with
    | nil => rfl
    | cons c rest =>
      have hc := List.head_dropWhile_not isBlank (by rw [hd]; exact List.cons_ne_nil c rest)
      simpa [hd] using hc
  obtain ⟨gap, rest, rfl, hg, hhead⟩ : ∃ gap rest, text = gap ++ rest ∧
      (∀ c ∈ gap, isBlank c = true) ∧ (rest ++ ';' :: right).head?.any isBlank = false :=
    ⟨_, _, List.takeWhile_append_dropWhile.symm, fun c hc => List.mem_takeWhile_imp hc, hhead⟩
  have hstart := skipBlanks_between hg hhead left
  obtain ⟨c, more, hcons, hc⟩ : ∃ c more, rest ++ ';' :: right = c :: more ∧ c ≠ '\x7b' := by
    cases rest with
    | nil => exact ⟨_, _, rfl, by decide⟩
    | cons c rest =>
      refine ⟨_, _, rfl, ?_⟩
      rintro rfl
      exact hb (by simp)
  have hnone : loopHeader.matchAt? (between (left ++ gap) (rest ++ ';' :: right)) = none := by
    have hlacks : Text.Lacks (gap ++ rest ++ [';']) headerWords :=
      hl.append (by decide) (Or.inr rfl)
    have havoids : loopHeader.Avoids left (gap ++ rest ++ [';']) right :=
      avoids_loopHeader hlacks (Or.inl (by simp; decide)) left
    have hfits := havoids gap (rest ++ [';']) (List.append_assoc _ _ _) (by simp)
    rw [List.append_assoc] at hfits
    exact matchAt?_eq_none hfits
  have hsimple : statementEnd (between left (gap ++ (rest ++ ';' :: right))) =
      simpleEnd (between (left ++ gap) (rest ++ ';' :: right)) := by
    have hrest : (skipBlanks (between left (gap ++ (rest ++ ';' :: right)))).rest = c :: more := by
      rw [hstart, rest_between, hcons]
    rw [← hstart] at hnone ⊢
    exact statementEnd_of_simple hrest hc hnone
  rw [List.append_assoc, hsimple, simpleEnd_semicolon (fun h => hb (List.mem_append_right _ h))
    (fun h => hs (List.mem_append_right _ h)), List.length_append, List.length_append, Nat.add_assoc
    left.length]

/-! ### Loops with their headers -/

/-- A header with a parenthesis, from the word to the closer. -/
def headerText (s : String) (gap inside : Text) : Text :=
  s.toList ++ (gap ++ '(' :: (inside ++ [')']))

theorem headerText_append (s : String) (gap inside right : Text) :
    headerText s gap inside ++ right = s.toList ++ (gap ++ ['(']) ++ (inside ++ ')' :: right) := by
  simp [headerText]

/-- The reach of the loop with a given header. -/
def spanOf (header : Match) : Nat × Nat := (header.start.offset, loopEnd header)

/-- The reaches of the loops in a text that stands behind `left`. -/
def spansAfter (left text : Text) : List (Nat × Nat) :=
  (loopHeader.matchesAfter left text).map spanOf

theorem loopSpans_eq_spansAfter (mask : Text) : loopSpans mask = spansAfter [] mask := rfl

/-- **A stretch without the words of loops is passed over.** -/
theorem spansAfter_lacks (h : text.Lacks headerWords)
    (hr : text.getLast?.any isWord = false ∨ right.head?.any isWord = false) (left : Text) :
    spansAfter left (text ++ right) = spansAfter (left ++ text) right := by
  rw [spansAfter, matchesAfter_append (avoids_loopHeader h hr left), spansAfter]

theorem spansAfter_of_match {piece : Text} (hp : piece ≠ [])
    (h : loopHeader.matchAt? (between left (piece ++ right)) = some (matchOf left piece right)) :
    spansAfter left (piece ++ right) =
      (left.length, loopEnd (matchOf left piece right)) :: spansAfter (left ++ piece) right := by
  rw [spansAfter, matchesAfter_of_match h rfl hp, List.map_cons, spansAfter]
  rfl

section

variable {s : String} (hs : s ∈ loopWords) (hb : Bracket.round.Balanced inside)
include hs hb

theorem afterCloser?_headed (left gap right : Text) :
    isDoHeader (matchOf left (s.toList ++ (gap ++ ['('])) (inside ++ ')' :: right)) = false ∧
      afterCloser? .round
          (matchOf left (s.toList ++ (gap ++ ['('])) (inside ++ ')' :: right)).stop =
        some (between (left ++ headerText s gap inside) right) := by
  constructor
  · rw [isDoHeader, text_matchOf]
    fin_cases hs <;> rfl
  · have hclose := afterCloser?_balanced hb (left ++ (s.toList ++ (gap ++ ['(']))) right
    rw [matchOf, show ')' = Bracket.round.closer from rfl, hclose]
    simp [headerText, Bracket.closer]

theorem loopEnd_headed (left gap right : Text) :
    loopEnd (matchOf left (s.toList ++ (gap ++ ['('])) (inside ++ ')' :: right)) =
      statementEnd (between (left ++ headerText s gap inside) right) := by
  obtain ⟨hdo, hclose⟩ := afterCloser?_headed hs hb left gap right
  rw [loopEnd, hdo, hclose]
  rfl

variable (hg : ∀ c ∈ gap, isBlank c = true)
include hg

/-- **A loop as the statement at hand.** -/
theorem statementEnd_headed {lead : Text} (hlead : ∀ c ∈ lead, isBlank c = true)
    (hl : (left ++ lead).getLast?.any isWord = false) (right : Text) :
    statementEnd (between left (lead ++ (headerText s gap inside ++ right))) =
      statementEnd (between (left ++ lead ++ headerText s gap inside) right) := by
  have hmatch := matchAt?_headed hs hl hg (inside ++ ')' :: right)
  rw [headerText_append, statementEnd_header hlead hmatch, loopEnd_headed hs hb]

/-- **A loop in the list of reaches.** -/
theorem spansAfter_headed (hl : left.getLast?.any isWord = false) (hi : inside.Lacks headerWords)
    (right : Text) :
    spansAfter left (headerText s gap inside ++ right) =
      (left.length, statementEnd (between (left ++ headerText s gap inside) right)) ::
        spansAfter (left ++ headerText s gap inside) right := by
  have hmatch := matchAt?_headed hs hl hg (inside ++ ')' :: right)
  have hlacks : Text.Lacks (inside ++ [')']) headerWords := hi.append (by decide) (Or.inr rfl)
  have hskip : spansAfter (left ++ (s.toList ++ (gap ++ ['(']))) (inside ++ [')'] ++ right) = _ :=
    spansAfter_lacks hlacks (Or.inl (by simp; decide)) _
  have hleft : left ++ (s.toList ++ (gap ++ ['('])) ++ (inside ++ [')']) =
      left ++ headerText s gap inside := by
    simp [headerText]
  rw [List.append_assoc, List.singleton_append, hleft] at hskip
  rw [headerText_append, spansAfter_of_match (by simp) hmatch, loopEnd_headed hs hb, hskip]

end

theorem loopEnd_do (left gap right : Text) :
    loopEnd (matchOf left ("do".toList ++ gap) right) =
      statementEnd (between (left ++ ("do".toList ++ gap)) right) := by
  have hdo : isDoHeader (matchOf left ("do".toList ++ gap) right) = true := by
    rw [isDoHeader, text_matchOf]
    rfl
  rw [loopEnd, hdo]
  rfl

/-- **A `do` loop as the statement at hand.** -/
theorem statementEnd_do {lead : Text} (hlead : ∀ c ∈ lead, isBlank c = true)
    (hl : (left ++ lead).getLast?.any isWord = false) (hg : ∀ c ∈ gap, isBlank c = true)
    (right : Text) :
    statementEnd (between left (lead ++ ("do".toList ++ gap ++ '\x7b' :: right))) =
      statementEnd (between (left ++ lead ++ ("do".toList ++ gap)) ('\x7b' :: right)) := by
  rw [statementEnd_header hlead (matchAt?_do hl hg right), loopEnd_do]

/-- **A `do` loop in the list of reaches.** -/
theorem spansAfter_do (hl : left.getLast?.any isWord = false) (hg : ∀ c ∈ gap, isBlank c = true)
    (right : Text) :
    spansAfter left ("do".toList ++ gap ++ '\x7b' :: right) =
      (left.length, statementEnd (between (left ++ ("do".toList ++ gap)) ('\x7b' :: right))) ::
        spansAfter (left ++ ("do".toList ++ gap)) ('\x7b' :: right) := by
  rw [spansAfter_of_match (by simp) (matchAt?_do hl hg right), loopEnd_do]

end Snippet
