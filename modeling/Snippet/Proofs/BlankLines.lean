import Snippet.Proofs.LaggingLines

/-!
# Blank lines between definitions

`Language.definitions_blankLine_iff`: **when a blank line may stand anywhere between two texts**.
That it may if it is one line and the mask in front of it lags behind quietly is
`Language.definitions_blankLine`.

In the other direction, some rows and a definition behind them show what has been in front
(`laterBody`): with many rows, the length of the body is the number of lines that the line feeds
miss, so the blank line is one line (`length_lines_of_laterBody`). With fewer rows, the body starts
in the lines of the mask, and each of these is passed over (`passed_of_laterBody`).

A blank text with a form feed in it, or another character that ends a line, is several lines with
one line feed, and the body of a definition behind it is lost
(`Language.not_same_definitions_formFeed`).
-/

namespace Snippet

open Pattern Place

variable {front line rest : Text}

/-! ### A definition at the end of a text -/

/-- A definition that no header in front of it reaches. -/
def laterDefinition : Text := "async def f(x".toList

theorem exists_laterHead : ∃ head : DefinitionHead,
    laterDefinition = head.text ++ ['x'] ∧ head.lead = [] ∧ head.name = ['f'] :=
  ⟨⟨[], "async ".toList, [' '], ['f'], [], List.forall_mem_nil _,
    Or.inr ⟨[' '], rfl, by decide, by decide⟩, List.cons_ne_nil _ _,
    List.forall_mem_singleton.mpr rfl, ⟨'f', [], rfl, rfl, List.forall_mem_nil _⟩,
    List.forall_mem_nil _⟩, rfl, rfl, rfl⟩

theorem not_followsBlanks_laterDefinition {text right : Text} (h : FollowsBlanks text) :
    text ++ right ≠ laterDefinition := by
  intro he
  cases h with
  | definition text => cases he
  | @name name space isPlainName isBlank_of_mem_space =>
    have hword : (space ++ '(' :: right).head?.any isWord = false := by
      cases space with
      | nil => rfl
      | cons c space => exact isWord_of_isBlank (isBlank_of_mem_space c List.mem_cons_self)
    rw [List.append_assoc, List.append_assoc, List.singleton_append] at he
    have hasync : laterDefinition = "async".toList ++ " def f(x".toList := rfl
    obtain ⟨-, he⟩ :=
      Text.append_inj_of_head isPlainName.isWord_of_mem (by decide) hword (by decide)
        (he.trans hasync)
    have hgap : " def f(x".toList = [' '] ++ "def f(x".toList := rfl
    obtain ⟨-, he⟩ := Text.append_inj_of_head isBlank_of_mem_space (by decide) (by rfl) (by decide)
      (he.trans hgap)
    cases he
  | parenthesis => cases he

theorem stays_laterDefinition (hf : front.EndsInLineFeed) :
    indentedHeader.Stays [] front laterDefinition := by
  rintro before back _ right kept rfl hb he hfits
  obtain ⟨-, head, rfl, -⟩ := fits_indentedHeader_iff.mp hfits
  have hl : back.getLast? = some '\n' := by
    have hlast := hf.resolve_left (by simp [hb])
    rwa [List.getLast?_append_of_ne_nil _ hb] at hlast
  rcases List.append_eq_append_iff.mp he with ⟨more, hm, hr⟩ | ⟨more, rfl, -⟩
  · obtain ⟨gap, visible, rfl, hg, hv, -⟩ := head.exists_exchange hl hm
    cases gap with
    | nil => exact absurd hr.symm (not_followsBlanks_laterDefinition hv)
    | cons c gap =>
      have hc := hg c List.mem_cons_self
      rw [← (List.cons.inj hr).1] at hc
      exact absurd hc (by decide)
  · simp

/-- The body of that definition behind `front`: it is read from the line on that the line feeds
count. -/
def laterBody (front : Text) : Text :=
  if (Text.lines front).length = front.count '\n' then ['x']
  else (blockLines 0 ((Text.lines front).drop (front.count '\n' + 1))).flatten

/-- **The last definition in a text that ends in one.** -/
theorem getLast?_laterDefinition (hf : front.EndsInLineFeed) :
    (indentedDefinitions (front ++ laterDefinition)).getLast? = some ⟨['f'], laterBody front⟩ := by
  obtain ⟨head, htext, hlead, hname⟩ := exists_laterHead
  have hl : front.getLast?.all (· == '\n') = true := by
    rcases hf with rfl | hf
    · rfl
    · rw [hf]
      rfl
  have hwide := @matchesAfter_widen indentedHeader [] [] front laterDefinition (by decide)
    (fun _ => ignoresBefore_none) (by decide) (stays_laterDefinition hf)
  have hmatch := matchesAfter_of_match (matchAt?_indentedHeader hl head ['x']) rfl head.text_ne_nil
  have hnone : indentedHeader.matchesAfter (front ++ head.text) ['x'] = [] :=
    matchesAfter_eq_nil (avoids_of_mayEnd (by decide) (by decide))
  rw [List.nil_append, List.nil_append, List.nil_append] at hwide
  have hlines : Text.lines (front ++ (head.text ++ ['x'])) =
      Text.lines front ++ [laterDefinition] := by
    rw [Text.lines_append hf, ← htext]
    rfl
  have hlength : front.length = (Text.lines front).flatten.length := by rw [Text.flatten_lines]
  rw [indentedDefinitions, matchesIn_eq_matchesAfter, List.getLast?_map, hwide, htext, hmatch,
    hnone, List.getLast?_concat, Option.map_some, indentedDefinition_eq]
  simp only [hlines, offset_between, List.take_left, head.text_groups_lead, head.text_groups_name,
    hlead, hname, List.length_append, List.length_nil]
  rw [laterBody]
  split
  next hcount =>
    rw [← hcount, hlength, restOfLine_append_right (Nat.le_refl _), Nat.sub_self,
      List.drop_eq_nil_of_le (by simp), htext]
    simp [restOfLine, blockLines]
    rfl
  next hcount =>
    have hlt : front.count '\n' < (Text.lines front).length :=
      Nat.lt_of_le_of_ne (Text.count_le_length_lines front) (Ne.symm hcount)
    rw [restOfLine_append hlt, restOfLine_eq_nil hlt (by omega), List.drop_append_of_le_length hlt,
      blockLines_append_cons (by decide) (by decide)]
    rfl

/-! ### What a blank line behind a text shows -/

/-- Some rows that are indented by one. -/
def laterRows (n : Nat) : Text := renderRows (List.replicate n " ;".toList)

theorem isPlain_of_mem_laterRows (n : Nat) :
    ∀ c ∈ laterRows n ++ laterDefinition, isPlain c = true := by
  intro c hc
  rcases List.mem_append.mp hc with hc | hc
  · have hrow : ∀ c ∈ " ;".toList ++ ['\n'], isPlain c = true := by decide
    obtain ⟨row, hr, hc⟩ := mem_renderRows.mp hc
    rw [List.eq_of_mem_replicate hr] at hc
    exact hrow c hc
  · exact (by decide : ∀ c ∈ laterDefinition, isPlain c = true) c hc

theorem lines_append_laterRows (hf : front.EndsInLineFeed) (n : Nat) :
    Text.lines (front ++ laterRows n) = Text.lines front ++ List.replicate n " ;\n".toList ∧
      (front ++ laterRows n).count '\n' = front.count '\n' + n := by
  have hrow : ∀ row ∈ List.replicate n " ;".toList, Text.Unbroken row := by
    intro row hr
    rw [List.eq_of_mem_replicate hr, Text.Unbroken]
    decide
  have hrows := lines_renderRows hrow []
  rw [List.append_nil, show Text.lines [] = [] from rfl, List.append_nil,
    List.map_replicate] at hrows
  refine ⟨?_, ?_⟩
  · rw [laterRows, Text.lines_append hf, hrows]
    rfl
  · rw [laterRows, List.count_append, count_renderRows hrow, List.length_replicate]

theorem blockLines_replicate (n : Nat) :
    blockLines 0 (List.replicate n " ;\n".toList) = List.replicate n " ;\n".toList := by
  induction n with
  | zero => rfl
  | succ n ih =>
    rw [List.replicate_succ, blockLines_cons, ih, if_neg (by decide), if_pos (by decide)]

theorem laterBody_append_laterRows (hf : front.EndsInLineFeed) (n : Nat) :
    laterBody (front ++ laterRows n) =
      if (Text.lines front).length = front.count '\n' then ['x']
      else (blockLines 0 ((Text.lines front ++ List.replicate n " ;\n".toList).drop
        (front.count '\n' + n + 1))).flatten := by
  obtain ⟨hlines, hcount⟩ := lines_append_laterRows hf n
  simp only [laterBody, hlines, hcount, List.length_append, List.length_replicate,
    Nat.add_right_cancel_iff]

/-- Behind enough rows the body tells how many lines the line feeds miss. -/
theorem length_laterBody (hf : front.EndsInLineFeed) {n : Nat}
    (hn : (Text.lines front).length ≤ n) :
    (laterBody (front ++ laterRows n)).length =
      if (Text.lines front).length = front.count '\n' then 1
      else ((Text.lines front).length - front.count '\n' - 1) * 3 := by
  rw [laterBody_append_laterRows hf]
  split
  · rfl
  · have hle := Text.count_le_length_lines front
    rw [List.drop_append, List.drop_eq_nil_of_le (by omega), List.nil_append, List.drop_replicate,
      blockLines_replicate]
    simp
    omega

theorem lines_append_blankLine (hf : front.EndsInLineFeed) (hn : '\n' ∉ line) :
    Text.lines (front ++ (line ++ ['\n'])) = Text.lines front ++ Text.lines (line ++ ['\n']) ∧
      (front ++ (line ++ ['\n'])).count '\n' = front.count '\n' + 1 := by
  refine ⟨Text.lines_append hf _, ?_⟩
  rw [List.count_append, List.count_append, List.count_eq_zero.mpr hn]
  rfl

theorem exists_last_of_not {α : Type} {p : α → Prop} {items : List α}
    (h : ¬ ∀ item ∈ items, p item) :
    ∃ before item after, items = before ++ item :: after ∧ ¬ p item ∧ ∀ other ∈ after, p other := by
  induction items with
  | nil => exact absurd (List.forall_mem_nil _) h
  | cons first items ih =>
    by_cases hi : ∀ item ∈ items, p item
    · refine ⟨[], first, items, rfl, fun hp => h (List.forall_mem_cons.mpr ⟨hp, hi⟩), hi⟩
    · obtain ⟨before, item, after, rfl, hp, ha⟩ := ih hi
      exact ⟨first :: before, item, after, rfl, hp, ha⟩

section

variable (hf : front.EndsInLineFeed) (hb : ∀ c ∈ line, isBlank c = true) (hn : '\n' ∉ line)
  (h : ∀ n, laterBody (front ++ (line ++ ['\n']) ++ laterRows n) = laterBody (front ++ laterRows n))

include hf hn h

theorem length_lines_of_laterBody : (Text.lines (line ++ ['\n'])).length = 1 := by
  obtain ⟨hlines, hcount⟩ := lines_append_blankLine hf hn
  have hends : (front ++ (line ++ ['\n'])).EndsInLineFeed := Or.inr (by simp)
  have hpos := List.length_pos_iff.mpr (@Text.lines_ne_nil (line ++ ['\n']) (by simp))
  have hle := Text.count_le_length_lines front
  have hsame := congrArg List.length
    (h ((Text.lines front).length + (Text.lines (line ++ ['\n'])).length))
  rw [length_laterBody hf (by omega), length_laterBody hends (by rw [hlines, List.length_append]),
    hlines, hcount, List.length_append] at hsame
  by_contra hone
  rw [if_neg (by omega)] at hsame
  split at hsame <;> omega

include hb

/-- A line that is passed over by a blank line is blank, or it ends a block that is over behind it
as well. -/
theorem passed_of_laterBody {n : Nat} {first : Text} {more : List Text}
    (hd : (Text.lines front).drop (front.count '\n' + n + 1) = first :: more) :
    Text.isBlankText first = true ∨ Text.indent first = 0 ∧
      (blockLines 0 (more ++ List.replicate n " ;\n".toList)).flatten = [] := by
  obtain ⟨hlines, hcount⟩ := lines_append_blankLine hf hn
  have hends : (front ++ (line ++ ['\n'])).EndsInLineFeed := Or.inr (by simp)
  have hblank : ∀ text ∈ [line ++ ['\n']], Text.isBlankText text = true :=
    List.forall_mem_singleton.mpr (List.all_eq_true.mpr (isBlank_of_mem_blankLine hb))
  have hlt : front.count '\n' + n + 1 < (Text.lines front).length := by
    by_contra hle
    rw [List.drop_eq_nil_of_le (by omega)] at hd
    cases hd
  have hmore : (Text.lines front).drop (front.count '\n' + 1 + n + 1) = more := by
    rw [show front.count '\n' + 1 + n + 1 = front.count '\n' + n + 1 + 1 by omega, ← List.tail_drop,
      hd, List.tail_cons]
  have hsame := h n
  rw [laterBody_append_laterRows hf, laterBody_append_laterRows hends, hlines, hcount,
    Text.lines_eq_singleton (length_lines_of_laterBody hf hn h), List.length_append,
    List.length_singleton, if_neg (by omega), if_neg (by omega), List.append_assoc,
    List.drop_append_of_le_length (by omega), List.drop_append_of_le_length hlt.le, hd, hmore,
    blockLines_append_blank hblank, List.cons_append, blockLines_cons] at hsame
  by_cases hv : Text.isBlankText first = true
  · exact Or.inl hv
  · rw [if_neg hv] at hsame
    split at hsame
    next =>
      -- the line would be in the body that is read without the blank line only
      have hlen := congrArg List.length hsame
      rw [List.flatten_cons, List.length_append] at hlen
      have hnil : first = [] := List.length_eq_zero_iff.mp (by omega)
      rw [hnil] at hv
      exact absurd rfl hv
    next hi => exact Or.inr ⟨Nat.eq_zero_of_not_pos hi, hsame⟩

theorem lagsQuietly_of_laterBody : front.LagsQuietly := by
  constructor
  · intro first hfirst
    obtain ⟨more, hd⟩ : ∃ more, (Text.lines front).drop (front.count '\n' + 1) = first :: more := by
      rw [Option.mem_def, ← List.head?_drop] at hfirst
      exact List.head?_eq_some_iff.mp hfirst
    exact (passed_of_laterBody (n := 0) hf hb hn h hd).imp_right And.left
  · by_contra hlater
    obtain ⟨before, first, more, hd, hv, hmore⟩ := exists_last_of_not hlater
    have hd' : (Text.lines front).drop (front.count '\n' + (before.length + 1) + 1) =
        first :: more := by
      rw [show front.count '\n' + (before.length + 1) + 1 = front.count '\n' + 2 + before.length by
        omega, ← List.drop_drop, hd, List.drop_left]
    obtain ⟨-, hnone⟩ := (passed_of_laterBody hf hb hn h hd').resolve_left hv
    rw [← List.nil_append (more ++ _), blockLines_append_blank hmore, List.nil_append,
      blockLines_replicate] at hnone
    simp [List.replicate_succ] at hnone

end

/-! ### The mask around a blank line -/

namespace Language

variable {language : Language}

/-- A token that is over in front of a cut behind a line feed is the same with any text behind. -/
theorem token_append_of_lineFeed {c : Char} {front after : Text} {found : Token}
    (hl : (c :: front).getLast? = some '\n') (h : (language.token c (front ++ rest)).1 = found)
    (hf : found.lexeme ++ after = c :: front) (hr : rest ≠ []) (rest' : Text) :
    language.token c (front ++ rest') = (found, after ++ rest') := by
  obtain ⟨text, ht⟩ := List.getLast?_eq_some_iff.mp hl
  have hsplit : ∀ behind : Text, c :: (front ++ behind) = text ++ '\n' :: behind := by
    intro behind
    rw [← List.cons_append, ht, List.append_assoc, List.singleton_append]
  have hlook : ∀ word : Text, '\n' ∉ word →
      word.isPrefixOf (c :: (front ++ rest)) = word.isPrefixOf (c :: (front ++ rest')) := by
    intro word hw
    rw [hsplit, hsplit, Text.isPrefixOf_append_lineFeed hw, Text.isPrefixOf_append_lineFeed hw]
  have hopener : '\n' ∉ language.commentOpener := by cases language <;> decide
  refine token_append_of_looks h hf hr (hlook _ hopener) ?_ (fun hq _ => ?_) fun _ => ?_
  · rw [hlook _ (by decide)]
  · have hquote : '\n' ∉ [c, c, c] := by
      intro hm
      obtain rfl : '\n' = c := by simpa using hm
      revert hq
      cases language <;> decide
    rw [hlook _ hquote]
  · rw [List.cons_append, hsplit, List.cons_append, hsplit, List.takeWhile_append,
      List.takeWhile_append, List.takeWhile_cons_of_neg (by simp),
      List.takeWhile_cons_of_neg (by simp)]

/-- **A cut behind a line feed stays one with any text behind it**, if some text stands there. -/
theorem CutAt.exchange (h : language.CutAt (front ++ rest) front.length)
    (hl : front.EndsInLineFeed) (hr : rest ≠ []) (rest' : Text) :
    language.CutAt (front ++ rest') front.length := by
  obtain ⟨first, rfl, ht⟩ := cutAt_iff.mp h
  refine cutAt_iff.mpr ⟨first, rfl, tokens_append_of_token hr ht ?_⟩
  rintro c back after found ⟨front, hs⟩ hfound hf
  rw [← hs] at hl
  have hlast := hl.resolve_left (by simp)
  rw [List.getLast?_append_of_ne_nil _ (List.cons_ne_nil c back)] at hlast
  exact token_append_of_lineFeed hlast hfound hf hr rest'

theorem exists_mask_append_blankLine (hl : front.EndsInLineFeed)
    (hb : ∀ c ∈ line, isBlank c = true) :
    ∃ shown, language.mask (front ++ (line ++ ['\n'])) = language.mask front ++ (shown ++ ['\n']) ∧
      List.Forall₂ ShownAs line shown := by
  have hself : List.Forall₂ ShownAs line line := List.forall₂_same.mpr fun _ _ => Or.inl rfl
  rcases hl with rfl | hl
  · refine ⟨line, ?_, hself⟩
    rw [List.nil_append, mask_nil, List.nil_append]
    exact language.mask_eq_self fun c hc => isPlain_of_isBlank (isBlank_of_mem_blankLine hb c hc)
  · obtain ⟨text, rfl⟩ := List.getLast?_eq_some_iff.mp hl
    have hfeed : ∀ {shown}, List.Forall₂ ShownAs ['\n'] shown → shown = ['\n'] := by
      intro shown h
      obtain ⟨d, more, hd, hmore, rfl⟩ := List.forall₂_cons_left_iff.mp h
      rw [List.forall₂_nil_left_iff.mp hmore, hd.resolve_right (by simp)]
    obtain ⟨last, hmask, hlast⟩ := @exists_mask_append_lineFeed language text []
    obtain ⟨shown, hmask', hshown⟩ := @exists_mask_append_lineFeed language text (line ++ ['\n'])
    obtain ⟨d, more, hd, hmore, rfl⟩ := List.forall₂_cons_left_iff.mp hshown
    rw [hd.resolve_right (by simp)] at hmask'
    have hline := List.forall₂_take line.length hmore
    have hend := List.forall₂_drop line.length hmore
    rw [List.take_left] at hline
    rw [List.drop_left] at hend
    have hsplit := List.take_append_drop line.length more
    rw [hfeed hend] at hsplit
    refine ⟨more.take line.length, ?_, hline⟩
    rw [hsplit, List.append_assoc, List.singleton_append, hmask', hmask, hfeed hlast,
      List.append_assoc, List.singleton_append]

theorem mask_blankLine_append (hb : ∀ c ∈ line, isBlank c = true) (rest : Text) :
    language.mask (line ++ '\n' :: rest) = line ++ '\n' :: language.mask rest := by
  have hplain : ∀ c ∈ line ++ ['\n'], isPlain c = true :=
    fun c hc => isPlain_of_isBlank (isBlank_of_mem_blankLine hb c hc)
  have hmask := language.mask_append_of_plain hplain rest
  rwa [List.append_assoc, List.append_assoc, List.singleton_append, List.singleton_append] at hmask

end Language

/-! ### A blank line between two texts -/

namespace Language

theorem definitions_python_eq (code : Text) :
    python.definitions code = indentedDefinitions (python.mask code) := rfl

/-- **A blank line between two texts leaves the definitions alone**, if it is one line and the mask
in front of it lags behind quietly, or if it is the last one. -/
theorem definitions_blankLine (hf : front.EndsInLineFeed) (hb : ∀ c ∈ line, isBlank c = true)
    (hn : '\n' ∉ line) (hcut : python.CutAt (front ++ rest) front.length)
    (h : ((Text.lines (line ++ ['\n'])).length = 1 ∧ (python.mask front).LagsQuietly) ∨ rest = []) :
    python.definitions (front ++ (line ++ '\n' :: rest)) = python.definitions (front ++ rest) := by
  have hmask : (python.mask front).EndsInLineFeed := endsInLineFeed_mask hf
  rw [definitions_python_eq, definitions_python_eq, mask_append hcut]
  by_cases hr : rest = []
  · subst hr
    obtain ⟨shown, hshow, hshown⟩ := @exists_mask_append_blankLine front line python hf hb
    have hfacts : ∀ d ∈ shown, isBlank d = true ∧ d ≠ '\n' := by
      intro d hd
      obtain ⟨c, hc, rfl | ⟨-, rfl⟩⟩ := exists_of_mem_shown hshown hd
      · exact ⟨hb d hc, fun he => hn (he ▸ hc)⟩
      · exact ⟨rfl, by decide⟩
    rw [hshow, mask_nil]
    exact indentedDefinitions_blankLine hmask (fun c hc => (hfacts c hc).1)
      (fun hm => (hfacts _ hm).2 rfl) (Or.inr rfl)
  · have hcut' := hcut.exchange hf hr (line ++ '\n' :: rest)
    rw [mask_append hcut', mask_blankLine_append hb]
    exact indentedDefinitions_blankLine hmask hb hn (Or.inl (h.resolve_right hr))

/-- The body of a definition far behind a blank line, if that changes no definition. -/
theorem laterBody_mask_append (hf : front.EndsInLineFeed) (hb : ∀ c ∈ line, isBlank c = true)
    (hcut : python.CutAt (front ++ rest) front.length) (hr : rest ≠ [])
    (h : ∀ rest, python.CutAt (front ++ rest) front.length →
      python.definitions (front ++ (line ++ '\n' :: rest)) = python.definitions (front ++ rest))
    (n : Nat) :
    laterBody (python.mask front ++ (line ++ ['\n']) ++ laterRows n) =
      laterBody (python.mask front ++ laterRows n) := by
  have hrows : (laterRows n).EndsInLineFeed := endsInLineFeed_renderRows _
  have hmask : (python.mask front).EndsInLineFeed := endsInLineFeed_mask hf
  have hline : (line ++ ['\n']).EndsInLineFeed := Or.inr (by simp)
  have hplain : python.mask (laterRows n ++ laterDefinition) = laterRows n ++ laterDefinition :=
    mask_eq_self python (isPlain_of_mem_laterRows n)
  have hne : laterRows n ++ laterDefinition ≠ [] :=
    List.append_ne_nil_of_right_ne_nil _ (List.cons_ne_nil _ _)
  have hcut' := hcut.exchange hf hr (laterRows n ++ laterDefinition)
  have hsame := h _ hcut'
  rw [definitions_python_eq, definitions_python_eq, mask_append hcut',
    mask_append (hcut'.exchange hf hne _), mask_blankLine_append hb,
    hplain] at hsame
  have hlast := getLast?_laterDefinition ((hmask.append hline).append hrows)
  have hlast' := getLast?_laterDefinition (hmask.append hrows)
  simp only [List.append_assoc, List.cons_append, List.nil_append] at hlast hlast' ⊢
  rw [hsame, hlast'] at hlast
  injection hlast with hlast
  injection hlast with _ hbody
  exact hbody.symm

/-- **When a blank line may stand anywhere between two texts.** -/
theorem definitions_blankLine_iff (hf : front.EndsInLineFeed) (hb : ∀ c ∈ line, isBlank c = true)
    (hn : '\n' ∉ line) :
    (∀ rest, python.CutAt (front ++ rest) front.length →
      python.definitions (front ++ (line ++ '\n' :: rest)) = python.definitions (front ++ rest) ∧
      python.recursiveNames (front ++ (line ++ '\n' :: rest)) =
        python.recursiveNames (front ++ rest)) ↔
      ((Text.lines (line ++ ['\n'])).length = 1 ∧ (python.mask front).LagsQuietly) ∨
        ∀ rest, python.CutAt (front ++ rest) front.length → rest = [] := by
  constructor
  · intro h
    by_cases hall : ∀ rest, python.CutAt (front ++ rest) front.length → rest = []
    · exact Or.inr hall
    · push Not at hall
      obtain ⟨rest, hcut, hr⟩ := hall
      have hmask : (python.mask front).EndsInLineFeed := endsInLineFeed_mask hf
      have hbody := laterBody_mask_append hf hb hcut hr fun rest hcut => (h rest hcut).1
      exact Or.inl ⟨length_lines_of_laterBody hmask hn hbody,
        lagsQuietly_of_laterBody hmask hb hn hbody⟩
  · intro h rest hcut
    have hsame := definitions_blankLine hf hb hn hcut (h.imp_right fun h => h rest hcut)
    exact ⟨hsame, by rw [recursiveNames, recursiveNames, hsame]⟩

/-- A line of a space and a tab between two functions. -/
theorem definitions_blankLine_between :
    let front := "def f(n):\n    return f(n - 1)\n".toList
    let rest := "def g(n):\n    return f(n)\n".toList
    python.definitions (front ++ ([' ', '\t'] ++ '\n' :: rest)) =
        python.definitions (front ++ rest) ∧
      python.recursiveNames (front ++ ([' ', '\t'] ++ '\n' :: rest)) =
        python.recursiveNames (front ++ rest) := by
  have hquiet : Text.LagsQuietly (python.mask "def f(n):\n    return f(n - 1)\n".toList) := by
    rw [mask_eq_self python (by decide)]
    exact ⟨by decide, by decide⟩
  exact (definitions_blankLine_iff (Or.inr (by decide)) (by decide) (by decide)).mpr
    (Or.inl ⟨by decide, hquiet⟩) _ (cutAt_of_plain (by decide) _)

/-- **A form feed is a blank line that hides the body of a function behind it.** -/
theorem not_same_definitions_formFeed :
    let line := ['\x0c']
    let rest := "def f(n):\n    return f(n - 1)\n".toList
    (∀ c ∈ line, isBlank c = true) ∧ python.CutAt ([] ++ rest) 0 ∧
      python.definitions rest = [⟨"f".toList, "\n    return f(n - 1)\n".toList⟩] ∧
      python.definitions (line ++ '\n' :: rest) = [⟨"f".toList, []⟩] ∧
      python.recursiveNames rest = ["f".toList] ∧
      python.recursiveNames (line ++ '\n' :: rest) = [] := by
  refine ⟨by decide, cutAt_of_plain (by decide) _, ?_, ?_, ?_, ?_⟩
  · rw [definitions_python (by decide)]
    decide +kernel
  · rw [definitions_python (by decide)]
    decide +kernel
  · rw [recursiveNames, definitions_python (by decide)]
    decide +kernel
  · rw [recursiveNames, definitions_python (by decide)]
    decide +kernel

end Language

end Snippet
