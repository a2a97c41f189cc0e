import Snippet.Proofs.GapsInBodies
import Snippet.Proofs.OwnCalls

/-!
# Definitions line by line

Where blocks are told by indentation, the definitions in a text are read from the first line on.

* `fits_indentedHeader_iff`: what the header of a definition describes is a `DefinitionHead`, and it
  is told by the text (`DefinitionHead.text_inj`).
* `indentedDefinitions_rows`: lines in which no header starts are passed over, whatever follows.
* `indentedDefinitions_head`: a line with a header is one definition, and the others are those of
  the lines behind it.

The line of a header is counted in line feeds, so that the lines in front end in line feeds here.
-/

namespace Snippet

open Pattern Place

variable {left rest : Text}

/-! ### Headers -/

/-- The word `async` with blanks behind it, or nothing. -/
def IsAsync (text : Text) : Prop :=
  text = [] ∨ ∃ gap, text = "async".toList ++ gap ∧ gap ≠ [] ∧ ∀ c ∈ gap, isBlank c = true

theorem fits_async {piece right : Text} {held kept : Groups} :
    (optional (lit "async" ++ someBlanks)).Fits left piece right held kept ↔
      IsAsync piece ∧ kept = held := by
  constructor
  · rintro (⟨_, gap, _, rfl, hword, hgap⟩ | ⟨rfl, rfl⟩)
    · obtain ⟨rfl, rfl⟩ := fits_lit.mp hword
      obtain ⟨hn, hb, rfl⟩ := fits_someBlanks.mp hgap
      exact ⟨Or.inr ⟨gap, rfl, hn, hb⟩, rfl⟩
    · exact ⟨Or.inl rfl, rfl⟩
  · rintro ⟨rfl | ⟨gap, rfl, hn, hb⟩, rfl⟩
    · exact Or.inr ⟨rfl, rfl⟩
    · exact Or.inl ⟨_, gap, kept, rfl, fits_lit.mpr ⟨rfl, rfl⟩, fits_someBlanks.mpr ⟨hn, hb, rfl⟩⟩

/-- The header of a definition up to its parenthesis. -/
structure DefinitionHead where
  /-- The indentation. -/
  lead : Text
  async : Text
  /-- The blanks in front of the name. -/
  gap : Text
  name : Text
  /-- The blanks behind the name. -/
  space : Text
  lead_eq : ∀ c ∈ lead, (c == ' ' || c == '\t') = true
  isAsync : IsAsync async
  gap_ne_nil : gap ≠ []
  isBlank_of_mem_gap : ∀ c ∈ gap, isBlank c = true
  isPlainName : IsPlainName name
  isBlank_of_mem_space : ∀ c ∈ space, isBlank c = true

namespace DefinitionHead

def text (head : DefinitionHead) : Text :=
  head.lead ++ (head.async ++ ("def".toList ++ (head.gap ++ (head.name ++ (head.space ++ ['('])))))

/-- The groups of a match of the header in front of `right`. -/
def groups (head : DefinitionHead) (right : Text) : Groups :=
  [(2, ⟨head.name ++ (head.space ++ '(' :: right), head.name.length⟩),
    (1, ⟨head.text ++ right, head.lead.length⟩)]

variable (head : DefinitionHead)

theorem getLast?_text : head.text.getLast? = some '(' := by
  have htext : head.text = head.lead ++ (head.async ++ ("def".toList ++ (head.gap ++ (head.name ++
      head.space)))) ++ ['('] := by simp [text]
  rw [htext, List.getLast?_concat]

theorem text_ne_nil : head.text ≠ [] := by
  simp [text]

theorem isBlank_of_mem_lead : ∀ c ∈ head.lead, isBlank c = true := by
  have hs : ∀ d ∈ [' ', '\t'], isBlank d = true := by decide
  exact fun c hc => hs c (by simpa using head.lead_eq c hc)

theorem any_head?_async (more : Text) :
    (head.async ++ ("def".toList ++ more)).head?.any isBlank = false := by
  rcases head.isAsync with ha | ⟨gap, ha, -⟩ <;> rw [ha] <;> rfl

@[simp] theorem text_groups_name (right : Text) : (head.groups right).text 2 = head.name := by
  simp [groups, text_cons, Capture.text]

@[simp] theorem text_groups_lead (right : Text) : (head.groups right).text 1 = head.lead := by
  simp [groups, text_cons, Capture.text, text]

end DefinitionHead

/-- **A text tells the header that it starts with.** -/
theorem DefinitionHead.text_append_inj {head head' : DefinitionHead} {right right' : Text}
    (h : head.text ++ right = head'.text ++ right') : head = head' ∧ right = right' := by
  have hlead : ∀ (head : DefinitionHead) (right : Text),
      (head.async ++ ("def".toList ++ right)).head?.any (fun c => c == ' ' || c == '\t') =
        false := by
    intro head right
    rcases head.isAsync with ha | ⟨gap, ha, -⟩ <;> rw [ha] <;> rfl
  have hgap : ∀ (head : DefinitionHead) (right : Text),
      (head.name ++ right).head?.any isBlank = false := by
    intro head right
    obtain ⟨c, more, hn, hc, -⟩ := head.isPlainName
    rw [hn, List.cons_append, List.head?_cons, Option.any_some, ← Bool.not_eq_true]
    intro hb
    exact absurd (isWord_of_isNameStart hc) (by simp [isWord_of_isBlank hb])
  have hname : ∀ (head : DefinitionHead) (right : Text),
      (head.space ++ '(' :: right).head?.any isWord = false := by
    intro head right
    cases hs : head.space with
    | nil => rfl
    | cons c space => exact isWord_of_isBlank (head.isBlank_of_mem_space c (by simp [hs]))
  simp only [text, List.append_assoc, List.singleton_append] at h
  obtain ⟨h1, h⟩ := Text.append_inj_of_head head.lead_eq head'.lead_eq (hlead ..) (hlead ..) h
  have h2 : head.async = head'.async := by
    rcases head.isAsync with ha | ⟨gap, ha, -, hb⟩ <;>
      rcases head'.isAsync with ha' | ⟨gap', ha', -, hb'⟩ <;> rw [ha, ha'] at h ⊢
    · exact absurd (congrArg List.head? h) (by simp)
    · exact absurd (congrArg List.head? h) (by simp)
    · rw [List.append_assoc, List.append_assoc] at h
      obtain ⟨rfl, -⟩ :=
        Text.append_inj_of_head hb hb' (by rfl) (by rfl) (List.append_cancel_left h)
      rfl
  rw [h2] at h
  obtain ⟨h3, h⟩ := Text.append_inj_of_head head.isBlank_of_mem_gap head'.isBlank_of_mem_gap
    (hgap ..) (hgap ..) (List.append_cancel_left (List.append_cancel_left h))
  obtain ⟨h4, h⟩ := Text.append_inj_of_head head.isPlainName.isWord_of_mem
    head'.isPlainName.isWord_of_mem (hname ..) (hname ..) h
  obtain ⟨h5, h⟩ := Text.append_inj_of_head head.isBlank_of_mem_space head'.isBlank_of_mem_space
    (by rfl) (by rfl) h
  refine ⟨?_, (List.cons.inj h).2⟩
  cases head
  cases head'
  simp only [DefinitionHead.mk.injEq]
  exact ⟨h1, h2, h3, h4, h5⟩

/-- **What the header of a definition describes.** -/
theorem fits_indentedHeader_iff {piece right : Text} {kept : Groups} :
    indentedHeader.Fits left piece right [] kept ↔
      left.getLast?.all (· == '\n') = true ∧
        ∃ head : DefinitionHead, piece = head.text ∧ kept = head.groups right := by
  constructor
  · rintro ⟨_, round, _, rfl, ⟨_, name, _, rfl, ⟨_, gap, _, rfl, ⟨_, word, _, rfl, ⟨_, async, _,
      rfl, ⟨_, lead, _, rfl, ⟨rfl, rfl, hl⟩, _, ⟨hlead, rfl⟩, rfl⟩, hasync⟩, hword⟩, hgap⟩,
      _, hname, rfl⟩, hround⟩
    obtain ⟨hword', rfl⟩ := fits_async.mp hasync
    obtain ⟨rfl, rfl⟩ := fits_lit.mp hword
    obtain ⟨hn, hblank, rfl⟩ := fits_someBlanks.mp hgap
    obtain ⟨hplain, rfl⟩ := fits_name.mp hname
    obtain ⟨space, hspace, rfl, rfl⟩ := fits_next.mp hround
    refine ⟨hl, ⟨lead, async, gap, name, space, hlead, hword', hn, hblank, hplain, hspace⟩, ?_, ?_⟩
    · simp [DefinitionHead.text]
    · simp [DefinitionHead.groups, DefinitionHead.text]
  · rintro ⟨hl, head, rfl, rfl⟩
    refine ⟨_, head.space ++ ['('], head.groups right, ?_, ⟨_, head.name, _, rfl, ⟨_, head.gap, _,
      rfl, ⟨_, "def".toList, _, rfl, ⟨_, head.async, _, rfl, ⟨[], head.lead, [], rfl,
        ⟨rfl, rfl, hl⟩, _, ⟨head.lead_eq, rfl⟩, rfl⟩, fits_async.mpr ⟨head.isAsync, rfl⟩⟩,
        fits_lit.mpr ⟨rfl, rfl⟩⟩,
      fits_someBlanks.mpr ⟨head.gap_ne_nil, head.isBlank_of_mem_gap, rfl⟩⟩, _,
      fits_name.mpr ⟨head.isPlainName, rfl⟩, ?_⟩,
      fits_next.mpr ⟨head.space, head.isBlank_of_mem_space, rfl, rfl⟩⟩
    · simp [DefinitionHead.text]
    · simp [DefinitionHead.groups, DefinitionHead.text]

/-- **A header at the start of a line is found.** -/
theorem matchAt?_indentedHeader (hl : left.getLast?.all (· == '\n') = true) (head : DefinitionHead)
    (right : Text) :
    indentedHeader.matchAt? (between left (head.text ++ right)) =
      some ⟨between left (head.text ++ right), between (left ++ head.text) right,
        head.groups right⟩ := by
  refine matchAt?_eq_of_fits (fits_indentedHeader_iff.mpr ⟨hl, head, rfl, rfl⟩) ?_
  rintro piece' right' kept' hr hf
  obtain ⟨-, head', rfl, rfl⟩ := fits_indentedHeader_iff.mp hf
  obtain ⟨rfl, rfl⟩ := DefinitionHead.text_append_inj hr
  exact ⟨rfl, rfl⟩

/-! ### Code without comments and literals -/

/-- A character that opens neither a comment nor a literal in Python. -/
def IsCode (c : Char) : Prop := c ∉ Language.python.quotes ∧ c ≠ '#'

instance (c : Char) : Decidable (IsCode c) :=
  inferInstanceAs (Decidable (_ ∧ _))

theorem isCode_of_isPlain {c : Char} (h : isPlain c = true) : IsCode c := by
  constructor
  · intro hm
    have hq : ∀ d ∈ Language.python.quotes, isPlain d = false := by decide
    rw [hq c hm] at h
    cases h
  · rintro rfl
    exact absurd h (by decide)

theorem mask_python_of_code {text : Text} (h : ∀ c ∈ text, IsCode c) :
    Language.python.mask text = text := by
  have hopens := @Language.opensNothing_of_forall .python text
    (fun c hc => ⟨(h c hc).1, fun he => (h c hc).2 (Option.some.inj he).symm⟩) []
  have hm := Language.mask_code_append hopens
  rwa [List.append_nil, Language.mask_nil, List.append_nil] at hm

theorem definitions_python {code : Text} (h : ∀ c ∈ code, IsCode c) :
    Language.python.definitions code = indentedDefinitions code := by
  simp only [Language.definitions, Language.usesBraces, Bool.false_eq_true, if_false,
    mask_python_of_code h]

/-- **A header is code.** -/
theorem DefinitionHead.isCode_of_mem_text (head : DefinitionHead) : ∀ c ∈ head.text, IsCode c := by
  intro c hc
  have hf : indentedHeader.Fits [] head.text [] [] (head.groups []) :=
    fits_indentedHeader_iff.mpr ⟨rfl, head, rfl, rfl⟩
  have hreads : ∀ d ∈ '#' :: Language.python.quotes, indentedHeader.reads d = false := by decide
  constructor
  · exact fun hm => notMem_of_fits (hreads c (List.mem_cons_of_mem _ hm)) hf hc
  · rintro rfl
    exact notMem_of_fits (hreads '#' List.mem_cons_self) hf hc

/-! ### Blocks -/

section

variable {n : Nat} {line : Text} {lines more : List Text}

theorem blockLines_cons (n : Nat) (line : Text) (more : List Text) :
    blockLines n (line :: more) =
      if Text.isBlankText line = true then blockLines n more
      else if n < Text.indent line then line :: blockLines n more else [] := by
  rw [blockLines]
  by_cases hb : Text.isBlankText line = true
  · rw [List.filter_cons_of_neg (by simp [hb]), if_pos hb, blockLines]
  · rw [List.filter_cons_of_pos (by simp [hb]), if_neg hb, List.takeWhile_cons, blockLines]
    simp only [decide_eq_true_eq]

/-- **A block is over at a visible line that is not indented further.** -/
theorem blockLines_append_cons (hb : Text.isBlankText line = false) (hi : Text.indent line ≤ n)
    (lines more : List Text) : blockLines n (lines ++ line :: more) = blockLines n lines := by
  induction lines with
  | nil =>
    rw [List.nil_append, blockLines_cons, if_neg (by simp [hb]), if_neg (Nat.not_lt.mpr hi)]
    rfl
  | cons first lines ih => rw [List.cons_append, blockLines_cons, blockLines_cons, ih]

theorem mem_of_mem_blockLines (h : line ∈ blockLines n lines) : line ∈ lines :=
  List.mem_of_mem_filter ((List.takeWhile_sublist _).subset h)

end

/-! ### Lines in front -/

theorem avoids_indentedHeader_of_notMem {c : Char} (hc : left.getLast? = some c) (hn : c ≠ '\n')
    {line : Text} (hl : '\n' ∉ line) : indentedHeader.Avoids left (line ++ ['\n']) rest := by
  rintro front back hr hb ⟨piece, right, kept, -, hf⟩
  obtain ⟨hstart, -⟩ := fits_indentedHeader_iff.mp hf
  have hfront : '\n' ∉ front := by
    rcases List.append_eq_append_iff.mp hr with ⟨more, rfl, hm⟩ | ⟨more, rfl, -⟩
    · rcases List.append_eq_singleton_iff.mp hm.symm with ⟨rfl, -⟩ | ⟨-, rfl⟩
      · simpa using hl
      · exact absurd rfl hb
    · exact fun hm => hl (List.mem_append_left _ hm)
  by_cases he : front = []
  · rw [he, List.append_nil, hc, Option.all_some, beq_iff_eq] at hstart
    exact hn hstart
  · rw [List.getLast?_append_of_ne_nil _ he, List.getLast?_eq_getLast_of_ne_nil he,
      Option.all_some, beq_iff_eq] at hstart
    exact hfront (hstart ▸ List.getLast_mem he)

/-- A text whose lines end in line feeds. -/
def renderRows (rows : List Text) : Text := (rows.map (· ++ ['\n'])).flatten

theorem mem_renderRows {rows : List Text} {c : Char} :
    c ∈ renderRows rows ↔ ∃ row ∈ rows, c ∈ row ++ ['\n'] := by
  simp [renderRows]

theorem lines_renderRows {rows : List Text} (h : ∀ row ∈ rows, row.Unbroken) (rest : Text) :
    Text.lines (renderRows rows ++ rest) = rows.map (· ++ ['\n']) ++ Text.lines rest := by
  induction rows with
  | nil => rfl
  | cons row rows ih =>
    obtain ⟨hrow, hrows⟩ := List.forall_mem_cons.mp h
    rw [renderRows, List.map_cons, List.flatten_cons, List.append_assoc, List.append_assoc,
      List.singleton_append, Text.lines_append_lineFeed hrow, ← renderRows, ih hrows,
      List.cons_append]

theorem count_renderRows {rows : List Text} (h : ∀ row ∈ rows, row.Unbroken) :
    (renderRows rows).count '\n' = rows.length := by
  induction rows with
  | nil => rfl
  | cons row rows ih =>
    obtain ⟨hrow, hrows⟩ := List.forall_mem_cons.mp h
    have hfeed : row.count '\n' = 0 :=
      List.count_eq_zero.mpr fun hm => absurd (hrow _ hm) (by decide)
    rw [renderRows, List.map_cons, List.flatten_cons, ← renderRows, List.count_append,
      List.count_append, hfeed, ih hrows, List.length_cons]
    simp
    omega

theorem endsInLineFeed_renderRows (rows : List Text) : (renderRows rows).EndsInLineFeed := by
  rcases List.eq_nil_or_concat rows with rfl | ⟨rows, row, rfl⟩
  · exact Or.inl rfl
  · exact Or.inr (by simp [renderRows])

/-- A text whose lines are counted by its line feeds. -/
structure Text.IsCounted (text : Text) : Prop where
  ends : text.EndsInLineFeed
  length_lines : (Text.lines text).length = text.count '\n'

theorem isCounted_renderRows {rows : List Text} (h : ∀ row ∈ rows, row.Unbroken) :
    (renderRows rows).IsCounted := by
  have hlines := lines_renderRows h []
  rw [List.append_nil, show Text.lines [] = [] from rfl, List.append_nil] at hlines
  exact ⟨endsInLineFeed_renderRows rows, by rw [hlines, List.length_map, count_renderRows h]⟩

/-- **A definition does not depend on the lines in front of it**, if these are counted by their line
feeds. -/
theorem indentedDefinition_widen {front : Text} (h : front.IsCounted) (rest : Text)
    (found : Match) :
    indentedDefinition (front ++ rest) (Text.lines (front ++ rest)) (found.widen front []) =
      indentedDefinition rest (Text.lines rest)
        ⟨found.start, found.stop, found.groups.widen []⟩ := by
  have hnumber : ((front ++ rest).take (front.length + found.start.offset)).count '\n' =
      (Text.lines front).length + (rest.take found.start.offset).count '\n' := by
    rw [List.take_length_add_append, List.count_append, h.length_lines]
  have hlength : front.length = (Text.lines front).flatten.length := by rw [Text.flatten_lines]
  simp only [indentedDefinition_eq, Text.lines_append h.ends, Match.widen, Place.widen, hnumber]
  rw [hlength, restOfLine_append_right (Nat.le_add_right _ _), Nat.add_sub_cancel_left,
    Nat.add_assoc, List.drop_length_add_append]

theorem map_indentedDefinition_behind {rows : List Text} (h : ∀ row ∈ rows, row.Unbroken)
    (rest : Text) :
    (indentedHeader.matchesAfter (renderRows rows) rest).map
        (indentedDefinition (renderRows rows ++ rest) (Text.lines (renderRows rows ++ rest))) =
      indentedDefinitions rest := by
  have hfront := isCounted_renderRows h
  have hlast : indentedHeader.ignoresBefore (renderRows rows).getLast? = true := by
    rcases hfront.ends with hr | hr <;> rw [hr] <;> rfl
  have hshift := @matchesAfter_shift indentedHeader (renderRows rows) (by decide) (by rfl) []
    (fun _ => hlast) rest
  rw [List.append_nil] at hshift
  rw [hshift, List.map_map, indentedDefinitions]
  refine List.map_congr_left fun found hm => ?_
  obtain ⟨before, piece, right, rfl, -, -, hf⟩ := fits_of_mem_matchesIn hm
  rw [Function.comp, indentedDefinition_widen hfront, indentedDefinition_eq, indentedDefinition_eq]
  simp only [text_widen hf []]

/-- **Lines in which no header starts are passed over.** -/
theorem indentedDefinitions_rows {rows : List Text} (h : ∀ row ∈ rows, row.Unbroken)
    (ha : indentedHeader.Avoids [] (renderRows rows) rest) :
    indentedDefinitions (renderRows rows ++ rest) = indentedDefinitions rest := by
  rw [indentedDefinitions, matchesIn_eq_matchesAfter, matchesAfter_append ha, List.nil_append,
    map_indentedDefinition_behind h]

/-- **A line with a header is one definition.** -/
theorem indentedDefinitions_head (head : DefinitionHead) (hh : head.text.Unbroken) {line : Text}
    (hl : line.Unbroken) (rest : Text) :
    indentedDefinitions (head.text ++ (line ++ '\n' :: rest)) =
      ⟨head.name, afterColon (line ++ ['\n']) ++
        (blockLines head.lead.length (Text.lines rest)).flatten⟩ :: indentedDefinitions rest := by
  have hrow : ∀ row ∈ [head.text ++ line], row.Unbroken := by
    simp only [List.mem_singleton, forall_eq, Text.Unbroken, List.mem_append]
    rintro c (hc | hc)
    · exact hh c hc
    · exact hl c hc
  have htext : head.text ++ (line ++ '\n' :: rest) =
      renderRows [head.text ++ line] ++ rest := by simp [renderRows]
  have hfeed : '\n' ∉ line := fun hm => absurd (hl _ hm) (by decide)
  have hpass : indentedHeader.matchesAfter head.text (line ++ '\n' :: rest) =
      indentedHeader.matchesAfter (renderRows [head.text ++ line]) rest := by
    have ha := @avoids_indentedHeader_of_notMem head.text rest '(' head.getLast?_text (by decide)
      line hfeed
    have hm := matchesAfter_append ha
    simpa [renderRows] using hm
  have hmatch := matchesAfter_of_match
    (@matchAt?_indentedHeader [] rfl head (line ++ '\n' :: rest)) rfl head.text_ne_nil
  rw [List.nil_append] at hmatch
  have hlines := lines_renderRows hrow rest
  rw [indentedDefinitions, matchesIn_eq_matchesAfter, hmatch, hpass, List.map_cons, htext,
    map_indentedDefinition_behind hrow, hlines, indentedDefinition_eq]
  simp [restOfLine]

end Snippet
