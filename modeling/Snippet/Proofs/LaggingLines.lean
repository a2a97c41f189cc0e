import Snippet.Proofs.LinesBehind
import Snippet.Proofs.MovedHeaders

/-!
# Texts whose lines lag behind their line feeds

The line of a header is counted in line feeds, while the lines of a text may end in other ways, too.
So the lines behind a header that are read for its body may start in front of it.

`indentedDefinitions_blankLine`: one blank line changes no definition behind it as long as the lines
that are taken in between are quiet (`Text.LagsQuietly`): with the blank line, the block of each
header is read from one line of the text less.
-/

namespace Snippet

open Pattern Place

variable {front line blanks rest : Text}

/-! ### Lines and line feeds -/

namespace Text

/-- **A line holds one line feed at most.** -/
theorem count_le_length_lines (text : Text) : text.count '\n' ≤ (lines text).length := by
  have hcons : ∀ (c : Char) (text : Text), (c :: text).count '\n' ≤ text.count '\n' + 1 := by
    intro c text
    rw [List.count_cons]
    split <;> omega
  fun_induction lines text with
  | case1 => rfl
  | case2 rest ih =>
    have hfeed : ('\r' :: '\n' :: rest).count '\n' = rest.count '\n' + 1 := by simp
    rw [hfeed, List.length_cons]
    omega
  | case3 c rest _ _ ih =>
    have := hcons c rest
    rw [List.length_cons]
    omega
  | case4 c rest _ hc heq ih =>
    rw [heq, List.length_nil, Nat.le_zero] at ih
    have := hcons c rest
    rw [List.length_singleton]
    omega
  | case5 c rest _ hc line more heq ih =>
    have hfeed : c ≠ '\n' := by
      rintro rfl
      exact absurd rfl hc
    rw [List.count_cons_of_ne hfeed]
    rwa [heq] at ih

/-- An offset in front of the end of a text is in one of its lines, as line feeds count them. -/
theorem EndsInLineFeed.count_take_lt {text : Text} (h : text.EndsInLineFeed) {offset : Nat}
    (ho : offset < text.length) : (text.take offset).count '\n' < (lines text).length := by
  have hl : text.getLast? = some '\n' := h.resolve_left (List.ne_nil_of_length_pos (by omega))
  refine Nat.lt_of_lt_of_le ?_ (count_le_length_lines text)
  obtain ⟨front, rfl⟩ := List.getLast?_eq_some_iff.mp hl
  rw [List.length_append, List.length_singleton] at ho
  rw [List.take_append_of_le_length (by omega), List.count_append]
  have hle := ((List.take_prefix offset front).sublist).count_le '\n'
  simp
  omega

theorem EndsInLineFeed.append {text more : Text} (h : text.EndsInLineFeed)
    (h' : more.EndsInLineFeed) : (text ++ more).EndsInLineFeed := by
  rcases h' with rfl | h'
  · rwa [List.append_nil]
  · refine Or.inr ?_
    rwa [List.getLast?_append_of_ne_nil]
    rintro rfl
    cases h'

theorem lines_eq_singleton {text : Text} (h : (lines text).length = 1) : lines text = [text] := by
  obtain ⟨line, hl⟩ := List.length_eq_one_iff.mp h
  have hf := flatten_lines text
  rw [hl, List.flatten_singleton] at hf
  rw [hl, hf]

end Text

/-! ### Blocks around a blank line -/

theorem blockLines_append_blank {blank : List Text}
    (h : ∀ line ∈ blank, Text.isBlankText line = true) (n : Nat) (lines more : List Text) :
    blockLines n (lines ++ (blank ++ more)) = blockLines n (lines ++ more) := by
  have hnone : (blank.filter fun line => !Text.isBlankText line) = [] :=
    List.filter_eq_nil_iff.mpr fun line hl => by simp [h line hl]
  rw [blockLines, blockLines, List.filter_append, List.filter_append, hnone, List.nil_append,
    ← List.filter_append]

theorem isBlankText_of_mem_lines {text : Text} (h : ∀ c ∈ text, isBlank c = true) :
    ∀ line ∈ Text.lines text, Text.isBlankText line = true := by
  intro line hl
  refine List.all_eq_true.mpr fun c hc => h c ?_
  rw [← Text.flatten_lines text]
  exact List.mem_flatten.mpr ⟨line, hl, hc⟩

/-- **A blank line behind `before` is passed over.** The block starts one line of `before` later, so
the line that it loses is blank, or ends the block where the block behind it is empty, too. -/
theorem blockLines_insert {before : List Text} {blank : Text} (hb : Text.isBlankText blank = true)
    {n number : Nat} {lines : List Text}
    (h : ∀ line more, before.drop (number + 1) = line :: more → Text.isBlankText line = true ∨
      Text.indent line ≤ n ∧ blockLines n (more ++ lines) = []) :
    blockLines n ((before ++ (blank :: lines)).drop (number + 2)) =
      blockLines n ((before ++ lines).drop (number + 1)) := by
  cases hd : before.drop (number + 1) with
  | nil =>
    have hle := List.drop_eq_nil_iff.mp hd
    have hsub : number + 2 - before.length = number + 1 - before.length + 1 := by omega
    rw [List.drop_append, List.drop_append, hd, List.drop_eq_nil_of_le (by omega), hsub,
      List.drop_succ_cons]
  | cons line more =>
    have hlt : number + 1 < before.length := by
      by_contra hn
      rw [List.drop_eq_nil_of_le (by omega)] at hd
      cases hd
    have hmore : before.drop (number + 2) = more := by
      rw [← List.tail_drop, hd, List.tail_cons]
    have hblank : ∀ text ∈ [blank], Text.isBlankText text = true := List.forall_mem_singleton.mpr hb
    rw [List.drop_append_of_le_length hlt, List.drop_append_of_le_length hlt.le, hd, hmore,
      ← List.singleton_append, blockLines_append_blank hblank, List.cons_append, blockLines_cons]
    rcases h line more hd with hl | ⟨hi, hnone⟩
    · rw [if_pos hl]
    · rw [hnone, if_neg (Nat.not_lt.mpr hi), ite_self]

theorem restOfLine_insert (before : List Text) (blank : Text) (lines : List Text)
    (number stop : Nat) :
    restOfLine (before ++ (blank :: lines)) (number + 1)
        (before.flatten.length + (blank.length + stop)) =
      restOfLine (before ++ lines) number (before.flatten.length + stop) := by
  have hsplit : before ++ (blank :: lines) = (before ++ [blank]) ++ lines := by simp
  have hflat : before.flatten.length + (blank.length + stop) =
      (before ++ [blank]).flatten.length + stop := by
    simp only [List.flatten_append, List.flatten_singleton, List.length_append]
    omega
  rw [hsplit, hflat]
  rcases Nat.lt_or_ge number before.length with hlt | hle
  · rw [restOfLine_append (by simpa using hlt), restOfLine_append hlt,
      restOfLine_eq_nil (by simpa using hlt) (by omega), restOfLine_eq_nil hlt (by omega)]
  · rw [restOfLine_append_right (by simpa using hle), restOfLine_append_right hle]
    simp

/-! ### Texts that lag behind -/

/-- The lines of the text beyond the number of its line feeds: the first of them may be any line,
the second is blank or at the margin, and the others are blank. So a header behind the text, whose
line is counted in line feeds, loses and gains no line if one more is put in between. -/
structure Text.LagsQuietly (text : Text) : Prop where
  second : ∀ line ∈ (Text.lines text)[text.count '\n' + 1]?,
    Text.isBlankText line = true ∨ Text.indent line = 0
  later : ∀ line ∈ (Text.lines text).drop (text.count '\n' + 2), Text.isBlankText line = true

/-- The first line of a header belongs to no block that the header is not in itself. -/
theorem DefinitionHead.blockLines_eq_nil (head : DefinitionHead) (right : Text) :
    blockLines head.lead.length (Text.lines (head.text ++ right)) = [] := by
  obtain ⟨c, more, hc, hvisible⟩ : ∃ c more, head.text ++ right = head.lead ++ (c :: more) ∧
      isBlank c = false := by
    have hasync := head.any_head?_async (head.gap ++ (head.name ++ (head.space ++ '(' :: right)))
    cases ht : head.async ++ ("def".toList ++ (head.gap ++ (head.name ++ (head.space ++
        '(' :: right)))) with
    | nil => simp at ht
    | cons c more =>
      rw [ht] at hasync
      exact ⟨c, more, by rw [← ht]; simp [text], hasync⟩
  have hlead : (head.lead ++ [c]).Unbroken := by
    have hmark : ∀ d ∈ [' ', '\t'], isLineBreak d = false := by decide
    intro d hd
    rcases List.mem_append.mp hd with hd | hd
    · exact hmark d (by simpa using head.lead_eq d hd)
    · rw [List.mem_singleton.mp hd, ← Bool.not_eq_true]
      intro hb
      rw [Text.isBlank_of_isLineBreak hb] at hvisible
      cases hvisible
  have hrow : ∀ rest : Text, Text.isBlankText (head.lead ++ (c :: rest)) = false ∧
      Text.indent (head.lead ++ (c :: rest)) = head.lead.length := by
    intro rest
    exact ⟨Text.isBlankText_eq_false (by simp) hvisible,
      Text.indent_pad head.isBlank_of_mem_lead hvisible⟩
  rw [hc, ← List.singleton_append, ← List.append_assoc,
    Text.lines_append_of_unbroken hlead (by simp), List.append_assoc, List.singleton_append,
    blockLines_cons, (hrow _).1, (hrow _).2]
  simp

/-! ### Definitions around a blank line -/

/-- **A definition is the same with blank text behind its header.** -/
theorem indentedDefinition_ahead (hf : front.EndsInLineFeed) (hb : ∀ c ∈ blanks, isBlank c = true)
    (he : blanks.EndsInLineFeed) {header header' : Match}
    (start : header'.start.offset = header.start.offset) (lt : header.start.offset < front.length)
    (stop : header'.stop.offset = header.stop.offset ∨
      front.length ≤ header.stop.offset ∧ front.length ≤ header'.stop.offset)
    (lead : header'.groups.text 1 = header.groups.text 1)
    (name : header'.groups.text 2 = header.groups.text 2) (rest : Text) :
    indentedDefinition (front ++ (blanks ++ rest)) (Text.lines (front ++ (blanks ++ rest)))
        header' =
      indentedDefinition (front ++ rest) (Text.lines (front ++ rest)) header := by
  have hlt := hf.count_take_lt lt
  have hnumber : ∀ rest : Text, (front ++ rest).take header.start.offset =
      front.take header.start.offset := fun rest => List.take_append_of_le_length lt.le
  simp only [indentedDefinition_eq, start, lead, name, hnumber, Text.lines_append hf,
    Text.lines_append he]
  rw [restOfLine_append hlt, restOfLine_append hlt, List.drop_append_of_le_length hlt,
    List.drop_append_of_le_length hlt,
    blockLines_append_blank (isBlankText_of_mem_lines hb)]
  rcases stop with stop | ⟨hstop, hstop'⟩
  · rw [stop]
  · rw [restOfLine_eq_nil hlt (by rwa [Text.flatten_lines]),
      restOfLine_eq_nil hlt (by rwa [Text.flatten_lines])]

theorem exists_head_of_count_eq_zero {found : Match}
    (hm : found.widen front [] ∈ indentedHeader.matchesIn (front ++ rest))
    (h : (rest.take found.start.offset).count '\n' = 0) :
    ∃ (head : DefinitionHead) (right : Text), rest = head.text ++ right ∧
      (found.groups.widen []).text 1 = head.lead := by
  obtain ⟨before, _, right, ht, hstart, -, hfits⟩ := fits_of_mem_matchesIn hm
  obtain ⟨hl, head, rfl, hgroups⟩ := fits_indentedHeader_iff.mp hfits
  have hkept : found.groups.widen [] = head.groups right := hgroups
  have hoffset : front.length + found.start.offset = before.length := by
    have := congrArg Place.offset hstart
    simpa [Match.widen, Place.widen] using this
  have hbefore : before = front ++ rest.take found.start.offset := by
    have htake := congrArg (List.take before.length) ht
    rw [List.take_left, ← hoffset, List.take_length_add_append] at htake
    exact htake.symm
  have hnil : rest.take found.start.offset = [] := by
    by_contra hne
    rw [hbefore, List.getLast?_append_of_ne_nil _ hne, List.getLast?_eq_getLast_of_ne_nil hne,
      Option.all_some, beq_iff_eq] at hl
    exact List.count_eq_zero.mp h (hl ▸ List.getLast_mem hne)
  rw [hnil, List.append_nil] at hbefore
  subst hbefore
  exact ⟨head, right, List.append_cancel_left ht, by rw [hkept, head.text_groups_lead]⟩

/-- **A definition is the same with a blank line in front of its header**, if the text in front of
that lags behind quietly. -/
theorem indentedDefinition_behind (hf : front.EndsInLineFeed) (hq : front.LagsQuietly)
    (hb : ∀ c ∈ line, isBlank c = true) (hn : '\n' ∉ line)
    (hone : (Text.lines (line ++ ['\n'])).length = 1) {found : Match}
    (hm : found.widen front [] ∈ indentedHeader.matchesIn (front ++ rest)) :
    indentedDefinition (front ++ (line ++ ['\n']) ++ rest)
        (Text.lines (front ++ (line ++ ['\n']) ++ rest))
        (found.widen (front ++ (line ++ ['\n'])) []) =
      indentedDefinition (front ++ rest) (Text.lines (front ++ rest)) (found.widen front []) := by
  have hends : (line ++ ['\n']).EndsInLineFeed := Or.inr (by simp)
  have hblank : Text.isBlankText (line ++ ['\n']) = true :=
    List.all_eq_true.mpr (isBlank_of_mem_blankLine hb)
  have hlines : Text.lines (front ++ (line ++ ['\n']) ++ rest) =
      Text.lines front ++ ((line ++ ['\n']) :: Text.lines rest) := by
    rw [List.append_assoc, Text.lines_append hf, Text.lines_append hends,
      Text.lines_eq_singleton hone, List.singleton_append]
  have hnumber : ∀ front : Text, (front ++ rest).take (front.length + found.start.offset) =
      front ++ rest.take found.start.offset := fun front => List.take_length_add_append _
  have hcount : (front ++ (line ++ ['\n']) ++ rest.take found.start.offset).count '\n' =
      (front ++ rest.take found.start.offset).count '\n' + 1 := by
    simp only [List.count_append, List.count_eq_zero.mpr hn, List.count_singleton_self]
    omega
  have hlength : front.length = (Text.lines front).flatten.length := by rw [Text.flatten_lines]
  have hstop : (front ++ (line ++ ['\n'])).length + found.stop.offset =
      (Text.lines front).flatten.length + ((line ++ ['\n']).length + found.stop.offset) := by
    rw [List.length_append, ← hlength, Nat.add_assoc]
  simp only [indentedDefinition_eq, Match.widen, Place.widen, hlines, hnumber, hcount,
    Text.lines_append hf]
  rw [hstop, restOfLine_insert, ← hlength, Nat.add_assoc, blockLines_insert hblank]
  intro first more hd
  rw [List.count_append] at hd
  cases hr : (rest.take found.start.offset).count '\n' with
  | zero =>
    -- the header stands right behind the blank line
    obtain ⟨head, right, rfl, hlead⟩ := exists_head_of_count_eq_zero hm hr
    rw [hr, Nat.add_zero] at hd
    have hlater : (Text.lines front).drop (front.count '\n' + 2) = more := by
      rw [← List.tail_drop, hd, List.tail_cons]
    have hsecond : first ∈ (Text.lines front)[front.count '\n' + 1]? := by
      rw [← List.head?_drop, hd]
      rfl
    refine (hq.second first hsecond).imp_right fun hi => ⟨hi.trans_le (Nat.zero_le _), ?_⟩
    rw [hlead, ← List.nil_append (more ++ _), blockLines_append_blank (hlater ▸ hq.later)]
    exact head.blockLines_eq_nil right
  | succ k =>
    refine Or.inl (hq.later first ?_)
    have hmem : first ∈ (Text.lines front).drop (front.count '\n' + (k + 1) + 1) := by
      rw [hr] at hd
      rw [hd]
      exact List.mem_cons_self
    have hsplit : front.count '\n' + (k + 1) + 1 = front.count '\n' + 2 + k := by omega
    rw [hsplit, ← List.drop_drop] at hmem
    exact List.mem_of_mem_drop hmem

/-- **The definitions are the same with a blank line**, if that is one line behind a text that lags
behind quietly, or the last line. -/
theorem indentedDefinitions_blankLine (hf : front.EndsInLineFeed)
    (hb : ∀ c ∈ line, isBlank c = true)
    (hn : '\n' ∉ line)
    (h : ((Text.lines (line ++ ['\n'])).length = 1 ∧ front.LagsQuietly) ∨ rest = []) :
    indentedDefinitions (front ++ (line ++ '\n' :: rest)) =
      indentedDefinitions (front ++ rest) := by
  have hwithin : ∀ header ∈ indentedHeader.matchesIn (front ++ rest),
      header ∈ indentedHeader.matchesIn (front ++ rest) ∧
        (rest = [] → header.start.offset < front.length) := by
    refine fun header hm => ⟨hm, fun hr => ?_⟩
    obtain ⟨before, _, right, ht, hstart, -, hfits⟩ := fits_of_mem_matchesIn hm
    obtain ⟨-, head, rfl, -⟩ := fits_indentedHeader_iff.mp hfits
    have hpos := List.length_pos_iff.mpr head.text_ne_nil
    have hlen := congrArg List.length ht
    simp only [hr, List.length_append, List.length_nil] at hlen
    rw [hstart, offset_between]
    omega
  have hends : (line ++ ['\n']).EndsInLineFeed := Or.inr (by simp)
  have hmoved := (List.forall₂_and_left _ _).mpr
    ⟨hwithin, @forall₂_moved line rest hb hn [] front hf⟩
  have hsame := hmoved.imp (S := fun header header' =>
    indentedDefinition (front ++ (line ++ ['\n'] ++ rest))
        (Text.lines (front ++ (line ++ ['\n'] ++ rest))) header' =
      indentedDefinition (front ++ rest) (Text.lines (front ++ rest)) header) ?_
  · rw [List.append_assoc, List.singleton_append] at hsame
    rw [indentedDefinitions, indentedDefinitions, ← List.forall₂_eq_eq_eq,
      List.forall₂_map_left_iff, List.forall₂_map_right_iff]
    exact List.Forall₂.flip hsame
  · rintro _ _ ⟨⟨hm, hr⟩, hmoved⟩
    cases hmoved with
    | ahead start lt stop lead name =>
      exact indentedDefinition_ahead hf (isBlank_of_mem_blankLine hb) hends start lt stop lead name
        rest
    | behind found =>
      obtain ⟨hone, hq⟩ := h.resolve_right fun hn => by
        have hlt := hr hn
        simp only [Match.widen, Place.widen, List.nil_append] at hlt
        omega
      rw [← List.append_assoc]
      exact indentedDefinition_behind hf hq hb hn hone hm

end Snippet
