import Snippet.Proofs.DefinitionLines

/-!
# Functions of an indented program

A program in Python is rendered from its lines (`Suite.rows`): lines of code, blank lines, and the
headers of functions with their bodies. The body of a function is indented further than the
function, and what follows the body is not.

`Suite.sameCalls_definitions`: **the definitions that are found are the functions of the program**,
each with its own body but for blank lines, in the order of their headers.

What is found from some line on depends on the lines behind it through the block of each header
only. So `Suite.indentedDefinitions_rows` is stated for a suite with any lines behind it at whose
start every block of the suite is over.
-/

namespace Snippet

open Pattern Place

/-! ### Lines of code -/

/-- Whether a line opens with the word `def`, or with `async` and `def` or nothing behind it. -/
def opensDefinition (text : Text) : Bool :=
  if text.takeWhile isWord = "async".toList then
    let behind := (text.drop "async".length).dropWhile isBlank
    behind.isEmpty || behind.takeWhile isWord == "def".toList
  else text.takeWhile isWord == "def".toList

/-- A line of code that is not the header of a function. -/
structure CodeLine where
  /-- The indentation. -/
  lead : Text
  text : Text
  blank_lead : ∀ c ∈ lead, isBlank c = true ∧ isLineBreak c = false
  ne_nil : text ≠ []
  visible : text.head?.any isBlank = false
  unbroken : text.Unbroken
  code : ∀ c ∈ text, IsCode c
  not_opensDefinition : opensDefinition text = false

/-- The line of a header: what stands between the parenthesis and the colon, and what stands behind
the colon. -/
structure DefinitionLine where
  head : DefinitionHead
  signature : Text
  tail : Text
  unbroken_head : head.text.Unbroken
  unbroken_signature : signature.Unbroken
  unbroken_tail : tail.Unbroken
  code_signature : ∀ c ∈ signature, IsCode c
  code_tail : ∀ c ∈ tail, IsCode c
  colon_notMem : ':' ∉ signature

/-- Lines that are indented by `bound` at least, the first visible one by no more than `limit`. The
body of a function is indented further than the function, and the line behind it is not. -/
inductive Suite : (bound : Nat) → (limit : Option Nat) → Type where
  | done {bound : Nat} {limit : Option Nat} : Suite bound limit
  | blank {bound : Nat} {limit : Option Nat} (gap : Text)
      (blank_gap : ∀ c ∈ gap, isBlank c = true ∧ isLineBreak c = false)
      (rest : Suite bound limit) : Suite bound limit
  | code {bound : Nat} {limit : Option Nat} (line : CodeLine) (bound_le : bound ≤ line.lead.length)
      (le_limit : ∀ n ∈ limit, line.lead.length ≤ n) (rest : Suite bound none) : Suite bound limit
  | define {bound : Nat} {limit : Option Nat} (line : DefinitionLine)
      (bound_le : bound ≤ line.head.lead.length) (le_limit : ∀ n ∈ limit, line.head.lead.length ≤ n)
      (body : Suite (line.head.lead.length + 1) none)
      (rest : Suite bound (some line.head.lead.length)) : Suite bound limit

def CodeLine.row (line : CodeLine) : Text := line.lead ++ line.text

def DefinitionLine.row (line : DefinitionLine) : Text :=
  line.head.text ++ (line.signature ++ ':' :: line.tail)

namespace Suite

/-- The lines of a suite. -/
def rows : {bound : Nat} → {limit : Option Nat} → Suite bound limit → List Text
  | _, _, done => []
  | _, _, blank gap _ rest => gap :: rest.rows
  | _, _, code line _ _ rest => line.row :: rest.rows
  | _, _, define line _ _ body rest => line.row :: (body.rows ++ rest.rows)

/-- The functions of a suite, each with the text behind its colon. -/
def functions : {bound : Nat} → {limit : Option Nat} → Suite bound limit → List Definition
  | _, _, done => []
  | _, _, blank _ _ rest => rest.functions
  | _, _, code _ _ _ rest => rest.functions
  | _, _, define line _ _ body rest =>
    ⟨line.head.name, line.tail ++ '\n' :: renderRows body.rows⟩ ::
      (body.functions ++ rest.functions)

end Suite

/-! ### Lines without headers -/

section

variable {left rest gap text line : Text}

namespace DefinitionHead

variable (head : DefinitionHead) (right : Text)

/-- **A header is indented as far as its text is.** -/
theorem takeWhile_text : ∃ more, (head.text ++ right).takeWhile isBlank = head.lead ∧
    (head.text ++ right).dropWhile isBlank =
      head.async ++ ("def".toList ++ (head.gap ++ more)) := by
  have htext : head.text ++ right = head.lead ++ (head.async ++ ("def".toList ++ (head.gap ++
      (head.name ++ (head.space ++ '(' :: right))))) := by simp [text]
  have hdrop : (head.text ++ right).dropWhile isBlank = head.async ++ ("def".toList ++ (head.gap ++
      (head.name ++ (head.space ++ '(' :: right)))) := by
    rw [htext, Text.dropWhile_pad head.isBlank_of_mem_lead,
      Text.dropWhile_eq_self (head.any_head?_async _)]
  have hcut := @List.takeWhile_append_dropWhile _ isBlank (head.text ++ right)
  rw [hdrop] at hcut
  exact ⟨_, List.append_cancel_right (hcut.trans htext), hdrop⟩

end DefinitionHead

theorem opensDefinition_of_append {head : DefinitionHead} {more behind : Text}
    (h : text ++ '\n' :: more = head.async ++ ("def".toList ++ (head.gap ++ behind))) :
    opensDefinition text = true := by
  obtain ⟨c, gap, hgap⟩ := List.exists_cons_of_ne_nil head.gap_ne_nil
  have hc : isWord c = false := isWord_of_isBlank (head.isBlank_of_mem_gap c (by simp [hgap]))
  have hfeed : isWord '\n' = false := by decide
  have hdef : ("def".toList ++ (head.gap ++ behind)).takeWhile isWord = "def".toList := by
    rw [hgap, List.cons_append, Text.takeWhile_append_of_neg hc]
    decide
  have hfirst := congrArg (List.takeWhile isWord) h
  rw [Text.takeWhile_append_of_neg hfeed] at hfirst
  rcases head.isAsync with ha | ⟨blank, ha, hne, hblank⟩ <;> rw [ha] at h hfirst
  · rw [List.nil_append, hdef] at hfirst
    rw [opensDefinition, hfirst, if_neg (by decide)]
    decide
  obtain ⟨d, blank, rfl⟩ := List.exists_cons_of_ne_nil hne
  have hd : isWord d = false := isWord_of_isBlank (hblank d List.mem_cons_self)
  have hasync : text.takeWhile isWord = "async".toList := by
    rw [hfirst, List.append_assoc, List.cons_append, Text.takeWhile_append_of_neg hd]
    decide
  -- what stands behind the word
  obtain ⟨tail, rfl⟩ : ∃ tail, text = "async".toList ++ tail :=
    ⟨_, (hasync ▸ List.takeWhile_append_dropWhile).symm⟩
  rw [List.append_assoc, List.append_assoc] at h
  have hbehind := congrArg (List.dropWhile isBlank) (List.append_cancel_left h)
  have hvisible : ("def".toList ++ (head.gap ++ behind)).head?.any isBlank = false := rfl
  rw [List.dropWhile_append, Text.dropWhile_pad hblank, Text.dropWhile_eq_self hvisible] at hbehind
  rw [opensDefinition, if_pos hasync]
  show ((tail.dropWhile isBlank).isEmpty || _) = true
  split at hbehind
  next he => simp [he]
  next he =>
    have hword := congrArg (List.takeWhile isWord) hbehind
    rw [Text.takeWhile_append_of_neg hfeed, hdef] at hword
    rw [Bool.or_eq_true, beq_iff_eq]
    exact Or.inr hword

/-- **No header starts at a line that does not open like one.** -/
theorem not_fitsAt_of_not_opensDefinition (hg : ∀ c ∈ gap, isBlank c = true) (hn : text ≠ [])
    (ht : text.head?.any isBlank = false) (ho : opensDefinition text = false) (more : Text) :
    ¬ indentedHeader.FitsAt left (gap ++ (text ++ '\n' :: more)) := by
  rintro ⟨piece, right, kept, hr, hf⟩
  obtain ⟨-, head, rfl, -⟩ := fits_indentedHeader_iff.mp hf
  obtain ⟨behind, -, hb⟩ := head.takeWhile_text right
  have hhead : (text ++ '\n' :: more).head?.any isBlank = false := by
    rwa [List.head?_append_of_ne_nil _ hn]
  rw [← hr, Text.dropWhile_pad hg, Text.dropWhile_eq_self hhead] at hb
  rw [opensDefinition_of_append hb] at ho
  cases ho

theorem not_fitsAt_of_blank (hg : ∀ c ∈ gap, isBlank c = true) (more : Text) :
    ¬ indentedHeader.FitsAt left (gap ++ '\n' :: more) := by
  rintro ⟨piece, right, kept, hr, hf⟩
  obtain ⟨-, head, rfl, -⟩ := fits_indentedHeader_iff.mp hf
  obtain ⟨-, hlead, -⟩ := head.takeWhile_text right
  rw [← hr, List.takeWhile_append_of_pos hg, List.takeWhile_cons_of_pos (by decide)] at hlead
  have hfeed := head.lead_eq '\n' (by rw [← hlead]; simp)
  exact absurd hfeed (by decide)

/-- **A line at which no header starts is passed over.** -/
theorem indentedDefinitions_line (hl : line.Unbroken)
    (hn : ¬ indentedHeader.FitsAt [] (line ++ '\n' :: rest)) :
    indentedDefinitions (line ++ '\n' :: rest) = indentedDefinitions rest := by
  have hrow : ∀ row ∈ [line], row.Unbroken := by simpa using hl
  have hrender : renderRows [line] = line ++ ['\n'] := by simp [renderRows]
  have havoids : indentedHeader.Avoids [] (line ++ ['\n']) rest := by
    intro front back hr hb
    cases front with
    | nil =>
      rw [List.nil_append] at hr ⊢
      rwa [← hr, List.append_assoc, List.singleton_append]
    | cons c front =>
      -- within the line a header does not start
      cases line with
      | nil =>
        obtain ⟨rfl, hcut⟩ := List.cons.inj hr
        exact absurd (List.append_eq_nil_iff.mp hcut.symm).2 hb
      | cons d line =>
        obtain ⟨rfl, hcut⟩ := List.cons.inj hr
        obtain ⟨hc, hline⟩ := List.forall_mem_cons.mp hl
        have hfeed : ∀ e, isLineBreak e = false → e ≠ '\n' := by
          rintro e he rfl
          exact absurd he (by decide)
        have ha := @avoids_indentedHeader_of_notMem [d] rest d rfl (hfeed d hc) line
          (fun hm => hfeed _ (hline _ hm) rfl)
        exact ha front back hcut hb
  have hpass := @indentedDefinitions_rows rest _ hrow (by rwa [hrender])
  simpa [hrender] using hpass

end

/-! ### Blocks of a suite -/

section

variable {n m : Nat} {lines more : List Text}

theorem blockLines_append (h : ∀ line ∈ lines, Text.isBlankText line = true ∨ n < Text.indent line)
    (more : List Text) : blockLines n (lines ++ more) =
      (lines.filter fun line => !Text.isBlankText line) ++ blockLines n more := by
  induction lines with
  | nil => rfl
  | cons line lines ih =>
    obtain ⟨hl, hlines⟩ := List.forall_mem_cons.mp h
    rw [List.cons_append, blockLines_cons, ih hlines]
    by_cases hb : Text.isBlankText line = true
    · rw [if_pos hb, List.filter_cons_of_neg (by simp [hb])]
    · rw [if_neg hb, if_pos (hl.resolve_left hb), List.filter_cons_of_pos (by simp [hb]),
        List.cons_append]

/-- Where a block is over, every block whose header is indented further is over. -/
theorem blockLines_mono (h : blockLines n lines = []) (hnm : n ≤ m) : blockLines m lines = [] := by
  induction lines with
  | nil => rfl
  | cons line lines ih =>
    rw [blockLines_cons] at h ⊢
    split at h
    next hb => rw [if_pos hb, ih h]
    next hb =>
      split at h
      · cases h
      next hn => rw [if_neg hb, if_neg (by omega)]

end

theorem indent_row {gap text : Text} (hg : ∀ c ∈ gap, isBlank c = true) (hn : text ≠ [])
    (ht : text.head?.any isBlank = false) :
    Text.isBlankText (gap ++ text ++ ['\n']) = false ∧
      Text.indent (gap ++ text ++ ['\n']) = gap.length := by
  obtain ⟨c, text, rfl⟩ := List.exists_cons_of_ne_nil hn
  have hc : isBlank c = false := ht
  constructor
  · rw [← Bool.not_eq_true, Text.isBlankText, List.all_eq_true]
    intro h
    rw [h c (by simp)] at hc
    cases hc
  · rw [List.append_assoc]
    exact Text.indent_pad hg hc

theorem CodeLine.indent_row (line : CodeLine) :
    Text.isBlankText (line.row ++ ['\n']) = false ∧
      Text.indent (line.row ++ ['\n']) = line.lead.length :=
  Snippet.indent_row (fun c hc => (line.blank_lead c hc).1) line.ne_nil line.visible

theorem DefinitionLine.indent_row (line : DefinitionLine) :
    Text.isBlankText (line.row ++ ['\n']) = false ∧
      Text.indent (line.row ++ ['\n']) = line.head.lead.length := by
  have hrow : line.row = line.head.lead ++ (line.head.async ++ ("def".toList ++ (line.head.gap ++
      (line.head.name ++ (line.head.space ++ '(' :: (line.signature ++ ':' :: line.tail)))))) := by
    simp [row, DefinitionHead.text]
  rw [hrow]
  refine Snippet.indent_row line.head.isBlank_of_mem_lead (by simp) (line.head.any_head?_async _)

theorem isBlankText_gap {gap : Text} (hg : ∀ c ∈ gap, isBlank c = true ∧ isLineBreak c = false) :
    Text.isBlankText (gap ++ ['\n']) = true := by
  rw [Text.isBlankText, List.all_eq_true]
  intro c hc
  rcases List.mem_append.mp hc with hc | hc
  · exact (hg c hc).1
  · rw [List.mem_singleton.mp hc]
    decide

namespace Suite

variable {bound : Nat} {limit : Option Nat}

theorem unbroken (suite : Suite bound limit) : ∀ row ∈ suite.rows, row.Unbroken := by
  induction suite with
  | done => exact fun _ h => by cases h
  | blank gap hg rest ih => exact List.forall_mem_cons.mpr ⟨fun c hc => (hg c hc).2, ih⟩
  | code line _ _ rest ih =>
    refine List.forall_mem_cons.mpr ⟨fun c hc => ?_, ih⟩
    exact (List.mem_append.mp hc).elim (fun hc => (line.blank_lead c hc).2) (line.unbroken c)
  | define line _ _ body rest ihBody ihRest =>
    refine List.forall_mem_cons.mpr ⟨fun c hc => ?_, fun row hr => ?_⟩
    · simp only [DefinitionLine.row, List.mem_append, List.mem_cons] at hc
      rcases hc with hc | hc | rfl | hc
      · exact line.unbroken_head c hc
      · exact line.unbroken_signature c hc
      · decide
      · exact line.unbroken_tail c hc
    · exact (List.mem_append.mp hr).elim (ihBody row) (ihRest row)

theorem isCode (suite : Suite bound limit) : ∀ row ∈ suite.rows, ∀ c ∈ row, IsCode c := by
  have hblank : ∀ c, isBlank c = true → IsCode c := fun c hc =>
    isCode_of_isPlain (isPlain_of_isBlank hc)
  induction suite with
  | done => exact fun _ h => by cases h
  | blank gap hg rest ih =>
    exact List.forall_mem_cons.mpr ⟨fun c hc => hblank c (hg c hc).1, ih⟩
  | code line _ _ rest ih =>
    refine List.forall_mem_cons.mpr ⟨fun c hc => ?_, ih⟩
    exact (List.mem_append.mp hc).elim (fun hc => hblank c (line.blank_lead c hc).1) (line.code c)
  | define line _ _ body rest ihBody ihRest =>
    refine List.forall_mem_cons.mpr ⟨fun c hc => ?_, fun row hr => ?_⟩
    · simp only [DefinitionLine.row, List.mem_append, List.mem_cons] at hc
      rcases hc with hc | hc | rfl | hc
      · exact line.head.isCode_of_mem_text c hc
      · exact line.code_signature c hc
      · decide
      · exact line.code_tail c hc
    · exact (List.mem_append.mp hr).elim (ihBody row) (ihRest row)

/-- **The lines of a suite keep to its bound.** -/
theorem bound_le_indent (suite : Suite bound limit) : ∀ line ∈ suite.rows.map (· ++ ['\n']),
    Text.isBlankText line = true ∨ bound ≤ Text.indent line := by
  induction suite with
  | done => exact fun _ h => by cases h
  | blank gap hg rest ih => exact List.forall_mem_cons.mpr ⟨Or.inl (isBlankText_gap hg), ih⟩
  | code line hb _ rest ih =>
    exact List.forall_mem_cons.mpr ⟨Or.inr (by rw [line.indent_row.2]; exact hb), ih⟩
  | define line hb _ body rest ihBody ihRest =>
    refine List.forall_mem_cons.mpr ⟨Or.inr (by rw [line.indent_row.2]; exact hb), fun row hr => ?_⟩
    rw [List.map_append, List.mem_append] at hr
    rcases hr with hr | hr
    · exact (ihBody row hr).imp_right (by omega)
    · exact ihRest row hr

/-- **A block is over at a suite whose first visible line is not indented further.** -/
theorem blockLines_eq_nil (suite : Suite bound limit) {n : Nat} (hn : n ∈ limit)
    {more : List Text} (h : blockLines n more = []) :
    blockLines n (suite.rows.map (· ++ ['\n']) ++ more) = [] := by
  induction suite with
  | done => exact h
  | blank gap hg rest ih =>
    rw [rows, List.map_cons, List.cons_append, blockLines_cons, if_pos (isBlankText_gap hg)]
    exact ih hn
  | code line _ hl rest ih =>
    obtain ⟨hv, hi⟩ := line.indent_row
    rw [rows, List.map_cons, List.cons_append, blockLines_cons, if_neg (by simp [hv]), hi,
      if_neg (Nat.not_lt.mpr (hl n hn))]
  | define line _ hl body rest =>
    obtain ⟨hv, hi⟩ := line.indent_row
    rw [rows, List.map_cons, List.cons_append, blockLines_cons, if_neg (by simp [hv]), hi,
      if_neg (Nat.not_lt.mpr (hl n hn))]

/-- The functions of a suite, each with its own body but the blank lines. -/
def found : {bound : Nat} → {limit : Option Nat} → Suite bound limit → List Definition
  | _, _, done => []
  | _, _, blank _ _ rest => rest.found
  | _, _, code _ _ _ rest => rest.found
  | _, _, define line _ _ body rest =>
    ⟨line.head.name, line.tail ++ '\n' ::
        ((body.rows.map (· ++ ['\n'])).filter fun row => !Text.isBlankText row).flatten⟩ ::
      (body.found ++ rest.found)

theorem renderRows_cons (row : Text) (rows : List Text) (more : Text) :
    renderRows (row :: rows) ++ more = row ++ '\n' :: (renderRows rows ++ more) := by
  simp [renderRows]

theorem renderRows_append (rows rows' : List Text) (more : Text) :
    renderRows (rows ++ rows') ++ more = renderRows rows ++ (renderRows rows' ++ more) := by
  simp [renderRows]

theorem blockLines_rows (suite : Suite bound limit) (n : Nat) (more : Text) :
    blockLines n (Text.lines (renderRows suite.rows ++ more)) =
      blockLines n (suite.rows.map (· ++ ['\n']) ++ Text.lines more) := by
  rw [lines_renderRows suite.unbroken]

/-- **The definitions that are found in a suite** in front of lines at which its blocks are over. -/
theorem indentedDefinitions_rows (suite : Suite bound limit) {more : Text}
    (h : blockLines bound (Text.lines more) = []) :
    indentedDefinitions (renderRows suite.rows ++ more) =
      suite.found ++ indentedDefinitions more := by
  induction suite generalizing more with
  | done => rfl
  | blank gap hg rest ih =>
    rw [rows, renderRows_cons, indentedDefinitions_line (fun c hc => (hg c hc).2)
      (not_fitsAt_of_blank (fun c hc => (hg c hc).1) _), ih h]
    rfl
  | code line hb hl rest ih =>
    have hrow := (code line hb hl rest).unbroken _ List.mem_cons_self
    have hfits := @not_fitsAt_of_not_opensDefinition [] _ _ (fun c hc => (line.blank_lead c hc).1)
      line.ne_nil line.visible line.not_opensDefinition (renderRows rest.rows ++ more)
    rw [← List.append_assoc, ← CodeLine.row] at hfits
    rw [rows, renderRows_cons, indentedDefinitions_line hrow hfits, ih h]
    rfl
  | define line hb hl body rest ihBody ihRest =>
    have hline : Text.Unbroken (line.signature ++ ':' :: line.tail) := by
      intro c hc
      simp only [List.mem_append, List.mem_cons] at hc
      rcases hc with hc | rfl | hc
      · exact line.unbroken_signature c hc
      · decide
      · exact line.unbroken_tail c hc
    have hafter : afterColon (line.signature ++ ':' :: line.tail ++ ['\n']) =
        line.tail ++ ['\n'] := by
      have hcut := afterColon_append line.colon_notMem (line.tail ++ ['\n'])
      simpa using hcut
    have hover : blockLines line.head.lead.length
        (Text.lines (renderRows rest.rows ++ more)) = [] := by
      rw [rest.blockLines_rows]
      exact rest.blockLines_eq_nil rfl (blockLines_mono h hb)
    have hblock : blockLines line.head.lead.length
        (Text.lines (renderRows body.rows ++ (renderRows rest.rows ++ more))) =
          (body.rows.map (· ++ ['\n'])).filter fun row => !Text.isBlankText row := by
      rw [body.blockLines_rows, blockLines_append body.bound_le_indent, hover, List.append_nil]
    rw [rows, renderRows_cons, renderRows_append, DefinitionLine.row, List.append_assoc,
      indentedDefinitions_head line.head line.unbroken_head hline, hafter, hblock,
      ihBody (blockLines_mono hover (Nat.le_succ _)), ihRest h, found, List.cons_append,
      List.append_assoc, List.append_assoc, List.singleton_append]

/-- **What is found are the functions**, but for blank lines. -/
theorem sameCalls_found (suite : Suite bound limit) :
    List.Forall₂ SameCalls suite.found suite.functions := by
  induction suite with
  | done => exact .nil
  | blank gap hg rest ih => exact ih
  | code line _ _ rest ih => exact ih
  | define line _ _ body rest ihBody ihRest =>
    refine .cons ⟨rfl, ?_⟩ (List.rel_append ihBody ihRest)
    have hfront : (line.tail ++ ['\n']).getLast?.any isNameChar = false := by
      rw [List.getLast?_concat]
      decide
    have hrows : Separated (body.rows.map (· ++ ['\n'])) := by
      intro row hr
      obtain ⟨text, -, rfl⟩ := List.mem_map.mp (List.mem_of_mem_dropLast hr)
      exact ⟨'\n', by simp, by decide⟩
    have hcalls := calls_flatten_filter line.head.isPlainName.isName hrows hfront
    rw [Bool.eq_iff_iff, Definition.isRecursive_iff, Definition.isRecursive_iff]
    simpa [renderRows] using hcalls

/-- The text of a suite. A blank line at its end stands for the line feed there. -/
def render (suite : Suite bound limit) : Text := Text.join ['\n'] suite.rows

end Suite

/-! ### The end of the last line -/

theorem join_concat (rows : List Text) (last : Text) :
    Text.join ['\n'] (rows ++ [last]) = renderRows rows ++ last := by
  induction rows with
  | nil => rfl
  | cons row rows ih =>
    rw [List.cons_append, Text.join_cons (by simp), ih]
    simp [renderRows]

theorem lines_last {rows : List Text} (h : ∀ row ∈ rows, row.Unbroken) {last : Text}
    (hl : last.Unbroken) :
    Text.lines (renderRows rows ++ last) =
      rows.map (· ++ ['\n']) ++ if last = [] then [] else [last] := by
  rw [lines_renderRows h]
  split
  next he => rw [he]; rfl
  next hn => rw [Text.lines_of_unbroken hl hn]

theorem flatten_blockLines_last (n : Nat) (lines : List Text) (last : Text) :
    let more := blockLines n (lines ++ [last ++ ['\n']])
    let less := blockLines n (lines ++ if last = [] then [] else [last])
    more.flatten = less.flatten ∨ more.flatten = less.flatten ++ ['\n'] := by
  induction lines with
  | nil =>
    by_cases he : last = []
    · subst he
      exact Or.inl rfl
    have hblank : Text.isBlankText (last ++ ['\n']) = Text.isBlankText last := by
      rw [Text.isBlankText, List.all_append, ← Text.isBlankText]
      exact Bool.and_true _
    rw [if_neg he, List.nil_append, List.nil_append, blockLines_cons, blockLines_cons, hblank]
    split
    · exact Or.inl rfl
    next hb =>
      rw [Text.indent_append (by rwa [← List.all_eq_true])]
      split
      · exact Or.inr (by simp [blockLines])
      · exact Or.inl rfl
  | cons line lines ih =>
    simp only [List.cons_append, blockLines_cons] at ih ⊢
    split
    · exact ih
    · split
      · simpa only [List.flatten_cons, List.append_assoc, List.append_cancel_left_eq] using ih
      · exact Or.inl rfl

theorem sameCalls_of_lineFeed (name : Text) {body body' : Text}
    (h : body' = body ∨ body' = body ++ ['\n']) : SameCalls ⟨name, body⟩ ⟨name, body'⟩ := by
  refine ⟨rfl, ?_⟩
  rcases h with rfl | rfl
  · rfl
  · rw [Bool.eq_iff_iff, Definition.isRecursive_iff, Definition.isRecursive_iff]
    exact (calls_append_blank (by decide)).symm

theorem afterColon_lineFeed (text : Text) :
    afterColon (text ++ ['\n']) = afterColon text ++ ['\n'] := by
  by_cases h : ':' ∈ text
  · obtain ⟨front, rest, rfl, hf⟩ := List.eq_append_cons_of_mem h
    rw [List.append_assoc, List.cons_append, afterColon_append hf, afterColon_append hf]
  · rw [afterColon_of_notMem h, afterColon_of_notMem (by simpa using h)]

/-- **A line feed behind the last line does not matter** to the definition on one of the lines. -/
theorem sameCalls_lastLine (name : Text) (indent : Nat) {stop number : Nat} {before : List Text}
    {last : Text} (hnumber : number ≤ before.length)
    (hstop : stop - before.flatten.length ≤ last.length) :
    let lines := before ++ if last = [] then [] else [last]
    let lines' := before ++ [last ++ ['\n']]
    SameCalls
      ⟨name, afterColon (restOfLine lines number stop) ++
        (blockLines indent (lines.drop (number + 1))).flatten⟩
      ⟨name, afterColon (restOfLine lines' number stop) ++
        (blockLines indent (lines'.drop (number + 1))).flatten⟩ := by
  intro lines lines'
  refine sameCalls_of_lineFeed _ ?_
  rcases Nat.lt_or_eq_of_le hnumber with hlt | rfl
  · -- the header is in front of the last line
    have hrest : ∀ more,
        restOfLine (before ++ more) number stop = restOfLine before number stop := by
      intro more
      rw [restOfLine, restOfLine, List.getD_append _ _ _ _ hlt,
        List.take_append_of_le_length hlt.le]
    rw [hrest, hrest, List.drop_append_of_le_length hlt, List.drop_append_of_le_length hlt]
    rcases flatten_blockLines_last indent (before.drop (number + 1)) last with hb | hb
    · exact Or.inl (by rw [hb])
    · exact Or.inr (by rw [hb, List.append_assoc])
  · -- the header is in the last line
    have hrest : ∀ line : List Text, restOfLine (before ++ line) before.length stop =
        (line.getD 0 []).drop (stop - before.flatten.length) := by
      intro line
      rw [restOfLine, List.take_left, List.getD_append_right _ _ _ _ le_rfl, Nat.sub_self]
    have hover : ∀ line : List Text, line.length ≤ 1 →
        (before ++ line).drop (before.length + 1) = [] := by
      intro line hlen
      exact List.drop_eq_nil_of_le (by rw [List.length_append]; omega)
    have hlast : (if last = [] then [] else [last] : List Text).getD 0 [] = last := by
      split
      next he => rw [he]; rfl
      next => rfl
    refine Or.inr ?_
    rw [hrest, hrest, hover _ (by simp), hover _ (by split <;> simp), hlast]
    show afterColon ((last ++ ['\n']).drop _) ++ [] = afterColon _ ++ [] ++ ['\n']
    rw [List.drop_append_of_le_length hstop, afterColon_lineFeed, List.append_nil, List.append_nil]

/-- **A line feed behind the last line does not matter.** -/
theorem sameCalls_lineFeed {rows : List Text} (h : ∀ row ∈ rows, row.Unbroken) {last : Text}
    (hl : last.Unbroken) :
    List.Forall₂ SameCalls (indentedDefinitions (renderRows rows ++ last))
      (indentedDefinitions (renderRows (rows ++ [last]))) := by
  have hends : renderRows (rows ++ [last]) = renderRows rows ++ last ++ ['\n'] := by
    simp [renderRows]
  have hmatches := @matchesIn_pad indentedHeader [] ['\n'] (by decide) (by simp) (by decide)
    ignoresBefore_none (by decide) (renderRows rows ++ last)
  rw [List.nil_append, ← hends] at hmatches
  rw [indentedDefinitions, indentedDefinitions, hmatches, List.map_map, List.forall₂_map_left_iff,
    List.forall₂_map_right_iff, List.forall₂_same]
  intro found hm
  obtain ⟨left, piece, right, ht, hstart, hstop, hf⟩ := fits_of_mem_matchesIn hm
  -- the lines of both texts
  have hrows : ∀ row ∈ rows ++ [last], row.Unbroken := by
    simp only [List.mem_append, List.mem_singleton]
    rintro row (hr | rfl)
    · exact h row hr
    · exact hl
  have hlines' := lines_renderRows hrows []
  rw [List.append_nil, hends, ht, List.append_assoc, List.append_assoc, List.map_append,
    List.map_singleton, Text.lines, List.append_nil] at hlines'
  have hlines := lines_last h hl
  rw [ht] at hlines
  have htext : ∀ index, (found.groups.widen ['\n']).text index = found.groups.text index :=
    text_widen hf ['\n']
  have hnumber : left.count '\n' ≤ (rows.map (· ++ ['\n'])).length := by
    have hcount := congrArg (List.count '\n') ht
    have hfeed : last.count '\n' = 0 := List.count_eq_zero.mpr fun hm =>
      absurd (hl _ hm) (by decide)
    rw [List.count_append, List.count_append, count_renderRows h, hfeed] at hcount
    rw [List.length_map]
    omega
  have hstop' : (left ++ piece).length - (rows.map (· ++ ['\n'])).flatten.length ≤ last.length := by
    have hlen := congrArg List.length ht
    rw [renderRows] at hlen
    simp only [List.length_append] at hlen ⊢
    omega
  have htake : ∀ more, (left ++ more).take left.length = left := fun _ => List.take_left
  simp only [Function.comp, indentedDefinition_eq, Match.widen, hstart, hstop, Place.widen,
    offset_between, htext, hends, ht, List.append_assoc, htake, List.length_nil, Nat.zero_add,
    hlines, hlines']
  exact sameCalls_lastLine _ _ hnumber hstop'

namespace Suite

theorem isCode_of_mem_render {bound : Nat} {limit : Option Nat} (suite : Suite bound limit) :
    ∀ c ∈ suite.render, IsCode c := by
  intro c hc
  have hrows := suite.isCode
  rcases List.eq_nil_or_concat suite.rows with hr | ⟨rows, last, hr⟩
  · rw [render, hr] at hc
    cases hc
  rw [hr, List.concat_eq_append] at hrows
  rw [render, hr, List.concat_eq_append, join_concat, List.mem_append, mem_renderRows] at hc
  rcases hc with ⟨row, hm, hc⟩ | hc
  · rcases List.mem_append.mp hc with hc | hc
    · exact hrows row (List.mem_append_left _ hm) c hc
    · rw [List.mem_singleton.mp hc]
      decide
  · exact hrows last (by simp) c hc

/-- **The definitions that are found are the functions of the program**, and the same ones call
themselves. -/
theorem names_definitions (suite : Suite 0 none) :
    let found := Language.python.definitions suite.render
    found.map (·.name) = suite.functions.map (·.name) ∧
      (found.filter (·.isRecursive)).map (·.name) =
        (suite.functions.filter (·.isRecursive)).map (·.name) := by
  have hfound : indentedDefinitions (renderRows suite.rows) = suite.found := by
    have hrows := @indentedDefinitions_rows _ _ suite [] rfl
    rw [List.append_nil] at hrows
    rw [hrows]
    exact List.append_nil _
  have hsame : List.Forall₂ SameCalls (indentedDefinitions suite.render) suite.found := by
    rw [← hfound, render]
    rcases List.eq_nil_or_concat suite.rows with hr | ⟨rows, last, hr⟩
    · rw [hr]
      exact .nil
    · have hunbroken := suite.unbroken
      rw [hr, List.concat_eq_append] at hunbroken ⊢
      rw [join_concat]
      exact sameCalls_lineFeed (fun row hm => hunbroken row (List.mem_append_left _ hm))
        (hunbroken last (by simp))
  obtain ⟨hn, hr⟩ := map_name_of_sameCalls hsame
  obtain ⟨hn', hr'⟩ := map_name_of_sameCalls suite.sameCalls_found
  rw [definitions_python suite.isCode_of_mem_render]
  exact ⟨hn.trans hn', hr.trans hr'⟩

end Suite

end Snippet
