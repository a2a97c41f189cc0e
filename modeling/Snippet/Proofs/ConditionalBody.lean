import Snippet.Proofs.BracedProgram
import Snippet.Proofs.EnclosedLoops

/-!
# Loops whose body is a conditional

The body of a loop may be a conditional that stands in no braces: `for (..) if (..) first else
second`.  A conditional is not told from a simple statement, and the end of a simple statement is
looked for behind the first semicolon, or behind the first block if that opens before.  Both stand
in the first branch.

`Braced.spans_conditional`: **the reach of such a loop ends within the first branch**
(`simpleReach`), so that it holds nothing of the second branch, and no loop in the second branch
counts as nested in the loop.  A `do` with such a body has no reach at all.

* `simpleEnd_append`: what is taken for a simple statement is told by the text alone, if that
  closes its braces.
* `mem_loopSpans_iff`: the reaches that start at a word are those of a header that stands there.
-/

namespace Snippet

open Pattern Place

variable {left right front text stretch : Text}

/-! ### What is taken for a simple statement -/

/-- How much of a text belongs to the simple statement that it opens with: all up to its first
semicolon, or up to the end of its first block if that opens before. -/
def simpleReach (text : Text) : Nat := simpleEnd (between [] text)

/-- Brackets that are open in front of a text are closed in it if fewer are open behind it. -/
theorem Bracket.exists_closing? {bracket : Bracket} {outer depth stop here : Nat}
    (h : bracket.openAfter? (outer + depth) text = some stop) (hs : stop ≤ outer)
    (hd : 0 < depth) : ∃ position, bracket.closing? depth here text = some position := by
  induction text generalizing depth here with
  | nil =>
    have := Option.some.inj h
    omega
  | cons c text ih =>
    rw [closing?]
    obtain ⟨rfl, ht⟩ | ⟨rfl, less, hless, ht⟩ | ⟨⟨ho, hc⟩, ht⟩ := openAfter?_cons_eq_some h
    · rw [if_pos rfl]
      exact ih ht (Nat.succ_pos depth)
    · rw [if_neg bracket.closer_ne_opener, if_pos rfl]
      by_cases h1 : depth ≤ 1
      · rw [if_pos h1]
        exact ⟨here, rfl⟩
      · rw [if_neg h1]
        have hsplit : less = outer + (depth - 1) := by omega
        rw [hsplit] at ht
        exact ih ht (by omega)
    · rw [if_neg ho, if_neg hc]
      exact ih ht hd

/-- **A brace in a balanced text is closed there.** -/
theorem exists_afterCloser?_of_balanced
    (h : Bracket.curly.Balanced (front ++ '\x7b' :: text)) :
    ∃ stop, afterCloser? .curly (between (front ++ ['\x7b']) text) = some stop ∧
      stop.offset ≤ (front ++ '\x7b' :: text).length := by
  rw [Bracket.Balanced, Bracket.openAfter?_append, Option.bind_eq_some_iff] at h
  obtain ⟨outer, -, hopen⟩ := h
  rw [Bracket.openAfter?, if_pos (show '\x7b' = Bracket.curly.opener from rfl)] at hopen
  obtain ⟨position, hp⟩ : ∃ position,
      Bracket.curly.closing? 1 (front ++ ['\x7b']).length text = some position :=
    Bracket.exists_closing? hopen (Nat.zero_le outer) Nat.one_pos
  have hstop : afterCloser? .curly (between (front ++ ['\x7b']) text) =
      some ((between (front ++ ['\x7b']) text).advance
        (position + 1 - (front ++ ['\x7b']).length)) := by
    rw [afterCloser?, offset_between, rest_between, hp, Option.map_some]
  obtain ⟨position', hp', -, hoffset⟩ := offset_of_afterCloser? hstop
  have hbounds := Bracket.closing?_bounds hp'
  refine ⟨_, hstop, ?_⟩
  rw [hoffset]
  simp only [offset_between, rest_between, List.length_append, List.length_cons, List.length_nil]
    at hbounds ⊢
  omega

theorem position?_append_or (c : Char) (left right : Text) :
    Text.position? c (left ++ right) =
      (Text.position? c left).or ((Text.position? c right).map (· + left.length)) := by
  induction left with
  | nil => simp [Text.position?]
  | cons d left ih =>
    rw [List.cons_append, Text.position?, Text.position?]
    by_cases hd : d = c
    · rw [if_pos hd, if_pos hd]
      rfl
    · rw [if_neg hd, if_neg hd, ih]
      cases Text.position? c left with
      | none => simp [Function.comp_def, Nat.add_assoc]
      | some n => rfl

theorem position?_of_mem {c : Char} (h : c ∈ text) : ∃ n, Text.position? c text = some n := by
  induction text with
  | nil => cases h
  | cons d text ih =>
    rw [Text.position?]
    by_cases hd : d = c
    · exact ⟨0, if_pos hd⟩
    · obtain ⟨n, hn⟩ := ih ((List.mem_cons.mp h).resolve_left (Ne.symm hd))
      exact ⟨n + 1, by rw [if_neg hd, hn]; rfl⟩

theorem exists_blockEnd_append (h : Bracket.curly.Balanced (front ++ '\x7b' :: text)) :
    ∃ stop ≤ (front ++ '\x7b' :: text).length, ∀ left right,
      blockEnd ((between left (front ++ '\x7b' :: text ++ right)).advance (front.length + 1)) =
        left.length + stop := by
  obtain ⟨place, hplace, hle⟩ := exists_afterCloser?_of_balanced h
  refine ⟨place.offset, hle, ?_⟩
  intro left right
  have hwide := afterCloser?_widen hplace left right
  have hsplit : front ++ '\x7b' :: text ++ right = (front ++ ['\x7b']) ++ (text ++ right) := by simp
  have hlen : front.length + 1 = (front ++ ['\x7b']).length := by simp
  rw [hsplit, hlen, advance_between, blockEnd, hwide]
  rfl

/-- **How far a text reaches that is taken for a simple statement is told by the text**, whatever
stands around it, if it closes its braces. -/
theorem exists_simpleEnd_append (hb : Bracket.curly.Balanced text)
    (hs : '\x7b' ∈ text ∨ ';' ∈ text) :
    ∃ stop ≤ text.length, ∀ left right,
      simpleEnd (between left (text ++ right)) = left.length + stop := by
  cases hbrace : Text.position? '\x7b' text with
  | none =>
    have hn : '\x7b' ∉ text := by
      intro hm
      obtain ⟨n, hn⟩ := position?_of_mem hm
      rw [hbrace] at hn
      cases hn
    obtain ⟨s, hsemicolon⟩ := position?_of_mem (hs.resolve_left hn)
    obtain ⟨before, behind, rfl, rfl⟩ := position?_eq_some hsemicolon
    refine ⟨before.length + 1, by simp, ?_⟩
    intro left right
    rw [simpleEnd_between, position?_append_or '\x7b' (before ++ ';' :: behind),
      position?_append_or ';' (before ++ ';' :: behind), hbrace, hsemicolon]
    cases Text.position? '\x7b' right with
    | none => rfl
    | some b =>
      show (if b + _ < before.length then _ else _) = _
      rw [if_neg (by simp; omega), Nat.add_assoc]
  | some b =>
    obtain ⟨before, behind, rfl, rfl⟩ := position?_eq_some hbrace
    obtain ⟨stop, hle, hblock⟩ := exists_blockEnd_append hb
    cases hsemicolon : Text.position? ';' (before ++ '\x7b' :: behind) with
    | none =>
      refine ⟨stop, hle, ?_⟩
      intro left right
      rw [simpleEnd_between, position?_append_or '\x7b' (before ++ '\x7b' :: behind),
        position?_append_or ';' (before ++ '\x7b' :: behind), hbrace, hsemicolon]
      cases Text.position? ';' right with
      | none => exact hblock left right
      | some s =>
        show (if before.length < s + _ then _ else _) = _
        rw [if_pos (by simp; omega)]
        exact hblock left right
    | some s =>
      by_cases hlt : before.length < s
      · refine ⟨stop, hle, ?_⟩
        intro left right
        rw [simpleEnd_between, position?_append_or '\x7b' (before ++ '\x7b' :: behind),
          position?_append_or ';' (before ++ '\x7b' :: behind), hbrace, hsemicolon]
        exact (if_pos hlt).trans (hblock left right)
      · refine ⟨s + 1, ?_, ?_⟩
        · simp
          omega
        · intro left right
          rw [simpleEnd_between, position?_append_or '\x7b' (before ++ '\x7b' :: behind),
            position?_append_or ';' (before ++ '\x7b' :: behind), hbrace, hsemicolon]
          exact (if_neg hlt).trans (Nat.add_assoc ..)

theorem simpleEnd_append (hb : Bracket.curly.Balanced text) (hs : '\x7b' ∈ text ∨ ';' ∈ text)
    (left right : Text) :
    simpleEnd (between left (text ++ right)) = left.length + simpleReach text := by
  obtain ⟨stop, -, hstop⟩ := exists_simpleEnd_append hb hs
  have hreach := hstop [] []
  rw [List.append_nil, List.length_nil, Nat.zero_add] at hreach
  rw [hstop, simpleReach, hreach]

/-- **What is taken for a simple statement is a part of the text.** -/
theorem simpleReach_le (hb : Bracket.curly.Balanced text) (hs : '\x7b' ∈ text ∨ ';' ∈ text) :
    simpleReach text ≤ text.length := by
  obtain ⟨stop, hle, hstop⟩ := exists_simpleEnd_append hb hs
  have hreach := hstop [] []
  rw [List.append_nil, List.length_nil, Nat.zero_add] at hreach
  rwa [simpleReach, hreach]

theorem simpleEnd_front (hb : '\x7b' ∉ front) (hs : ';' ∉ front) (left rest : Text) :
    simpleEnd (between left (front ++ rest)) = simpleEnd (between (left ++ front) rest) := by
  have hadvance : ∀ b, (between left (front ++ rest)).advance (b + front.length + 1) =
      (between (left ++ front) rest).advance (b + 1) := by
    intro b
    have hn : b + front.length + 1 = front.length + (b + 1) := by omega
    rw [advance_eq_between, advance_eq_between, hn, List.take_length_add_append,
      List.drop_length_add_append, List.append_assoc]
  have hstop : ∀ s, left.length + (s + front.length) + 1 = (left ++ front).length + s + 1 := by
    intro s
    rw [List.length_append]
    omega
  rw [simpleEnd_between, simpleEnd_between, position?_append hb, position?_append hs]
  cases Text.position? '\x7b' rest with
  | none =>
    cases Text.position? ';' rest with
    | none =>
      show (between left (front ++ rest)).textEnd = (between (left ++ front) rest).textEnd
      simp only [textEnd_between, List.length_append]
      omega
    | some s => exact hstop s
  | some b =>
    cases Text.position? ';' rest with
    | none => exact congrArg blockEnd (hadvance b)
    | some s =>
      show (if b + front.length < s + front.length then _ else _) = if b < s then _ else _
      rw [hadvance, hstop]
      by_cases hlt : b < s
      · rw [if_pos hlt, if_pos (by omega)]
      · rw [if_neg hlt, if_neg (by omega)]

/-! ### Which reaches start at a place -/

/-- **The matches behind a stretch** that no match goes on behind are listed by themselves. -/
theorem Pattern.exists_matchesAfter_append {pattern : Pattern} (hw : 0 < pattern.width)
    (hs : pattern.Stays left stretch right) :
    ∃ before, pattern.matchesAfter left (stretch ++ right) =
      before ++ pattern.matchesAfter (left ++ stretch) right := by
  induction hlen : stretch.length using Nat.strong_induction_on generalizing left stretch with
  | _ n ih =>
    subst hlen
    cases stretch with
    | nil => exact ⟨[], by simp⟩
    | cons c stretch =>
      cases hm : pattern.matchAt? (between left (c :: (stretch ++ right))) with
      | none =>
        have htail : pattern.Stays (left ++ [c]) stretch right :=
          @Stays.tail _ left stretch right [c] hs
        obtain ⟨before, hbefore⟩ := ih stretch.length (by simp) htail rfl
        refine ⟨before, ?_⟩
        rw [List.cons_append, matchesAfter_of_none hm, hbefore, List.append_assoc]
        rfl
      | some found =>
        obtain ⟨piece, rest, he, -, hstop, hf⟩ := fits_of_matchAt? hm
        have hp := ne_nil_of_fits hw hf
        have hle := hs [] (c :: stretch) piece rest found.groups rfl (by simp) he
          (by rwa [List.append_nil])
        -- the match is within the stretch
        obtain ⟨more, hstretch, hrest⟩ : ∃ more, c :: stretch = piece ++ more ∧
            rest = more ++ right := by
          have he' : piece ++ rest = (c :: stretch) ++ right := he.symm
          rcases List.append_eq_append_iff.mp he' with ⟨more, hstretch, hrest⟩ | ⟨more, hpiece, hr⟩
          · exact ⟨more, hstretch, hrest⟩
          · rw [hpiece, List.length_append] at hle
            obtain rfl : more = [] := List.length_eq_zero_iff.mp (by omega)
            rw [List.append_nil] at hpiece
            exact ⟨[], by rw [hpiece, List.append_nil], by simpa using hr.symm⟩
        subst hrest
        have hlt : more.length < (c :: stretch).length := by
          have := List.length_pos_iff.mpr hp
          rw [hstretch, List.length_append]
          omega
        rw [hstretch] at hs ⊢
        obtain ⟨before, hbefore⟩ := ih more.length hlt (Stays.tail hs) rfl
        rw [he] at hm
        refine ⟨found :: before, ?_⟩
        rw [List.append_assoc, matchesAfter_of_match hm hstop hp, hbefore, List.append_assoc,
          List.cons_append]

theorem isWord_eq_false_of_eq_append {word gap more : Text} {c d : Char}
    (hw : ∀ e ∈ word, isWord e = true) (hg : ∀ e ∈ gap, isWord e = false) (hc : isWord c = false)
    (h : front ++ c :: d :: more = word ++ gap) : isWord d = false := by
  rcases List.append_eq_append_iff.mp h with ⟨back, rfl, hcut⟩ | ⟨back, -, rfl⟩
  · cases back with
    | nil =>
      apply hg
      rw [← hcut.trans (List.nil_append gap)]
      simp
    | cons e back =>
      obtain ⟨rfl, -⟩ := List.cons.inj hcut
      have he := hw c (by simp)
      rw [hc] at he
      cases he
  · exact hg d (by simp)

/-- **No header goes on over the start of a word.** -/
theorem stays_loopHeader_of_word (hl : Braced.Stops stretch) (hr : right.head?.any isWord = true)
    (left : Text) : loopHeader.Stays left stretch right := by
  rintro before back piece rest kept rfl hb he hf
  by_contra hlt
  obtain ⟨more, rfl, hmore⟩ : ∃ more, piece = back ++ more ∧ right = more ++ rest := by
    rcases List.append_eq_append_iff.mp he with ⟨more, h, h'⟩ | ⟨more, h, -⟩
    · exact ⟨more, h, h'⟩
    · rw [h, List.length_append] at hlt
      omega
  have hn : more ≠ [] := by
    rintro rfl
    simp at hlt
  obtain ⟨d, more, rfl⟩ := List.exists_cons_of_ne_nil hn
  obtain ⟨back, c, rfl⟩ : ∃ front c, back = front ++ [c] := by
    rcases List.eq_nil_or_concat back with rfl | ⟨front, c, rfl⟩
    · exact absurd rfl hb
    · exact ⟨front, c, List.concat_eq_append ..⟩
  have hc : isWord c = false := by
    rwa [Braced.Stops, ← List.append_assoc, List.getLast?_concat, Option.any_some] at hl
  have hd : isWord d = true := by rwa [hmore] at hr
  have hblanks : ∀ gap : Text, (∀ e ∈ gap, isBlank e = true) → ∀ e ∈ gap ++ ['('],
      isWord e = false := by
    intro gap hg e he
    rcases List.mem_append.mp he with he | he
    · exact isWord_of_isBlank (hg e he)
    · rw [List.mem_singleton.mp he]
      decide
  rw [List.append_assoc, List.singleton_append] at hf
  have hfalse : isWord d = false := by
    obtain ⟨-, gap, hg, ⟨s, hs, hpiece⟩ | ⟨hpiece, -⟩⟩ := exists_of_fits_loopHeader hf
    · have hword : ∀ e ∈ s.toList, isWord e = true := by
        fin_cases hs <;> decide
      exact isWord_eq_false_of_eq_append hword (hblanks gap hg) hc hpiece
    · exact isWord_eq_false_of_eq_append (by decide)
        (fun e he => hblanks gap hg e (List.mem_append_left _ he)) hc hpiece
  rw [hd] at hfalse
  cases hfalse

/-- **The reaches that start at a word are those of a header that stands there.** -/
theorem mem_loopSpans_iff (hl : Braced.Stops left) (hr : right.head?.any isWord = true)
    (stop : Nat) :
    (left.length, stop) ∈ loopSpans (left ++ right) ↔
      ∃ header, loopHeader.matchAt? (between left right) = some header ∧ loopEnd header = stop := by
  have hw : 0 < loopHeader.width := by
    rw [width_loopHeader]
    omega
  obtain ⟨before, hbefore⟩ := exists_matchesAfter_append hw (stays_loopHeader_of_word hl hr [])
  rw [loopSpans, List.mem_map, matchesIn_eq_matchesAfter]
  constructor
  · rintro ⟨header, hm, hspan⟩
    obtain ⟨hstart, hend⟩ := Prod.mk.inj hspan
    obtain ⟨front, rest, hcut, hmatch⟩ := exists_of_mem_matchesAfter [] hm
    rw [(reads_of_matchAt? hmatch).1, offset_between] at hstart
    obtain ⟨rfl, rfl⟩ := List.append_inj hcut hstart.symm
    exact ⟨header, hmatch, hend⟩
  · rintro ⟨header, hmatch, hend⟩
    obtain ⟨piece, rest, rfl, hstart, hstop, hf⟩ := fits_of_matchAt? hmatch
    refine ⟨header, ?_, by rw [hstart, hend]; rfl⟩
    rw [hbefore, List.nil_append, matchesAfter_of_match hmatch hstop (ne_nil_of_fits hw hf)]
    exact List.mem_append_right _ List.mem_cons_self

/-! ### Conditionals -/

namespace Braced

/-- What a loop opens with: its word and what stands in parentheses behind it, or `do`. -/
inductive Opening where
  | headed (word : String) (mem_loopWords : word ∈ loopWords) (gap : Gap) (inside : Text)
      (balanced : Bracket.round.Balanced inside)
  | doWord

def Opening.render : Opening → Text
  | headed word _ gap inside _ => headerText word gap.text inside
  | doWord => "do".toList

/-- Whether something stands in parentheses in front of the body of the loop. -/
def Opening.isHeaded : Opening → Bool
  | headed .. => true
  | doWord => false

/-- A branch of a conditional: a simple statement, a block, or a loop whose body is a block. The
condition of a `do` loop is its tail. -/
inductive Branch where
  | simple (code : Text) (balanced : Bracket.curly.Balanced code)
  | block (inside : Text) (balanced : Bracket.curly.Balanced inside)
  | loop (word : String) (mem_loopWords : word ∈ loopWords) (gap : Gap) (header : Text)
      (balanced_header : Bracket.curly.Balanced header) (gap' : Gap) (inside : Text)
      (balanced : Bracket.curly.Balanced inside)
  | doLoop (gap : Gap) (inside : Text) (balanced : Bracket.curly.Balanced inside) (tail : Text)
      (balanced_tail : Bracket.curly.Balanced tail)

def Branch.render : Branch → Text
  | simple code _ => code ++ [';']
  | block inside _ => '\x7b' :: (inside ++ ['\x7d'])
  | loop word _ gap header _ gap' inside _ =>
    headerText word gap.text header ++ (gap'.text ++ '\x7b' :: (inside ++ ['\x7d']))
  | doLoop gap inside _ tail _ => "do".toList ++ (gap.text ++ '\x7b' :: (inside ++ '\x7d' :: tail))

theorem Branch.balanced_render (branch : Branch) : Bracket.curly.Balanced branch.render := by
  cases branch with
  | simple code balanced => exact balanced.append (by decide)
  | block inside balanced => exact balanced.wrap Bracket.balanced_nil
  | loop word hword gap header balanced_header gap' inside balanced =>
    have hwords : ∀ s ∈ loopWords, Bracket.curly.Balanced s.toList := by decide
    have hopen : Bracket.curly.Balanced ['('] := by decide
    have hclose : Bracket.curly.Balanced [')'] := by decide
    have hheader : Bracket.curly.Balanced (headerText word gap.text header) :=
      (hwords word hword).append
        (gap.balanced.append (hopen.append (balanced_header.append hclose)))
    exact hheader.append (gap'.balanced.append (balanced.wrap Bracket.balanced_nil))
  | doLoop gap inside balanced tail balanced_tail =>
    have hdo : Bracket.curly.Balanced "do".toList := by decide
    exact hdo.append (gap.balanced.append (balanced.wrap balanced_tail))

theorem Branch.mem_render (branch : Branch) : '\x7b' ∈ branch.render ∨ ';' ∈ branch.render := by
  cases branch with
  | simple code => exact Or.inr (List.mem_append_right _ (List.mem_singleton_self _))
  | block inside => exact Or.inl List.mem_cons_self
  | loop => exact Or.inl (by simp [render])
  | doLoop => exact Or.inl (by simp [render])

/-- A conditional that stands in no braces, with a branch for each case. -/
structure Conditional where
  gap : Gap
  condition : Text
  balanced : Bracket.round.Balanced condition
  ne_brace : ∀ c ∈ condition, c ≠ '\x7b' ∧ c ≠ '\x7d' ∧ c ≠ ';'
  gapFirst : Gap
  first : Branch
  gapElse : Gap
  gapSecond : Gap
  second : Branch

namespace Conditional

variable (conditional : Conditional)

/-- What stands in front of the first branch. -/
def lead : Text :=
  headerText "if" conditional.gap.text conditional.condition ++ conditional.gapFirst.text

/-- What stands between the branches. -/
def middle : Text :=
  conditional.gapElse.text ++ ("else".toList ++ conditional.gapSecond.text)

def render : Text :=
  conditional.lead ++
    (conditional.first.render ++ (conditional.middle ++ conditional.second.render))

theorem notMem_lead {c : Char} (hb : isBlank c = false) (hw : c ∉ "if()".toList)
    (hc : c ∉ conditional.condition) : c ∉ conditional.lead := by
  have hgap := conditional.gap.notMem hb
  have hgap' := conditional.gapFirst.notMem hb
  simp only [lead, headerText, List.mem_append, List.mem_cons, List.not_mem_nil] at hw ⊢
  simp_all

theorem exists_cons (rest : Text) : ∃ more, conditional.render ++ rest = 'i' :: more := ⟨_, rfl⟩

end Conditional

theorem matchAt?_loopHeader_eq_none {c : Char} (hc : ∀ word ∈ headerWords, word.head? ≠ some c)
    (left text : Text) : loopHeader.matchAt? (between left (c :: text)) = none := by
  refine matchAt?_eq_none ?_
  intro hf
  obtain ⟨word, hm, rest, hcut, -⟩ := opens_loopHeader _ _ hf
  obtain ⟨hn, -⟩ := isWord_of_mem_headerWords word hm
  apply hc word hm
  have hhead : (word ++ rest).head? = word.head? := List.head?_append_of_ne_nil word hn
  rw [← hhead, ← hcut]
  rfl

variable (conditional : Conditional)

/-- **A conditional ends within its first branch**, as far as the end of a statement is found. -/
theorem statementEnd_conditional (gap : Gap) (left right : Text) :
    statementEnd (between left (gap.text ++ (conditional.render ++ right))) =
      left.length + gap.text.length + conditional.lead.length +
        simpleReach conditional.first.render := by
  obtain ⟨more, hmore⟩ := conditional.exists_cons right
  have hstart := skipBlanks_between gap.isBlank_of_mem
    (show (conditional.render ++ right).head?.any isBlank = false by rw [hmore]; rfl) left
  have hnone : loopHeader.matchAt? (between (left ++ gap.text) (conditional.render ++ right)) =
      none := by
    rw [hmore]
    exact matchAt?_loopHeader_eq_none (by decide) _ _
  have hsimple : statementEnd (between left (gap.text ++ (conditional.render ++ right))) =
      simpleEnd (between (left ++ gap.text) (conditional.render ++ right)) := by
    rw [← hstart] at hnone ⊢
    have hrest : (skipBlanks (between left (gap.text ++ (conditional.render ++ right)))).rest =
        'i' :: more := by
      rw [hstart, rest_between, hmore]
    exact statementEnd_of_simple hrest (by decide) hnone
  have hbrace : '\x7b' ∉ conditional.lead :=
    conditional.notMem_lead (by decide) (by decide) fun h => (conditional.ne_brace _ h).1 rfl
  have hsemicolon : ';' ∉ conditional.lead :=
    conditional.notMem_lead (by decide) (by decide) fun h => (conditional.ne_brace _ h).2.2 rfl
  rw [hsimple, Conditional.render, List.append_assoc, List.append_assoc,
    simpleEnd_front hbrace hsemicolon,
    simpleEnd_append conditional.first.balanced_render conditional.first.mem_render,
    List.length_append, List.length_append]

/-- Where the first branch starts, in a conditional that starts at `base`. -/
def Conditional.firstPlace (base : Nat) : Nat := base + conditional.lead.length

/-- Where the second branch starts, in a conditional that starts at `base`. -/
def Conditional.secondPlace (base : Nat) : Nat :=
  conditional.firstPlace base + conditional.first.render.length + conditional.middle.length

/-- The headers at a loop whose body is a conditional: its own, which ends within the first branch,
or none at a `do`. -/
theorem exists_header_iff (opening : Opening) (gap : Gap) (hl : Stops left) (right : Text)
    (stop : Nat) :
    (∃ header, loopHeader.matchAt? (between left
        (opening.render ++ (gap.text ++ (conditional.render ++ right)))) = some header ∧
        loopEnd header = stop) ↔
      opening.isHeaded = true ∧
        stop = conditional.firstPlace (left ++ opening.render ++ gap.text).length +
          simpleReach conditional.first.render := by
  cases opening with
  | headed word hword gap' inside balanced =>
    have hmatch := matchAt?_headed hword hl gap'.isBlank_of_mem
      (inside ++ ')' :: (gap.text ++ (conditional.render ++ right)))
    have hend := loopEnd_headed hword balanced left gap'.text
      (gap.text ++ (conditional.render ++ right))
    rw [statementEnd_conditional, ← List.length_append] at hend
    rw [Opening.render, headerText_append, hmatch, Conditional.firstPlace]
    simp only [Option.some.injEq, exists_eq_left', hend, Opening.isHeaded, true_and]
    exact eq_comm
  | doWord =>
    simp only [Opening.isHeaded, Bool.false_eq_true, false_and, iff_false]
    rintro ⟨header, hmatch, -⟩
    obtain ⟨piece, rest, hcut, -, -, hf⟩ := fits_of_matchAt? hmatch
    obtain ⟨-, gap', hg, ⟨word, hword, rfl⟩ | ⟨rfl, hbrace⟩⟩ := exists_of_fits_loopHeader hf
    · have hhead := congrArg List.head? hcut
      fin_cases hword <;> simp [Opening.render] at hhead
    · -- no brace follows the blanks behind `do`
      obtain ⟨more, hmore⟩ := conditional.exists_cons right
      rw [Opening.render, List.append_assoc, List.append_cancel_left_eq] at hcut
      have hrest : rest.head?.any isBlank = false := by
        rw [hbrace]
        rfl
      obtain ⟨-, rfl⟩ := Text.append_inj_of_head gap.isBlank_of_mem hg
        (by rw [hmore]; rfl) hrest hcut
      rw [hmore] at hbrace
      cases hbrace

theorem mem_loopSpans_conditional (opening : Opening) (gap : Gap) (hl : Stops left) (right : Text)
    (stop : Nat) :
    (left.length, stop) ∈
        loopSpans (left ++ (opening.render ++ (gap.text ++ (conditional.render ++ right)))) ↔
      opening.isHeaded = true ∧
        stop = conditional.firstPlace (left ++ opening.render ++ gap.text).length +
          simpleReach conditional.first.render := by
  have hword : (opening.render ++ (gap.text ++ (conditional.render ++ right))).head?.any isWord =
      true := by
    cases opening with
    | headed word hword =>
      fin_cases hword <;> rfl
    | doWord => rfl
  rw [mem_loopSpans_iff hl hword, exists_header_iff conditional opening gap hl]

/-- **The reach of a loop whose body is a conditional ends within the first branch**, if a reach is
found for it at all. No loop in the second branch counts as nested in it. -/
theorem spans_conditional {language : Language} {code : Text} {opening : Opening} {gap : Gap}
    (hmask : language.mask code =
      left ++ (opening.render ++ (gap.text ++ (conditional.render ++ right))))
    (hl : Stops left) :
    let base := (left ++ opening.render ++ gap.text).length
    let spans := loopSpans (language.mask code)
    (∀ stop, (left.length, stop) ∈ spans ↔ opening.isHeaded = true ∧
        stop = conditional.firstPlace base + simpleReach conditional.first.render) ∧
      simpleReach conditional.first.render ≤ conditional.first.render.length ∧
      ∀ place, conditional.secondPlace base ≤ place →
        nesting spans place = nesting (spans.filter (·.1 ≠ left.length)) place := by
  intro base spans
  have hspans : ∀ stop, (left.length, stop) ∈ spans ↔ opening.isHeaded = true ∧
      stop = conditional.firstPlace base + simpleReach conditional.first.render := by
    intro stop
    rw [show spans = _ from congrArg loopSpans hmask]
    exact mem_loopSpans_conditional conditional opening gap hl right stop
  have hle := simpleReach_le conditional.first.balanced_render conditional.first.mem_render
  refine ⟨hspans, hle, ?_⟩
  intro place hplace
  rw [nesting, nesting, List.filter_filter]
  congr 2
  refine List.filter_congr ?_
  rintro ⟨first, last⟩ hm
  by_cases hfirst : first = left.length
  · -- the reach of the loop is over
    subst hfirst
    have hlast := ((hspans last).mp hm).2
    have hover : ¬ place < last := by
      rw [Conditional.secondPlace] at hplace
      omega
    simp [hover]
  · simp [hfirst]

/-- `if (a) b; else while (c) { d; }` -/
def loopInSecond : Conditional :=
  { gap := .space
    condition := ['a']
    balanced := by decide
    ne_brace := by decide
    gapFirst := .space
    first := .simple ['b'] (by decide)
    gapElse := .space
    gapSecond := .space
    second := .loop "while" while_mem_loopWords .space ['c'] (by decide) .space " d; ".toList
      (by decide) }

/-- `for (;;)` -/
def forEver : Opening := .headed "for" for_mem_loopWords .space [';', ';'] (by decide)

/-- The reach of the `for` loop ends behind `b;`, and the `while` loop is not nested in it. -/
theorem spans_conditional_loopInSecond :
    Language.java.mask "for (;;) if (a) b; else while (c) { d; }".toList =
        [] ++ (forEver.render ++ ([' '] ++ (loopInSecond.render ++ []))) ∧
      Stops [] ∧
      (∀ stop, (0, stop) ∈ loopSpans
        (Language.java.mask "for (;;) if (a) b; else while (c) { d; }".toList) ↔ stop = 18) ∧
      ∀ place, 24 ≤ place → nesting (loopSpans
          (Language.java.mask "for (;;) if (a) b; else while (c) { d; }".toList)) place =
        nesting ((loopSpans (Language.java.mask
          "for (;;) if (a) b; else while (c) { d; }".toList)).filter (·.1 ≠ 0)) place := by
  have hmask : Language.java.mask "for (;;) if (a) b; else while (c) { d; }".toList =
      [] ++ (forEver.render ++ ([' '] ++ (loopInSecond.render ++ []))) :=
    (Language.mask_eq_self _ (by decide)).trans (by decide)
  have hstops : Stops [] := rfl
  obtain ⟨hspans, -, hnesting⟩ := @spans_conditional [] [] loopInSecond .java
    "for (;;) if (a) b; else while (c) { d; }".toList forEver .space hmask hstops
  refine ⟨hmask, hstops, ?_, hnesting⟩
  intro stop
  refine (hspans stop).trans ?_
  have hplace : loopInSecond.firstPlace (forEver.render ++ [' ']).length +
      simpleReach loopInSecond.first.render = 18 := by decide
  exact (and_iff_right rfl).trans (by rw [← hplace]; rfl)

/-- No reach of the `for` loop ends where the second branch does, and the loops are judged to stand
one behind the other. -/
theorem not_nested_loopInSecond :
    Language.java.mask "for (;;) if (a) b; else while (c) { d; }".toList =
        forEver.render ++ ([' '] ++ loopInSecond.render) ∧
      (0, 40) ∉ loopSpans
        (Language.java.mask "for (;;) if (a) b; else while (c) { d; }".toList) ∧
      Language.java.loopDepth "for (;;) if (a) b; else while (c) { d; }".toList = 1 := by
  have hmask := Language.mask_eq_self .java
    (show ∀ c ∈ "for (;;) if (a) b; else while (c) { d; }".toList, isPlain c = true by decide)
  have hblank : ∀ c ∈ [' '], isBlank c = true := by decide
  have hfor := statementEnd_conditional loopInSecond ⟨[' '], hblank⟩
    (headerText "for" [' '] [';', ';']) []
  have hwhile := statementEnd_block hblank (show Bracket.curly.Balanced " d; ".toList by decide)
    (headerText "for" [' '] [';', ';'] ++ " if (a) b; else ".toList ++
      headerText "while" [' '] ['c']) []
  have hblock : ∀ left, spansAfter left (" { d; }".toList ++ []) = [] := by
    intro left
    rw [spansAfter_lacks (by decide) (Or.inl rfl)]
    rfl
  have hspans : spansAfter [] (headerText "for" [' '] [';', ';'] ++
      (" if (a) b; else ".toList ++ (headerText "while" [' '] ['c'] ++ " { d; }".toList))) =
      [(0, 18), (24, 40)] := by
    rw [spansAfter_headed (by decide) (by decide) hblank rfl (by decide),
      spansAfter_lacks (by decide) (Or.inl rfl),
      spansAfter_headed (by decide) (by decide) hblank rfl (by decide),
      ← List.append_nil " { d; }".toList, hblock]
    exact congrArg₂ (fun a b => [(0, a), (24, b)]) hfor hwhile
  have hspans : loopSpans "for (;;) if (a) b; else while (c) { d; }".toList =
      [(0, 18), (24, 40)] := hspans
  rw [Language.loopDepth, Language.loopDepthOfMask, hmask, hspans]
  exact ⟨by decide, by decide, by decide⟩

end Braced

end Snippet
