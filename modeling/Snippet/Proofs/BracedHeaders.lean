import Snippet.Proofs.Boundaries
import Snippet.Proofs.BracedProgram
import Snippet.Proofs.OwnCalls

/-!
# Headers in front of braces

A header of a definition ends in a list of parameters and a brace.  Between the two stand a few
characters only (`isTailChar`), and a list of parameters holds no parentheses.  So a text is guarded
(`Guarded`) if it does not close a parenthesis that is open in front of it in this way, and a header
can only start where the text behind its parenthesis is not guarded (`NeedsHead`).

* `avoids_of_guarded`: no header starts in a stretch whose parentheses are guarded.
* `fits_bracedHeader`: what the plain header of a definition describes.
* `matchAt?_bracedHeader`: a name in front of parameters and a brace is a header.
-/

namespace Snippet

open Pattern Place

namespace Braced

variable {pattern : Pattern} {left right text rest inside front : Text}

/-! ### Guarded texts -/

/-- A character that may stand between the parameters of a header and its brace. -/
def isTailChar (c : Char) : Bool :=
  isWord c || isBlank c || c == '.' || c == ',' || c == '=' || c == '>'

/-- A character that may stand in a header in front of its parameters. -/
def isHeadChar (c : Char) : Bool := isNameChar c || isBlank c || c == '='

/-- No parentheses stand in the text. -/
def Unparenthesised (text : Text) : Prop := ∀ c ∈ text, c ≠ '(' ∧ c ≠ ')'

instance (text : Text) : Decidable (Unparenthesised text) :=
  inferInstanceAs (Decidable (∀ c ∈ text, c ≠ '(' ∧ c ≠ ')'))

/-- The text closes no parenthesis in front of it such that a brace follows like that of a
definition. -/
def Guarded (text : Text) : Prop :=
  ∀ inside tail right, text = inside ++ ')' :: (tail ++ '\x7b' :: right) → Unparenthesised inside →
    ∃ c ∈ tail, isTailChar c = false

theorem Unparenthesised.append {more : Text} (h : Unparenthesised text)
    (h' : Unparenthesised more) : Unparenthesised (text ++ more) := fun c hc =>
  (List.mem_append.mp hc).elim (h c) (h' c)

theorem append_inj_of_unparenthesised {text' : Text} {c d : Char} (h : Unparenthesised text)
    (h' : Unparenthesised text') (hc : c = '(' ∨ c = ')') (hd : d = '(' ∨ d = ')')
    (he : text ++ c :: rest = text' ++ d :: right) : text = text' ∧ c = d ∧ rest = right := by
  have hp : ∀ {text}, Unparenthesised text → ∀ e ∈ text, (e != '(' && e != ')') = true := by
    intro text h e he
    simpa using h e he
  have hstop : ∀ (e : Char) (more : Text), e = '(' ∨ e = ')' →
      (e :: more).head?.any (fun e => e != '(' && e != ')') = false := by
    rintro e more (rfl | rfl) <;> rfl
  obtain ⟨rfl, hr⟩ := Text.append_inj_of_head (hp h) (hp h') (hstop c _ hc) (hstop d _ hd) he
  exact ⟨rfl, List.cons.inj hr⟩

theorem guarded_nil : Guarded [] := fun _ _ _ h => by simp at h

theorem guarded_of_open (h : Unparenthesised text) (rest : Text) :
    Guarded (text ++ '(' :: rest) := by
  intro inside tail right he hi
  obtain ⟨-, hc, -⟩ := append_inj_of_unparenthesised h hi (Or.inl rfl) (Or.inr rfl) he
  cases hc

theorem Guarded.append (h : Guarded rest) (ht : Unparenthesised text) : Guarded (text ++ rest) := by
  intro inside tail right he hi
  rcases List.append_eq_append_iff.mp he with ⟨more, rfl, hm⟩ | ⟨more, rfl, hm⟩
  · exact h more tail right hm fun c hc => hi c (List.mem_append_right _ hc)
  · cases more with
    | nil => exact h [] tail right hm.symm (by simp [Unparenthesised])
    | cons d more =>
      obtain ⟨rfl, -⟩ := List.cons.inj hm
      exact absurd rfl (ht ')' (by simp)).2

theorem Guarded.simple (h : Guarded rest) (ht : '\x7b' ∉ text) :
    Guarded (text ++ ';' :: rest) := by
  intro inside tail right he hi
  have hsemicolon : isTailChar ';' = false := by decide
  rw [List.append_cons] at he
  rcases List.append_eq_append_iff.mp he with ⟨more, rfl, hm⟩ | ⟨more, hmore, hm⟩
  · exact h more tail right hm fun c hc => hi c (List.mem_append_right _ hc)
  cases more with
  | nil => exact h [] tail right hm.symm (by simp [Unparenthesised])
  | cons d more =>
    -- the parenthesis stands in front of the semicolon, and so the semicolon in front of the brace
    obtain ⟨rfl, hcut⟩ := List.cons.inj hm
    have hlast := congrArg List.getLast? hmore
    rw [List.getLast?_concat, List.getLast?_append_of_ne_nil _ (by simp)] at hlast
    have hmem : ';' ∈ more := by
      cases more with
      | nil => cases hlast
      | cons e more =>
        rw [List.getLast?_cons_cons] at hlast
        exact List.mem_of_getLast? hlast.symm
    have hbrace : '\x7b' ∉ more := by
      intro hb
      have hb : '\x7b' ∈ text ++ [';'] := by rw [hmore]; simp [hb]
      simp [ht] at hb
    rcases List.append_eq_append_iff.mp hcut with ⟨behind, rfl, hbehind⟩ | ⟨behind, rfl, -⟩
    · cases behind with
      | nil => exact ⟨';', by simpa using hmem, hsemicolon⟩
      | cons e behind =>
        obtain ⟨rfl, -⟩ := List.cons.inj hbehind
        exact absurd (by simp) hbrace
    · exact ⟨';', List.mem_append_left _ hmem, hsemicolon⟩

theorem guarded_of_close (hc : ')' ∈ text) (hb : '\x7b' ∉ text) (rest : Text) :
    Guarded (text ++ ')' :: rest) := by
  intro inside tail right he hi
  have hround : isTailChar ')' = false := by decide
  rcases List.append_eq_append_iff.mp he with ⟨more, rfl, -⟩ | ⟨more, rfl, hm⟩
  · exact absurd rfl (hi ')' (List.mem_append_left _ hc)).2
  cases more with
  | nil => exact absurd rfl (hi ')' (by simpa using hc)).2
  | cons d more =>
    obtain ⟨rfl, hcut⟩ := List.cons.inj hm
    rcases List.append_eq_append_iff.mp hcut with ⟨behind, rfl, hbehind⟩ | ⟨behind, rfl, hbehind⟩
    · cases behind with
      | nil => cases hbehind
      | cons e behind =>
        obtain ⟨rfl, -⟩ := List.cons.inj hbehind
        exact absurd (by simp) hb
    · cases behind with
      | nil => cases hbehind
      | cons e behind =>
        obtain ⟨rfl, -⟩ := List.cons.inj hbehind
        exact ⟨')', by simp, hround⟩

/-! ### What headers need -/

/-- Wherever the pattern fits, the text opens with a head for which `P` holds and a parenthesis, and
what follows is not guarded. -/
def NeedsHead (pattern : Pattern) (P : Text → Prop) : Prop :=
  ∀ left text, pattern.FitsAt left text → ∃ head inside, text = head ++ '(' :: inside ∧
    (∀ c ∈ head, isHeadChar c = true) ∧ P head ∧ ¬ Guarded inside

/-- **No header starts in a stretch whose parentheses are guarded**, if none goes on behind it. -/
theorem avoids_of_guarded {P : Text → Prop} (hp : NeedsHead pattern P)
    (hs : ∀ front head back, text = front ++ (head ++ '(' :: back) → P head →
      Guarded (back ++ rest))
    (he : text.getLast?.any (fun c => !isHeadChar c) = true ∨
      ∀ c ∈ rest.head?, isHeadChar c = false ∧ c ≠ '(') :
    pattern.Avoids left text rest := by
  rintro front back rfl hb hf
  obtain ⟨head, inside, hcut, hhead, hP, hguarded⟩ := hp _ _ hf
  -- a head does not go on behind the stretch
  have hover : ∀ more, head = back ++ more → rest ≠ more ++ '(' :: inside := by
    rintro more rfl rfl
    rcases he with he | he
    · rw [List.getLast?_append_of_ne_nil _ hb, List.getLast?_eq_getLast_of_ne_nil hb,
        Option.any_some, hhead _ (List.mem_append_left _ (List.getLast_mem hb))] at he
      cases he
    · cases more with
      | nil => exact (he '(' rfl).2 rfl
      | cons c more =>
        have hc := (he c rfl).1
        rw [hhead c (by simp)] at hc
        cases hc
  rcases List.append_eq_append_iff.mp hcut with ⟨more, hmore, hr⟩ | ⟨more, rfl, hr⟩
  · exact hover more hmore hr
  · cases more with
    | nil => exact hover [] (by simp) hr.symm
    | cons c more =>
      obtain ⟨rfl, rfl⟩ := List.cons.inj hr
      exact hguarded (hs front head more rfl hP)

theorem fits_parameters {left piece right : Text} {held kept : Groups} :
    parameters.Fits left piece right held kept ↔
      ∃ inside, piece = '(' :: (inside ++ [')']) ∧ Unparenthesised inside ∧ kept = held := by
  rw [parameters, fits_append]
  constructor
  · rintro ⟨_, _, _, rfl, ⟨_, inside, _, rfl, hopen, hinside, rfl⟩, hclose⟩
    obtain ⟨rfl, rfl⟩ := fits_char.mp hopen
    obtain ⟨rfl, rfl⟩ := fits_char.mp hclose
    exact ⟨inside, rfl, fun c hc => by simpa using hinside c hc, rfl⟩
  · rintro ⟨inside, rfl, hinside, rfl⟩
    refine ⟨'(' :: inside, [')'], kept, rfl, ⟨['('], inside, kept, rfl, fits_char.mpr ⟨rfl, rfl⟩,
      ?_, rfl⟩, fits_char.mpr ⟨rfl, rfl⟩⟩
    exact fun c hc => by simpa using hinside c hc

/-! ### The plain header of a definition -/

/-- The text of a header from the name on. -/
def headerOf (name gap inside tail : Text) : Text :=
  name ++ (gap ++ '(' :: (inside ++ ')' :: (tail ++ ['\x7b'])))

/-- The groups of a match of a header in front of `right`. -/
def nameGroup (name text : Text) : Groups := [(1, ⟨text, name.length⟩)]

theorem isTailChar_of_isBlank {c : Char} (h : isBlank c = true) : isTailChar c = true := by
  simp [isTailChar, h]

theorem fits_optional_lit {s : String} {left piece right : Text} {held kept : Groups}
    (h : (optional (lit s ++ blanks)).Fits left piece right held kept) :
    (∀ c ∈ piece, c ∈ s.toList ∨ isBlank c = true) ∧ kept = held := by
  rcases h with ⟨_, gap, _, rfl, hlit, hgap, rfl⟩ | ⟨rfl, rfl⟩
  · obtain ⟨rfl, rfl⟩ := fits_lit.mp hlit
    exact ⟨fun c hc => (List.mem_append.mp hc).imp_right (hgap c), rfl⟩
  · exact ⟨by simp, rfl⟩

theorem fits_throws {left piece right : Text} {held kept : Groups}
    (h : (optional (lit "throws" ++ someBlanks ++
      (let listed := fun c => isWord c || c == '.' || c == ',' || isBlank c
       one listed ++ fewest listed))).Fits left piece right held kept) :
    (∀ c ∈ piece, isTailChar c = true) ∧ kept = held := by
  have hlisted : ∀ c, (isWord c || c == '.' || c == ',' || isBlank c) = true →
      isTailChar c = true := by
    intro c hc
    simp only [Bool.or_eq_true] at hc
    rcases hc with ((hc | hc) | hc) | hc <;> simp [isTailChar, hc]
  rcases h with ⟨_, _, _, rfl, ⟨_, gap, _, rfl, hlit, hgap⟩, _, more, _, rfl,
    ⟨⟨d, rfl, hd⟩, rfl⟩, hm, rfl⟩ | ⟨rfl, rfl⟩
  · obtain ⟨rfl, rfl⟩ := fits_lit.mp hlit
    obtain ⟨-, hblank, rfl⟩ := fits_someBlanks.mp hgap
    have hword : ∀ c ∈ "throws".toList, isTailChar c = true := by decide
    refine ⟨fun c hc => ?_, rfl⟩
    simp only [List.mem_append, List.mem_singleton] at hc
    rcases hc with (hc | hc) | rfl | hc
    · exact hword c hc
    · exact isTailChar_of_isBlank (hblank c hc)
    · exact hlisted c hd
    · exact hlisted c (hm c hc)
  · exact ⟨by simp, rfl⟩

/-- **What the plain header of a definition describes.** -/
theorem exists_of_fits_bracedHeader {piece : Text} {kept : Groups}
    (h : bracedHeader.Fits left piece right [] kept) :
    ∃ name gap inside tail, piece = headerOf name gap inside tail ∧ IsPlainName name ∧
      (∀ c ∈ gap, isBlank c = true) ∧ Unparenthesised inside ∧
      (∀ c ∈ tail, isTailChar c = true) ∧ (between left (piece ++ right)).isEdge = true ∧
      kept = nameGroup name (piece ++ right) := by
  obtain ⟨_, brace, _, rfl, ⟨_, throws, _, rfl, ⟨_, const, _, rfl, ⟨_, blank, _, rfl, ⟨_, params, _,
    rfl, ⟨_, gap, _, rfl, ⟨_, name, _, rfl, ⟨rfl, rfl, hedge⟩, _, hname, rfl⟩, hgap, rfl⟩, hparams⟩,
    hblank, rfl⟩, hconst⟩, hthrows⟩, hbrace⟩ := h
  obtain ⟨hplain, rfl⟩ := fits_name.mp hname
  obtain ⟨inside, rfl, hinside, rfl⟩ := fits_parameters.mp hparams
  obtain ⟨behind, hbehind, rfl, rfl⟩ := fits_next.mp hbrace
  obtain ⟨hc, rfl⟩ := fits_optional_lit hconst
  obtain ⟨ht, rfl⟩ := fits_throws hthrows
  have hword : ∀ c ∈ "const".toList, isTailChar c = true := by decide
  refine ⟨name, gap, inside, blank ++ (const ++ (throws ++ behind)), ?_, hplain, hgap, hinside, ?_,
    ?_, ?_⟩
  · simp [headerOf]
  · simp only [List.mem_append]
    rintro c (hm | hm | hm | hm)
    · exact isTailChar_of_isBlank (hblank c hm)
    · exact (hc c hm).elim (hword c) isTailChar_of_isBlank
    · exact ht c hm
    · exact isTailChar_of_isBlank (hbehind c hm)
  · simpa using hedge
  · simp [nameGroup]

theorem headerOf_append_inj {name name' gap gap' inside inside' tail tail' right' : Text}
    (hn : IsPlainName name) (hn' : IsPlainName name') (hg : ∀ c ∈ gap, isBlank c = true)
    (hg' : ∀ c ∈ gap', isBlank c = true) (hi : Unparenthesised inside)
    (hi' : Unparenthesised inside') (ht : ∀ c ∈ tail, isTailChar c = true)
    (ht' : ∀ c ∈ tail', isTailChar c = true)
    (h : headerOf name gap inside tail ++ right = headerOf name' gap' inside' tail' ++ right') :
    name = name' ∧ headerOf name gap inside tail = headerOf name' gap' inside' tail' := by
  have hword : ∀ {gap : Text} (more : Text), (∀ c ∈ gap, isBlank c = true) →
      (gap ++ '(' :: more).head?.any isWord = false := by
    intro gap more hg
    cases gap with
    | nil => rfl
    | cons c gap => exact isWord_of_isBlank (hg c List.mem_cons_self)
  simp only [headerOf, List.append_assoc, List.cons_append] at h
  obtain ⟨rfl, hgap⟩ := Text.append_inj_of_head hn.isWord_of_mem hn'.isWord_of_mem (hword _ hg)
    (hword _ hg') h
  obtain ⟨rfl, hround⟩ := Text.append_inj_of_head hg hg' (by rfl) (by rfl) hgap
  obtain ⟨rfl, -, htail⟩ := append_inj_of_unparenthesised hi hi' (Or.inr rfl) (Or.inr rfl)
    (List.cons.inj hround).2
  obtain ⟨rfl, -⟩ := Text.append_inj_of_head ht ht' (by rfl) (by rfl) htail
  exact ⟨rfl, rfl⟩

/-- **A name in front of parameters and a brace is a header.** -/
theorem matchAt?_bracedHeader {name gap gap' : Text} (hn : IsPlainName name) (hl : Stops left)
    (hg : ∀ c ∈ gap, isBlank c = true) (hi : Unparenthesised inside)
    (hg' : ∀ c ∈ gap', isBlank c = true) (right : Text) :
    bracedHeader.matchAt? (between left (headerOf name gap inside gap' ++ right)) =
      some ⟨between left (headerOf name gap inside gap' ++ right),
        between (left ++ headerOf name gap inside gap') right,
        nameGroup name (headerOf name gap inside gap' ++ right)⟩ := by
  have htail : ∀ c ∈ gap', isTailChar c = true := fun c hc => isTailChar_of_isBlank (hg' c hc)
  have hfits : bracedHeader.Fits left (headerOf name gap inside gap') right []
      (nameGroup name (headerOf name gap inside gap' ++ right)) := by
    have hedge := isEdge_between_of_left hl
      (hn.any_head? (gap ++ '(' :: (inside ++ ')' :: (gap' ++ '\x7b' :: right))))
    refine ⟨_, ['\x7b'], _, ?_, ⟨_, [], _, rfl, ⟨_, [], _, rfl, ⟨_, gap', _, rfl, ⟨_,
      '(' :: (inside ++ [')']), _, rfl, ⟨_, gap, _, rfl, ⟨[], name, [], rfl, ⟨rfl, rfl, ?_⟩, _,
      fits_name.mpr ⟨hn, rfl⟩, rfl⟩, hg, rfl⟩, fits_parameters.mpr ⟨inside, rfl, hi, rfl⟩⟩, hg',
      rfl⟩, Or.inr ⟨rfl, rfl⟩⟩, Or.inr ⟨rfl, rfl⟩⟩, fits_next.mpr ⟨[], by simp, rfl, ?_⟩⟩
    · simp [headerOf]
    · simpa using hedge
    · simp [nameGroup, headerOf]
  refine matchAt?_eq_of_fits hfits ?_
  intro piece' right' kept' hr hf
  obtain ⟨name', gap'', inside', tail', rfl, hn', hg'', hi', ht', -, rfl⟩ :=
    exists_of_fits_bracedHeader hf
  obtain ⟨rfl, he⟩ := headerOf_append_inj hn hn' hg hg'' hi hi' htail ht' hr
  exact ⟨he.symm, by rw [hr]⟩

/-! ### Where headers may start -/

theorem not_guarded_of_tail {tail : Text} (hi : Unparenthesised inside)
    (ht : ∀ c ∈ tail, isTailChar c = true) (right : Text) :
    ¬ Guarded (inside ++ ')' :: (tail ++ '\x7b' :: right)) := by
  intro h
  obtain ⟨c, hc, hn⟩ := h inside tail right rfl hi
  rw [ht c hc] at hn
  cases hn

theorem isHeadChar_of_isBlank {c : Char} (h : isBlank c = true) : isHeadChar c = true := by
  simp [isHeadChar, h]

theorem isHeadChar_of_isNameChar {c : Char} (h : isNameChar c = true) : isHeadChar c = true := by
  simp [isHeadChar, h]

theorem needsHead_bracedHeader : NeedsHead bracedHeader fun head =>
    ∃ name gap, head = name ++ gap ∧ IsPlainName name ∧ ∀ c ∈ gap, isBlank c = true := by
  rintro left text ⟨_, right, kept, rfl, hf⟩
  obtain ⟨name, gap, inside, tail, rfl, hn, hg, hi, ht, -, -⟩ := exists_of_fits_bracedHeader hf
  refine ⟨name ++ gap, inside ++ ')' :: (tail ++ '\x7b' :: right), by simp [headerOf],
    fun c hc => ?_, ⟨name, gap, rfl, hn, hg⟩, not_guarded_of_tail hi ht right⟩
  rcases List.mem_append.mp hc with hc | hc
  · exact isHeadChar_of_isNameChar (hn.isName.2 c hc)
  · exact isHeadChar_of_isBlank (hg c hc)

/-- What a header with an assignment has in front of its parameters. -/
def assignment : Pattern :=
  edge ++ firstOf [lit "const", lit "let", lit "var"] ++ someBlanks ++
    group 1 (one (fun c => isNameStart c || c == '$') ++ many (fun c => isWord c || c == '$')) ++
    next '=' ++ blanks ++ optional (lit "async" ++ blanks) ++ optional (lit "function" ++ blanks)

theorem assignedHeader_eq : assignedHeader =
    assignment ++ parameters ++ blanks ++ optional (lit "=>" ++ blanks) ++ char '\x7b' := rfl

theorem isHeadChar_of_reads {c : Char} (h : assignment.reads c = true) : isHeadChar c = true := by
  have hword : ∀ s ∈ ["const", "let", "var", "async", "function"], (lit s).reads c = true →
      isHeadChar c = true := by
    intro s hs hc
    have hall : ∀ s ∈ ["const", "let", "var", "async", "function"], ∀ d ∈ s.toList,
        isHeadChar d = true := by decide
    exact hall s hs c (reads_lit.mp hc)
  have hname : (isNameStart c = true ∨ (c == '$') = true) ∨ isWord c = true ∨ (c == '$') = true →
      isHeadChar c = true := by
    rintro ((hc | hc) | hc | hc)
    · simp [isHeadChar, isNameChar, isWord_of_isNameStart hc]
    all_goals simp [isHeadChar, isNameChar, hc]
  simp only [assignment, reads_append, reads_optional, firstOf, someBlanks, blanks, next, char,
    reads, Bool.or_eq_true, Bool.false_eq_true, false_or] at h
  rcases h with ((((((h | h | h) | h) | h) | h | h) | h) | h | h) | h | h
  · exact hword "const" (by decide) h
  · exact hword "let" (by decide) h
  · exact hword "var" (by decide) h
  · exact isHeadChar_of_isBlank (or_self_iff.mp h)
  · exact hname h
  · exact isHeadChar_of_isBlank h
  · simp [isHeadChar, h]
  · exact isHeadChar_of_isBlank h
  · exact hword "async" (by decide) h
  · exact isHeadChar_of_isBlank h
  · exact hword "function" (by decide) h
  · exact isHeadChar_of_isBlank h

theorem needsHead_assignedHeader : NeedsHead assignedHeader fun head => '=' ∈ head := by
  rintro left text ⟨_, right, kept, rfl, hf⟩
  rw [assignedHeader_eq] at hf
  obtain ⟨_, _, _, rfl, ⟨_, arrow, _, rfl, ⟨_, blank, _, rfl, ⟨head, _, _, rfl, hhead, hparams⟩,
    hblank, rfl⟩, harrow⟩, hbrace⟩ := hf
  obtain ⟨inside, rfl, hi, -⟩ := fits_parameters.mp hparams
  obtain ⟨rfl, -⟩ := fits_char.mp hbrace
  have hequals : '=' ∈ head := by
    obtain ⟨_, _, _, rfl,
      ⟨_, _, _, rfl, ⟨_, _, _, rfl, ⟨_, _, _, rfl, -, hnext⟩, -⟩, -⟩, -⟩ := hhead
    obtain ⟨before, -, rfl, -⟩ := fits_next.mp hnext
    simp
  have htail : ∀ c ∈ blank ++ arrow, isTailChar c = true := by
    have harrow' : ∀ c ∈ "=>".toList, isTailChar c = true := by decide
    intro c hc
    rcases List.mem_append.mp hc with hc | hc
    · exact isTailChar_of_isBlank (hblank c hc)
    · exact ((fits_optional_lit harrow).1 c hc).elim (harrow' c) isTailChar_of_isBlank
  exact ⟨head, inside ++ ')' :: (blank ++ arrow ++ '\x7b' :: right), by simp,
    fun c hc => isHeadChar_of_reads (reads_of_mem hhead hc), hequals,
    not_guarded_of_tail hi htail right⟩

/-- **No plain header starts in front of the word at the parenthesis.** -/
theorem avoids_bracedHeader_lead {lead word gap : Text} (hl : Unparenthesised lead)
    (hs : Stops lead) (hw : IsPlainName word) (hg : ∀ c ∈ gap, isBlank c = true) (rest : Text) :
    bracedHeader.Avoids left lead (word ++ (gap ++ '(' :: rest)) := by
  rintro front back rfl hb hf
  obtain ⟨_, inside, hcut, -, ⟨name, gap', rfl, hn, hg'⟩, -⟩ := needsHead_bracedHeader _ _ hf
  have hword : ∀ {text : Text}, (∀ c ∈ text, isWord c = true) → Unparenthesised text := by
    refine fun h c hc => ⟨?_, ?_⟩ <;> rintro rfl <;> exact absurd (h _ hc) (by decide)
  have hblank : ∀ {text : Text}, (∀ c ∈ text, isBlank c = true) → Unparenthesised text := by
    refine fun h c hc => ⟨?_, ?_⟩ <;> rintro rfl <;> exact absurd (h _ hc) (by decide)
  have hback : Unparenthesised back := fun c hc => hl c (List.mem_append_right _ hc)
  obtain ⟨he, -⟩ := append_inj_of_unparenthesised
    (hback.append ((hword hw.isWord_of_mem).append (hblank hg)))
    ((hword hn.isWord_of_mem).append (hblank hg')) (Or.inl rfl) (Or.inl rfl)
    (show (back ++ (word ++ gap)) ++ '(' :: rest = (name ++ gap') ++ '(' :: inside by
      simpa using hcut)
  -- the lead does not end in a word character, and so the word would stand in the blanks
  have hlast : isWord (back.getLast hb) = false := by
    rw [Stops, List.getLast?_append_of_ne_nil _ hb, List.getLast?_eq_getLast_of_ne_nil hb] at hs
    exact hs
  rcases List.append_eq_append_iff.mp he with ⟨more, hm, -⟩ | ⟨more, -, hm⟩
  · have hmem : back.getLast hb ∈ name := by
      rw [hm]
      exact List.mem_append_left _ (List.getLast_mem hb)
    rw [hn.isWord_of_mem _ hmem] at hlast
    cases hlast
  · obtain ⟨c, tail, rfl⟩ := List.exists_cons_of_ne_nil hw.ne_nil
    have hc := isWord_of_isBlank (hg' c (by rw [hm]; simp))
    rw [hw.isWord_of_mem c List.mem_cons_self] at hc
    cases hc

end Braced

end Snippet
