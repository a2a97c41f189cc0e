import Snippet.Proofs.BracedHeaders

/-!
# Functions of a program in braces

A program in a language with braces is rendered from its functions (`Function.render`).  The body of
a function holds simple statements and blocks (`Items`): blocks behind a word and parentheses, such
as that of a loop, and blocks behind words alone, as behind `else`.

`bracedDefinitions_functions`: **the definitions that are found are the functions of the program**,
each with its own body, and those blocks in bodies that look like definitions (`Items.strays`).

A block looks like a definition if the parentheses in front of it hold no others, and the word in
front of these is not one of the control words.  Wherever else a header might start, the parenthesis
there is guarded: the next one is an opening one, or a semicolon or a closing parenthesis keeps it
from the brace.
-/

namespace Snippet

open Pattern Place

namespace Braced

variable {language : Language} {left rest : Text}

/-! ### Programs -/

/-- Code in which no block, no literal and no comment opens. -/
structure Inert (language : Language) where
  text : Text
  ne_brace : ∀ c ∈ text, c ≠ '\x7b' ∧ c ≠ '\x7d'
  notMem_quotes : ∀ c ∈ text, c ∉ language.quotes
  no_comment : text.IsChain fun c d => c = '/' → d ≠ '/' ∧ d ≠ '*'

/-- The characters of a type, of `else`, and of whatever else stands in front of a word at a
parenthesis. -/
def IsLead (text : Text) : Prop :=
  ∀ c ∈ text, isPlain c = true ∧ c ≠ '(' ∧ c ≠ ')' ∧ c ≠ '\x7b' ∧ c ≠ '\x7d' ∧ c ≠ '='

instance (text : Text) : Decidable (IsLead text) :=
  inferInstanceAs (Decidable (∀ c ∈ text, _))

/-- A word with parentheses behind it, and what stands in front of it. -/
structure Headline (language : Language) where
  lead : Text
  word : Text
  gap : Gap
  inside : Inert language
  gap' : Gap
  isLead : IsLead lead
  stops : lead.getLast?.any isNameChar = false
  isName : IsName word
  balanced : Bracket.round.Balanced inside.text

def Headline.render (head : Headline language) : Text :=
  head.lead ++ (head.word ++ (head.gap.text ++ '(' :: (head.inside.text ++ ')' :: head.gap'.text)))

/-- The statements in the body of a function. -/
inductive Items (language : Language) where
  | done (gap : Gap)
  | simple (code : Inert language) (rest : Items language)
  | headed (head : Headline language) (isPlainName : IsPlainName head.word)
      (inside rest : Items language)
  | bare (lead : Text) (isLead : IsLead lead) (inside rest : Items language)

namespace Items

def render : Items language → Text
  | done gap => gap.text
  | simple code rest => code.text ++ ';' :: rest.render
  | headed head _ inside rest =>
    head.render ++ '\x7b' :: (inside.render ++ '\x7d' :: rest.render)
  | bare lead _ inside rest => lead ++ '\x7b' :: (inside.render ++ '\x7d' :: rest.render)

/-- The words in front of parentheses without others inside, and of a block. -/
def words : Items language → List Text
  | done _ => []
  | simple _ rest => rest.words
  | headed head _ inside rest =>
    (if Unparenthesised head.inside.text then [head.word] else []) ++ (inside.words ++ rest.words)
  | bare _ _ inside rest => inside.words ++ rest.words

/-- The blocks that look like definitions. -/
def strays : Items language → List Definition
  | done _ => []
  | simple _ rest => rest.strays
  | headed head _ inside rest =>
    (if Unparenthesised head.inside.text ∧ String.ofList head.word ∉ controlWords
      then [⟨head.word, inside.render⟩] else []) ++ (inside.strays ++ rest.strays)
  | bare _ _ inside rest => inside.strays ++ rest.strays

/-- **No block looks like a definition** exactly if such words are control words. -/
theorem strays_eq_nil_iff (items : Items language) :
    items.strays = [] ↔ ∀ word ∈ items.words, String.ofList word ∈ controlWords := by
  induction items with
  | done gap => simp [strays, words]
  | simple code rest ih => exact ih
  | headed head _ inside rest ihInside ihRest =>
    simp only [strays, words, List.append_eq_nil_iff, List.mem_append, or_imp, forall_and, ihInside,
      ihRest]
    refine and_congr_left fun _ => ?_
    by_cases hi : Unparenthesised head.inside.text <;> simp [hi]
  | bare lead _ inside rest ihInside ihRest =>
    simp only [strays, words, List.append_eq_nil_iff, List.mem_append, or_imp, forall_and, ihInside,
      ihRest]

end Items

/-- A function: a type, a name, parameters and a body. -/
structure Function (language : Language) extends Headline language where
  starts : word.head?.any (fun c => isNameStart c || c == '$') = true
  unparenthesised : Unparenthesised inside.text
  notMem_controlWords : String.ofList word ∉ controlWords
  body : Items language

def Function.render (function : Function language) : Text :=
  function.toHeadline.render ++ '\x7b' :: (function.body.render ++ ['\x7d'])

/-- The text of a program: its functions, and blanks at the end. -/
def renderFunctions (functions : List (Function language)) (gap : Gap) : Text :=
  (functions.map Function.render).flatten ++ gap.text

/-! ### Its mask -/

theorem shows_lead {lead : Text} (h : IsLead lead) : Shows language lead :=
  shows_of_plain fun c hc => (h c hc).1

theorem isPlain_of_isNameChar {c : Char} (h : isNameChar c = true) : isPlain c = true := by
  rcases (Bool.or_eq_true _ _).mp h with h | h
  · exact isPlain_of_isWord h
  · rw [beq_iff_eq.mp h]
    decide

theorem Headline.shows (hl : language.usesBraces = true) (head : Headline language) :
    Shows language head.render := by
  have hopen : Shows language ['('] := shows_of_plain (by decide)
  have hinside := shows_snoc hl head.inside.notMem_quotes head.inside.no_comment
    (show isPlain ')' = true by decide) (by decide)
  have hword : Shows language head.word := shows_of_plain fun c hc =>
    isPlain_of_isNameChar (head.isName.2 c hc)
  have hshows := (shows_lead head.isLead).append (hword.append (head.gap.shows.append
    (hopen.append (hinside.append head.gap'.shows))))
  simpa [render] using hshows

theorem Items.shows (hl : language.usesBraces = true) (items : Items language) :
    Shows language items.render := by
  have hbrace : Shows language ['\x7b'] := shows_of_plain (by decide)
  have hbrace' : Shows language ['\x7d'] := shows_of_plain (by decide)
  induction items with
  | done gap => exact gap.shows
  | simple code rest ih =>
    have hcode := shows_snoc hl code.notMem_quotes code.no_comment
      (show isPlain ';' = true by decide) (by decide)
    simpa [render] using hcode.append ih
  | headed head _ inside rest ihInside ihRest =>
    exact (head.shows hl).append (hbrace.append (ihInside.append (hbrace'.append ihRest)))
  | bare lead h inside rest ihInside ihRest =>
    exact (shows_lead h).append (hbrace.append (ihInside.append (hbrace'.append ihRest)))

theorem Function.shows (hl : language.usesBraces = true) (function : Function language) :
    Shows language function.render := by
  have hbrace : Shows language ['\x7b'] := shows_of_plain (by decide)
  have hbrace' : Shows language ['\x7d'] := shows_of_plain (by decide)
  exact (function.toHeadline.shows hl).append
    (hbrace.append ((function.body.shows hl).append hbrace'))

/-- **A program is its own mask.** -/
theorem mask_renderFunctions (hl : language.usesBraces = true)
    (functions : List (Function language)) (gap : Gap) :
    language.mask (renderFunctions functions gap) = renderFunctions functions gap := by
  have hshows : Shows language (functions.map Function.render).flatten := by
    induction functions with
    | nil => exact fun _ => rfl
    | cons function functions ih => exact (function.shows hl).append ih
  have hm := (hshows.append gap.shows) []
  rwa [List.append_nil, language.mask_nil, List.append_nil] at hm

/-! ### Its braces -/

theorem balanced_lead {lead : Text} (h : IsLead lead) : Bracket.curly.Balanced lead :=
  Bracket.balanced_of_forall fun c hc => ⟨(h c hc).2.2.2.1, (h c hc).2.2.2.2.1⟩

theorem Headline.balanced_render (head : Headline language) :
    Bracket.curly.Balanced head.render := by
  have hword : Bracket.curly.Balanced head.word := Bracket.balanced_of_forall fun c hc => by
    refine ⟨?_, ?_⟩ <;> rintro rfl <;> exact absurd (head.isName.2 _ hc) (by decide)
  have hopen : Bracket.curly.Balanced ['('] := by decide
  have hclose : Bracket.curly.Balanced [')'] := by decide
  exact (balanced_lead head.isLead).append (hword.append (head.gap.balanced.append (hopen.append
    ((Bracket.balanced_of_forall head.inside.ne_brace).append
      (hclose.append head.gap'.balanced)))))

theorem Items.balanced_render (items : Items language) : Bracket.curly.Balanced items.render := by
  have hend : Bracket.curly.Balanced [';'] := by decide
  induction items with
  | done gap => exact gap.balanced
  | simple code rest ih =>
    exact (Bracket.balanced_of_forall code.ne_brace).append (hend.append ih)
  | headed head _ inside rest ihInside ihRest =>
    exact head.balanced_render.append (ihInside.wrap ihRest)
  | bare lead h inside rest ihInside ihRest => exact (balanced_lead h).append (ihInside.wrap ihRest)

theorem Items.closing?_render (items : Items language) (rest : Text) :
    Bracket.curly.closing? 1 0 (items.render ++ '\x7d' :: rest) = some items.render.length := by
  have hc := Bracket.closing?_openAfter? items.balanced_render 0 ('\x7d' :: rest)
  rw [Nat.zero_add, Nat.zero_add] at hc
  rw [hc]
  rfl

/-! ### Its parentheses -/

theorem unparenthesised_gap (gap : Gap) : Unparenthesised gap.text := fun c hc => by
  have hb := gap.isBlank_of_mem c hc
  exact ⟨ne_of_isBlank hb (by decide), ne_of_isBlank hb (by decide)⟩

theorem unparenthesised_lead {lead : Text} (h : IsLead lead) : Unparenthesised lead :=
  fun c hc => ⟨(h c hc).2.1, (h c hc).2.2.1⟩

theorem unparenthesised_name {name : Text} (h : IsName name) : Unparenthesised name := by
  refine fun c hc => ⟨?_, ?_⟩ <;> rintro rfl <;> exact absurd (h.2 _ hc) (by decide)

theorem closing_mem_of_balanced {text front back : Text} (h : Bracket.round.Balanced text)
    (ht : text = front ++ '(' :: back) : ')' ∈ back := by
  have hle : ∀ (text : Text) (depth stop : Nat), ')' ∉ text →
      Bracket.round.openAfter? depth text = some stop → depth ≤ stop := by
    intro text
    induction text with
    | nil =>
      intro depth stop _ he
      cases he
      exact le_rfl
    | cons c text ih =>
      intro depth stop hn he
      rw [List.mem_cons, not_or] at hn
      obtain ⟨rfl, hs⟩ | ⟨rfl, -⟩ | ⟨-, hs⟩ := Bracket.openAfter?_cons_eq_some he
      · exact (Nat.le_succ depth).trans (ih _ _ hn.2 hs)
      · exact absurd rfl hn.1
      · exact ih _ _ hn.2 hs
  by_contra hn
  rw [Bracket.Balanced, ht, Bracket.openAfter?_append] at h
  obtain ⟨depth, -, hback⟩ := Option.bind_eq_some_iff.mp h
  rw [Bracket.openAfter?, if_pos (show '(' = Bracket.round.opener from rfl)] at hback
  have := hle back (depth + 1) 0 hn hback
  omega

namespace Headline

variable (head : Headline language)

/-- What stands in front of the parenthesis. -/
def front : Text := head.lead ++ (head.word ++ head.gap.text)

theorem unparenthesised_front : Unparenthesised head.front :=
  (unparenthesised_lead head.isLead).append
    ((unparenthesised_name head.isName).append (unparenthesised_gap head.gap))

theorem render_eq : head.render =
    head.front ++ '(' :: (head.inside.text ++ ')' :: head.gap'.text) := by
  simp [render, front]

theorem brace_notMem : '\x7b' ∉ head.inside.text := fun hm => (head.inside.ne_brace _ hm).1 rfl

/-- **The parentheses inside are guarded by the closing one.** -/
theorem guarded_inside {before behind : Text} (h : head.inside.text = before ++ '(' :: behind)
    (rest : Text) : Guarded (behind ++ ')' :: (head.gap'.text ++ rest)) := by
  have hbrace : '\x7b' ∉ behind := fun hm => head.brace_notMem (by rw [h]; simp [hm])
  exact guarded_of_close (closing_mem_of_balanced head.balanced h) hbrace _

theorem opening_cases {before behind : Text} (h : head.render = before ++ '(' :: behind) :
    (before = head.front ∧ behind = head.inside.text ++ ')' :: head.gap'.text) ∨
      ∃ front back, head.inside.text = front ++ '(' :: back ∧
        behind = back ++ ')' :: head.gap'.text := by
  rw [render_eq] at h
  rcases List.append_eq_append_iff.mp h with ⟨more, rfl, hm⟩ | ⟨more, hfront, hm⟩
  · cases more with
    | nil => exact Or.inl ⟨by simp, (List.cons.inj hm).2.symm⟩
    | cons c more =>
      obtain ⟨rfl, hcut⟩ := List.cons.inj hm
      have hnext : ∀ tail, ')' :: head.gap'.text = tail ++ '(' :: behind → False := by
        intro tail he
        have hmem : '(' ∈ ')' :: head.gap'.text := by rw [he]; simp
        rcases List.mem_cons.mp hmem with hc | hc
        · exact absurd hc (by decide)
        · exact (unparenthesised_gap head.gap' _ hc).1 rfl
      rcases List.append_eq_append_iff.mp hcut with ⟨tail, -, ht⟩ | ⟨tail, hinside, ht⟩
      · exact (hnext tail ht).elim
      · cases tail with
        | nil => exact (hnext [] ht.symm).elim
        | cons d tail =>
          obtain ⟨rfl, hbehind⟩ := List.cons.inj ht
          exact Or.inr ⟨more, tail, hinside, hbehind⟩
  · cases more with
    | nil => exact Or.inl ⟨by simpa using hfront.symm, (List.cons.inj hm).2⟩
    | cons c more =>
      obtain ⟨rfl, -⟩ := List.cons.inj hm
      exact absurd rfl (head.unparenthesised_front '(' (by rw [hfront]; simp)).1

theorem avoids_assignedHeader (rest : Text) :
    assignedHeader.Avoids left head.render ('\x7b' :: rest) := by
  refine avoids_of_guarded needsHead_assignedHeader ?_ (Or.inr ?_)
  · intro before equals behind h he
    rw [← List.append_assoc] at h
    rcases head.opening_cases h with ⟨hfront, -⟩ | ⟨_, back, hinside, rfl⟩
    · have hm : '=' ∈ head.front := by rw [← hfront]; exact List.mem_append_right _ he
      simp only [front, List.mem_append] at hm
      rcases hm with hm | hm | hm
      · exact absurd rfl (head.isLead _ hm).2.2.2.2.2
      · exact absurd (head.isName.2 _ hm) (by decide)
      · exact absurd (head.gap.isBlank_of_mem _ hm) (by decide)
    · rw [List.append_assoc, List.cons_append]
      exact head.guarded_inside hinside _
  · rintro c ⟨⟩
    decide

theorem avoids_bracedHeader (hi : ¬ Unparenthesised head.inside.text) (rest : Text) :
    bracedHeader.Avoids left head.render ('\x7b' :: rest) := by
  have hclose : ')' ∈ head.inside.text := by
    by_contra hn
    refine hi fun c hc => ⟨?_, ?_⟩
    · rintro rfl
      obtain ⟨before, behind, hcut⟩ := List.append_of_mem hc
      exact hn (by rw [hcut]; simp [closing_mem_of_balanced head.balanced hcut])
    · rintro rfl
      exact hn hc
  refine avoids_of_guarded needsHead_bracedHeader ?_ (Or.inr ?_)
  · intro before name behind h _
    rw [← List.append_assoc] at h
    rcases head.opening_cases h with ⟨-, rfl⟩ | ⟨_, back, hinside, rfl⟩
    · rw [List.append_assoc, List.cons_append]
      exact guarded_of_close hclose head.brace_notMem _
    · rw [List.append_assoc, List.cons_append]
      exact head.guarded_inside hinside _
  · rintro c ⟨⟩
    decide

end Headline

theorem Guarded.cons {c : Char} (h : Guarded rest) (hc : c ≠ '(' ∧ c ≠ ')') :
    Guarded (c :: rest) :=
  h.append fun d hd => by rwa [List.mem_singleton.mp hd]

/-- **The statements of a body are guarded** where what follows is. -/
theorem Items.guarded (items : Items language) (h : Guarded rest) :
    Guarded (items.render ++ rest) := by
  induction items generalizing rest with
  | done gap => exact h.append (unparenthesised_gap gap)
  | simple code more ih =>
    rw [render, List.append_assoc, List.cons_append]
    exact (ih h).simple fun hm => (code.ne_brace _ hm).1 rfl
  | headed head _ inside more =>
    rw [render, Headline.render_eq, List.append_assoc, List.append_assoc, List.cons_append]
    exact guarded_of_open head.unparenthesised_front _
  | bare lead hlead inside more ihInside ihMore =>
    rw [render, List.append_assoc, List.cons_append, List.append_assoc, List.cons_append]
    exact ((ihInside ((ihMore h).cons (by decide))).cons (by decide)).append
      (unparenthesised_lead hlead)

/-! ### Headers with an assignment -/

theorem avoids_char {pattern : Pattern} {c : Char} (hw : 0 < pattern.width)
    (hc : pattern.mayStart c = false) : pattern.Avoids left [c] rest :=
  avoids_of_mayStart hw (by simpa using hc)

theorem Inert.avoids {pattern : Pattern} {P : Text → Prop} (hp : NeedsHead pattern P)
    (code : Inert language) (h : Guarded rest) :
    pattern.Avoids left (code.text ++ [';']) rest := by
  refine avoids_of_guarded hp ?_ (Or.inl ?_)
  · intro front head back hcut _
    -- the semicolon stands behind the parenthesis
    obtain ⟨more, rfl⟩ : ∃ more, back = more ++ [';'] := by
      have hlast := congrArg List.getLast? hcut
      rw [List.getLast?_concat, ← List.append_assoc,
        List.getLast?_append_of_ne_nil _ (List.cons_ne_nil _ _)] at hlast
      cases back with
      | nil => cases hlast
      | cons c back =>
        rw [List.getLast?_cons_cons] at hlast
        exact ⟨_, (List.dropLast_append_getLast? _ hlast.symm).symm⟩
    have hbrace : '\x7b' ∉ more := by
      intro hm
      have hb : '\x7b' ∈ code.text ++ [';'] := by rw [hcut]; simp [hm]
      rcases List.mem_append.mp hb with hb | hb
      · exact (code.ne_brace _ hb).1 rfl
      · exact absurd hb (by decide)
    rw [List.append_assoc, List.singleton_append]
    exact h.simple hbrace
  · rw [List.getLast?_concat]
    decide

theorem Gap.avoids {pattern : Pattern} {P : Text → Prop} (hp : NeedsHead pattern P) (gap : Gap)
    (hr : ∀ c ∈ rest.head?, c = '\x7d') : pattern.Avoids left gap.text rest := by
  refine avoids_of_guarded hp ?_ (Or.inr ?_)
  · intro front head back hcut _
    exact absurd rfl (unparenthesised_gap gap '(' (by rw [hcut]; simp)).1
  · intro c hc
    rw [hr c hc]
    decide

theorem avoids_lead {pattern : Pattern} {P : Text → Prop} (hp : NeedsHead pattern P) {lead : Text}
    (h : IsLead lead) : pattern.Avoids left lead ('\x7b' :: rest) := by
  refine avoids_of_guarded hp ?_ (Or.inr ?_)
  · intro front head back hcut _
    exact absurd rfl (unparenthesised_lead h '(' (by rw [hcut]; simp)).1
  · rintro c ⟨⟩
    decide

theorem avoids_block {pattern : Pattern} {front inside more : Text} (hw : 0 < pattern.width)
    (ho : pattern.mayStart '\x7b' = false) (hc : pattern.mayStart '\x7d' = false)
    (hfront : pattern.Avoids left front ('\x7b' :: (inside ++ '\x7d' :: (more ++ rest))))
    (hinside : ∀ left, pattern.Avoids left inside ('\x7d' :: (more ++ rest)))
    (hmore : ∀ left, pattern.Avoids left more rest) :
    pattern.Avoids left (front ++ '\x7b' :: (inside ++ '\x7d' :: more)) rest := by
  have hlast : ∀ left, pattern.Avoids left ('\x7d' :: more) rest := fun left =>
    (avoids_char hw hc).append (hmore _)
  have hblock : ∀ left, pattern.Avoids left (inside ++ '\x7d' :: more) rest := fun left =>
    Avoids.append (by simpa using hinside left) (hlast _)
  refine Avoids.append (by simpa using hfront) ?_
  exact (avoids_char hw ho).append (hblock _)

/-- **No header with an assignment starts in the body of a function.** -/
theorem Items.avoids_assignedHeader (items : Items language) (h : Guarded rest)
    (hr : ∀ c ∈ rest.head?, c = '\x7d') : assignedHeader.Avoids left items.render rest := by
  induction items generalizing left rest with
  | done gap => exact gap.avoids needsHead_assignedHeader hr
  | simple code more ih =>
    rw [render, List.append_cons]
    exact (code.avoids needsHead_assignedHeader (more.guarded h)).append (ih h hr)
  | headed head _ inside more ihInside ihMore =>
    exact avoids_block (by decide) (by decide) (by decide) (head.avoids_assignedHeader _)
      (fun left => ihInside ((more.guarded h).cons (by decide)) (by simp)) (fun left => ihMore h hr)
  | bare lead hlead inside more ihInside ihMore =>
    exact avoids_block (by decide) (by decide) (by decide)
      (avoids_lead needsHead_assignedHeader hlead)
      (fun left => ihInside ((more.guarded h).cons (by decide)) (by simp)) (fun left => ihMore h hr)

/-! ### Plain headers -/

theorem stops_of_any_isNameChar {text : Text} (h : text.getLast?.any isNameChar = false) :
    Stops text := by
  rw [Stops]
  cases hl : text.getLast? with
  | none => rfl
  | some c =>
    rw [hl, Option.any_some, isNameChar, Bool.or_eq_false_iff] at h
    exact h.1

/-- **A header stands for a definition** whose body ends at the brace, unless its name is a control
word. -/
theorem bracedDefinition?_nameGroup (start : Place) (left word more : Text)
    (items : Items language) (rest : Text) :
    bracedDefinition? ⟨start, between left (items.render ++ '\x7d' :: rest),
        nameGroup word (word ++ more)⟩ =
      if String.ofList word ∈ controlWords then none else some ⟨word, items.render⟩ := by
  have hword : (nameGroup word (word ++ more)).text 1 = word := by
    simp [nameGroup, text_cons, Capture.text]
  simp only [bracedDefinition?, hword, rest_between, items.closing?_render, List.take_left,
    List.contains_iff_mem]

/-- **A block or a function with a head** is a definition if it looks like one, and what is found
goes on in its body. -/
theorem Headline.filterMap_matchesAfter (head : Headline language)
    (hn : IsPlainName head.word) (hl : Stops left) (items : Items language) (rest : Text) :
    let inside := items.render ++ '\x7d' :: rest
    (bracedHeader.matchesAfter left (head.render ++ '\x7b' :: inside)).filterMap
        bracedDefinition? =
      (if Unparenthesised head.inside.text ∧ String.ofList head.word ∉ controlWords
        then [⟨head.word, items.render⟩] else []) ++
        (bracedHeader.matchesAfter (left ++ (head.render ++ ['\x7b'])) inside).filterMap
          bracedDefinition? := by
  intro inside
  by_cases hi : Unparenthesised head.inside.text
  · have hstops := stops_of_any_isNameChar head.stops
    have hrender : head.render ++ '\x7b' :: inside =
        head.lead ++
          (headerOf head.word head.gap.text head.inside.text head.gap'.text ++ inside) := by
      simp [render, headerOf]
    have havoids : bracedHeader.Avoids left head.lead
        (headerOf head.word head.gap.text head.inside.text head.gap'.text ++ inside) := by
      have hlead := @avoids_bracedHeader_lead left _ _ _ (unparenthesised_lead head.isLead) hstops
        hn head.gap.isBlank_of_mem (head.inside.text ++ ')' :: (head.gap'.text ++ '\x7b' :: inside))
      simpa [headerOf] using hlead
    have hmatch := matchAt?_bracedHeader hn (hl.append hstops) head.gap.isBlank_of_mem hi
      head.gap'.isBlank_of_mem inside
    have hend : left ++ head.lead ++ headerOf head.word head.gap.text head.inside.text
        head.gap'.text = left ++ (head.render ++ ['\x7b']) := by
      simp [render, headerOf]
    have hpass := matchesAfter_of_match hmatch rfl (by simp [headerOf])
    rw [hend] at hpass
    rw [hrender, matchesAfter_append havoids, hpass, List.filterMap_cons, headerOf,
      List.append_assoc, bracedDefinition?_nameGroup]
    by_cases hc : String.ofList head.word ∈ controlWords
    · rw [if_pos hc, if_neg (fun h => h.2 hc), List.nil_append]
    · rw [if_neg hc, if_pos ⟨hi, hc⟩, List.singleton_append]
  · have hbrace : bracedHeader.Avoids left (head.render ++ ['\x7b']) inside :=
      (head.avoids_bracedHeader hi inside).append (avoids_char (by decide) (by decide))
    rw [if_neg (fun h => hi h.1), List.nil_append, List.append_cons, matchesAfter_append hbrace]

/-- **The definitions in the body of a function** are the blocks that look like definitions. -/
theorem Items.filterMap_matchesAfter (items : Items language) (hl : Stops left)
    (h : Guarded rest) (hr : ∀ c ∈ rest.head?, c = '\x7d') :
    (bracedHeader.matchesAfter left (items.render ++ rest)).filterMap bracedDefinition? =
      items.strays ++
        (bracedHeader.matchesAfter (left ++ items.render) rest).filterMap bracedDefinition? := by
  -- behind a block the list goes on with the statements there
  have hclose : ∀ {left : Text} (more : Text), bracedHeader.matchesAfter left ('\x7d' :: more) =
      bracedHeader.matchesAfter (left ++ ['\x7d']) more := fun more =>
    matchesAfter_append (@avoids_char _ more bracedHeader '\x7d' (by decide) (by decide))
  have hbreak : ∀ {c : Char} (left : Text), isWord c = false → Stops (left ++ [c]) :=
    fun left hc => stops_snoc hc left
  induction items generalizing left rest with
  | done gap => rw [render, matchesAfter_append (gap.avoids needsHead_bracedHeader hr)]; rfl
  | simple code more ih =>
    have hcode := @Inert.avoids _ left _ _ _ needsHead_bracedHeader code (more.guarded h)
    rw [render, List.append_cons, List.append_assoc, matchesAfter_append hcode,
      ih (by rw [← List.append_assoc]; exact hbreak _ (by decide)) h hr, strays]
    simp
  | headed head hn inside more ihInside ihMore =>
    have hhead := head.filterMap_matchesAfter hn hl inside (more.render ++ rest)
    simp only at hhead
    rw [render, List.append_assoc, List.cons_append, List.append_assoc, List.cons_append, hhead,
      ihInside (by rw [← List.append_assoc]; exact hbreak _ (by decide))
        ((more.guarded h).cons (by decide)) (by simp), hclose,
      ihMore (hbreak _ (by decide)) h hr, strays]
    simp
  | bare lead hlead inside more ihInside ihMore =>
    have hbrace : bracedHeader.Avoids left (lead ++ ['\x7b'])
        (inside.render ++ '\x7d' :: (more.render ++ rest)) :=
      (avoids_lead needsHead_bracedHeader hlead).append (avoids_char (by decide) (by decide))
    rw [render, List.append_assoc, List.cons_append, List.append_assoc, List.cons_append,
      List.append_cons, matchesAfter_append hbrace,
      ihInside (by rw [← List.append_assoc]; exact hbreak _ (by decide))
        ((more.guarded h).cons (by decide)) (by simp), hclose,
      ihMore (hbreak _ (by decide)) h hr, strays]
    simp

/-! ### Programs of functions -/

theorem Function.isPlainName (function : Function language) (h : '$' ∉ function.word) :
    IsPlainName function.word := by
  have hstart := function.starts
  obtain ⟨hne, hchars⟩ := function.isName
  cases hw : function.word with
  | nil => exact absurd hw hne
  | cons c more =>
    rw [hw] at hstart hchars h
    rw [List.mem_cons, not_or] at h
    obtain ⟨hc, hm⟩ := List.forall_mem_cons.mp hchars
    have hstart : isNameStart c = true ∨ c = '$' := by simpa using hstart
    refine ⟨c, more, rfl, hstart.resolve_right (Ne.symm h.1), fun d hd => ?_⟩
    rcases (Bool.or_eq_true _ _).mp (hm d hd) with hd' | hd'
    · exact hd'
    · exact absurd (beq_iff_eq.mp hd' ▸ hd) h.2

theorem renderFunctions_cons (function : Function language) (functions : List (Function language))
    (gap : Gap) : renderFunctions (function :: functions) gap =
      function.toHeadline.render ++ '\x7b' :: (function.body.render ++ '\x7d' ::
        renderFunctions functions gap) := by
  simp [renderFunctions, Function.render]

theorem guarded_renderFunctions (functions : List (Function language)) (gap : Gap) :
    Guarded (renderFunctions functions gap) := by
  cases functions with
  | nil =>
    have h := guarded_nil.append (unparenthesised_gap gap)
    rwa [List.append_nil] at h
  | cons function functions =>
    rw [renderFunctions_cons, Headline.render_eq, List.append_assoc, List.cons_append]
    exact guarded_of_open function.unparenthesised_front _

theorem avoids_assignedHeader_functions (functions : List (Function language)) (gap : Gap) :
    assignedHeader.Avoids left (renderFunctions functions gap) [] := by
  induction functions generalizing left with
  | nil => exact gap.avoids needsHead_assignedHeader (by simp)
  | cons function functions ih =>
    have hguarded := guarded_renderFunctions functions gap
    rw [renderFunctions_cons]
    refine avoids_block (by decide) (by decide) (by decide)
      (function.toHeadline.avoids_assignedHeader _) (fun left => ?_) (fun left => ih)
    rw [List.append_nil]
    exact function.body.avoids_assignedHeader (hguarded.cons (by decide)) (by simp)

theorem matchesIn_assignedHeader (functions : List (Function language)) (gap : Gap) :
    assignedHeader.matchesIn (renderFunctions functions gap) = [] := by
  rw [matchesIn_eq_matchesAfter]
  exact matchesAfter_eq_nil (avoids_assignedHeader_functions functions gap)

/-- **The definitions that are found are the functions of the program**, and the blocks in their
bodies that look like definitions. -/
theorem bracedDefinitions_functions {functions : List (Function language)}
    (h : ∀ function ∈ functions, '$' ∉ function.word) (gap : Gap) :
    bracedDefinitions (renderFunctions functions gap) =
      functions.flatMap fun function =>
        ⟨function.word, function.body.render⟩ :: function.body.strays := by
  rw [bracedDefinitions, matchesIn_assignedHeader, List.append_nil, matchesIn_eq_matchesAfter]
  have hstart : Stops [] := rfl
  generalize ([] : Text) = left at hstart
  induction functions generalizing left with
  | nil =>
    have hgap : bracedHeader.Avoids left gap.text [] := gap.avoids needsHead_bracedHeader (by simp)
    rw [renderFunctions, List.map_nil, List.flatten_nil, List.nil_append,
      matchesAfter_eq_nil hgap]
    rfl
  | cons function functions ih =>
    obtain ⟨hf, hmore⟩ := List.forall_mem_cons.mp h
    have hhead := function.toHeadline.filterMap_matchesAfter (function.isPlainName hf) hstart
      function.body (renderFunctions functions gap)
    simp only at hhead
    have hbody := (guarded_renderFunctions functions gap).cons (show '\x7d' ≠ '(' ∧ _ by decide)
    have hclose : ∀ left : Text,
        bracedHeader.matchesAfter left ('\x7d' :: renderFunctions functions gap) =
          bracedHeader.matchesAfter (left ++ ['\x7d']) (renderFunctions functions gap) := fun _ =>
      matchesAfter_append (avoids_char (by decide) (by decide))
    rw [renderFunctions_cons, hhead,
      if_pos ⟨function.unparenthesised, function.notMem_controlWords⟩,
      function.body.filterMap_matchesAfter
        (by rw [← List.append_assoc]; exact stops_snoc (by decide) _) hbody (by simp), hclose,
      ih hmore _ (stops_snoc (by decide) _), List.flatMap_cons]
    simp

end Braced

end Snippet
