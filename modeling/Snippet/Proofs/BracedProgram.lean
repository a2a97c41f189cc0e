import Snippet.Proofs.LoopReach
import Snippet.Proofs.Masking
import Snippet.Proofs.SpanNesting

/-!
# Loops of a program in braces

A program in a language with braces is rendered from its statements (`Code.render`): simple
statements, blocks, blocks behind `if (..)` and `else`, and loops.  The body of a loop may stand in
braces or not, and a `do` loop has its condition behind its block.  Blanks stand wherever one likes.

`Code.nesting_render`: **the nesting that is found is the nesting of the loops, and the reach that
is found for a loop holds the loops in its body and no others**.

The loops are found in three steps.  The program is its own mask (`Code.mask_render`).  In a mask
every header is listed with the end of the statement behind it, and that is where the body of the
loop ends (`Code.statementEnd_render`, `Code.spansAfter_render`).  What the reaches tell about the
loops is then read off the statements (`Code.layout`).
-/

namespace Snippet

open Pattern Place

namespace Braced

variable {language : Language} {left right text : Text}

/-! ### Texts in which nothing opens -/

/-- Blanks between two tokens, or none. -/
structure Gap where
  text : Text
  isBlank_of_mem : ∀ c ∈ text, isBlank c = true

def Gap.empty : Gap := ⟨[], by decide⟩

def Gap.space : Gap := ⟨[' '], by decide⟩

theorem for_mem_loopWords : "for" ∈ loopWords := by decide

theorem while_mem_loopWords : "while" ∈ loopWords := by decide

/-- Code in which no block, no literal and no comment opens, without the words of loops. -/
structure Stretch (language : Language) where
  text : Text
  ne_brace : ∀ c ∈ text, c ≠ '\x7b' ∧ c ≠ '\x7d'
  notMem_quotes : ∀ c ∈ text, c ∉ language.quotes
  no_comment : text.IsChain fun c d => c = '/' → d ≠ '/' ∧ d ≠ '*'
  lacks : text.Lacks headerWords

/-- The code of a statement in front of its semicolon. -/
structure Simple (language : Language) extends Stretch language where
  semicolon_notMem : ';' ∉ text

/-- What stands in parentheses behind the word of a loop. -/
structure Header (language : Language) extends Stretch language where
  gap : Gap
  balanced : Bracket.round.Balanced text

/-- A header with its word. -/
def Header.render (word : String) (header : Header language) : Text :=
  headerText word header.gap.text header.text

theorem Header.length_render_pos (word : String) (header : Header language) :
    0 < (header.render word).length := by
  simp [render, headerText]

/-- What stands in front of a block that is run on a condition, or else. -/
inductive Head (language : Language) where
  | branch (condition : Header language)
  | otherwise

def Head.render : Head language → Text
  | branch condition => condition.render "if"
  | otherwise => "else".toList

/-- The places in which code stands. The body of a loop is one statement, a program any number of
them. -/
inductive Part where
  | body
  | program

/-- The statements of a program. -/
inductive Code (language : Language) : Part → Type where
  | simple (code : Simple language) : Code language .body
  | block (inside : Code language .program) : Code language .body
  | loop (word : String) (mem_loopWords : word ∈ loopWords) (header : Header language) (gap : Gap)
      (body : Code language .body) : Code language .body
  | doLoop (gap : Gap) (inside : Code language .program) (gap' : Gap) (condition : Header language)
      (gap'' : Gap) : Code language .body
  | done (gap : Gap) : Code language .program
  | step (gap : Gap) (first : Code language .body) (rest : Code language .program) :
      Code language .program
  | headed (lead : Gap) (head : Head language) (gap : Gap) (inside rest : Code language .program) :
      Code language .program

namespace Code

/-- The text of a program. -/
def render : {part : Part} → Code language part → Text
  | _, simple code => code.text ++ [';']
  | _, block inside => '\x7b' :: (inside.render ++ ['\x7d'])
  | _, loop word _ header gap body => header.render word ++ (gap.text ++ body.render)
  | _, doLoop gap inside gap' condition gap'' =>
    "do".toList ++ gap.text ++ '\x7b' :: (inside.render ++ '\x7d' ::
      (gap'.text ++ (condition.render "while" ++ (gap''.text ++ [';']))))
  | _, done gap => gap.text
  | _, step gap first rest => gap.text ++ (first.render ++ rest.render)
  | _, headed lead head gap inside rest =>
    lead.text ++ (head.render ++ (gap.text ++ '\x7b' :: (inside.render ++ '\x7d' :: rest.render)))

/-- How deep the loops of a program are nested. -/
def depth : {part : Part} → Code language part → Nat
  | _, simple _ => 0
  | _, block inside => inside.depth
  | _, loop _ _ _ _ body => body.depth + 1
  | _, doLoop _ inside _ _ _ => inside.depth + 1
  | _, done _ => 0
  | _, step _ first rest => max first.depth rest.depth
  | _, headed _ _ _ inside rest => max inside.depth rest.depth

/-- How far a statement reaches as the body of a loop. The condition of a `do` loop is left out. -/
def reach : {part : Part} → Code language part → Nat
  | _, loop word _ header gap body => (header.render word).length + gap.text.length + body.reach
  | _, doLoop gap inside _ _ _ => 2 + gap.text.length + inside.render.length + 2
  | _, code => code.render.length

/-- The loops of a program that starts at `base`, in the order of their headers. -/
def loops (base : Nat) : {part : Part} → Code language part → List Loop
  | _, simple _ => []
  | _, block inside => inside.loops (base + 1)
  | _, loop word _ header gap body =>
    let place := base + (header.render word).length + gap.text.length
    ⟨base, place + body.reach, (body.loops place).map Loop.start⟩ :: body.loops place
  | _, doLoop gap inside _ _ _ =>
    let place := base + 2 + gap.text.length + 1
    ⟨base, place + inside.render.length + 1, (inside.loops place).map Loop.start⟩ ::
      inside.loops place
  | _, done _ => []
  | _, step gap first rest =>
    let place := base + gap.text.length
    first.loops place ++ rest.loops (place + first.render.length)
  | _, headed lead head gap inside rest =>
    let place := base + lead.text.length + head.render.length + gap.text.length + 1
    inside.loops place ++ rest.loops (place + inside.render.length + 1)

/-- The reaches that are found in a program that starts at `base`: those of its loops, and the
conditions of `do` loops. -/
def spans (base : Nat) : {part : Part} → Code language part → List (Nat × Nat)
  | _, simple _ => []
  | _, block inside => inside.spans (base + 1)
  | _, loop word _ header gap body =>
    let place := base + (header.render word).length + gap.text.length
    (base, place + body.reach) :: body.spans place
  | _, doLoop gap inside gap' condition gap'' =>
    let place := base + 2 + gap.text.length + 1
    let stop := place + inside.render.length + 1
    let again := stop + gap'.text.length
    (base, stop) :: inside.spans place ++
      [(again, again + (condition.render "while").length + gap''.text.length + 1)]
  | _, done _ => []
  | _, step gap first rest =>
    let place := base + gap.text.length
    first.spans place ++ rest.spans (place + first.render.length)
  | _, headed lead head gap inside rest =>
    let place := base + lead.text.length + head.render.length + gap.text.length + 1
    inside.spans place ++ rest.spans (place + inside.render.length + 1)

/-! ### What the reaches tell -/

variable {part : Part}

theorem reach_le (code : Code language part) : code.reach ≤ code.render.length := by
  induction code with
  | loop word _ header gap body ih =>
    simp only [reach, render, List.length_append]
    omega
  | doLoop gap inside gap' condition gap'' =>
    simp [reach, render]
    omega
  | _ => exact le_rfl

/-- **The reaches of a program tell the nesting of its loops.** Every loop starts before the end of
the statement that holds it. -/
theorem layout (code : Code language part) (base : Nat) :
    Layout base (base + code.render.length) code.depth (code.loops base) (code.spans base) ∧
      ∀ loop ∈ code.loops base, loop.start < base + code.reach := by
  induction code generalizing base with
  | simple code => exact ⟨.empty (by omega), by simp [loops]⟩
  | block inside ih =>
    obtain ⟨hl, -⟩ := ih (base + 1)
    have hlength : (block inside).render.length = inside.render.length + 2 := by simp [render]
    have hlayout := hl.widen (Nat.le_succ base)
      (show _ ≤ base + (block inside).render.length by omega)
    exact ⟨hlayout, fun loop hm => (hlayout.within_of_mem_starts (List.mem_map_of_mem hm)).2⟩
  | loop word hword header gap body ih =>
    obtain ⟨hl, hs⟩ := ih (base + (header.render word).length + gap.text.length)
    have hlength : (loop word hword header gap body).render.length =
        (header.render word).length + gap.text.length + body.render.length := by
      simp [render, Nat.add_assoc]
    have hreach := body.reach_le
    have hpos := header.length_render_pos word
    refine ⟨hl.nest (by omega) (by omega) hs (by omega) (by omega), ?_⟩
    refine List.forall_mem_cons.mpr ⟨by rw [reach]; dsimp only; omega, fun loop hm => ?_⟩
    have := hs loop hm
    rw [reach]
    omega
  | doLoop gap inside gap' condition gap'' ih =>
    obtain ⟨hl, -⟩ := ih (base + 2 + gap.text.length + 1)
    have hlength : (doLoop gap inside gap' condition gap'').render.length =
        2 + gap.text.length + inside.render.length + 2 + gap'.text.length +
          (condition.render "while").length + gap''.text.length + 1 := by
      simp [render]
      omega
    have hpos := condition.length_render_pos "while"
    have hinside : ∀ loop ∈ inside.loops (base + 2 + gap.text.length + 1), _ := fun loop hm =>
      hl.within_of_mem_starts (List.mem_map_of_mem hm)
    constructor
    · have hnest := hl.nest (show base < _ by omega) (Nat.le_add_right _ (inside.render.length + 1))
        (fun loop hm => by have := hinside loop hm; omega) (Nat.le_succ _) le_rfl
      exact hnest.condition (Nat.succ_pos _) (Nat.le_add_right _ gap'.text.length) (by omega)
        (by omega)
    · refine List.forall_mem_cons.mpr ⟨by rw [reach]; dsimp only; omega, fun loop hm => ?_⟩
      have := hinside loop hm
      rw [reach]
      omega
  | done gap => exact ⟨.empty (by omega), by simp [loops]⟩
  | step gap first rest ihFirst ihRest =>
    obtain ⟨hf, -⟩ := ihFirst (base + gap.text.length)
    obtain ⟨hr, -⟩ := ihRest (base + gap.text.length + first.render.length)
    have hlength : (step gap first rest).render.length =
        gap.text.length + first.render.length + rest.render.length := by
      simp [render, Nat.add_assoc]
    have hlayout := (hf.append hr).widen (Nat.le_add_right base _)
      (show _ ≤ base + (step gap first rest).render.length by omega)
    exact ⟨hlayout, fun loop hm => (hlayout.within_of_mem_starts (List.mem_map_of_mem hm)).2⟩
  | headed lead head gap inside rest ihInside ihRest =>
    obtain ⟨hi, -⟩ := ihInside (base + lead.text.length + head.render.length + gap.text.length + 1)
    obtain ⟨hr, -⟩ := ihRest (base + lead.text.length + head.render.length + gap.text.length + 1 +
      inside.render.length + 1)
    have hlength : (headed lead head gap inside rest).render.length =
        lead.text.length + head.render.length + gap.text.length + 1 + inside.render.length + 1 +
          rest.render.length := by
      simp [render]
      omega
    have hlayout := ((hi.widen le_rfl (Nat.le_succ _)).append hr).widen (show base ≤ _ by omega)
      (show _ ≤ base + (headed lead head gap inside rest).render.length by omega)
    exact ⟨hlayout, fun loop hm => (hlayout.within_of_mem_starts (List.mem_map_of_mem hm)).2⟩

end Code

/-! ### Its mask -/

/-- The mask shows the text as it is, whatever stands behind it. -/
def Shows (language : Language) (text : Text) : Prop :=
  ∀ rest, language.mask (text ++ rest) = text ++ language.mask rest

theorem Shows.append {more : Text} (h : Shows language text) (h' : Shows language more) :
    Shows language (text ++ more) := by
  intro rest
  rw [List.append_assoc, h, h', List.append_assoc]

theorem shows_of_plain (h : ∀ c ∈ text, isPlain c = true) : Shows language text :=
  language.mask_append_of_plain h

theorem Gap.shows (gap : Gap) : Shows language gap.text :=
  shows_of_plain fun c hc => isPlain_of_isBlank (gap.isBlank_of_mem c hc)

theorem commentOpener_eq (hl : language.usesBraces = true) :
    language.commentOpener = ['/', '/'] := by
  cases language
  case python => cases hl
  all_goals rfl

/-- **Code in front of a character that continues no comment opener.** -/
theorem shows_snoc (hl : language.usesBraces = true) (hq : ∀ c ∈ text, c ∉ language.quotes)
    (hn : text.IsChain fun c d => c = '/' → d ≠ '/' ∧ d ≠ '*') {c : Char}
    (hc : isPlain c = true) (hs : c ≠ '*') : Shows language (text ++ [c]) := by
  intro rest
  have hslash : c ≠ '/' := by
    rintro rfl
    cases hc
  have hopens : language.OpensNothing text (c :: rest) := by
    intro front d back htext
    -- the character behind `d` is in the text, or it is `c`
    have hnext : ∀ e more, back ++ c :: rest = e :: more → d = '/' → e ≠ '/' ∧ e ≠ '*' := by
      intro e more hcut hd
      cases back with
      | nil =>
        cases hcut
        exact ⟨hslash, hs⟩
      | cons f back =>
        cases hcut
        rw [htext, List.isChain_append] at hn
        exact (List.isChain_cons_cons.mp hn.2.1).1 hd
    have hfirst : ∀ e, e = '/' ∨ e = '*' →
        ['/', e].isPrefixOf (d :: (back ++ c :: rest)) = false := by
      intro e he
      rw [← Bool.not_eq_true, List.isPrefixOf_iff_prefix]
      rintro ⟨more, hcut⟩
      obtain ⟨hd, hcut⟩ := List.cons.inj hcut
      have := hnext e more hcut.symm hd.symm
      tauto
    refine ⟨hq d (by rw [htext]; simp), ?_, ?_⟩
    · rw [commentOpener_eq hl]
      exact hfirst '/' (Or.inl rfl)
    · rw [hfirst '*' (Or.inr rfl), Bool.and_false]
  rw [List.append_assoc, List.singleton_append, Language.mask_code_append hopens,
    language.mask_cons_of_isPlain hc, List.append_assoc]
  rfl

theorem Stretch.shows (hl : language.usesBraces = true) (stretch : Stretch language) {c : Char}
    (hc : isPlain c = true) (hs : c ≠ '*') : Shows language (stretch.text ++ [c]) :=
  shows_snoc hl stretch.notMem_quotes stretch.no_comment hc hs

theorem shows_headerText {s : String} (hs : ∀ c ∈ s.toList, isPlain c = true)
    (hl : language.usesBraces = true) (gap : Gap) (inside : Stretch language) :
    Shows language (headerText s gap.text inside.text) := by
  have hopen : Shows language ['('] := shows_of_plain (by decide)
  have hinside := inside.shows hl (show isPlain ')' = true by decide) (by decide)
  have hshows := (shows_of_plain hs).append (gap.shows.append (hopen.append hinside))
  exact hshows

theorem Head.shows (hl : language.usesBraces = true) (head : Head language) :
    Shows language head.render := by
  cases head with
  | branch condition => exact shows_headerText (by decide) hl condition.gap condition.toStretch
  | otherwise => exact shows_of_plain (show ∀ c ∈ "else".toList, isPlain c = true by decide)

namespace Code

variable {part : Part}

/-- **A program is its own mask.** -/
theorem shows_render (hl : language.usesBraces = true) (code : Code language part) :
    Shows language code.render := by
  have hbrace : Shows language ['\x7b'] := shows_of_plain (by decide)
  have hbrace' : Shows language ['\x7d'] := shows_of_plain (by decide)
  induction code with
  | simple code => exact code.shows hl (by decide) (by decide)
  | block inside ih => exact hbrace.append (ih.append hbrace')
  | loop word hword header gap body ih =>
    have hplain : ∀ s ∈ loopWords, ∀ c ∈ s.toList, isPlain c = true := by decide
    exact (shows_headerText (hplain word hword) hl header.gap header.toStretch).append
      (gap.shows.append ih)
  | doLoop gap inside gap' condition gap'' ih =>
    have hdo : Shows language "do".toList := shows_of_plain (by decide)
    have hwhile := shows_headerText (show ∀ c ∈ "while".toList, isPlain c = true by decide) hl
      condition.gap condition.toStretch
    have hend : Shows language [';'] := shows_of_plain (by decide)
    exact (hdo.append gap.shows).append (hbrace.append (ih.append (hbrace'.append
      (gap'.shows.append (hwhile.append (gap''.shows.append hend))))))
  | done gap => exact gap.shows
  | step gap first rest ihFirst ihRest => exact gap.shows.append (ihFirst.append ihRest)
  | headed lead head gap inside rest ihInside ihRest =>
    exact lead.shows.append ((head.shows hl).append (gap.shows.append
      (hbrace.append (ihInside.append (hbrace'.append ihRest)))))

theorem mask_render (hl : language.usesBraces = true) (code : Code language part) :
    language.mask code.render = code.render := by
  have hm := code.shows_render hl []
  rwa [List.append_nil, language.mask_nil, List.append_nil] at hm

end Code

/-! ### Its braces -/

theorem Gap.balanced (gap : Gap) : Bracket.curly.Balanced gap.text := by
  refine Bracket.balanced_of_forall fun c hc => ?_
  have hb := gap.isBlank_of_mem c hc
  exact ⟨ne_of_isBlank hb (by decide), ne_of_isBlank hb (by decide)⟩

theorem Stretch.balanced (stretch : Stretch language) : Bracket.curly.Balanced stretch.text :=
  Bracket.balanced_of_forall stretch.ne_brace

theorem balanced_headerText {s : String} (hs : Bracket.curly.Balanced s.toList) (gap : Gap)
    (inside : Stretch language) : Bracket.curly.Balanced (headerText s gap.text inside.text) := by
  have hopen : Bracket.curly.Balanced ['('] := by decide
  have hclose : Bracket.curly.Balanced [')'] := by decide
  exact hs.append (gap.balanced.append (hopen.append (inside.balanced.append hclose)))

theorem Head.balanced (head : Head language) : Bracket.curly.Balanced head.render := by
  cases head with
  | branch condition => exact balanced_headerText (by decide) condition.gap condition.toStretch
  | otherwise => exact (by decide : Bracket.curly.Balanced "else".toList)

/-- **A program closes its braces.** -/
theorem Code.balanced_render {part : Part} (code : Code language part) :
    Bracket.curly.Balanced code.render := by
  induction code with
  | simple code => exact code.balanced.append (by decide)
  | block inside ih => exact ih.wrap Bracket.balanced_nil
  | loop word hword header gap body ih =>
    have hwords : ∀ s ∈ loopWords, Bracket.curly.Balanced s.toList := by decide
    exact (balanced_headerText (hwords word hword) header.gap header.toStretch).append
      (gap.balanced.append ih)
  | doLoop gap inside gap' condition gap'' ih =>
    have hdo : Bracket.curly.Balanced "do".toList := by decide
    have hwhile := balanced_headerText (show Bracket.curly.Balanced "while".toList by decide)
      condition.gap condition.toStretch
    have hend : Bracket.curly.Balanced [';'] := by decide
    exact (hdo.append gap.balanced).append
      (ih.wrap (gap'.balanced.append (hwhile.append (gap''.balanced.append hend))))
  | done gap => exact gap.balanced
  | step gap first rest ihFirst ihRest => exact gap.balanced.append (ihFirst.append ihRest)
  | headed lead head gap inside rest ihInside ihRest =>
    exact lead.balanced.append (head.balanced.append (gap.balanced.append (ihInside.wrap ihRest)))

/-! ### Its headers -/

/-- No word goes on behind the text. -/
def Stops (text : Text) : Prop := text.getLast?.any isWord = false

theorem Stops.append {more : Text} (h : Stops text) (h' : Stops more) : Stops (text ++ more) := by
  by_cases hm : more = []
  · rwa [hm, List.append_nil]
  · rwa [Stops, List.getLast?_append_of_ne_nil _ hm]

theorem stops_snoc {c : Char} (hc : isWord c = false) (text : Text) : Stops (text ++ [c]) := by
  rwa [Stops, List.getLast?_concat, Option.any_some]

theorem stops_braces (left inside : Text) : Stops (left ++ '\x7b' :: (inside ++ ['\x7d'])) := by
  have hstops := stops_snoc (show isWord '\x7d' = false by decide) (left ++ '\x7b' :: inside)
  rwa [List.append_assoc] at hstops

theorem Gap.notMem (gap : Gap) {c : Char} (hc : isBlank c = false) : c ∉ gap.text := fun h =>
  ne_of_isBlank (gap.isBlank_of_mem c h) hc rfl

theorem Gap.isWord_of_mem (gap : Gap) : ∀ c ∈ gap.text, isWord c = false := fun c hc =>
  isWord_of_isBlank (gap.isBlank_of_mem c hc)

theorem Gap.stops (gap : Gap) : Stops gap.text := by
  rw [Stops]
  cases hlast : gap.text.getLast? with
  | none => rfl
  | some c => exact gap.isWord_of_mem c (List.mem_of_getLast? hlast)

theorem Gap.lacks (gap : Gap) : gap.text.Lacks headerWords :=
  Text.lacks_of_forall gap.isWord_of_mem fun word hw => (isWord_of_mem_headerWords word hw).1

theorem Gap.any_head?_append (gap : Gap) {c : Char} (hc : isWord c = false) (rest : Text) :
    (gap.text ++ c :: rest).head?.any isWord = false := by
  cases hg : gap.text with
  | nil => exact hc
  | cons d more => exact gap.isWord_of_mem d (by rw [hg]; exact List.mem_cons_self)

theorem Head.lacks (head : Head language) : head.render.Lacks headerWords := by
  cases head with
  | branch condition =>
    have hopen : Text.Lacks ['('] headerWords := by decide
    have hif : Text.Lacks "if".toList headerWords := by decide
    have hinside : Text.Lacks (condition.text ++ [')']) headerWords :=
      condition.lacks.append (by decide) (Or.inr rfl)
    have hround := condition.gap.lacks.append (hopen.append hinside (Or.inl rfl))
      (Or.inl condition.gap.stops)
    exact hif.append hround (Or.inr (condition.gap.any_head?_append (by decide) _))
  | otherwise => exact (by decide : Text.Lacks "else".toList headerWords)

theorem Header.stops_render (word : String) (header : Header language) :
    Stops (header.render word) := by
  have hstops := stops_snoc (show isWord ')' = false by decide)
    (word.toList ++ (header.gap.text ++ '(' :: header.text))
  rw [Header.render, headerText]
  simpa using hstops

theorem spansAfter_gap (gap : Gap) (left right : Text) :
    spansAfter left (gap.text ++ right) = spansAfter (left ++ gap.text) right :=
  spansAfter_lacks gap.lacks (Or.inl gap.stops) left

theorem spansAfter_cons {c : Char} (hc : isWord c = false) (left right : Text) :
    spansAfter left (c :: right) = spansAfter (left ++ [c]) right := by
  have hlacks : Text.Lacks [c] headerWords :=
    Text.lacks_of_forall (by simpa using hc) fun word hw => (isWord_of_mem_headerWords word hw).1
  exact spansAfter_lacks hlacks (Or.inl hc) left

theorem Header.statementEnd_render {word : String} (hword : word ∈ loopWords)
    (header : Header language) (lead : Gap) (hl : Stops left) (right : Text) :
    statementEnd (between left (lead.text ++ (header.render word ++ right))) =
      statementEnd (between (left ++ lead.text ++ header.render word) right) :=
  statementEnd_headed hword header.balanced header.gap.isBlank_of_mem lead.isBlank_of_mem
    (hl.append lead.stops) right

theorem Header.spansAfter_render {word : String} (hword : word ∈ loopWords)
    (header : Header language) (hl : Stops left) (right : Text) :
    spansAfter left (header.render word ++ right) =
      (left.length, statementEnd (between (left ++ header.render word) right)) ::
        spansAfter (left ++ header.render word) right :=
  spansAfter_headed hword header.balanced header.gap.isBlank_of_mem hl header.lacks right

theorem Head.spansAfter_render (head : Head language) (gap : Gap) (left right : Text) :
    spansAfter left (head.render ++ (gap.text ++ '\x7b' :: right)) =
      spansAfter (left ++ head.render) (gap.text ++ '\x7b' :: right) :=
  spansAfter_lacks head.lacks (Or.inr (gap.any_head?_append (by decide) right)) left

theorem Header.spansAfter_condition (condition : Header language) (gap : Gap) (hl : Stops left)
    (right : Text) :
    spansAfter left (condition.render "while" ++ (gap.text ++ ';' :: right)) =
      (left.length, left.length + (condition.render "while").length + gap.text.length + 1) ::
        spansAfter (left ++ condition.render "while" ++ gap.text ++ [';']) right := by
  rw [condition.spansAfter_render (by decide) hl,
    statementEnd_semicolon (gap.notMem (by decide)) (gap.notMem (by decide)) gap.lacks,
    spansAfter_gap, spansAfter_cons (by decide), List.length_append]

namespace Code

variable {part : Part}

theorem stops_render (code : Code language part) : Stops code.render := by
  induction code with
  | simple code => exact stops_snoc (by decide) _
  | block inside => exact stops_braces [] inside.render
  | loop word _ header gap body ih => exact (header.stops_render word).append (gap.stops.append ih)
  | doLoop gap inside gap' condition gap'' =>
    have hstops := stops_snoc (show isWord ';' = false by decide) ("do".toList ++ gap.text ++
      '\x7b' :: (inside.render ++ '\x7d' ::
        (gap'.text ++ (condition.render "while" ++ gap''.text))))
    simpa [render] using hstops
  | done gap => exact gap.stops
  | step gap first rest ihFirst ihRest => exact gap.stops.append (ihFirst.append ihRest)
  | headed lead head gap inside rest _ ihRest =>
    have hstops :=
      (stops_braces (lead.text ++ (head.render ++ gap.text)) inside.render).append ihRest
    simpa [render] using hstops

theorem statementEnd_braces (inside : Code language .program) (left right : Text) :
    statementEnd (between left ('\x7b' :: (inside.render ++ '\x7d' :: right))) =
      left.length + inside.render.length + 2 := by
  have hgap : ∀ c ∈ ([] : Text), isBlank c = true := by simp
  exact statementEnd_block hgap inside.balanced_render left right

/-- **A statement ends where it reaches to.** -/
theorem statementEnd_render (code : Code language part) (hp : part = .body) (lead : Gap)
    (hl : Stops left) (right : Text) :
    statementEnd (between left (lead.text ++ (code.render ++ right))) =
      left.length + lead.text.length + code.reach := by
  induction code generalizing left lead right with
  | simple code =>
    have hbrace : '\x7b' ∉ lead.text ++ code.text := fun h =>
      (List.mem_append.mp h).elim (lead.notMem (by decide)) fun hc => (code.ne_brace _ hc).1 rfl
    have hsemicolon : ';' ∉ lead.text ++ code.text := fun h =>
      (List.mem_append.mp h).elim (lead.notMem (by decide)) code.semicolon_notMem
    have hlacks := lead.lacks.append code.lacks (Or.inl lead.stops)
    have hend := statementEnd_semicolon hbrace hsemicolon hlacks left right
    simpa [render, reach, Nat.add_assoc] using hend
  | block inside =>
    have hend := statementEnd_block lead.isBlank_of_mem inside.balanced_render left right
    simpa [render, reach, Nat.add_assoc] using hend
  | loop word hword header gap body ih =>
    have hstops : Stops (left ++ lead.text ++ header.render word) :=
      (hl.append lead.stops).append (header.stops_render word)
    have hend := ih hp gap hstops right
    rw [render, List.append_assoc, List.append_assoc, header.statementEnd_render hword lead hl,
      hend, reach, List.length_append, List.length_append]
    omega
  | doLoop gap inside gap' condition gap'' =>
    have hend := statementEnd_do lead.isBlank_of_mem (hl.append lead.stops) gap.isBlank_of_mem
      (inside.render ++ '\x7d' ::
        (gap'.text ++ (condition.render "while" ++ (gap''.text ++ [';'])) ++ right))
    rw [statementEnd_braces] at hend
    simp only [render, reach, List.append_assoc, List.cons_append] at hend ⊢
    rw [hend]
    simp only [List.length_append, show "do".toList.length = 2 from rfl]
    omega
  | _ => cases hp

theorem spansAfter_braces {inside : Code language .program}
    (h : ∀ {left}, Stops left → ∀ right, spansAfter left (inside.render ++ right) =
      inside.spans left.length ++ spansAfter (left ++ inside.render) right) (left right : Text) :
    spansAfter left ('\x7b' :: (inside.render ++ '\x7d' :: right)) =
      inside.spans (left.length + 1) ++
        spansAfter (left ++ '\x7b' :: (inside.render ++ ['\x7d'])) right := by
  rw [spansAfter_cons (by decide), h (stops_snoc (by decide) left), spansAfter_cons (by decide)]
  simp

/-- **The reaches in a text are those of the program in front of it and those of the rest.** -/
theorem spansAfter_render (code : Code language part) (hl : Stops left) (right : Text) :
    spansAfter left (code.render ++ right) =
      code.spans left.length ++ spansAfter (left ++ code.render) right := by
  induction code generalizing left right with
  | simple code =>
    have hlacks : Text.Lacks (code.text ++ [';']) headerWords :=
      code.lacks.append (by decide) (Or.inr rfl)
    exact spansAfter_lacks hlacks (Or.inl (stops_snoc (by decide) _)) left
  | block inside ih =>
    rw [render, List.cons_append, List.append_assoc, List.singleton_append, spansAfter_braces ih,
      spans]
  | loop word hword header gap body ih =>
    have hstops : Stops (left ++ header.render word) := hl.append (header.stops_render word)
    have hend := body.statementEnd_render rfl gap hstops right
    rw [render, List.append_assoc, List.append_assoc, header.spansAfter_render hword hl, hend,
      spansAfter_gap, ih (hstops.append gap.stops), spans]
    simp [Nat.add_assoc]
  | doLoop gap inside gap' condition gap'' ih =>
    have hstops := stops_braces (left ++ ("do".toList ++ gap.text)) inside.render
    have hspans := spansAfter_do hl gap.isBlank_of_mem (inside.render ++ '\x7d' ::
      (gap'.text ++ (condition.render "while" ++ (gap''.text ++ ';' :: right))))
    rw [statementEnd_braces, spansAfter_braces ih, spansAfter_gap,
      condition.spansAfter_condition gap'' (hstops.append gap'.stops)] at hspans
    have hrender : (doLoop gap inside gap' condition gap'').render ++ right =
        "do".toList ++ gap.text ++ '\x7b' :: (inside.render ++ '\x7d' ::
          (gap'.text ++ (condition.render "while" ++ (gap''.text ++ ';' :: right)))) := by
      simp [render]
    have hopen : (left ++ ("do".toList ++ gap.text)).length =
        left.length + 2 + gap.text.length := by
      simp
      omega
    have hplace : (left ++ ("do".toList ++ gap.text) ++ '\x7b' :: (inside.render ++ ['\x7d']) ++
        gap'.text).length =
          left.length + 2 + gap.text.length + 1 + inside.render.length + 1 + gap'.text.length := by
      simp
      omega
    have hstop : left.length + 2 + gap.text.length + inside.render.length + 2 =
        left.length + 2 + gap.text.length + 1 + inside.render.length + 1 := by omega
    rw [hrender, hspans, hopen, hplace, hstop, spans]
    simp [render]
  | done gap => exact spansAfter_gap gap left right
  | step gap first rest ihFirst ihRest =>
    have hstops : Stops (left ++ gap.text) := hl.append gap.stops
    rw [render, List.append_assoc, List.append_assoc, spansAfter_gap, ihFirst hstops,
      ihRest (hstops.append first.stops_render)]
    simp [spans, Nat.add_assoc]
  | headed lead head gap inside rest ihInside ihRest =>
    have hstops := stops_braces (left ++ lead.text ++ head.render ++ gap.text) inside.render
    have hplace : (left ++ lead.text ++ head.render ++ gap.text).length =
        left.length + lead.text.length + head.render.length + gap.text.length := by
      simp
      omega
    have hplace' : (left ++ lead.text ++ head.render ++ gap.text ++
        '\x7b' :: (inside.render ++ ['\x7d'])).length = left.length + lead.text.length +
          head.render.length + gap.text.length + 1 + inside.render.length + 1 := by
      simp
      omega
    have hrender : (headed lead head gap inside rest).render ++ right =
        lead.text ++ (head.render ++ (gap.text ++
          '\x7b' :: (inside.render ++ '\x7d' :: (rest.render ++ right)))) := by
      simp [render]
    rw [hrender, spansAfter_gap, head.spansAfter_render gap, spansAfter_gap,
      spansAfter_braces ihInside, ihRest hstops, hplace, hplace', spans]
    simp [render]

/-- **The nesting of loops that is found is that of the program**, and a reach that is found for a
loop holds the loops in its body and no others. -/
theorem nesting_render (hl : language.usesBraces = true) (program : Code language .program) :
    language.loopDepth program.render = program.depth ∧
      ∀ loop ∈ program.loops 0,
        (∀ stop, (loop.start, stop) ∈ loopSpans (language.mask program.render) ↔ stop = loop.stop) ∧
        ∀ other ∈ program.loops 0,
          loop.start < other.start ∧ other.start < loop.stop ↔ other.start ∈ loop.inner := by
  have hspans : loopSpans (language.mask program.render) = program.spans 0 := by
    have hafter : spansAfter [] (program.render ++ []) = _ :=
      program.spansAfter_render (show Stops [] from rfl) []
    rw [List.append_nil] at hafter
    rw [program.mask_render hl, loopSpans_eq_spansAfter, hafter]
    exact List.append_nil _
  obtain ⟨hlayout, -⟩ := program.layout 0
  rw [Language.loopDepth, Language.loopDepthOfMask, if_pos hl, hspans]
  refine ⟨hlayout.depth_eq, fun loop hm => ⟨fun stop => hlayout.mem_spans_iff hm, ?_⟩⟩
  intro other hm'
  rw [hlayout.mem_inner loop hm, and_iff_right (List.mem_map_of_mem hm')]

end Code

/-- A program with a loop of each kind: `for (;;) do { while (a) x; } while (b);` -/
def nestedLoops : Code .java .program :=
  let no : Gap := ⟨[], by decide⟩
  let blank : Gap := ⟨[' '], by decide⟩
  let x : Simple .java := ⟨⟨['x'], by decide, by decide, by decide, by decide⟩, by decide⟩
  let a : Header .java := ⟨⟨['a'], by decide, by decide, by decide, by decide⟩, blank, by decide⟩
  let b : Header .java := ⟨⟨['b'], by decide, by decide, by decide, by decide⟩, blank, by decide⟩
  let ever : Header .java :=
    ⟨⟨[';', ';'], by decide, by decide, by decide, by decide⟩, blank, by decide⟩
  let innermost := .step blank (.loop "while" (by decide) a blank (.simple x)) (.done blank)
  .step no (.loop "for" (by decide) ever blank (.doLoop blank innermost blank b no)) (.done no)

/-- The `do` loop starts at position 9 and reaches behind its block, and the `while` loop is in
it. -/
theorem Code.nesting_render_nestedLoops :
    Language.java.usesBraces = true ∧
      Language.java.loopDepth "for (;;) do { while (a) x; } while (b);".toList = 3 ∧
      (∀ stop, (9, stop) ∈
          loopSpans (Language.java.mask "for (;;) do { while (a) x; } while (b);".toList) ↔
        stop = 28) ∧
      ∀ other ∈ nestedLoops.loops 0, 9 < other.start ∧ other.start < 28 ↔ other.start ∈ [14] := by
  have h := nesting_render (show Language.java.usesBraces = true from rfl) nestedLoops
  have hdo : ⟨9, 28, [14]⟩ ∈ nestedLoops.loops 0 := List.mem_cons_of_mem _ List.mem_cons_self
  exact ⟨rfl, h.1, h.2 _ hdo⟩

end Braced

end Snippet
