import Snippet.Language.Marks
import Snippet.Proofs.Search

/-!
# Whole words

The words of a text are its longest runs of word characters. Most marks of a program are patterns
that start at an edge, spell out a word and go on with something that is no word character; what
they describe is therefore a whole word of the text. `Needs pattern options` says that wherever the
pattern fits, one of the words in `options` is a word of the text, and `occursIn_eq_false_of_needs`
turns that into the form that is used: a text without these words does not have the mark.
`Opens pattern options` says the same of a pattern that starts with its word, and where.

The words of a text are known from its parts (`words_append_cons`), whatever the names in it are.
-/

namespace Snippet

/-! ### Deciding by the characters of a text -/

section

variable (p : Char → Prop) [DecidablePred p] (text : Text)

-- without these, some statements would be decided by going through all characters there are
instance decidableForallMem : Decidable (∀ c ∈ text, p c) := List.decidableBAll p text

instance decidableExistsMem : Decidable (∃ c ∈ text, p c) := List.decidableBEx p text

end

/-! ### Blank characters are no word characters -/

/-- The blank characters beyond ASCII. -/
def wideBlanks : List Nat :=
  [0x85, 0xA0, 0x1680, 0x2000, 0x2001, 0x2002, 0x2003, 0x2004, 0x2005, 0x2006, 0x2007, 0x2008,
    0x2009, 0x200A, 0x2028, 0x2029, 0x202F, 0x205F, 0x3000]

theorem contains_wordTree_of_mem_wideBlanks : ∀ n ∈ wideBlanks, wordTree.contains n = false := by
  decide +kernel

theorem mem_wideBlanks {c : Char} (h : isBlank c = true) (hc : ¬ c.toNat < 128) :
    c.toNat ∈ wideBlanks := by
  simp only [isBlank, hc, if_false, Bool.or_eq_true, Bool.and_eq_true, beq_iff_eq,
    decide_eq_true_eq] at h
  simp only [wideBlanks, List.mem_cons, List.not_mem_nil, or_false]
  omega

theorem lt_of_isAlphanum {c : Char} (h : c.isAlphanum = true) : 32 < c.toNat := by
  unfold Char.isAlphanum Char.isAlpha Char.isUpper Char.isLower Char.isDigit at h
  simp only [Bool.or_eq_true, Bool.and_eq_true, decide_eq_true_eq, UInt32.le_iff_toNat_le,
    ge_iff_le] at h
  have hc : c.toNat = c.val.toNat := rfl
  have hA : 'A'.val.toNat = 65 := rfl
  have ha : 'a'.val.toNat = 97 := rfl
  have h0 : '0'.val.toNat = 48 := rfl
  omega

/-- **A blank character is no word character.** -/
theorem isWord_of_isBlank {c : Char} (h : isBlank c = true) : isWord c = false := by
  rw [isWord]
  split
  next hc =>
    simp only [isBlank, hc, if_true, Bool.or_eq_true, Bool.and_eq_true, decide_eq_true_eq] at h
    have hl : c.toNat ≤ 32 := by omega
    rw [Bool.or_eq_false_iff, beq_eq_false_iff_ne]
    constructor
    · rw [← Bool.not_eq_true]
      intro ha
      have := lt_of_isAlphanum ha
      omega
    · rintro rfl
      exact absurd hl (by decide)
  next hc => exact contains_wordTree_of_mem_wideBlanks _ (mem_wideBlanks h hc)

theorem ne_of_isWord {c d : Char} (h : isWord c = true) (hd : isWord d = false) : c ≠ d := by
  rintro rfl
  rw [h] at hd
  cases hd

theorem ne_of_isBlank {c d : Char} (h : isBlank c = true) (hd : isBlank d = false) : c ≠ d := by
  rintro rfl
  rw [h] at hd
  cases hd

theorem Text.isBlankText_eq_false {text : Text} {c : Char} (h : c ∈ text)
    (hc : isBlank c = false) : isBlankText text = false := by
  rw [isBlankText, List.all_eq_false]
  exact ⟨c, h, by rw [hc]; decide⟩

/-! ### The words of a text -/

/-- The longest runs of word characters in a text, with an empty one where two other characters
meet. -/
def Text.words (text : Text) : List Text := text.splitOnP (!isWord ·)

namespace Text

theorem words_append_cons (left : Text) {c : Char} (hc : isWord c = false) (right : Text) :
    words (left ++ c :: right) = words left ++ words right :=
  List.splitOnP_append_cons left right (by rw [hc]; rfl)

theorem words_cons {c : Char} (hc : isWord c = false) (right : Text) :
    words (c :: right) = [] :: words right :=
  words_append_cons [] hc right

theorem words_of_forall {word : Text} (h : ∀ c ∈ word, isWord c = true) : words word = [word] :=
  List.splitOnP_eq_singleton fun c hc => by rw [h c hc]; rfl

/-- **Where no word goes on across a cut, the words are those of the two parts.** -/
theorem mem_words_of_append {left right word : Text}
    (hc : left.getLast?.any isWord = false ∨ right.head?.any isWord = false)
    (hw : word ∈ words (left ++ right)) : word ∈ words left ∨ word ∈ words right := by
  rcases hc with hc | hc
  · rcases List.eq_nil_or_concat left with rfl | ⟨front, c, rfl⟩
    · exact Or.inr hw
    · rw [List.concat_eq_append] at hc hw ⊢
      rw [List.getLast?_concat, Option.any_some] at hc
      rw [List.append_assoc, List.singleton_append, words_append_cons front hc] at hw
      rw [words_append_cons front hc]
      rcases List.mem_append.mp hw with hw | hw
      · exact Or.inl (List.mem_append_left _ hw)
      · exact Or.inr hw
  · cases right with
    | nil =>
      rw [List.append_nil] at hw
      exact Or.inl hw
    | cons c right =>
      rw [words_append_cons left hc] at hw
      rw [words_cons hc]
      rcases List.mem_append.mp hw with hw | hw
      · exact Or.inl hw
      · exact Or.inr (List.mem_cons_of_mem _ hw)

theorem mem_words_append {stretch right word : Text} (h : ∀ c ∈ stretch, isWord c = false)
    (hw : word ∈ words (stretch ++ right)) : word = [] ∨ word ∈ words right := by
  induction stretch with
  | nil => exact Or.inr hw
  | cons c stretch ih =>
    obtain ⟨hc, hs⟩ := List.forall_mem_cons.mp h
    rw [List.cons_append, words_cons hc] at hw
    rcases List.mem_cons.mp hw with rfl | hw
    · exact Or.inl rfl
    · exact ih hs hw

/-- **A run of word characters that no word character touches is a word of the text.** -/
theorem mem_words {left word right : Text} (hw : ∀ c ∈ word, isWord c = true)
    (hl : left.getLast?.any isWord = false) (hr : right.head?.any isWord = false) :
    word ∈ words (left ++ (word ++ right)) := by
  have behind : word ∈ words (word ++ right) := by
    cases right with
    | nil => rw [List.append_nil, words_of_forall hw]; exact List.mem_singleton_self word
    | cons d right =>
      rw [words_append_cons word hr, words_of_forall hw]
      exact List.mem_cons_self
  rcases List.eq_nil_or_concat left with rfl | ⟨front, c, rfl⟩
  · exact behind
  · have hc : isWord c = false := by simpa using hl
    rw [List.concat_eq_append, List.append_assoc, List.singleton_append,
      words_append_cons front hc]
    exact List.mem_append_right _ behind

end Text

/-! ### Pieces of the usual patterns -/

namespace Pattern

open Place

variable {pattern first second : Pattern} {left piece right text : Text} {held kept : Groups}

theorem fits_append : (first ++ second).Fits left piece right held kept ↔
    ∃ front back middle, piece = front ++ back ∧ first.Fits left front (back ++ right) held middle ∧
      second.Fits (left ++ front) back right middle kept := Iff.rfl

theorem fits_lit {s : String} :
    (lit s).Fits left piece right held kept ↔ piece = s.toList ∧ kept = held := by
  rw [lit]
  induction s.toList generalizing left piece with
  | nil => exact Iff.rfl
  | cons c tail ih =>
    rw [List.foldr_cons, fits_append]
    constructor
    · rintro ⟨_, back, _, rfl, ⟨⟨d, rfl, hd⟩, rfl⟩, hb⟩
      obtain ⟨rfl, rfl⟩ := ih.mp hb
      rw [beq_iff_eq] at hd
      exact ⟨by rw [hd]; rfl, rfl⟩
    · rintro ⟨rfl, rfl⟩
      exact ⟨[c], tail, kept, rfl, ⟨⟨c, rfl, by simp⟩, rfl⟩, ih.mpr ⟨rfl, rfl⟩⟩

theorem fits_anyCase {s : String} : (anyCase s).Fits left piece right held kept ↔
    List.Forall₂ (fun letter c => isFormOf letter c = true) s.toList piece ∧ kept = held := by
  rw [anyCase]
  induction s.toList generalizing left piece with
  | nil =>
    rw [List.foldr_nil, List.forall₂_nil_left_iff]
    exact Iff.rfl
  | cons letter tail ih =>
    rw [List.foldr_cons, fits_append, List.forall₂_cons_left_iff]
    constructor
    · rintro ⟨_, back, _, rfl, ⟨⟨c, rfl, hc⟩, rfl⟩, hb⟩
      obtain ⟨ht, rfl⟩ := ih.mp hb
      exact ⟨⟨c, back, hc, ht, rfl⟩, rfl⟩
    · rintro ⟨⟨c, back, hc, ht, rfl⟩, rfl⟩
      exact ⟨[c], back, kept, rfl, ⟨⟨c, rfl, hc⟩, rfl⟩, ih.mpr ⟨ht, rfl⟩⟩

theorem fits_char {c : Char} :
    (char c).Fits left piece right held kept ↔ piece = [c] ∧ kept = held := by
  constructor
  · rintro ⟨⟨d, rfl, hd⟩, rfl⟩
    rw [beq_iff_eq] at hd
    exact ⟨by rw [hd], rfl⟩
  · rintro ⟨rfl, rfl⟩
    exact ⟨⟨c, rfl, by simp⟩, rfl⟩

theorem fits_next {c : Char} : (next c).Fits left piece right held kept ↔
    ∃ gap, (∀ d ∈ gap, isBlank d = true) ∧ piece = gap ++ [c] ∧ kept = held := by
  rw [next, fits_append]
  constructor
  · rintro ⟨gap, _, _, rfl, ⟨hg, rfl⟩, hc⟩
    obtain ⟨rfl, rfl⟩ := fits_char.mp hc
    exact ⟨gap, hg, rfl, rfl⟩
  · rintro ⟨gap, hg, rfl, rfl⟩
    exact ⟨gap, [c], kept, rfl, ⟨hg, rfl⟩, fits_char.mpr ⟨rfl, rfl⟩⟩

theorem FitsAt.of_append (h : (first ++ second).FitsAt left text) : first.FitsAt left text := by
  obtain ⟨_, right, _, rfl, front, back, middle, rfl, hf, _⟩ := h
  exact ⟨front, back ++ right, middle, List.append_assoc .., hf⟩

theorem fitsAt_either :
    (either first second).FitsAt left text ↔ first.FitsAt left text ∨ second.FitsAt left text := by
  constructor
  · rintro ⟨piece, right, kept, hr, hf | hf⟩
    · exact Or.inl ⟨piece, right, kept, hr, hf⟩
    · exact Or.inr ⟨piece, right, kept, hr, hf⟩
  · rintro (⟨piece, right, kept, hr, hf⟩ | ⟨piece, right, kept, hr, hf⟩)
    · exact ⟨piece, right, kept, hr, Or.inl hf⟩
    · exact ⟨piece, right, kept, hr, Or.inr hf⟩

theorem fits_firstOf {patterns : List Pattern} :
    (firstOf patterns).Fits left piece right held kept ↔
      ∃ pattern ∈ patterns, pattern.Fits left piece right held kept := by
  fun_induction firstOf patterns with
  | case1 =>
    constructor
    · rintro ⟨⟨_, _, h⟩, _⟩
      cases h
    · rintro ⟨_, h, _⟩
      cases h
  | case2 p => simp
  | case3 p more _ ih =>
    rw [List.exists_mem_cons_iff, ← ih]
    exact Iff.rfl

theorem occursIn_of_fits (h : pattern.Fits left piece right [] kept) :
    pattern.occursIn (left ++ (piece ++ right)) = true :=
  occursIn_iff.mpr ⟨left, piece ++ right, rfl, piece, right, kept, rfl, h⟩

/-! ### Edges -/

theorem isEdge_between_of_left (hl : left.getLast?.any isWord = false)
    (hr : right.head?.any isWord = true) : (between left right).isEdge = true := by
  rw [isEdge, last_between, rest_between, hl, hr]
  rfl

theorem isEdge_between_of_right (hl : left.getLast?.any isWord = true)
    (hr : right.head?.any isWord = false) : (between left right).isEdge = true := by
  rw [isEdge, last_between, rest_between, hl, hr]
  rfl

theorem fits_keyword {s : String} (hs : ∀ c ∈ s.toList, isWord c = true) (hn : s.toList ≠ [])
    (hl : left.getLast?.any isWord = false) (hr : right.head?.any isWord = false) :
    (keyword s).Fits left s.toList right held held := by
  have hh : (s.toList ++ right).head?.any isWord = true := by
    rw [List.head?_append_of_ne_nil _ hn, List.head?_eq_some_head hn]
    exact hs _ (List.head_mem hn)
  have hg : (left ++ s.toList).getLast?.any isWord = true := by
    rw [List.getLast?_append_of_ne_nil _ hn, List.getLast?_eq_getLast_of_ne_nil hn]
    exact hs _ (List.getLast_mem hn)
  refine ⟨s.toList, [], held, (List.append_nil _).symm, ?_, rfl, rfl, ?_⟩
  · exact ⟨[], s.toList, held, rfl, ⟨rfl, rfl, isEdge_between_of_left hl hh⟩,
      fits_lit.mpr ⟨rfl, rfl⟩⟩
  · exact isEdge_between_of_right hg hr

/-! ### Patterns that need a whole word -/

/-- Wherever the pattern fits, one of the words is a word of the text. -/
def Needs (pattern : Pattern) (options : List Text) : Prop :=
  ∀ left text, pattern.FitsAt left text → ∃ word ∈ options, word ∈ Text.words (left ++ text)

/-- **A text without the words that a pattern needs does not have the pattern.** -/
theorem occursIn_eq_false_of_needs {options : List Text} (h : pattern.Needs options)
    (hn : ∀ word ∈ options, word ∉ Text.words text) : pattern.occursIn text = false := by
  refine occursIn_eq_false ?_
  rintro left right rfl hf
  obtain ⟨word, hm, hw⟩ := h left right hf
  exact hn word hm hw

theorem Needs.append {options : List Text} (h : first.Needs options) (second : Pattern) :
    (first ++ second).Needs options :=
  fun left text hf => h left text hf.of_append

theorem Needs.either {options options' : List Text} (h : first.Needs options)
    (h' : second.Needs options') : (Pattern.either first second).Needs (options ++ options') := by
  intro left text hf
  rcases fitsAt_either.mp hf with hf | hf
  · obtain ⟨word, hm, hw⟩ := h left text hf
    exact ⟨word, List.mem_append_left _ hm, hw⟩
  · obtain ⟨word, hm, hw⟩ := h' left text hf
    exact ⟨word, List.mem_append_right _ hm, hw⟩

/-- What the pattern describes does not start with a word character, nor does what follows it if it
describes the empty piece. -/
def EndsWord (pattern : Pattern) : Prop :=
  ∀ left piece right held kept, left.getLast?.any isWord = true →
    pattern.Fits left piece right held kept → (piece ++ right).head?.any isWord = false

theorem endsWord_next {c : Char} (hc : isWord c = false) : (next c).EndsWord := by
  intro left piece right held kept _ hf
  obtain ⟨gap, hg, rfl, rfl⟩ := fits_next.mp hf
  cases gap with
  | nil => exact hc
  | cons d gap => exact isWord_of_isBlank (hg d List.mem_cons_self)

theorem endsWord_isBlank : (one isBlank).EndsWord := by
  rintro left piece right held kept _ ⟨⟨c, rfl, hc⟩, rfl⟩
  exact isWord_of_isBlank hc

theorem endsWord_someBlanks : someBlanks.EndsWord := by
  rintro left piece right held kept _ ⟨_, back, _, rfl, ⟨⟨c, rfl, hc⟩, rfl⟩, _⟩
  exact isWord_of_isBlank hc

theorem endsWord_edge : edge.EndsWord := by
  rintro left piece right held kept hl ⟨rfl, rfl, he⟩
  rw [isEdge, last_between, rest_between, hl] at he
  rw [List.nil_append]
  simpa using he

theorem any_getLast?_of_isEdge {word : Text} (hw : ∀ c ∈ word, isWord c = true) (hn : word ≠ [])
    (he : (between left (word ++ right)).isEdge = true) : left.getLast?.any isWord = false := by
  cases word with
  | nil => exact absurd rfl hn
  | cons c word =>
    rw [isEdge, last_between, rest_between, List.cons_append, List.head?_cons, Option.any_some,
      hw c List.mem_cons_self] at he
    simpa using he

/-- A text opens with a word that no word character touches on either side. -/
def OpensWith (left text word : Text) : Prop :=
  ∃ rest, text = word ++ rest ∧ left.getLast?.any isWord = false ∧ rest.head?.any isWord = false

/-- Wherever the pattern fits, the text opens with one of the words. -/
def Opens (pattern : Pattern) (options : List Text) : Prop :=
  ∀ left text, pattern.FitsAt left text → ∃ word ∈ options, OpensWith left text word

theorem Opens.append {options : List Text} (h : first.Opens options) (second : Pattern) :
    (first ++ second).Opens options :=
  fun left text hf => h left text hf.of_append

theorem Opens.either {options options' : List Text} (h : first.Opens options)
    (h' : second.Opens options') : (Pattern.either first second).Opens (options ++ options') := by
  intro left text hf
  rcases fitsAt_either.mp hf with hf | hf
  · obtain ⟨word, hm, hw⟩ := h left text hf
    exact ⟨word, List.mem_append_left _ hm, hw⟩
  · obtain ⟨word, hm, hw⟩ := h' left text hf
    exact ⟨word, List.mem_append_right _ hm, hw⟩

theorem Opens.needs {options : List Text} (h : pattern.Opens options)
    (hw : ∀ word ∈ options, ∀ c ∈ word, isWord c = true) : pattern.Needs options := by
  intro left text hf
  obtain ⟨word, hm, rest, rfl, hl, hr⟩ := h left text hf
  exact ⟨word, hm, Text.mem_words (hw word hm) hl hr⟩

/-- **A word that is spelled out at an edge and then ends is what the text opens with.** -/
theorem opens_lit {s : String} {stop : Pattern} (hs : ∀ c ∈ s.toList, isWord c = true)
    (hn : s.toList ≠ []) (hstop : stop.EndsWord) : (edge ++ lit s ++ stop).Opens [s.toList] := by
  rintro left text ⟨_, right, kept, rfl, _, back, _, rfl, hfront, hback⟩
  obtain ⟨_, _, _, rfl, ⟨rfl, rfl, he⟩, hlit⟩ := fits_append.mp hfront
  obtain ⟨rfl, rfl⟩ := fits_lit.mp hlit
  rw [List.nil_append, List.append_assoc]
  refine ⟨s.toList, List.mem_singleton_self _, _, rfl, ?_, ?_⟩
  · exact any_getLast?_of_isEdge hs hn he
  · refine hstop _ back right _ kept ?_ hback
    rw [List.nil_append, List.getLast?_append, Option.or_of_isSome (by simpa using hn)]
    obtain ⟨c, hc⟩ := Option.isSome_iff_exists.mp (List.getLast?_isSome.mpr hn)
    rw [hc]
    exact hs c (List.mem_of_getLast? hc)

theorem opens_firstOf {words : List String}
    (hs : ∀ s ∈ words, s.toList ≠ [] ∧ ∀ c ∈ s.toList, isWord c = true) {stop : Pattern}
    (hstop : stop.EndsWord) :
    (edge ++ firstOf (words.map lit) ++ stop).Opens (words.map String.toList) := by
  rintro left text ⟨_, right, kept, rfl, _, back, _, rfl, ⟨_, front, _, rfl, he, hf⟩, hback⟩
  obtain ⟨_, hm, hf⟩ := fits_firstOf.mp hf
  obtain ⟨s, hw, rfl⟩ := List.mem_map.mp hm
  obtain ⟨hn, hc⟩ := hs s hw
  have hone : (edge ++ lit s ++ stop).FitsAt left (_ ++ front ++ back ++ right) :=
    ⟨_, right, kept, rfl, _, back, _, rfl, ⟨_, front, _, rfl, he, hf⟩, hback⟩
  obtain ⟨word, hword, hopen⟩ := opens_lit hc hn hstop _ _ hone
  rw [List.mem_singleton.mp hword] at hopen
  exact ⟨s.toList, List.mem_map_of_mem hw, hopen⟩

/-- A word that is spelled out at an edge and then ends is needed as a whole. -/
theorem needs_lit {s : String} {stop : Pattern} (hs : ∀ c ∈ s.toList, isWord c = true)
    (hn : s.toList ≠ []) (hstop : stop.EndsWord) : (edge ++ lit s ++ stop).Needs [s.toList] :=
  (opens_lit hs hn hstop).needs (by simpa using hs)

theorem needs_firstOf {words : List String}
    (hs : ∀ s ∈ words, s.toList ≠ [] ∧ ∀ c ∈ s.toList, isWord c = true) {stop : Pattern}
    (hstop : stop.EndsWord) :
    (edge ++ firstOf (words.map lit) ++ stop).Needs (words.map String.toList) := by
  refine (opens_firstOf hs hstop).needs ?_
  intro word hw
  obtain ⟨s, hm, rfl⟩ := List.mem_map.mp hw
  exact (hs s hm).2

theorem needs_lit_cons {s : String} {word tail : Text} {c : Char}
    (hs : s.toList = word ++ c :: tail)
    (hw : ∀ d ∈ word, isWord d = true) (hn : word ≠ []) (hc : isWord c = false) :
    (edge ++ lit s).Needs [word] := by
  rintro left text ⟨_, right, kept, rfl, _, _, _, rfl, ⟨rfl, rfl, he⟩, hlit⟩
  obtain ⟨rfl, rfl⟩ := fits_lit.mp hlit
  rw [hs, List.append_assoc] at he
  rw [List.nil_append, hs, List.append_assoc]
  exact ⟨word, List.mem_singleton_self _,
    Text.mem_words hw (any_getLast?_of_isEdge hw hn he) (by rw [List.cons_append]; exact hc)⟩

theorem needs_callOf {s : String} (hs : ∀ c ∈ s.toList, isWord c = true) (hn : s.toList ≠ []) :
    (Language.callOf s).Needs [s.toList] :=
  needs_lit hs hn (endsWord_next (by decide))

theorem needs_keyword {s : String} (hs : ∀ c ∈ s.toList, isWord c = true) (hn : s.toList ≠ []) :
    (keyword s).Needs [s.toList] :=
  needs_lit hs hn endsWord_edge

end Pattern

end Snippet
