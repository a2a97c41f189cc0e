import Snippet.Proofs.CallArguments
import Snippet.Proofs.PrintedRanges

/-!
# The parts of a range

A range is cut at the separators that stand outside of all brackets, where that is judged by the
number of brackets that are open, of all kinds together (`excess`). The search for separators is
followed in three steps.

* What is cut: the text of the range falls into `pieces` with separators between them. Each piece
  but the last is cut where as many brackets are closed as opened, and none holds a separator at
  such a place (`Division`). `exists_division_partsFrom` is the induction over the range.
* Where it is cut: pieces that stand one behind the other with a separator in each gap take up the
  range from end to end (`tiling_ranges`).
* Brackets: a properly nested text may only be cut at such places into properly nested ones
  (`Nested.cut`), so nesting passes from a range to its parts (`Division.nested`).

`parts_divide`: **the parts of a range are found, and joining them rebuilds it**, if no separator
reaches beyond its end. The ranges of print calls are such ranges (`splittable_of_callRange?`,
`splittable_streamRange`): the comma is too short to reach beyond an end, and the insertion operator
would have to hold the semicolon or go beyond the text.
-/

namespace Snippet

theorem Text.join_cons_cons (separator piece next : Text) (more : List Text) :
    join separator (piece :: next :: more) =
      piece ++ (separator ++ join separator (next :: more)) :=
  List.append_assoc ..

namespace Bracket

variable {text more front ahead piece separator : Text} {pieces : List Text} {c : Char}

/-! ### Open brackets of all kinds -/

/-- How many more brackets a text opens than it closes, of all kinds together. -/
def excess (text : Text) : Int := (text.countP isOpener : Int) - text.countP isCloser

theorem excess_append (text more : Text) : excess (text ++ more) = excess text + excess more := by
  simp only [excess, List.countP_append]
  omega

theorem excess_cons (c : Char) (text : Text) : excess (c :: text) = excess [c] + excess text :=
  excess_append [c] text

theorem isCloser_of_isOpener (h : isOpener c = true) : isCloser c = false := by
  obtain ⟨bracket, -, hb⟩ := List.any_eq_true.mp h
  rw [← beq_iff_eq.mp hb]
  cases bracket <;> decide

theorem excess_of_isOpener (h : isOpener c = true) : excess [c] = 1 := by
  rw [excess, List.countP_singleton, List.countP_singleton, h, isCloser_of_isOpener h]
  rfl

theorem excess_of_isCloser (ho : isOpener c = false) (hc : isCloser c = true) :
    excess [c] = -1 := by
  rw [excess, List.countP_singleton, List.countP_singleton, ho, hc]
  rfl

theorem excess_of_code (ho : isOpener c = false) (hc : isCloser c = false) : excess [c] = 0 := by
  rw [excess, List.countP_singleton, List.countP_singleton, ho, hc]
  rfl

theorem excess_of_forall (h : ∀ c ∈ text, isOpener c = false ∧ isCloser c = false) :
    excess text = 0 := by
  rw [excess, List.countP_eq_zero.mpr fun c hc => by simp [(h c hc).1],
    List.countP_eq_zero.mpr fun c hc => by simp [(h c hc).2]]
  rfl

theorem excess_enclosed (bracket : Bracket) (inside text : Text) :
    excess (bracket.opener :: (inside ++ bracket.closer :: text)) =
      excess inside + excess text := by
  rw [excess_cons, excess_append, excess_cons bracket.closer,
    excess_of_isOpener (isOpener_opener bracket),
    excess_of_isCloser (isOpener_closer bracket) (isCloser_closer bracket)]
  omega

/-! ### Cuts through nested brackets -/

section

variable {commas : Bool}

theorem Nested.excess_eq_zero (h : Nested commas text) : excess text = 0 := by
  induction h with
  | nil => rfl
  | code ho hc _ _ ih => rw [excess_cons, excess_of_code ho hc, ih, Int.zero_add]
  | enclosed bracket _ _ ihi ih => rw [excess_enclosed, ihi, ih, Int.zero_add]

/-- **A properly nested text never closes more than is open, and where nothing is open a cut leaves
two properly nested texts.** -/
theorem Nested.cut (h : Nested commas text) {back : Text} (hr : text = front ++ back) :
    0 ≤ excess front ∧ (excess front = 0 → Nested commas front ∧ Nested commas back) := by
  induction h generalizing front back with
  | nil =>
    obtain ⟨rfl, rfl⟩ := List.nil_eq_append_iff.mp hr
    exact ⟨le_rfl, fun _ => ⟨.nil, .nil⟩⟩
  | @code _ c text ho hc hcomma ht ih =>
    rcases List.cons_eq_append_iff.mp hr with ⟨rfl, rfl⟩ | ⟨front, rfl, rfl⟩
    · exact ⟨le_rfl, fun _ => ⟨.nil, .code ho hc hcomma ht⟩⟩
    · have hi := ih rfl
      rw [excess_cons, excess_of_code ho hc, Int.zero_add]
      exact ⟨hi.1, fun he => ⟨.code ho hc hcomma (hi.2 he).1, (hi.2 he).2⟩⟩
  | @enclosed _ bracket inside text hinside ht ihi ih =>
    have hopen := excess_of_isOpener (isOpener_opener bracket)
    rcases List.cons_eq_append_iff.mp hr with ⟨rfl, rfl⟩ | ⟨front, rfl, hrest⟩
    · exact ⟨le_rfl, fun _ => ⟨.nil, .enclosed bracket hinside ht⟩⟩
    · rcases List.append_eq_append_iff.mp hrest with ⟨middle, rfl, hm⟩ | ⟨middle, rfl, -⟩
      · rcases List.cons_eq_append_iff.mp hm with ⟨rfl, -⟩ | ⟨front, rfl, rfl⟩
        · -- in front of the closer
          rw [List.append_nil, excess_cons, hopen, hinside.excess_eq_zero]
          omega
        · -- behind the closer
          have hi := ih rfl
          rw [excess_enclosed, hinside.excess_eq_zero, Int.zero_add]
          exact ⟨hi.1, fun he => ⟨.enclosed bracket hinside (hi.2 he).1, (hi.2 he).2⟩⟩
      · -- within what the brackets enclose
        have hi := (ihi rfl).1
        rw [excess_cons, hopen]
        omega

end

/-! ### Texts cut into pieces -/

/-- No separator occurs in a text at a place where as many brackets are closed as opened. -/
def Undivided (separator text : Text) : Prop :=
  ∀ front back, text = front ++ (separator ++ back) → excess front ≠ 0

/-- A text falls into pieces at separators that stand where as many brackets are closed as opened,
and no piece holds another one of these. -/
inductive Division (separator : Text) : Text → List Text → Prop
  | last {piece : Text} (hu : Undivided separator piece) : Division separator piece [piece]
  | cut {piece more : Text} {pieces : List Text} (he : excess piece = 0)
      (hu : Undivided separator piece) (hm : Division separator more pieces) :
      Division separator (piece ++ (separator ++ more)) (piece :: pieces)

namespace Division

theorem ne_nil (h : Division separator text pieces) : pieces ≠ [] := by
  cases h <;> exact List.cons_ne_nil _ _

/-- **Joining the pieces rebuilds the text.** -/
theorem join_eq (h : Division separator text pieces) : Text.join separator pieces = text := by
  induction h with
  | last _ => rfl
  | @cut piece more pieces _ _ hm ih =>
    cases pieces with
    | nil => exact absurd rfl hm.ne_nil
    | cons next others => rw [Text.join_cons_cons, ih]

theorem undivided (h : Division separator text pieces) :
    ∀ piece ∈ pieces, Undivided separator piece := by
  induction h with
  | last hu => exact List.forall_mem_singleton.mpr hu
  | cut _ hu _ ih => exact List.forall_mem_cons.mpr ⟨hu, ih⟩

/-- **The pieces of a properly nested text are properly nested.** -/
theorem nested (hs : ∀ c ∈ separator, isOpener c = false ∧ isCloser c = false)
    (h : Division separator text pieces) (hn : Nested true text) :
    ∀ piece ∈ pieces, Nested true piece := by
  induction h with
  | last _ => exact List.forall_mem_singleton.mpr hn
  | cut he _ _ ih =>
    obtain ⟨hpiece, hrest⟩ := (hn.cut rfl).2 he
    obtain ⟨-, hmore⟩ := (hrest.cut rfl).2 (excess_of_forall hs)
    exact List.forall_mem_cons.mpr ⟨hpiece, ih hmore⟩

end Division

/-! ### Where the pieces stand -/

/-- The ranges of texts that stand one behind the other from position `first` on, with gaps of the
length `gap` between them. -/
def ranges (gap first : Nat) : List Text → List (Nat × Nat)
  | [] => []
  | piece :: more =>
    (first, first + piece.length) :: ranges gap (first + piece.length + gap) more

theorem map_ranges_add (gap start first : Nat) (pieces : List Text) :
    (ranges gap first pieces).map (fun range => (start + range.1, start + range.2)) =
      ranges gap (start + first) pieces := by
  induction pieces generalizing first with
  | nil => rfl
  | cons piece more ih => simp only [ranges, List.map_cons, ih, Nat.add_assoc]

/-- The parts of a range take it up from its start to its end, with a separator in each gap. -/
structure Tiling (text separator : Text) (start stop : Nat) (found : List (Nat × Nat)) : Prop where
  head_start : found.head?.map Prod.fst = some start
  last_stop : found.getLast?.map Prod.snd = some stop
  le : ∀ part ∈ found, part.1 ≤ part.2
  gaps : found.IsChain fun part next =>
    next.1 = part.2 + separator.length ∧ Text.slice text part.2 next.1 = separator
  rebuilds : Text.join separator (found.map fun part => Text.slice text part.1 part.2) =
    Text.slice text start stop

section

variable {left right : Text}

/-- **Each piece is read back from its range.** -/
theorem map_slice_ranges (separator left right : Text) (pieces : List Text) :
    (ranges separator.length left.length pieces).map (fun part =>
        Text.slice (left ++ (Text.join separator pieces ++ right)) part.1 part.2) = pieces := by
  induction pieces generalizing left with
  | nil => rfl
  | cons piece more ih =>
    cases more with
    | nil => rw [ranges, ranges, List.map_singleton, Text.join, Text.slice_append]
    | cons next others =>
      have hi := ih (left ++ (piece ++ separator))
      have hleft : (left ++ (piece ++ separator)).length =
          left.length + piece.length + separator.length := by
        rw [List.length_append, List.length_append, Nat.add_assoc]
      simp only [hleft, List.append_assoc] at hi
      rw [ranges, List.map_cons, Text.join_cons_cons, List.append_assoc, List.append_assoc, hi,
        Text.slice_append]

theorem getLast?_ranges (first : Nat) (hp : pieces ≠ []) :
    (ranges separator.length first pieces).getLast?.map Prod.snd =
      some (first + (Text.join separator pieces).length) := by
  induction pieces generalizing first with
  | nil => exact absurd rfl hp
  | cons piece more ih =>
    cases more with
    | nil => rfl
    | cons next others =>
      have hi := ih (first + piece.length + separator.length) (List.cons_ne_nil next others)
      rw [Text.join_cons_cons, List.length_append, List.length_append, ← Nat.add_assoc,
        ← Nat.add_assoc, ← hi]
      rfl

theorem le_of_mem_ranges {gap first : Nat} {range : Nat × Nat}
    (h : range ∈ ranges gap first pieces) : range.1 ≤ range.2 := by
  induction pieces generalizing first with
  | nil => cases h
  | cons piece more ih =>
    rcases List.mem_cons.mp h with rfl | h
    · exact Nat.le_add_right ..
    · exact ih h

theorem isChain_ranges (separator left right : Text) (pieces : List Text) :
    (ranges separator.length left.length pieces).IsChain fun part next =>
      next.1 = part.2 + separator.length ∧
        Text.slice (left ++ (Text.join separator pieces ++ right)) part.2 next.1 = separator := by
  induction pieces generalizing left with
  | nil => exact .nil
  | cons piece more ih =>
    cases more with
    | nil => exact .singleton _
    | cons next others =>
      have hi := ih (left ++ (piece ++ separator))
      have hleft : (left ++ (piece ++ separator)).length =
          left.length + piece.length + separator.length := by
        rw [List.length_append, List.length_append, Nat.add_assoc]
      simp only [hleft, List.append_assoc] at hi
      have hgap := Text.slice_append (left ++ piece) separator
        (Text.join separator (next :: others) ++ right)
      rw [List.length_append, List.append_assoc] at hgap
      rw [ranges, Text.join_cons_cons, List.append_assoc, List.append_assoc]
      exact .cons_cons ⟨rfl, hgap⟩ hi

/-- **Pieces with separators between them tile the range that they are joined to.** -/
theorem tiling_ranges (hp : pieces ≠ []) (separator left right : Text) :
    Tiling (left ++ (Text.join separator pieces ++ right)) separator left.length
      (left.length + (Text.join separator pieces).length)
      (ranges separator.length left.length pieces) where
  head_start := by
    cases pieces with
    | nil => exact absurd rfl hp
    | cons piece more => rfl
  last_stop := getLast?_ranges left.length hp
  le := fun _ => le_of_mem_ranges
  gaps := isChain_ranges separator left right pieces
  rebuilds := by rw [map_slice_ranges, Text.slice_append]

end

/-! ### The search for separators -/

/-- No separator starts within `front` where as many brackets are closed as opened, while `ahead`
stands behind `front`. -/
def Unsplit (separator front ahead : Text) : Prop :=
  ∀ before after, front ++ ahead = before ++ after → before.length < front.length →
    excess before = 0 → ¬ separator <+: after

theorem unsplit_nil (separator ahead : Text) : Unsplit separator [] ahead :=
  fun _ _ _ hl => absurd hl (Nat.not_lt_zero _)

theorem Unsplit.snoc (h : Unsplit separator front (c :: ahead))
    (hc : excess front = 0 → ¬ separator <+: c :: ahead) :
    Unsplit separator (front ++ [c]) ahead := by
  intro before after hr hl he
  rw [List.append_assoc, List.singleton_append] at hr
  rw [List.length_append, List.length_singleton] at hl
  by_cases hlt : before.length < front.length
  · exact h before after hr hlt he
  · obtain ⟨rfl, rfl⟩ := List.append_inj hr (by omega)
    exact hc he

theorem Unsplit.undivided (hn : separator ≠ []) (h : Unsplit separator front ahead) :
    Undivided separator front := by
  intro before back hr he
  have hlength := congrArg List.length hr
  rw [List.length_append, List.length_append] at hlength
  have hpos := List.length_pos_iff.mpr hn
  refine h before (separator ++ (back ++ ahead)) ?_ (by omega) he (List.prefix_append _ _)
  rw [hr, List.append_assoc, List.append_assoc]

/-- No separator that starts among the first `count` characters of a text reaches beyond them. -/
def Contained (separator : Text) (count : Nat) (text : Text) : Prop :=
  ∀ i < count, separator <+: text.drop i → i + separator.length ≤ count

theorem Contained.behind {skipped rest : Text} {count total : Nat}
    (h : Contained separator total (skipped ++ rest)) (ht : total = skipped.length + count) :
    Contained separator count rest := by
  intro i hi hp
  have := h (skipped.length + i) (by omega) (by rwa [List.drop_length_add_append])
  omega

section

variable {length begun here : Nat} {depth : Int} {rest : Text}

/-- **A character at which no part ends** counts for the depth, whatever it is. -/
theorem partsFrom_passed (hs : depth = 0 → ¬ separator <+: c :: rest) (hl : here < length)
    (suffixes : List Text) :
    partsFrom separator length depth begun here 0 ((c :: rest) :: suffixes) =
      partsFrom separator length (depth + excess [c]) begun (here + 1) 0 suffixes := by
  by_cases ho : isOpener c = true
  · rw [partsFrom_opener ho hl, excess_of_isOpener ho]
  rw [Bool.not_eq_true] at ho
  by_cases hc : isCloser c = true
  · rw [partsFrom_closer ho hc hl, excess_of_isCloser ho hc]
    rfl
  rw [Bool.not_eq_true] at hc
  rw [partsFrom_code ho hc hs hl, excess_of_code ho hc, Int.add_zero]

theorem partsFrom_skip (skipped rest : Text) (count : Nat) (hl : here + skipped.length ≤ length) :
    partsFrom separator length depth begun here skipped.length
        (Text.suffixes (skipped.length + count) (skipped ++ rest)) =
      partsFrom separator length depth begun (here + skipped.length) 0
        (Text.suffixes count rest) := by
  induction skipped generalizing here with
  | nil => rw [List.nil_append, List.length_nil, Nat.zero_add, Nat.add_zero]
  | cons c skipped ih =>
    rw [List.length_cons] at hl
    have hcount : skipped.length + 1 + count = skipped.length + count + 1 := by omega
    have hhere : here + (skipped.length + 1) = here + 1 + skipped.length := by omega
    rw [List.length_cons, hcount, List.cons_append, Text.suffixes, hhere, ← ih (by omega)]
    conv_lhs => unfold partsFrom
    rw [if_neg (by omega)]

/-- **At a separator a part ends, and the next one begins behind it.** -/
theorem partsFrom_cut (hn : separator ≠ [])
    (hs : ∀ c ∈ separator, isOpener c = false ∧ isCloser c = false) {count : Nat}
    (hl : here + separator.length ≤ length) :
    partsFrom separator length 0 begun here 0
        (Text.suffixes (separator.length + count) (separator ++ rest)) =
      (partsFrom separator length 0 (here + separator.length) (here + separator.length) 0
        (Text.suffixes count rest)).map ((begun, here) :: ·) := by
  obtain ⟨c, tail, rfl⟩ := List.exists_cons_of_ne_nil hn
  obtain ⟨ho, hc⟩ := hs c List.mem_cons_self
  rw [List.length_cons] at hl
  have hcount : (c :: tail).length + count = tail.length + count + 1 := by
    rw [List.length_cons]
    omega
  have hhere : here + 1 + tail.length = here + (tail.length + 1) := by omega
  rw [hcount, List.cons_append, Text.suffixes, partsFrom_separator ho hc (by omega),
    partsFrom_skip tail rest count (by omega), hhere, List.length_cons]

end

/-- **The search divides what it reads.** So far `front` has been read of the part that is being
read, and `count` characters of `rest` are still to be read. -/
theorem exists_division_partsFrom (hn : separator ≠ [])
    (hs : ∀ c ∈ separator, isOpener c = false ∧ isCloser c = false) {front rest : Text}
    {length begun here count : Nat} {depth : Int} (hh : here = begun + front.length)
    (hl : length = here + count) (hd : depth = excess front) (hc : count ≤ rest.length)
    (hend : Contained separator count rest) (hu : Unsplit separator front (rest.take count)) :
    ∃ pieces, partsFrom separator length depth begun here 0 (Text.suffixes count rest) =
        some (ranges separator.length begun pieces) ∧
      Division separator (front ++ rest.take count) pieces := by
  -- a separator takes several characters at once
  induction count using Nat.strong_induction_on generalizing front rest begun here depth with
  | _ count ih =>
    cases count with
    | zero =>
      rw [List.take_zero] at hu ⊢
      refine ⟨[front], ?_, ?_⟩
      · rw [Text.suffixes, partsFrom, if_pos (by omega), ranges, ranges, ← hh]
        exact congrArg (fun stop => some [(begun, stop)]) hl
      · rw [List.append_nil]
        exact .last (hu.undivided hn)
    | succ count =>
      by_cases hsep : depth = 0 ∧ separator <+: rest
      · obtain ⟨rfl, rest, rfl⟩ := hsep
        have hpos := List.length_pos_iff.mpr hn
        have hfits := hend 0 (Nat.succ_pos count) (List.prefix_append separator rest)
        obtain ⟨ahead, ha⟩ : ∃ ahead, count + 1 = separator.length + ahead :=
          ⟨count + 1 - separator.length, by omega⟩
        rw [List.length_append] at hc
        have hnext : here + separator.length =
            here + separator.length + ([] : Text).length := rfl
        obtain ⟨pieces, hparts, hm⟩ := ih ahead (by omega) hnext (by omega)
          (show (0 : Int) = excess [] from rfl) (by omega) (hend.behind ha) (unsplit_nil _ _)
        refine ⟨front :: pieces, ?_, ?_⟩
        · rw [ha, partsFrom_cut hn hs (by omega), hparts, Option.map_some, ranges, ← hh]
        · rw [ha, List.take_length_add_append]
          exact .cut hd.symm (hu.undivided hn) hm
      · obtain ⟨c, rest, rfl⟩ : ∃ c tail, rest = c :: tail :=
          List.exists_cons_of_ne_nil fun he => by simp [he] at hc
        rw [List.length_cons] at hc
        rw [List.take_succ_cons] at hu ⊢
        have hnone : depth = 0 → ¬ separator <+: c :: rest := fun hz hp => hsep ⟨hz, hp⟩
        have htake : excess front = 0 → ¬ separator <+: c :: rest.take count := fun he hp =>
          hnone (hd.trans he) (hp.trans (List.cons_prefix_cons.mpr ⟨rfl, List.take_prefix ..⟩))
        have hhere : here + 1 = begun + (front ++ [c]).length := by
          rw [List.length_append, List.length_singleton]
          omega
        have hdepth : depth + excess [c] = excess (front ++ [c]) := by rw [excess_append, hd]
        have hend : Contained separator (count + 1) ([c] ++ rest) := hend
        have hi := ih count (Nat.lt_succ_self count) hhere (by omega) hdepth (by omega)
          (hend.behind (Nat.add_comm count 1)) (hu.snoc htake)
        rw [List.append_assoc, List.singleton_append] at hi
        rwa [Text.suffixes, partsFrom_passed hnone (by omega)]

/-! ### Ranges of a text -/

/-- A range of a text can be split if the separator is not empty and holds no brackets, and no
separator that starts in front of the end of the range reaches beyond it. -/
structure Splittable (text separator : Text) (start stop : Nat) : Prop where
  le : start ≤ stop
  le_length : stop ≤ text.length
  ne_nil : separator ≠ []
  no_brackets : ∀ c ∈ separator, isOpener c = false ∧ isCloser c = false
  contained : ∀ i, start ≤ i → i < stop → separator <+: text.drop i → i + separator.length ≤ stop

section

variable {start stop : Nat}

theorem Splittable.exists_division (h : Splittable text separator start stop) :
    ∃ pieces, partsWithin text start stop separator = ranges separator.length start pieces ∧
      Division separator (Text.slice text start stop) pieces := by
  have hle := h.le
  have hlength := h.le_length
  have hcount : stop - start ≤ (text.drop start).length := by
    rw [List.length_drop]
    omega
  have hend : Contained separator (stop - start) (text.drop start) := by
    intro i hi hp
    rw [List.drop_drop] at hp
    have := h.contained (start + i) (by omega) (by omega) hp
    omega
  obtain ⟨pieces, hparts, hm⟩ := exists_division_partsFrom h.ne_nil h.no_brackets
    (show 0 = 0 + ([] : Text).length from rfl) (Nat.zero_add _).symm
    (show (0 : Int) = excess [] from rfl) hcount hend (unsplit_nil _ _)
  refine ⟨pieces, ?_, hm⟩
  rw [partsWithin]
  dsimp only
  rw [hparts, Option.getD_some]
  exact map_ranges_add separator.length start 0 pieces

theorem take_append_slice_append_drop (h : start ≤ stop) (text : Text) :
    text.take start ++ (Text.slice text start stop ++ text.drop stop) = text := by
  have hdrop : text.drop stop = (text.drop start).drop (stop - start) := by
    rw [List.drop_drop, Nat.add_sub_cancel' h]
  rw [Text.slice, hdrop, List.take_append_drop, List.take_append_drop]

/-- **The parts of a range tile it**, and each of them is a piece of its text. -/
theorem Splittable.tiling (h : Splittable text separator start stop) :
    Tiling text separator start stop (partsWithin text start stop separator) ∧
      Division separator (Text.slice text start stop)
        ((partsWithin text start stop separator).map fun part =>
          Text.slice text part.1 part.2) := by
  obtain ⟨pieces, hparts, hm⟩ := h.exists_division
  have hle := h.le
  have hlength := h.le_length
  have hstart : (text.take start).length = start := by
    rw [List.length_take]
    omega
  have hstop : start + (Text.slice text start stop).length = stop := by
    rw [Text.slice, List.length_take, List.length_drop]
    omega
  have htiling := tiling_ranges hm.ne_nil separator (text.take start) (text.drop stop)
  have hslices := map_slice_ranges separator (text.take start) (text.drop stop) pieces
  rw [hm.join_eq, take_append_slice_append_drop h.le, hstart] at htiling hslices
  rw [hstop] at htiling
  rw [hparts]
  exact ⟨htiling, hslices.symm ▸ hm⟩

end

end Bracket

/-! ### The ranges of print calls -/

namespace PrintCall

open Pattern

variable {mask : Text} {found : Match} {routine : Routine} {range : Nat × Nat}

theorem add_length_le_of_prefix {word text : Text} {i : Nat} (hn : word ≠ [])
    (h : word <+: text.drop i) : i + word.length ≤ text.length := by
  have hlength := h.length_le
  have hpos := List.length_pos_iff.mpr hn
  rw [List.length_drop] at hlength
  omega

/-- **What stands between the parentheses of a call can be split at commas.** -/
theorem splittable_of_callRange? (hf : found ∈ (callPattern routine).matchesIn mask)
    (hr : callRange? found = some range) :
    Bracket.Splittable mask [','] range.1 range.2 := by
  have hend := (within_of_mem_matchesIn hf).textEnd_eq
  rw [Place.textEnd] at hend
  obtain ⟨close, hclose, rfl⟩ := Option.map_eq_some_iff.mp hr
  have hbounds := Bracket.closing?_bounds hclose
  exact ⟨hbounds.1, by dsimp only; omega, by simp, by decide, fun i _ hi _ => hi⟩

/-- **What is inserted into the stream can be split at the operators**, since the range ends at a
semicolon or with the text. -/
theorem splittable_streamRange (hf : found ∈ streamPattern.matchesIn mask) :
    Bracket.Splittable mask ['<', '<'] (streamRange mask found).1 (streamRange mask found).2 := by
  obtain ⟨left, right, rfl, hs⟩ := within_of_mem_matchesIn hf
  rw [streamRange, hs, Place.offset_between, Place.rest_between]
  cases hp : Text.position? ';' right with
  | none =>
    refine ⟨?_, le_rfl, by simp, by decide, fun i _ _ h => add_length_le_of_prefix (by simp) h⟩
    rw [List.length_append]
    exact Nat.le_add_right ..
  | some distance =>
    obtain ⟨front, rest, rfl, rfl⟩ := position?_eq_some hp
    refine ⟨Nat.le_add_right .., ?_, by simp, by decide, fun i hstart hstop h => ?_⟩
    · dsimp only
      rw [List.length_append, List.length_append]
      omega
    · -- an operator that reaches beyond the range would have the semicolon as its second character
      dsimp only at hstart hstop ⊢
      by_contra hlt
      have hi : i + 1 = left.length + front.length := by
        simp only [List.length_cons, List.length_nil] at hlt
        omega
      obtain ⟨more, hmore⟩ := h
      have hsecond : (left ++ (front ++ ';' :: rest))[i + 1]? = some '<' := by
        rw [← List.getElem?_drop, ← hmore]
        rfl
      rw [hi, List.getElem?_append_right (by omega), Nat.add_sub_cancel_left,
        List.getElem?_append_right le_rfl, Nat.sub_self] at hsecond
      cases hsecond

end PrintCall

namespace Bracket

open PrintCall

/-- **The parts of a range.** A range that can be split is split without an error: its parts take it
up from its start to its end, a separator stands in each gap between two of them, and joining them
with separators rebuilds it. No part holds a separator where as many brackets are closed as opened,
and if the range is nested properly, then so is each part. The arguments of a print call are read
off the parts of such a range, at commas or, for the stream, at the operators, whatever the snippet
and its mask. -/
theorem parts_divide :
    (∀ {text separator : Text} {start stop : Nat}, Splittable text separator start stop →
      parts text start stop separator =
        .ok ((partsWithin text start stop separator).map fun part =>
          ((part.1 : Int), (part.2 : Int))) ∧
      Tiling text separator start stop (partsWithin text start stop separator) ∧
      (∀ part ∈ partsWithin text start stop separator,
        Undivided separator (Text.slice text part.1 part.2)) ∧
      (Nested true (Text.slice text start stop) →
        ∀ part ∈ partsWithin text start stop separator,
          Nested true (Text.slice text part.1 part.2))) ∧
    ∀ code mask : Text,
      (∀ routine,
        (ofRoutine code mask routine =
          ((callPattern routine).matchesIn mask).filterMap fun found =>
            (callRange? found).map fun range =>
              (found.start.offset,
                ⟨routine, pieces code (partsWithin mask range.1 range.2 [',']),
                  routine.endsLine⟩)) ∧
        ∀ found ∈ (callPattern routine).matchesIn mask, ∀ range, callRange? found = some range →
          Splittable mask [','] range.1 range.2) ∧
      (ofStream code mask =
        (streamPattern.matchesIn mask).map fun found =>
          let range := streamRange mask found
          let segments := pieces code (partsWithin mask range.1 range.2 ['<', '<'])
          (found.start.offset,
            ⟨.stream, segments.filter (!isLineEnder ·), segments.any isLineEnder⟩)) ∧
      ∀ found ∈ streamPattern.matchesIn mask,
        Splittable mask ['<', '<'] (streamRange mask found).1 (streamRange mask found).2 := by
  refine ⟨fun h => ?_, fun code mask => ⟨fun routine => ⟨?_, ?_⟩, ?_, ?_⟩⟩
  · obtain ⟨htiling, hdivision⟩ := h.tiling
    refine ⟨parts_eq _ h.le h.le_length, htiling, ?_, fun hn => ?_⟩
    · exact List.forall_mem_map.mp hdivision.undivided
    · exact List.forall_mem_map.mp (hdivision.nested h.no_brackets hn)
  · exact ofRoutine_eq_ranges code mask routine
  · exact fun _ hf _ hr => splittable_of_callRange? hf hr
  · exact ofStream_eq_ranges code mask
  · exact fun _ hf => splittable_streamRange hf

/-- A comma within brackets belongs to the part, whatever the kind of the brackets. -/
theorem parts_divide_nestedCall :
    Splittable "g(a, h(b, c), [d])".toList [','] 2 17 ∧ Nested true "a, h(b, c), [d]".toList ∧
      parts "g(a, h(b, c), [d])".toList 2 17 [','] = .ok [(2, 3), (4, 12), (13, 17)] ∧
      Tiling "g(a, h(b, c), [d])".toList [','] 2 17 [(2, 3), (4, 12), (13, 17)] ∧
      Undivided [','] " h(b, c)".toList ∧ Nested true " h(b, c)".toList := by
  have hsplit : Splittable "g(a, h(b, c), [d])".toList [','] 2 17 :=
    ⟨by decide, by decide, by decide, by decide, fun _ _ hi _ => hi⟩
  have hparts : partsWithin "g(a, h(b, c), [d])".toList 2 17 [','] =
      [(2, 3), (4, 12), (13, 17)] := by decide
  have hinner : Nested true "b, c".toList := nested_of_forall (by decide)
  have hlast : Nested true ['d'] := nested_of_forall (by decide)
  have hfront : Nested true "a, h".toList := nested_of_forall (by decide)
  have hgap : Nested true ", ".toList := nested_of_forall (by decide)
  have hnested : Nested true "a, h(b, c), [d]".toList :=
    hfront.append (.enclosed .round hinner (hgap.append (.enclosed .square hlast .nil)))
  obtain ⟨hfound, htiling, hundivided, hkept⟩ := parts_divide.1 hsplit
  rw [hparts] at hfound htiling hundivided hkept
  have hsecond : (4, 12) ∈ [(2, 3), (4, 12), (13, 17)] := by decide
  exact ⟨hsplit, hnested, hfound, htiling, hundivided _ hsecond, hkept hnested _ hsecond⟩

end Bracket

end Snippet
