import Snippet.Proofs.Boundaries

/-!
# Replaced matches

A text with the matches of a pattern replaced is built from left to right: a match is replaced, and
any other character stays (`replaceAfter_of_match`, `replaceAfter_of_none`).  So what is true of the
search for matches is true of their replacement.

* `replaceIn_append_cons`: at a character that is never read a replacement falls into two.
* `replaceIn_pad`: a text in front, whose characters start no piece, and a text behind, whose
  characters end none, stay as they are.
-/

namespace Snippet

namespace Pattern

open Place

variable {pattern : Pattern} {replacement left front text rest right : Text} {c : Char}

/-- The text behind `left` with the matches of the pattern in it replaced. -/
def replaceAfter (pattern : Pattern) (replacement left text : Text) : Text :=
  replaceFrom replacement left.length text (pattern.matchesAfter left text)

theorem replaceIn_eq_replaceAfter (pattern : Pattern) (replacement text : Text) :
    pattern.replaceIn replacement text = pattern.replaceAfter replacement [] text := rfl

@[simp] theorem replaceAfter_nil : pattern.replaceAfter replacement left [] = [] := rfl

/-! ### One step -/

theorem replaceFrom_cons {found : List Match} {offset : Nat}
    (h : ∀ m ∈ found, offset < m.start.offset ∧ offset < m.stop.offset) :
    replaceFrom replacement offset (c :: rest) found =
      c :: replaceFrom replacement (offset + 1) rest found := by
  cases found with
  | nil => rfl
  | cons m found =>
    obtain ⟨hstart, hstop⟩ := h m List.mem_cons_self
    have hs : m.start.offset - offset = m.start.offset - (offset + 1) + 1 := by omega
    have ht : m.stop.offset - offset = m.stop.offset - (offset + 1) + 1 := by omega
    rw [replaceFrom, hs, ht, List.take_succ_cons, List.drop_succ_cons, replaceFrom]
    rfl

theorem replaceAfter_of_none (h : pattern.matchAt? (between left (c :: rest)) = none) :
    pattern.replaceAfter replacement left (c :: rest) =
      c :: pattern.replaceAfter replacement (left ++ [c]) rest := by
  have hlen : (left ++ [c]).length = left.length + 1 := by simp
  rw [replaceAfter, matchesAfter_of_none h, replaceAfter, hlen]
  refine replaceFrom_cons fun m hm => ?_
  obtain ⟨front, more, -, hf⟩ := exists_of_mem_matchesAfter _ hm
  obtain ⟨piece, right, -, hs, ht, -⟩ := fits_of_matchAt? hf
  rw [hs, ht, offset_between, offset_between]
  simp only [List.length_append, List.length_singleton]
  omega

theorem replaceAfter_of_match {piece : Text} {found : Match}
    (h : pattern.matchAt? (between left (piece ++ right)) = some found)
    (hs : found.stop = between (left ++ piece) right) (hp : piece ≠ []) :
    pattern.replaceAfter replacement left (piece ++ right) =
      replacement ++ pattern.replaceAfter replacement (left ++ piece) right := by
  have hstart := (reads_of_matchAt? h).1
  have hlen : (left ++ piece).length - left.length = piece.length := by simp
  rw [replaceAfter, matchesAfter_of_match h hs hp, replaceFrom, hstart, hs, offset_between,
    offset_between, hlen, Nat.sub_self, List.take_zero, List.drop_left, List.nil_append]
  rfl

/-! ### Replacement in a longer text -/

/-- **A stretch in which no piece starts stays as it is.** -/
theorem replaceAfter_append (h : pattern.Avoids left text right) :
    pattern.replaceAfter replacement left (text ++ right) =
      text ++ pattern.replaceAfter replacement (left ++ text) right := by
  induction text generalizing left with
  | nil => rw [List.nil_append, List.nil_append, List.append_nil]
  | cons c text ih =>
    have hn : pattern.matchAt? (between left (c :: (text ++ right))) = none := by
      refine matchAt?_eq_none ?_
      have hc := h [] (c :: text) rfl (List.cons_ne_nil c text)
      rwa [List.append_nil, List.cons_append] at hc
    rw [List.cons_append, replaceAfter_of_none hn, ih h.tail, List.append_assoc,
      List.singleton_append, List.cons_append]

/-- **What is replaced in the text is replaced in the longer text.** -/
theorem replaceAfter_widen (hw : 0 < pattern.width)
    (hl : front = [] → pattern.ignoresBefore left.getLast? = true)
    (hr : pattern.ignoresBehind right.head? = true)
    (hs : pattern.Stays (left ++ front) rest right) :
    pattern.replaceAfter replacement (left ++ front) (rest ++ right) =
      pattern.replaceAfter replacement front rest ++
        pattern.replaceAfter replacement (left ++ (front ++ rest)) right := by
  refine widen_induction (motive := fun front rest =>
    pattern.replaceAfter replacement (left ++ front) (rest ++ right) =
      pattern.replaceAfter replacement front rest ++
        pattern.replaceAfter replacement (left ++ (front ++ rest)) right) hw hr ?_ ?_ ?_ hl hs
  · intro front
    rw [List.nil_append, List.append_nil, replaceAfter_nil, List.nil_append]
  · intro front c rest hm hwide hi
    rw [List.cons_append, replaceAfter_of_none hwide, replaceAfter_of_none hm, List.append_assoc,
      hi]
    simp
  · intro front piece rest found hp hm hstop hwide hstop' hi
    rw [List.append_assoc, replaceAfter_of_match hwide hstop' hp,
      replaceAfter_of_match hm hstop hp, List.append_assoc left, hi]
    simp

/-- **At a character that is never read a replacement falls into two.** -/
theorem replaceIn_append_cons (hw : 0 < pattern.width) (hc : pattern.reads c = false)
    (hl : pattern.ignoresBefore (some c) = true) (hr : pattern.ignoresBehind (some c) = true)
    (text right : Text) :
    pattern.replaceIn replacement (text ++ c :: right) =
      pattern.replaceIn replacement text ++ c :: pattern.replaceIn replacement right := by
  have hwide := @replaceAfter_widen pattern replacement [] [] text (c :: right) hw
    (fun _ => ignoresBefore_none) hr (stays_of_reads hc)
  have hshift := @replaceAfter_widen pattern replacement (text ++ [c]) [] right [] hw
    (fun _ => by rwa [List.getLast?_concat]) (ignoresBehind_none hr) stays_nil
  rw [List.append_nil, List.append_nil, replaceAfter_nil, List.append_nil] at hshift
  rw [replaceIn_eq_replaceAfter, replaceIn_eq_replaceAfter, replaceIn_eq_replaceAfter, ← hshift]
  rw [List.nil_append, List.nil_append, replaceAfter_of_none
    (matchAt?_eq_none (not_fitsAt_of_reads hw hc))] at hwide
  exact hwide

/-- **A text in front and one behind stay as they are**, if no piece starts in the one in front, and
none ends in the one behind. -/
theorem replaceIn_pad (hw : 0 < pattern.width) (hs : ∀ c ∈ left, pattern.mayStart c = false)
    (he : ∀ c ∈ right, pattern.mayEnd c = false) (hl : pattern.ignoresBefore left.getLast? = true)
    (hr : pattern.ignoresBehind right.head? = true) (text : Text) :
    pattern.replaceIn replacement (left ++ (text ++ right)) =
      left ++ (pattern.replaceIn replacement text ++ right) := by
  have hwide := @replaceAfter_widen pattern replacement left [] text right hw (fun _ => hl) hr
    (stays_of_mayEnd he)
  have hbehind := @replaceAfter_append pattern replacement (left ++ text) right []
    (avoids_of_mayEnd hw he)
  rw [List.append_nil, replaceAfter_nil, List.append_nil] at hbehind
  rw [List.append_nil, List.nil_append, hbehind] at hwide
  rw [replaceIn_eq_replaceAfter, replaceAfter_append (avoids_of_mayStart hw hs), List.nil_append,
    hwide]
  rfl

end Pattern

end Snippet
