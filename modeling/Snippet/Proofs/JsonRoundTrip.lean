import Mathlib.Tactic
import Snippet.Json.Printer
import Snippet.Json.Reader

/-!
# What is written in JSON is read back

Values made of strings and objects, as long as no object has a key twice (`Json.Textual`):

* `stringUnits?_escape`: a string is read back up to its closing quote, whatever follows,
* `value_text`: a value is read back from the front of any text, with its length as fuel,
* `read_text`: **a written value is read back**.

The induction is on the fuel, for values and for the members of an object at once, since both
readers pass on one unit less. Each of them consumes a character before it passes on the rest.
-/

namespace Snippet

namespace Json

/-- A value made of strings and objects without repeated keys. -/
inductive Textual : Json → Prop
  | str (s : String) : Textual (.str s)
  | obj {members : List (String × Json)} (keys : (members.map Prod.fst).Nodup)
      (values : ∀ member ∈ members, Textual member.2) : Textual (.obj members)

/-! ### Strings -/

theorem fourHex?_hex {n : Nat} (h : n < 128) :
    ∃ a b c d, Text.hex 4 n = [a, b, c, d] ∧ fourHex? a b c d = some n := by
  have hall : ∀ n < 128, (Text.hex 4 n).length = 4 ∧
      fourHex? ((Text.hex 4 n).getD 0 ' ') ((Text.hex 4 n).getD 1 ' ')
        ((Text.hex 4 n).getD 2 ' ') ((Text.hex 4 n).getD 3 ' ') = some n := by
    decide
  obtain ⟨hlength, hn⟩ := hall n h
  obtain ⟨a, b, c, d, hd⟩ := List.length_eq_four.mp hlength
  rw [hd] at hn
  exact ⟨a, b, c, d, hd, hn⟩

/-- **A string is read back up to its closing quote.** -/
theorem stringUnits?_escape (text rest : Text) :
    stringUnits? (text.flatMap escapeChar ++ '"' :: rest) = some (text.map Char.toNat, rest) := by
  induction text with
  | nil => rfl
  | cons c text ih =>
    rw [List.flatMap_cons, List.append_assoc, List.map_cons, escapeChar]
    split_ifs with hq hb hc
    · subst hq
      simp [stringUnits?, shortEscape?, ih]
    · subst hb
      simp [stringUnits?, shortEscape?, ih]
    · have hlt : c.toNat < 128 := by
        simp only [Bool.or_eq_true, decide_eq_true_eq] at hc
        omega
      obtain ⟨w, x, y, z, hh, hv⟩ := fourHex?_hex hlt
      rw [hh]
      simp [stringUnits?, hv, ih]
    · simp only [Bool.or_eq_true, decide_eq_true_eq, not_or] at hc
      rw [List.singleton_append, stringUnits?, if_neg (by simp [hb]; omega), ih]
      · rfl
      · exact hq
      · intro _ _ _ _ _ hc
        exact absurd hc hb
      · intro _ _ hc
        exact absurd hc hb

theorem joinUnits_map_toNat (text : Text) : joinUnits (text.map Char.toNat) = text := by
  induction text with
  | nil => rfl
  | cons c text ih =>
    have hv : c.toNat < 0xD800 ∨ 0xE000 ≤ c.toNat := by
      rcases c.valid with hlow | hhigh
      · exact Or.inl hlow
      · exact Or.inr (Nat.lt_of_lt_of_le (by decide) hhigh.1)
    have hhigh : (0xD800 ≤ c.toNat && c.toNat < 0xDC00) = false := by
      rw [← Bool.not_eq_true, Bool.and_eq_true, decide_eq_true_eq, decide_eq_true_eq]
      omega
    have hlow : (0xDC00 ≤ c.toNat && c.toNat < 0xE000) = false := by
      rw [← Bool.not_eq_true, Bool.and_eq_true, decide_eq_true_eq, decide_eq_true_eq]
      omega
    rw [List.map_cons, joinUnits.eq_def]
    simp only [hhigh, hlow, Bool.false_eq_true, if_false, ih, Char.ofNat_toNat]

theorem string?_stringText (s : String) (rest : Text) :
    string? (s.toList.flatMap escapeChar ++ '"' :: rest) = some (s, rest) := by
  rw [string?, stringUnits?_escape]
  simp only [Option.map_some, joinUnits_map_toNat, String.ofList_toList]

/-! ### Members -/

theorem insert_of_notMem {key : String} {known : List (String × Json)}
    (h : key ∉ known.map Prod.fst) (value : Json) :
    insert key value known = known ++ [(key, value)] := by
  induction known with
  | nil => rfl
  | cons member known ih =>
    obtain ⟨k, v⟩ := member
    simp only [List.map_cons, List.mem_cons, not_or] at h
    rw [insert, if_neg (Ne.symm h.1), ih h.2, List.cons_append]

theorem Textual.exists_text {json : Json} (h : json.Textual) :
    ∃ c more, text json = c :: more ∧ (c = '"' ∨ c = '\x7b') := by
  cases h with
  | str s => exact ⟨'"', _, by rw [text, stringText, List.cons_append], Or.inl rfl⟩
  | obj => exact ⟨'\x7b', _, by rw [text, List.cons_append], Or.inr rfl⟩

theorem skipBlanks_text {json : Json} (h : json.Textual) (rest : Text) :
    skipBlanks (text json ++ rest) = text json ++ rest := by
  obtain ⟨c, more, ht, hc⟩ := h.exists_text
  rw [ht, List.cons_append, skipBlanks]
  rcases hc with rfl | rfl <;> rfl

/-! ### Values -/

/-- With enough fuel the value reader gets back what was written. -/
def ReadsValues (fuel : Nat) : Prop :=
  ∀ {json : Json} (rest : Text), json.Textual → (text json).length ≤ fuel →
    value fuel (text json ++ rest) = .ok (json, rest)

/-- With enough fuel the member reader gets back what was written behind members with other keys. -/
def ReadsMembers (fuel : Nat) : Prop :=
  ∀ {known more : List (String × Json)} (rest : Text), more ≠ [] →
    ((known ++ more).map Prod.fst).Nodup → (∀ member ∈ more, member.2.Textual) →
    (Text.join [','] (memberTexts more)).length ≤ fuel →
    members fuel known (Text.join [','] (memberTexts more) ++ '\x7d' :: rest) =
      .ok (known ++ more, rest)

theorem join_memberTexts_cons (key : String) (json : Json) (more : List (String × Json)) :
    Text.join [','] (memberTexts ((key, json) :: more)) = stringText key ++ ':' :: (text json ++
      if more = [] then [] else ',' :: Text.join [','] (memberTexts more)) := by
  rw [memberTexts]
  cases more with
  | nil => simp [memberTexts, Text.join]
  | cons member more =>
    obtain ⟨k, v⟩ := member
    rw [memberTexts, Text.join, if_neg (List.cons_ne_nil _ _)]
    · simp
    · simp

theorem exists_join_memberTexts {more : List (String × Json)} (h : more ≠ []) :
    ∃ tail, Text.join [','] (memberTexts more) = '"' :: tail := by
  obtain ⟨⟨key, json⟩, others, rfl⟩ := List.exists_cons_of_ne_nil h
  rw [join_memberTexts_cons, stringText]
  exact ⟨_, rfl⟩

theorem skipBlanks_join_memberTexts {more : List (String × Json)} (h : more ≠ []) (rest : Text) :
    skipBlanks (Text.join [','] (memberTexts more) ++ rest) =
      Text.join [','] (memberTexts more) ++ rest := by
  obtain ⟨tail, ht⟩ := exists_join_memberTexts h
  rw [ht]
  rfl

theorem members_cons {fuel : Nat} {known : List (String × Json)} {key : String} {json : Json}
    {tail : Text} (hj : json.Textual) (hv : value fuel (text json ++ tail) = .ok (json, tail)) :
    members (fuel + 1) known (stringText key ++ ':' :: (text json ++ tail)) =
      match skipBlanks tail with
      | '\x7d' :: rest => .ok (insert key json known, rest)
      | ',' :: rest => members fuel (insert key json known) (skipBlanks rest)
      | _ => .error .malformed := by
  rw [stringText, List.cons_append, List.cons_append, List.append_assoc, List.singleton_append,
    members, string?_stringText]
  have hcolon : skipBlanks (':' :: (text json ++ tail)) = ':' :: (text json ++ tail) := rfl
  simp only [hcolon, skipBlanks_text hj, hv]
  rfl

theorem readsMembers_succ {fuel : Nat} (h : ReadsValues fuel) (h' : ReadsMembers fuel) :
    ReadsMembers (fuel + 1) := by
  intro known more rest hm hkeys hvalues hfuel
  obtain ⟨⟨key, json⟩, others, rfl⟩ := List.exists_cons_of_ne_nil hm
  obtain ⟨hj, hothers⟩ := List.forall_mem_cons.mp hvalues
  have hvalue : ∀ tail, (text json).length ≤ fuel →
      value fuel (text json ++ tail) = .ok (json, tail) := fun tail => h tail hj
  have hnew : key ∉ known.map Prod.fst := by
    rw [List.map_append, List.map_cons] at hkeys
    exact (List.nodup_middle.mp hkeys).notMem ∘ List.mem_append_left _
  rw [join_memberTexts_cons] at hfuel ⊢
  simp only [List.length_append, List.length_cons] at hfuel
  rw [List.append_assoc, List.cons_append, List.append_assoc]
  by_cases ho : others = []
  · rw [if_pos ho, List.nil_append, members_cons hj (hvalue _ (by omega)), ho,
      insert_of_notMem hnew]
    rfl
  · rw [if_neg ho] at hfuel ⊢
    rw [List.length_cons] at hfuel
    rw [List.cons_append, members_cons hj (hvalue _ (by omega)), insert_of_notMem hnew]
    have hcomma : skipBlanks (',' :: (Text.join [','] (memberTexts others) ++ '\x7d' :: rest)) =
      ',' :: (Text.join [','] (memberTexts others) ++ '\x7d' :: rest) := rfl
    have hk : ((known ++ [(key, json)] ++ others).map Prod.fst).Nodup := by
      rwa [List.append_assoc]
    simp only [hcomma, skipBlanks_join_memberTexts ho]
    rw [h' rest ho hk hothers (by omega), List.append_assoc]
    rfl

theorem readsValues_succ {fuel : Nat} (h : ReadsMembers fuel) : ReadsValues (fuel + 1) := by
  intro json rest hj hfuel
  cases hj with
  | str s =>
    rw [text, stringText, List.cons_append, List.cons_append, List.append_assoc,
      List.singleton_append, value, string?_stringText]
  | obj keys values =>
    rename_i more
    by_cases hm : more = []
    · subst hm
      rfl
    · rw [text] at hfuel ⊢
      simp only [List.length_append, List.length_cons] at hfuel
      have hread := @h [] more rest hm keys values (by omega)
      rw [List.cons_append, List.cons_append, List.append_assoc, List.singleton_append, value,
        skipBlanks_join_memberTexts hm]
      obtain ⟨tail, ht⟩ := exists_join_memberTexts hm
      rw [ht, List.cons_append] at hread ⊢
      show (members fuel [] ('"' :: (tail ++ '\x7d' :: rest)) >>=
        fun found => pure (obj found.1, found.2)) = .ok (obj more, rest)
      rw [hread]
      rfl

theorem reads (fuel : Nat) : ReadsValues fuel ∧ ReadsMembers fuel := by
  induction fuel with
  | zero =>
    constructor
    · intro json rest hj hfuel
      obtain ⟨c, more, ht, -⟩ := hj.exists_text
      rw [ht] at hfuel
      exact absurd hfuel (by simp)
    · intro known more rest hm hkeys hvalues hfuel
      obtain ⟨⟨key, json⟩, others, rfl⟩ := List.exists_cons_of_ne_nil hm
      rw [join_memberTexts_cons] at hfuel
      exact absurd hfuel (by simp)
  | succ fuel ih => exact ⟨readsValues_succ ih.2, readsMembers_succ ih.1 ih.2⟩

/-- **A written value is read back from the front of any text.** -/
theorem value_text {json : Json} (h : json.Textual) {fuel : Nat} (hf : (text json).length ≤ fuel)
    (rest : Text) : value fuel (text json ++ rest) = .ok (json, rest) :=
  (reads fuel).1 rest h hf

/-- **A written value is read back.** -/
theorem read_text {json : Json} (h : json.Textual) : read (text json) = .ok json := by
  have hskip := skipBlanks_text h []
  have hvalue : value (2 * (text json).length + 1) (text json ++ []) = .ok (json, []) :=
    value_text h (by omega) []
  rw [List.append_nil] at hskip hvalue
  rw [read, hskip, hvalue]
  rfl

end Json

end Snippet
