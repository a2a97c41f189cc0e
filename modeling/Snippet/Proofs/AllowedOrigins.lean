import Snippet.Proofs.Gaps
import Snippet.Proofs.Pieces
import Snippet.Settings

/-!
# The list of allowed origins

The allowed origins are written as one text, with commas between them.  What is read back from such
a list is what was written into it (`Settings.origins_roundTrip`): blanks around an origin and empty
pieces are passed over, nothing else is lost or doubled, and a star stands for all of them.

The origins are those of the pieces that a list was joined from (`originsOf_join`), and pieces that
are trimmed to origins give these back (`namedBy_of_trim`).
-/

namespace Snippet

namespace Text

variable {left right : Text}

theorem trim_surround (hl : ∀ c ∈ left, isBlank c = true) (hr : ∀ c ∈ right, isBlank c = true)
    (text : Text) : trim (left ++ (text ++ right)) = trim text := by
  rw [trim, dropWhile_pad hl, ← trim, trim_append_blank hr]

end Text

namespace Settings

/-! ### What is read from the pieces of a list -/

/-- The origins that pieces name. -/
def namedBy (pieces : List Text) : List Text :=
  let origins := (pieces.map Text.trim).filter (!·.isEmpty)
  if origins.contains ['*'] then [['*']] else origins

variable {pieces origins : List Text}

theorem originsOf_eq (text : Text) : originsOf text = namedBy (Text.splitOn ',' text) := rfl

/-- **A list is read piece by piece.** A list without pieces is read as one that holds an empty
piece, which names nothing either. -/
theorem originsOf_join (h : ∀ piece ∈ pieces, ',' ∉ piece) :
    originsOf (Text.join [','] pieces) = namedBy pieces := by
  cases pieces with
  | nil => rfl
  | cons piece more => rw [originsOf_eq, Text.splitOn_join (List.cons_ne_nil piece more) h]

theorem star_mem_iff : ['*'] ∈ (pieces.map Text.trim).filter (!·.isEmpty) ↔
    ∃ piece ∈ pieces, Text.trim piece = ['*'] := by
  rw [List.mem_filter, List.mem_map]
  exact and_iff_left rfl

theorem namedBy_of_star (h : ∃ piece ∈ pieces, Text.trim piece = ['*']) :
    namedBy pieces = [['*']] := by
  rw [namedBy]
  exact if_pos (List.contains_iff_mem.mpr (star_mem_iff.mpr h))

theorem namedBy_of_no_star (h : ¬ ∃ piece ∈ pieces, Text.trim piece = ['*']) :
    namedBy pieces = (pieces.map Text.trim).filter (!·.isEmpty) := by
  rw [namedBy]
  exact if_neg fun hs => h (star_mem_iff.mp (List.contains_iff_mem.mp hs))

/-- **A star stands alone**, and no other list of pieces names it. -/
theorem namedBy_eq_star_iff :
    namedBy pieces = [['*']] ↔ ∃ piece ∈ pieces, Text.trim piece = ['*'] := by
  refine ⟨fun hs => ?_, namedBy_of_star⟩
  by_contra h
  rw [namedBy_of_no_star h] at hs
  have hmem : ['*'] ∈ (pieces.map Text.trim).filter (!·.isEmpty) := by
    rw [hs]
    exact List.mem_singleton_self _
  exact h (star_mem_iff.mp hmem)

/-- **Pieces that are trimmed to origins give these back.** -/
theorem namedBy_of_trim (ht : pieces.map Text.trim = origins)
    (h : ∀ origin ∈ origins, origin ≠ [] ∧ origin ≠ ['*']) : namedBy pieces = origins := by
  have hstar : ¬ ∃ piece ∈ pieces, Text.trim piece = ['*'] := by
    rintro ⟨piece, hp, he⟩
    refine (h (Text.trim piece) ?_).2 he
    rw [← ht]
    exact List.mem_map_of_mem hp
  rw [namedBy_of_no_star hstar, ht, List.filter_eq_self]
  intro origin ho
  simpa using (h origin ho).1

theorem of_mem_namedBy {origin : Text} (ho : origin ∈ namedBy pieces) :
    Text.trim origin = origin ∧ origin ≠ [] := by
  by_cases hs : ∃ piece ∈ pieces, Text.trim piece = ['*']
  · rw [namedBy_of_star hs] at ho
    obtain rfl := List.mem_singleton.mp ho
    exact ⟨by decide, by decide⟩
  · rw [namedBy_of_no_star hs] at ho
    obtain ⟨hm, hn⟩ := List.mem_filter.mp ho
    obtain ⟨piece, -, rfl⟩ := List.mem_map.mp hm
    exact ⟨Text.trim_trim piece, by simpa using hn⟩

theorem comma_notMem_of_mem_namedBy (h : ∀ piece ∈ pieces, ',' ∉ piece) {origin : Text}
    (ho : origin ∈ namedBy pieces) : ',' ∉ origin := by
  by_cases hs : ∃ piece ∈ pieces, Text.trim piece = ['*']
  · rw [namedBy_of_star hs] at ho
    obtain rfl := List.mem_singleton.mp ho
    decide
  · rw [namedBy_of_no_star hs] at ho
    obtain ⟨piece, hp, rfl⟩ := List.mem_map.mp (List.mem_filter.mp ho).1
    exact fun hc => h piece hp (Text.mem_of_mem_trim hc)

/-- **Origins that have been read name themselves.** -/
theorem namedBy_namedBy (pieces : List Text) : namedBy (namedBy pieces) = namedBy pieces := by
  by_cases hs : ∃ piece ∈ pieces, Text.trim piece = ['*']
  · rw [namedBy_of_star hs]
    rfl
  · refine namedBy_of_trim ?_ fun origin ho => ⟨(of_mem_namedBy ho).2, ?_⟩
    · exact (List.map_congr_left fun origin ho => (of_mem_namedBy ho).1).trans (List.map_id' _)
    · rintro rfl
      rw [namedBy_of_no_star hs] at ho
      exact hs (star_mem_iff.mp ho)

/-! ### Lists of origins -/

/-- An origin as it may stand in a list, with blanks around it. -/
structure Entry where
  origin : Text
  before : Text
  after : Text
  trimmed : Text.trim origin = origin
  ne_nil : origin ≠ []
  ne_star : origin ≠ ['*']
  comma_notMem : ',' ∉ origin
  isBlank_before : ∀ c ∈ before, isBlank c = true
  isBlank_after : ∀ c ∈ after, isBlank c = true

namespace Entry

variable (entry : Entry)

/-- The piece of the list. -/
def piece : Text := entry.before ++ (entry.origin ++ entry.after)

theorem trim_piece : Text.trim entry.piece = entry.origin := by
  rw [piece, Text.trim_surround entry.isBlank_before entry.isBlank_after, entry.trimmed]

theorem comma_notMem_piece : ',' ∉ entry.piece := by
  have hblank : ∀ gap : Text, (∀ c ∈ gap, isBlank c = true) → ',' ∉ gap := fun gap hg hc =>
    absurd (hg ',' hc) (by decide)
  rw [piece, List.mem_append, List.mem_append, not_or, not_or]
  exact ⟨hblank _ entry.isBlank_before, entry.comma_notMem, hblank _ entry.isBlank_after⟩

end Entry

/-- The settings with a list of allowed origins, joined by commas. -/
def withOrigins (settings : Settings) (pieces : List Text) : Settings :=
  { settings with allowedOrigins := String.ofList (Text.join [','] pieces) }

theorem origins_withOrigins (settings : Settings) (h : ∀ piece ∈ pieces, ',' ∉ piece) :
    (settings.withOrigins pieces).origins = namedBy pieces := by
  rw [origins, withOrigins, String.toList_ofList, originsOf_join h]

/-- **What is read from a list of origins is what was written into it.** The text of the settings is
cut at its commas. If one of the pieces is a star but for blanks, the star stands alone, and only
then; otherwise the origins are the trimmed pieces in their order, without the empty ones. Origins
that have been read are read again as they are, and so are all lists of origins other than the star,
with any blanks around each. -/
theorem origins_roundTrip (settings : Settings) :
    let pieces := Text.splitOn ',' settings.allowedOrigins.toList
    (Text.join [','] pieces = settings.allowedOrigins.toList ∧ ∀ piece ∈ pieces, ',' ∉ piece) ∧
      (settings.origins = [['*']] ↔ ∃ piece ∈ pieces, Text.trim piece = ['*']) ∧
      ((¬ ∃ piece ∈ pieces, Text.trim piece = ['*']) →
        settings.origins = (pieces.map Text.trim).filter (!·.isEmpty)) ∧
      (settings.withOrigins settings.origins).origins = settings.origins ∧
      ∀ entries : List Entry,
        (settings.withOrigins (entries.map Entry.piece)).origins = entries.map Entry.origin := by
  intro pieces
  have hcomma : ∀ piece ∈ pieces, ',' ∉ piece := fun piece hp => Text.notMem_of_mem_splitOn hp
  refine ⟨⟨Text.join_splitOn ',' _, hcomma⟩, namedBy_eq_star_iff, namedBy_of_no_star, ?_,
    fun entries => ?_⟩
  · calc (settings.withOrigins (namedBy pieces)).origins
        = namedBy (namedBy pieces) :=
          settings.origins_withOrigins fun origin ho => comma_notMem_of_mem_namedBy hcomma ho
      _ = namedBy pieces := namedBy_namedBy pieces
  · have hpieces : ∀ piece ∈ entries.map Entry.piece, ',' ∉ piece :=
      List.forall_mem_map.mpr fun entry _ => entry.comma_notMem_piece
    rw [settings.origins_withOrigins hpieces]
    refine namedBy_of_trim ?_ (List.forall_mem_map.mpr fun entry _ => ⟨entry.ne_nil, entry.ne_star⟩)
    rw [List.map_map]
    exact List.map_congr_left fun entry _ => entry.trim_piece

/-- Two origins with blanks around them. -/
theorem origins_roundTrip_twoEntries : ∃ entries : List Entry,
    (({} : Settings).withOrigins (entries.map Entry.piece)).allowedOrigins =
      " http://a ,\thttp://b" ∧
    (({} : Settings).withOrigins (entries.map Entry.piece)).origins =
      ["http://a".toList, "http://b".toList] := by
  let first : Entry := ⟨"http://a".toList, [' '], [' '],
    by decide, by decide, by decide, by decide, by decide, by decide⟩
  let second : Entry := ⟨"http://b".toList, ['\t'], [],
    by decide, by decide, by decide, by decide, by decide, by decide⟩
  obtain ⟨-, -, -, -, hentries⟩ := origins_roundTrip {}
  exact ⟨[first, second], by decide, hentries [first, second]⟩

end Settings

end Snippet
