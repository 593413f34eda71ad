import DocumentStore.Proofs.Path.Text
import Mathlib.Data.List.DropRight

/-! # Paths are read as their segments

What is left of a text when the blanks and then the slashes at its ends are removed decides how it is
read: it is cut at its slashes, and refused if two of them stand next to each other. A path whose first
segment does not begin with a blank and whose last one does not end with a blank is read back from its own
text, so that such paths are told apart by their texts. -/

namespace DocumentStore

namespace Text

variable {sep : Char} {p : Char → Bool} {cs rest : List Char}

/-- What is left of a list when the characters of a class are removed from both its ends. -/
structure Stripped (p : Char → Bool) (cs rest : List Char) : Prop where
  ends : ∃ front back, cs = front ++ (rest ++ back) ∧ (∀ c ∈ front, p c) ∧ ∀ c ∈ back, p c
  first : ∀ c, rest.head? = some c → p c = false
  last : ∀ c, rest.getLast? = some c → p c = false

theorem stripped_strip (p : Char → Bool) (cs : List Char) : Stripped p cs (strip p cs) where
  ends := by
    refine ⟨cs.takeWhile p, (cs.dropWhile p).rtakeWhile p, ?_, fun c mem => ?_, fun c mem => ?_⟩
    · have inner : strip p cs ++ (cs.dropWhile p).rtakeWhile p = cs.dropWhile p :=
        List.rdropWhile_append_rtakeWhile
      rw [inner, List.takeWhile_append_dropWhile]
    · exact List.mem_takeWhile_imp mem
    · exact List.mem_rtakeWhile_imp mem
  first c head := by
    obtain ⟨tail, begins⟩ := List.head?_eq_some_iff.mp head
    obtain ⟨back, whole⟩ : strip p cs <+: cs.dropWhile p := List.rdropWhile_prefix p _
    have stays := List.head?_dropWhile_not p cs
    rw [← whole, begins] at stays
    simpa using stays
  last c last := by
    rw [strip, List.getLast?_reverse] at last
    have stays := List.head?_dropWhile_not p (cs.dropWhile p).reverse
    rw [last] at stays
    simpa using stays

theorem stripped_iff : Stripped p cs rest ↔ rest = strip p cs := by
  refine ⟨fun stripped => ?_, fun same => same ▸ stripped_strip p cs⟩
  obtain ⟨⟨front, back, rfl, hfront, hback⟩, first, last⟩ := stripped
  rw [strip_append_left hfront, strip_append_right hback, strip_eq_self first last]

private theorem head?_joinChars {piece : List Char} (filled : piece ≠ []) (pieces : List (List Char)) :
    (joinChars sep (piece :: pieces)).head? = piece.head? := by
  cases pieces with
  | nil => rfl
  | cons next pieces => exact List.head?_append_of_ne_nil _ filled

private theorem getLast?_joinChars {piece : List Char} (filled : piece ≠ [])
    (pieces : List (List Char)) :
    (joinChars sep (pieces ++ [piece])).getLast? = piece.getLast? := by
  by_cases alone : pieces = []
  · rw [alone]
    rfl
  · have joined : joinChars sep (pieces ++ [piece]) = joinChars sep pieces ++ sep :: piece :=
      joinChars_append alone (List.cons_ne_nil _ _)
    rw [joined, List.getLast?_append_of_ne_nil _ (List.cons_ne_nil _ _),
      List.getLast?_cons_of_ne_nil filled]

/-- Between ends that are no separators an empty piece comes of two separators in a row. -/
theorem nil_mem_splitChars_iff (nonempty : cs ≠ []) (first : ∀ c, cs.head? = some c → c ≠ sep)
    (last : ∀ c, cs.getLast? = some c → c ≠ sep) :
    [] ∈ splitChars sep cs ↔ [sep, sep] <:+: cs := by
  constructor
  · intro empty
    obtain ⟨before, after, pieces⟩ := List.append_of_mem empty
    have joined := joinChars_splitChars sep cs
    rw [pieces] at joined
    cases before with
    | nil =>
      -- The empty piece would come first, and the separator that ends it would be the first character.
      cases after with
      | nil => exact absurd joined.symm nonempty
      | cons next after => exact absurd rfl (first sep (joined ▸ rfl))
    | cons piece before =>
      rw [joinChars_append (List.cons_ne_nil _ _) (List.cons_ne_nil _ _)] at joined
      cases after with
      | nil => exact absurd rfl (last sep (joined ▸ List.getLast?_concat))
      | cons next after => exact ⟨_, _, (List.append_assoc _ _ _).trans joined⟩
  · rintro ⟨before, after, rfl⟩
    have cut : before ++ [sep, sep] ++ after = before ++ sep :: ([] ++ sep :: after) := by simp
    rw [cut, splitChars_append, splitChars_append]
    exact List.mem_append_right _ (List.mem_append_left _ List.mem_cons_self)

end Text

namespace ResourcePath

variable {path other : ResourcePath} {text : String} {between rest : List Char}

/-- What is left of a text without the blanks and then the slashes at its ends. -/
def Left (text : String) (rest : List Char) : Prop :=
  ∃ between, Text.Stripped Text.isBlank text.toList between ∧ Text.Stripped (· == '/') between rest

private theorem left_iff : Left text rest ↔ rest = core text := by
  simp only [Left, Text.stripped_iff, exists_eq_left, core]

theorem ofString_eq_error {fault : PathFault} :
    ofString text = .error fault ↔ fault = .emptySegment text ∧ ['/', '/'] <:+: core text := by
  by_cases empty : core text = []
  · rw [ofString_of_core_eq_nil empty, empty, List.infix_nil]
    simp
  · have left := Text.stripped_strip (· == '/') (Text.strip Text.isBlank text.toList)
    have first (c : Char) (head : (core text).head? = some c) : c ≠ '/' := by
      simpa using left.first c head
    have last (c : Char) (ends : (core text).getLast? = some c) : c ≠ '/' := by
      simpa using left.last c ends
    have crowded := Text.nil_mem_splitChars_iff empty first last
    rw [ofString_of_core_ne_nil empty, ← crowded]
    split
    · rename_i found
      rw [Except.error.injEq, and_iff_left found, eq_comm]
    · rename_i filled
      simp [filled]

/-- A path whose segments can be told from its text, also when blanks are stripped first: there are
segments, none of them is empty or has a slash in it, the first does not begin with a blank, and the last
does not end with one. -/
structure Legible (path : ResourcePath) : Prop where
  nonempty : path.segments ≠ []
  clean : path.Clean
  first : ∀ segment, path.segments.head? = some segment →
    ∀ c, segment.toList.head? = some c → Text.isBlank c = false
  last : ∀ segment, path.segments.getLast? = some segment →
    ∀ c, segment.toList.getLast? = some c → Text.isBlank c = false

theorem Clean.head?_text {first : String} (clean : path.Clean)
    (head : path.segments.head? = some first) : path.text.toList.head? = first.toList.head? := by
  obtain ⟨others, segments⟩ := List.head?_eq_some_iff.mp head
  have filled := (clean first (segments ▸ List.mem_cons_self)).1
  rw [toList_text, segments, List.map_cons, Text.head?_joinChars]
  exact mt String.toList_eq_nil_iff.mp filled

theorem Clean.getLast?_text {last : String} (clean : path.Clean)
    (tail : path.segments.getLast? = some last) : path.text.toList.getLast? = last.toList.getLast? := by
  obtain ⟨others, segments⟩ := List.getLast?_eq_some_iff.mp tail
  have filled := (clean last (segments ▸ List.mem_append_right _ List.mem_cons_self)).1
  rw [toList_text, segments, List.map_append, List.map_singleton, Text.getLast?_joinChars]
  exact mt String.toList_eq_nil_iff.mp filled

private theorem Legible.trim_text (legible : path.Legible) : Text.trim path.text = path.text := by
  obtain ⟨nonempty, clean, first, last⟩ := legible
  have head := List.head?_eq_some_head nonempty
  have tail := List.getLast?_eq_some_getLast nonempty
  have unblank : Text.strip Text.isBlank path.text.toList = path.text.toList :=
    Text.strip_eq_self (fun c begins => first _ head c (clean.head?_text head ▸ begins))
      fun c ends => last _ tail c (clean.getLast?_text tail ▸ ends)
  rw [Text.trim, unblank, String.ofList_toList]

private theorem Legible.ofString_text (legible : path.Legible) : ofString path.text = .ok path :=
  legible.clean.ofString_text_iff.mpr legible.trim_text

/-- A text is read as what is left of it without the blanks and then the slashes at its ends. Reading
fails exactly if two slashes stand next to each other there, and otherwise gives the path with that text
whose segments are neither empty nor have slashes in them. A path that can be told from its text is read
back from it, and no other such path has the same text. -/
theorem paths_read_as_segments :
    (∀ text, ∃ rest, (∀ other, Left text other ↔ other = rest) ∧
      (∀ fault, ofString text = .error fault ↔
        fault = .emptySegment text ∧ ['/', '/'] <:+: rest) ∧
      ∀ path, ofString text = .ok path ↔
        (∀ segment ∈ path.segments, segment ≠ "" ∧ '/' ∉ segment.toList) ∧ path.text.toList = rest) ∧
      (∀ path : ResourcePath, path.Legible → ofString path.text = .ok path) ∧
      ∀ path other : ResourcePath, path.Legible → other.Legible → path.text = other.text →
        path = other := by
  refine ⟨fun text => ?_, fun path legible => legible.ofString_text,
    fun path other hpath hother same => ?_⟩
  · exact ⟨core text, fun _ => left_iff, fun _ => ofString_eq_error, fun _ => ofString_eq_ok⟩
  · exact hpath.clean.eq_of_text hother.clean same

/-- Blanks everywhere but at the ends, and a segment of nothing else. -/
def drafts : ResourcePath := ⟨["my ", " ", " notes"]⟩

theorem paths_read_as_segments_drafts :
    drafts.Legible ∧ ofString "my / / notes" = .ok drafts := by
  have clean : drafts.Clean := by
    unfold Clean
    decide
  have legible : drafts.Legible := by
    refine ⟨by decide, clean, fun segment head c begins => ?_, fun segment tail c ends => ?_⟩
    · cases head
      cases begins
      rfl
    · cases tail
      cases ends
      rfl
  have read := paths_read_as_segments.2.1 drafts legible
  have text : drafts.text = "my / / notes" := by cbv
  exact ⟨legible, text ▸ read⟩

/-- Two slashes inside are an empty segment, two at an end are not. -/
example : ofString " //rooms//attic" = .error (.emptySegment " //rooms//attic") ∧
    ofString "//rooms/attic// " = .ok ⟨["rooms", "attic"]⟩ := by constructor <;> cbv

end ResourcePath

end DocumentStore
