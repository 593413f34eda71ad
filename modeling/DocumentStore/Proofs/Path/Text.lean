import DocumentStore.Query.Plan
import Mathlib.Data.List.TakeWhile

/-! # The texts of paths

Reading a text cuts it at the slashes that remain when its ends are stripped. A path that was read is
clean: its segments are neither empty nor do they have slashes in them, so its text tells it from
every other clean path. It need not be read back from its own text, because stripping the slashes
may lay bare blanks that a second reading would strip in their turn. -/

namespace DocumentStore

namespace Text

variable {sep : Char} {p : Char → Bool}

theorem strip_sublist (p : Char → Bool) (cs : List Char) : (strip p cs).Sublist cs := by
  rw [strip]
  have back := (cs.dropWhile p).reverse.dropWhile_sublist p
  have front := back.reverse
  rw [List.reverse_reverse] at front
  exact front.trans (cs.dropWhile_sublist p)

/-- Characters of the class at either end are stripped with the others. -/
theorem strip_append_left {front : List Char} (all : ∀ c ∈ front, p c) (cs : List Char) :
    strip p (front ++ cs) = strip p cs := by
  rw [strip, strip, List.dropWhile_append_of_pos all]

theorem strip_append_right {back : List Char} (all : ∀ c ∈ back, p c) (cs : List Char) :
    strip p (cs ++ back) = strip p cs := by
  have reversed : ∀ c ∈ back.reverse, p c := fun c mem => all c (List.mem_reverse.mp mem)
  rw [strip, strip, List.dropWhile_append]
  split
  · rename_i empty
    rw [List.isEmpty_iff.mp empty, List.dropWhile_eq_nil_iff.mpr all]
  · rw [List.reverse_append, List.dropWhile_append_of_pos reversed]

theorem not_mem_of_mem_splitChars {cs piece : List Char} (mem : piece ∈ splitChars sep cs) :
    sep ∉ piece := by
  induction cs generalizing piece with
  | nil => simp_all [splitChars]
  | cons c cs ih =>
    rw [splitChars] at mem
    split at mem
    · rcases List.mem_cons.mp mem with rfl | mem
      · exact List.not_mem_nil
      · exact ih mem
    · rename_i ne
      split at mem
      · simpa [List.mem_singleton.mp mem] using Ne.symm ne
      · rename_i first others pieces
        rw [pieces] at ih
        rcases List.mem_cons.mp mem with rfl | mem
        · simp [Ne.symm ne, ih List.mem_cons_self]
        · exact ih (List.mem_cons_of_mem _ mem)

theorem splitChars_append (sep : Char) (cs rest : List Char) :
    splitChars sep (cs ++ sep :: rest) = splitChars sep cs ++ splitChars sep rest := by
  induction cs with
  | nil => simp [splitChars]
  | cons c cs ih =>
    rw [List.cons_append, splitChars, splitChars, ih]
    split
    · rfl
    · cases pieces : splitChars sep cs with
      | nil => exact absurd pieces (splitChars_ne_nil sep cs)
      | cons first others => rfl

theorem joinChars_append {pieces others : List (List Char)} (nonempty : pieces ≠ [])
    (more : others ≠ []) :
    joinChars sep (pieces ++ others) = joinChars sep pieces ++ sep :: joinChars sep others := by
  induction pieces with
  | nil => exact absurd rfl nonempty
  | cons piece pieces ih =>
    cases pieces with
    | nil =>
      cases others with
      | nil => exact absurd rfl more
      | cons other others => rfl
    | cons next pieces =>
      change piece ++ sep :: joinChars sep (next :: pieces ++ others)
        = (piece ++ sep :: joinChars sep (next :: pieces)) ++ sep :: joinChars sep others
      rw [ih (List.cons_ne_nil next pieces), List.append_assoc, List.cons_append]

theorem strip_eq_self_of_pieces {cs : List Char} (filled : [] ∉ splitChars sep cs) :
    strip (· == sep) cs = cs := by
  refine strip_eq_self (fun c head => ?_) fun c last => ?_
  · refine Bool.eq_false_iff.mpr fun same => filled ?_
    obtain ⟨rest, rfl⟩ := List.head?_eq_some_iff.mp head
    rw [eq_of_beq same, splitChars, if_pos rfl]
    exact List.mem_cons_self
  · refine Bool.eq_false_iff.mpr fun same => filled ?_
    obtain ⟨front, rfl⟩ := List.getLast?_eq_some_iff.mp last
    rw [eq_of_beq same, splitChars_append]
    exact List.mem_append_right _ List.mem_cons_self

end Text

namespace ResourcePath

variable {path other : ResourcePath} {text : String}

/-- The segments of a path are not empty and have no slashes in them. -/
def Clean (path : ResourcePath) : Prop :=
  ∀ segment ∈ path.segments, segment ≠ "" ∧ '/' ∉ segment.toList

theorem toList_text (path : ResourcePath) :
    path.text.toList = Text.joinChars '/' (path.segments.map String.toList) :=
  String.toList_ofList

/-- The pieces of a clean path's text are its segments. -/
theorem Clean.splitChars_text (clean : path.Clean) (nonempty : path.segments ≠ []) :
    Text.splitChars '/' path.text.toList = path.segments.map String.toList := by
  rw [toList_text]
  refine Text.splitChars_joinChars (by simpa using nonempty) fun piece mem => ?_
  obtain ⟨segment, hsegment, rfl⟩ := List.mem_map.mp mem
  exact (clean segment hsegment).2

theorem Clean.filled (clean : path.Clean) (nonempty : path.segments ≠ []) :
    [] ∉ Text.splitChars '/' path.text.toList := by
  rw [clean.splitChars_text nonempty]
  intro mem
  obtain ⟨segment, hsegment, empty⟩ := List.mem_map.mp mem
  exact (clean segment hsegment).1 (String.toList_eq_nil_iff.mp empty)

private theorem Clean.eq_root_of_text (clean : path.Clean) (blank : path.text.toList = []) :
    path = root := by
  obtain ⟨segments⟩ := path
  cases segments with
  | nil => rfl
  | cons segment others =>
    have filled := clean.filled (List.cons_ne_nil segment others)
    simp [blank, Text.splitChars] at filled

/-- There are no slashes at the ends of the text of a clean path. -/
theorem Clean.strip_slashes (clean : path.Clean) :
    Text.strip (· == '/') path.text.toList = path.text.toList := by
  by_cases empty : path.segments = []
  · rw [toList_text, empty]
    rfl
  · exact Text.strip_eq_self_of_pieces (clean.filled empty)

theorem ofString_of_core_eq_nil (empty : core text = []) : ofString text = .ok root := by
  rw [ofString, empty]

theorem ofString_of_core_ne_nil (nonempty : core text ≠ []) :
    ofString text =
      if [] ∈ Text.splitChars '/' (core text) then .error (.emptySegment text)
      else .ok ⟨(Text.splitChars '/' (core text)).map String.ofList⟩ := by
  rw [ofString]
  split
  · contradiction
  · rfl

/-- Reading gives the clean path whose text is what remains of the text that is read. -/
theorem ofString_eq_ok : ofString text = .ok path ↔ path.Clean ∧ path.text.toList = core text := by
  by_cases empty : core text = []
  · rw [ofString_of_core_eq_nil empty, empty]
    constructor
    · intro same
      cases same
      exact ⟨nofun, rfl⟩
    · rintro ⟨clean, blank⟩
      rw [clean.eq_root_of_text blank]
  · rw [ofString_of_core_ne_nil empty]
    constructor
    · intro read
      split at read
      · cases read
      · rename_i filled
        cases read
        refine ⟨fun segment mem => ?_, ?_⟩
        · obtain ⟨piece, hpiece, rfl⟩ := List.mem_map.mp mem
          rw [String.toList_ofList]
          refine ⟨fun blank => filled ?_, Text.not_mem_of_mem_splitChars hpiece⟩
          rw [String.ofList_eq_empty_iff.mp blank] at hpiece
          exact hpiece
        · rw [toList_text, List.map_map]
          simp only [Function.comp_def, String.toList_ofList, List.map_id_fun', id,
            Text.joinChars_splitChars]
    · rintro ⟨clean, same⟩
      have nonempty : path.segments ≠ [] := by
        intro none
        rw [toList_text, none] at same
        exact empty same.symm
      rw [← same, if_neg (clean.filled nonempty), clean.splitChars_text nonempty, List.map_map]
      simp only [Function.comp_def, String.ofList_toList, List.map_id_fun', id]

/-- A clean path is read back from its text between two slashes, which keep the blanks at the ends of
the text from being stripped. -/
theorem Clean.ofString_slashed (clean : path.Clean) : ofString ("/" ++ path.text ++ "/") = .ok path := by
  refine ofString_eq_ok.mpr ⟨clean, ?_⟩
  have text : ("/" ++ path.text ++ "/").toList = '/' :: (path.text.toList ++ ['/']) := by simp
  have unblank : Text.strip Text.isBlank ('/' :: (path.text.toList ++ ['/']))
      = '/' :: (path.text.toList ++ ['/']) := by
    refine Text.strip_eq_self (fun c first => ?_) fun c last => ?_
    · cases first
      rfl
    · rw [← List.cons_append, List.getLast?_concat] at last
      cases last
      rfl
  have slash : ∀ c ∈ ['/'], (c == '/') = true := List.forall_mem_singleton.mpr rfl
  calc path.text.toList
    _ = Text.strip (· == '/') path.text.toList := clean.strip_slashes.symm
    _ = Text.strip (· == '/') (path.text.toList ++ ['/']) := (Text.strip_append_right slash _).symm
    _ = Text.strip (· == '/') ('/' :: (path.text.toList ++ ['/'])) :=
      (Text.strip_append_left slash _).symm
    _ = core ("/" ++ path.text ++ "/") := by rw [core, text, unblank]

/-- What is read from another text than its own has a shorter text. -/
theorem length_text_lt (read : ofString text = .ok path) (ne : path.text ≠ text) :
    path.text.length < text.length := by
  have part : path.text.toList.Sublist text.toList := by
    rw [(ofString_eq_ok.mp read).2, core]
    exact (Text.strip_sublist _ _).trans (Text.strip_sublist _ _)
  rw [← String.length_toList, ← String.length_toList]
  refine Nat.lt_of_le_of_ne part.length_le fun same => ne ?_
  exact String.toList_inj.mp (part.eq_of_length same)

theorem Clean.parent (clean : path.Clean) : path.parent.Clean := fun segment mem =>
  clean segment (List.dropLast_subset _ mem)

/-- Clean paths are told apart by their texts. -/
theorem Clean.eq_of_text (hpath : path.Clean) (hother : other.Clean)
    (same : path.text = other.text) : path = other := by
  have read : (.ok path : Except PathFault ResourcePath) = .ok other := by
    rw [← hpath.ofString_slashed, ← hother.ofString_slashed, same]
  exact Except.ok.inj read

/-- A clean path is read back from its text if the text has no blanks at its ends. -/
theorem Clean.ofString_text_iff (clean : path.Clean) :
    ofString path.text = .ok path ↔ Text.trim path.text = path.text := by
  have trimmed : Text.trim path.text = path.text ↔
      Text.strip Text.isBlank path.text.toList = path.text.toList := by
    rw [Text.trim, ← String.toList_inj, String.toList_ofList]
  rw [ofString_eq_ok, and_iff_right clean, trimmed, core]
  constructor
  · intro same
    have back := Text.strip_sublist (· == '/') (Text.strip Text.isBlank path.text.toList)
    rw [← same] at back
    exact (Text.strip_sublist _ _).eq_of_length_le back.length_le
  · intro unblank
    rw [unblank, clean.strip_slashes]

end ResourcePath

namespace DocumentKey

variable {key other : DocumentKey} {text : String}

theorem ofString_eq_ok : ofString text = .ok key ↔ ResourcePath.ofString text = .ok key.path := by
  unfold ofString ofPath
  cases ResourcePath.ofString text with
  | error fault => simp [Except.bind]
  | ok path =>
    simp only [Except.bind, Except.ok.injEq]
    constructor
    · intro read
      split at read
      · cases read
        rfl
      · cases read
    · rintro rfl
      rw [dif_pos ⟨key.two_le, key.even⟩]

theorem eq_of_path (same : key.path = other.path) : key = other := by
  cases key
  cases other
  cases same
  rfl

theorem eq_of_text (hkey : key.path.Clean) (hother : other.path.Clean)
    (same : key.text = other.text) : key = other :=
  eq_of_path (hkey.eq_of_text hother same)

theorem collection_append_id (key : DocumentKey) : key.collection.append [key.id] = key.path := by
  have nonempty : key.path.segments ≠ [] := by
    intro none
    have two := key.two_le
    rw [ResourcePath.length, none] at two
    cases two
  rw [collection, id, ResourcePath.last?, List.getLast?_eq_some_getLast nonempty]
  exact congrArg ResourcePath.mk (List.dropLast_concat_getLast nonempty)

theorem isCollection_collection (key : DocumentKey) : Query.IsCollection key.collection := by
  have two := key.two_le
  have even := key.even
  simp only [ResourcePath.length] at two even
  simp only [Query.IsCollection, ResourcePath.length, collection, ResourcePath.parent,
    List.length_dropLast]
  omega

private theorem toList_text (key : DocumentKey) :
    key.text.toList = key.collection.text.toList ++ '/' :: key.id.toList := by
  have nonempty : key.collection.segments.map String.toList ≠ [] := by
    intro none
    have odd := key.isCollection_collection
    rw [Query.IsCollection, ResourcePath.length, List.map_eq_nil_iff.mp none] at odd
    cases odd
  rw [text, ← key.collection_append_id, ResourcePath.toList_text, ResourcePath.append,
    List.map_append, ResourcePath.toList_text]
  exact Text.joinChars_append nonempty (List.cons_ne_nil _ _)

/-- Keys in one collection are told apart by their texts, clean or not. -/
theorem eq_of_text_of_collection (inside : key.collection = other.collection)
    (same : key.text = other.text) : key = other := by
  have texts := congrArg String.toList same
  rw [toList_text, toList_text, inside, List.append_cancel_left_eq, List.cons.injEq,
    String.toList_inj] at texts
  refine eq_of_path ?_
  rw [← key.collection_append_id, ← other.collection_append_id, inside, texts.2]

end DocumentKey

end DocumentStore
