/-! # Splitting and joining on one character

`split` cuts a text at every occurrence of a separator, keeping empty pieces, and `join` puts the
separator back. They are inverse to each other on pieces free of the separator. -/

namespace DocumentStore.Text

/-- The pieces of a list between the occurrences of `sep`; there is always at least one. -/
def splitChars (sep : Char) : List Char → List (List Char)
  | [] => [[]]
  | c :: cs =>
    if c = sep then [] :: splitChars sep cs
    else
      match splitChars sep cs with
      | [] => [[c]]
      | piece :: pieces => (c :: piece) :: pieces

def joinChars (sep : Char) : List (List Char) → List Char
  | [] => []
  | [piece] => piece
  | piece :: pieces => piece ++ sep :: joinChars sep pieces

theorem splitChars_ne_nil (sep : Char) (cs : List Char) : splitChars sep cs ≠ [] := by
  cases cs with
  | nil => simp [splitChars]
  | cons c cs =>
    rw [splitChars]
    split
    · simp
    · split <;> simp

theorem joinChars_splitChars (sep : Char) (cs : List Char) :
    joinChars sep (splitChars sep cs) = cs := by
  induction cs with
  | nil => rfl
  | cons c cs ih =>
    rw [splitChars]
    split
    · rename_i h
      cases hs : splitChars sep cs with
      | nil => exact absurd hs (splitChars_ne_nil sep cs)
      | cons piece pieces => rw [hs] at ih; simp [joinChars, ih, h]
    · cases hs : splitChars sep cs with
      | nil => exact absurd hs (splitChars_ne_nil sep cs)
      | cons piece pieces =>
        rw [hs] at ih
        cases pieces with
        | nil => simpa [joinChars] using ih
        | cons next more => simpa [joinChars] using ih

theorem splitChars_of_not_mem {sep : Char} {cs : List Char} (h : sep ∉ cs) :
    splitChars sep cs = [cs] := by
  induction cs with
  | nil => rfl
  | cons c cs ih =>
    simp only [List.mem_cons, not_or] at h
    simp [splitChars, ih h.2, Ne.symm h.1]

theorem splitChars_append_sep {sep : Char} {piece : List Char} (h : sep ∉ piece)
    (cs : List Char) : splitChars sep (piece ++ sep :: cs) = piece :: splitChars sep cs := by
  induction piece with
  | nil => simp [splitChars]
  | cons c piece ih =>
    simp only [List.mem_cons, not_or] at h
    simp [splitChars, ih h.2, Ne.symm h.1]

theorem splitChars_joinChars {sep : Char} {pieces : List (List Char)} (nonempty : pieces ≠ [])
    (free : ∀ piece ∈ pieces, sep ∉ piece) : splitChars sep (joinChars sep pieces) = pieces := by
  induction pieces with
  | nil => exact absurd rfl nonempty
  | cons piece pieces ih =>
    cases pieces with
    | nil => exact splitChars_of_not_mem (free piece (by simp))
    | cons next more =>
      rw [joinChars, splitChars_append_sep (free piece (by simp)),
        ih (by simp) (fun q hq => free q (by simp [hq]))]
      simp

/-- The pieces of a text between the occurrences of `sep`. -/
def split (sep : Char) (s : String) : List String :=
  (splitChars sep s.toList).map String.ofList

def join (sep : Char) (pieces : List String) : String :=
  String.ofList (joinChars sep (pieces.map String.toList))

theorem join_split (sep : Char) (s : String) : join sep (split sep s) = s := by
  simp [join, split, Function.comp_def, joinChars_splitChars]

end DocumentStore.Text
