import DocumentStore.Expr.Basic
import DocumentStore.Path.Field
import DocumentStore.Proofs.Path.Text
import DocumentStore.Proofs.Text.LetterCase

/-! # Declared names and stored names

A declared name is stored with every part of it beginning in lower case, and is made from the stored name
again by upper case. Both change the parts one by one, since no image of a character has a full stop in it.
So a declared name is recovered if the characters with which its parts begin come back from lower case. -/

namespace DocumentStore

open Text (splitChars joinChars mapHead)

variable {name other : String} {image back : Char → List Char}

/-- The characters with which the parts of a name begin. -/
def initials (name : String) : List Char := (splitChars '.' name.toList).filterMap List.head?

private theorem forall_mem_initials {P : Char → Prop} :
    (∀ c ∈ initials name, P c)
      ↔ ∀ part ∈ splitChars '.' name.toList, ∀ c, part.head? = some c → P c := by
  simp only [initials, List.mem_filterMap]
  exact ⟨fun all part mem c head => all c ⟨part, mem, head⟩, fun all c ⟨part, mem, head⟩ => all part mem c head⟩

private theorem toList_mapHeads (image : Char → List Char) (name : String) :
    (mapHeads image name).toList
      = joinChars '.' ((splitChars '.' name.toList).map (mapHead image)) := by
  rw [mapHeads, String.toList_ofList]
  refine congrArg (joinChars '.') (List.map_congr_left fun piece _ => ?_)
  cases piece <;> rfl

theorem splitChars_mapHeads (stays : ∀ c, c ≠ '.' → '.' ∉ image c) (name : String) :
    splitChars '.' (mapHeads image name).toList
      = (splitChars '.' name.toList).map (mapHead image) := by
  have some : (splitChars '.' name.toList).map (mapHead image) ≠ [] :=
    mt List.map_eq_nil_iff.mp (Text.splitChars_ne_nil '.' name.toList)
  rw [toList_mapHeads, Text.splitChars_joinChars some]
  intro piece mem
  obtain ⟨part, hpart, rfl⟩ := List.mem_map.mp mem
  have whole := Text.not_mem_of_mem_splitChars hpart
  cases part with
  | nil => exact List.not_mem_nil
  | cons c cs =>
    obtain ⟨first, rest⟩ := not_or.mp (mt List.mem_cons.mpr whole)
    exact List.not_mem_append (stays c (Ne.symm first)) rest

private theorem splitChars_inj :
    splitChars '.' name.toList = splitChars '.' other.toList ↔ name = other := by
  refine ⟨fun same => ?_, fun same => same ▸ rfl⟩
  rw [← String.toList_inj, ← Text.joinChars_splitChars '.' name.toList, same, Text.joinChars_splitChars]

theorem mapHead_mapHead (nonempty : ∀ c, image c ≠ []) (part : List Char) :
    mapHead back (mapHead image part) = part
      ↔ ∀ c, part.head? = some c → mapHead back (image c) = [c] := by
  cases part with
  | nil => exact iff_of_true rfl nofun
  | cons c cs =>
    obtain ⟨d, ds, first⟩ := List.exists_cons_of_ne_nil (nonempty c)
    have apart : mapHead back (mapHead image (c :: cs)) = mapHead back (image c) ++ cs := by
      rw [mapHead, first]
      exact (List.append_assoc _ _ _).symm
    have alone : c :: cs = [c] ++ cs := rfl
    rw [apart, alone, List.append_left_inj]
    simp

private theorem mapHeads_mapHeads (nonempty : ∀ c, image c ≠ []) (stays : ∀ c, c ≠ '.' → '.' ∉ image c)
    (back_stays : ∀ c, c ≠ '.' → '.' ∉ back c) :
    mapHeads back (mapHeads image name) = name
      ↔ ∀ c ∈ initials name, mapHead back (image c) = [c] := by
  have parts : splitChars '.' (mapHeads back (mapHeads image name)).toList
      = (splitChars '.' name.toList).map (mapHead back ∘ mapHead image) := by
    rw [splitChars_mapHeads back_stays, splitChars_mapHeads stays, List.map_map]
  calc mapHeads back (mapHeads image name) = name
    _ ↔ (splitChars '.' name.toList).map (mapHead back ∘ mapHead image)
          = (splitChars '.' name.toList).map id := by
      rw [← splitChars_inj, parts, List.map_id]
    _ ↔ ∀ part ∈ splitChars '.' name.toList, mapHead back (mapHead image part) = part :=
      List.map_inj_left
    _ ↔ ∀ c ∈ initials name, mapHead back (image c) = [c] := by
      rw [forall_mem_initials]
      exact forall₂_congr fun part _ => mapHead_mapHead nonempty part

namespace FieldHandle

/-- The declared name is recovered from the stored one if and only if every part of it that is not empty
begins with a character that is its own upper-case image, as upper-case letters are, and that is none of
the six letters whose lower-case images belong to other letters. -/
theorem declaredName_new_iff (name : String) :
    (new name).declaredName = name
      ↔ ∀ c ∈ initials name, Text.upperImage c = [c] ∧ c ∉ Text.irreversible := by
  have recovered : modelName (wireName name) = name
      ↔ ∀ c ∈ initials name, mapHead Text.upperImage (Text.lowerImage c) = [c] :=
    mapHeads_mapHeads Text.lowerImage_ne_nil (fun _ => Text.stop_not_mem_lowerImage)
      fun _ => Text.stop_not_mem_upperImage
  exact recovered.trans (forall₂_congr fun _ _ => Text.upper_lower_iff)

/-- Letters of other alphabets come back, and those that have no lower case are left as they are. -/
example : (new "\u00D6l.\u042F").name = "\u00F6l.\u044F" ∧
    (new "\u00D6l.\u042F").declaredName = "\u00D6l.\u042F" ∧ (new "\u2115").name = "\u2115" := by
  decide +kernel

/-- It is not enough that every part begins with an upper-case letter: capital I with a dot becomes two
characters in lower case, and these are not put together again. -/
theorem not_declaredName_new_of_upper :
    ¬ ∀ name : String,
      (∀ part ∈ Text.split '.' name, ∃ c, part.toList.head? = some c ∧
        Text.lowerImage c ≠ [c] ∧ Text.upperImage c = [c]) →
      (new name).declaredName = name := by
  intro all
  have lowered : Text.lowerImage '\u0130' = ['i', '\u0307'] := by decide +kernel
  have own : Text.upperImage '\u0130' = ['\u0130'] := by decide +kernel
  have parts : Text.split '.' "\u0130l" = ["\u0130l"] := by decide +kernel
  have apart : (new "\u0130l").declaredName = "I\u0307l" := by decide +kernel
  have recovered := all "\u0130l"
  rw [parts, apart] at recovered
  have upper : ∀ part ∈ ["\u0130l"], ∃ c, part.toList.head? = some c ∧
      Text.lowerImage c ≠ [c] ∧ Text.upperImage c = [c] := by
    refine List.forall_mem_singleton.mpr ⟨'\u0130', rfl, ?_, own⟩
    rw [lowered]
    decide
  exact absurd (recovered upper) (by decide)

end FieldHandle

end DocumentStore
