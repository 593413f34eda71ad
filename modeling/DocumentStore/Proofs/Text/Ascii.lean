/-! # The bytes of texts without special characters

A character below 128 is a byte of its own. -/

namespace DocumentStore.Text

/-- Tells the characters that are a byte of their own. -/
def isAscii (c : Char) : Bool := c.toNat < 128

theorem toUTF8_ofList_cons {c : Char} (ascii : isAscii c) (cs : List Char) :
    (String.ofList (c :: cs)).toUTF8.data.toList
      = c.toUInt8 :: (String.ofList cs).toUTF8.data.toList := by
  have below : c.val.toNat < 128 := of_decide_eq_true ascii
  have size : c.utf8Size = 1 :=
    Char.utf8Size_eq_one_iff.mpr (UInt32.le_iff_toNat_le.mpr (Nat.le_of_lt_succ below))
  show ((c :: cs).flatMap String.utf8EncodeChar).toByteArray.data.toList
    = c.toUInt8 :: (cs.flatMap String.utf8EncodeChar).toByteArray.data.toList
  rw [List.toList_data_toByteArray, List.toList_data_toByteArray, List.flatMap_cons,
    String.utf8EncodeChar_eq_singleton size]
  rfl

/-- The bytes of a text of such characters. -/
theorem toUTF8_ofList {cs : List Char} (ascii : ∀ c ∈ cs, isAscii c) :
    (String.ofList cs).toUTF8.data.toList = cs.map Char.toUInt8 := by
  induction cs with
  | nil => rfl
  | cons c cs ih =>
    rw [List.forall_mem_cons] at ascii
    rw [toUTF8_ofList_cons ascii.1, ih ascii.2, List.map_cons]

end DocumentStore.Text
