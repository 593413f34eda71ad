/-! # Blank characters and trimming

A character is blank when Unicode gives it the property White_Space. Trimming removes blank
characters from both ends of a text and never looks inside it. -/

namespace DocumentStore.Text

/-- The blank characters are the twenty-five of the Unicode property White_Space. -/
def isBlank (c : Char) : Bool :=
  let n := c.toNat
  (0x9 ≤ n && n ≤ 0xD) || n == 0x20 || n == 0x85 || n == 0xA0 || n == 0x1680 ||
    (0x2000 ≤ n && n ≤ 0x200A) || n == 0x2028 || n == 0x2029 || n == 0x202F || n == 0x205F ||
    n == 0x3000

/-- Drops the characters in the class `p` from both ends of a list. -/
def strip (p : Char → Bool) (cs : List Char) : List Char :=
  ((cs.dropWhile p).reverse.dropWhile p).reverse

/-- A list that neither begins nor ends in the class is left alone. -/
theorem strip_eq_self {p : Char → Bool} {cs : List Char}
    (first : ∀ c, cs.head? = some c → p c = false)
    (last : ∀ c, cs.getLast? = some c → p c = false) : strip p cs = cs := by
  cases cs with
  | nil => rfl
  | cons c rest =>
    have front : (c :: rest).dropWhile p = c :: rest := by simp [first c rfl]
    have back : (c :: rest).reverse.dropWhile p = (c :: rest).reverse := by
      cases h : (c :: rest).reverse with
      | nil => rfl
      | cons d tail =>
        have : p d = false := last d (by rw [← List.head?_reverse, h]; rfl)
        simp [this]
    rw [strip, front, back, List.reverse_reverse]

/-- The text without the blank characters at its ends. -/
def trim (s : String) : String :=
  String.ofList (strip isBlank s.toList)

end DocumentStore.Text
