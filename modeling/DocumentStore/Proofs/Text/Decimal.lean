import DocumentStore.Proofs.Outcome
import DocumentStore.Text.Decimal
import Mathlib.Algebra.Group.Nat.Defs

/-! # Decimal digits are read back

The digits of a number are those of its tenth followed by the last one, which is the direction in which
they are read. -/

namespace DocumentStore.Text

/-- The last digit of a number comes off the end. -/
theorem toDigits_eq (n : Nat) :
    Nat.toDigits 10 n = (if n < 10 then [] else Nat.toDigits 10 (n / 10)) ++ [(n % 10).digitChar] := by
  rw [Nat.toDigits_eq_if (by decide)]
  split
  · rename_i small
    rw [Nat.mod_eq_of_lt small]
    rfl
  · rfl

/-- What is needed of the ten digits. -/
theorem digitChar_facts :
    ∀ d < 10, d.digitChar.isDigit ∧ digitValue d.digitChar = d := by decide

theorem digitChar_isDigit {d : Nat} (h : d < 10) : d.digitChar.isDigit := (digitChar_facts d h).1

private theorem digitValue_digitChar {d : Nat} (h : d < 10) : digitValue d.digitChar = d :=
  (digitChar_facts d h).2

theorem exists_digitChar_of_mem_toDigits {n : Nat} {c : Char} (mem : c ∈ Nat.toDigits 10 n) :
    ∃ d < 10, c = d.digitChar := by
  induction n using Nat.strongRecOn with
  | ind n ih =>
    rw [toDigits_eq] at mem
    rcases List.mem_append.mp mem with mem | mem
    · split at mem
      · cases mem
      · exact ih (n / 10) (by omega) mem
    · exact ⟨n % 10, Nat.mod_lt _ (by decide), List.mem_singleton.mp mem⟩

theorem readDigits_append_singleton (limit : Nat) (beyond : IntegerFault) (cs : List Char) (c : Char)
    (acc : Nat) :
    readDigits limit beyond (cs ++ [c]) acc
      = (readDigits limit beyond cs acc).bind fun n => readDigits limit beyond [c] n := by
  induction cs generalizing acc with
  | nil => rfl
  | cons d cs ih =>
    rw [List.cons_append, readDigits, readDigits, ih]
    split
    · split <;> rfl
    · rfl

theorem readDigits_toDigits {limit n : Nat} (beyond : IntegerFault) (le : n ≤ limit) :
    readDigits limit beyond (Nat.toDigits 10 n) 0 = .ok n := by
  induction n using Nat.strongRecOn with
  | ind n ih =>
    have last : n % 10 < 10 := Nat.mod_lt _ (by decide)
    have single (acc : Nat) (within : 10 * acc + n % 10 ≤ limit) :
        readDigits limit beyond [(n % 10).digitChar] acc = .ok (10 * acc + n % 10) := by
      simp [readDigits, digitChar_isDigit last, digitValue_digitChar last, within]
    rw [toDigits_eq, readDigits_append_singleton]
    split
    · rename_i small
      have value : 10 * 0 + n % 10 = n := by omega
      show readDigits limit beyond _ 0 = _
      rw [single 0 (by omega), value]
    · have value : 10 * (n / 10) + n % 10 = n := by omega
      rw [ih (n / 10) (by omega) (by omega)]
      show readDigits limit beyond _ (n / 10) = _
      rw [single (n / 10) (by omega), value]

theorem exists_digitChar_of_mem_padDigits {width n : Nat} {c : Char}
    (mem : c ∈ padDigits width n) : ∃ d < 10, c = d.digitChar := by
  rcases List.mem_append.mp mem with mem | mem
  · exact ⟨0, by decide, List.eq_of_mem_replicate mem⟩
  · exact exists_digitChar_of_mem_toDigits mem

theorem length_padDigits {width n : Nat} (pos : 0 < width) (lt : n < 10 ^ width) :
    (padDigits width n).length = width := by
  have le : (Nat.toDigits 10 n).length ≤ width :=
    (Nat.length_toDigits_le_iff (by decide) pos).mpr lt
  rw [padDigits, List.length_append, List.length_replicate]
  omega

private theorem exists_cons_toDigits (n : Nat) : ∃ c cs, Nat.toDigits 10 n = c :: cs ∧ c.isDigit := by
  obtain ⟨c, cs, h⟩ := List.exists_cons_of_ne_nil (Nat.toDigits_ne_nil (n := n) (b := 10))
  obtain ⟨d, lt, rfl⟩ := exists_digitChar_of_mem_toDigits (n := n) (h ▸ List.mem_cons_self)
  exact ⟨_, cs, h, digitChar_isDigit lt⟩

private theorem toList_writeInteger (n : Int) :
    (writeInteger n).toList = (if n < 0 then ['-'] else []) ++ Nat.toDigits 10 n.natAbs := by
  rw [writeInteger]
  split <;> simp

/-- Every integer of 64 bits is read back from its text. -/
theorem readInteger_writeInteger (n : Int64) : readInteger (writeInteger n.toInt) = .ok n := by
  have low : -2 ^ 63 ≤ n.toInt := n.le_toInt
  have high : n.toInt < 2 ^ 63 := n.toInt_lt
  obtain ⟨c, cs, digits, isDigit⟩ := exists_cons_toDigits n.toInt.natAbs
  rw [readInteger, toList_writeInteger, digits]
  by_cases negative : n.toInt < 0
  · have size : n.toInt.natAbs ≤ 0x8000000000000000 := by omega
    have value : -(n.toInt.natAbs : Int) = n.toInt := by omega
    have read := readDigits_toDigits .tooSmall size
    rw [digits] at read
    simp only [if_pos negative, List.singleton_append, read]
    show Except.ok (Int64.ofInt (-(n.toInt.natAbs : Int))) = _
    rw [value, Int64.ofInt_toInt]
  · have size : n.toInt.natAbs ≤ 0x7FFFFFFFFFFFFFFF := by omega
    have value : (n.toInt.natAbs : Int) = n.toInt := by omega
    rw [if_neg negative, List.nil_append]
    split
    · rename_i h
      cases h
    · rename_i h
      cases h
      cases isDigit
    · rename_i h
      cases h
      cases isDigit
    · rw [← digits, readDigits_toDigits _ size]
      show Except.ok (Int64.ofInt (n.toInt.natAbs : Int)) = _
      rw [value, Int64.ofInt_toInt]

end DocumentStore.Text
