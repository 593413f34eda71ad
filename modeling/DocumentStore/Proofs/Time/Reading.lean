import DocumentStore.Proofs.Outcome
import DocumentStore.Proofs.Time.Rfc3339
import Mathlib.Data.List.Induction
import Mathlib.Data.List.TakeWhile

/-! # What can be read as a timestamp

A text that is read consists of numbers of a few digits, so the timestamp it gives has a date and can
be written again. Reading knows no signed years: what is written with one is not read back. -/

namespace DocumentStore

theorem Date.toDays_bounds {d : Date} (valid : d.isValid) (low : 0 ≤ d.year)
    (high : d.year ≤ 9999) : -1000000 ≤ d.toDays ∧ d.toDays ≤ 4000000 := by
  obtain ⟨hmonth, hday⟩ := Timestamp.lt_of_isValid valid
  simp only [toDays]
  split <;> omega

namespace Timestamp

variable {bs rest : List UInt8} {b : UInt8} {n width : Nat} {t : Timestamp}

theorem digitBytes_lt (digits : ∀ b ∈ bs, isDigitByte b) : digitBytes bs < 10 ^ bs.length := by
  induction bs using List.reverseRecOn with
  | nil => exact Nat.one_pos
  | append_singleton bs b ih =>
    obtain ⟨front, last⟩ := List.forall_mem_append.mp digits
    have digit : b ≤ 57 := by
      have := List.forall_mem_singleton.mp last
      simp only [isDigitByte, Bool.and_eq_true, decide_eq_true_eq] at this
      exact this.2
    have le : b.toNat ≤ 57 := digit
    have lt := ih front
    rw [digitBytes_append_singleton, List.length_append, List.length_singleton, Nat.pow_succ]
    omega

private theorem lt_of_takeNumber (taken : takeNumber width bs = .ok (n, rest)) : n < 10 ^ width := by
  unfold takeNumber at taken
  simp only at taken
  split at taken
  · cases taken
  · rename_i enough
    split at taken
    · rename_i digits
      cases taken
      have length : (bs.take width).length = width :=
        Nat.le_antisymm (List.length_take_le _ _) (Nat.not_lt.mp enough)
      have lt := digitBytes_lt (List.all_eq_true.mp digits)
      rwa [length] at lt
    · cases taken

private theorem takeNumber_of_not_digit (notDigit : isDigitByte b = false) :
    ∀ taken, takeNumber (width + 1) (b :: bs) ≠ .ok taken := by
  intro taken ok
  unfold takeNumber at ok
  simp only [List.take_succ_cons, List.all_cons, notDigit, Bool.false_and, Bool.false_eq_true,
    if_false] at ok
  split at ok <;> cases ok

theorem lt_of_takeFraction (taken : takeFraction bs = .ok (n, rest)) : n < 10 ^ 9 := by
  unfold takeFraction at taken
  split at taken
  · split at taken
    · cases taken
    · rename_i b bs
      split at taken
      · cases taken
        obtain ⟨used, hused⟩ : ∃ used, used = ((b :: bs).takeWhile isDigitByte).take 9 := ⟨_, rfl⟩
        have length : used.length ≤ 9 := hused ▸ List.length_take_le _ _
        have digits : ∀ b ∈ used, isDigitByte b := fun b mem =>
          List.mem_takeWhile_imp (List.mem_of_mem_take (hused ▸ mem))
        have scale : 0 < 10 ^ (9 - used.length) := Nat.pow_pos (by decide)
        have total : 10 ^ used.length * 10 ^ (9 - used.length) = 10 ^ 9 := by
          rw [← Nat.pow_add, Nat.add_sub_cancel' length]
        rw [← hused, ← total]
        exact Nat.mul_lt_mul_of_pos_right (digitBytes_lt digits) scale
      · cases taken
  · cases taken
    decide

private theorem of_takeDate {date : Date} (taken : takeDate bs = .ok (date, rest)) :
    date.isValid ∧ 0 ≤ date.year ∧ date.year ≤ 9999 := by
  unfold takeDate at taken
  obtain ⟨⟨year, _⟩, hyear, taken⟩ := bind_eq_ok.mp taken
  obtain ⟨_, -, taken⟩ := bind_eq_ok.mp taken
  obtain ⟨⟨month, _⟩, -, taken⟩ := bind_eq_ok.mp taken
  obtain ⟨_, -, taken⟩ := bind_eq_ok.mp taken
  obtain ⟨⟨day, _⟩, -, taken⟩ := bind_eq_ok.mp taken
  have lt := lt_of_takeNumber hyear
  simp only at taken
  split at taken
  · rename_i valid
    cases taken
    exact ⟨valid, Int.natCast_nonneg _, by simp only; omega⟩
  · cases taken

/-- The parts of a text that is read. -/
structure Parts where
  date : Date
  hour : Nat
  minute : Nat
  second : Nat
  fraction : Nat
  offset : Int
  isValid : date.isValid
  year_nonneg : 0 ≤ date.year
  year_le : date.year ≤ 9999
  hour_le : hour ≤ 23
  minute_le : minute ≤ 59
  second_le : second ≤ 60
  fraction_lt : fraction < 10 ^ 9
  offset_lt : offset.natAbs < 86400

namespace Parts

def seconds (parts : Parts) : Int :=
  parts.date.toDays * 86400
    + (parts.hour * 3600 + parts.minute * 60 + (min parts.second 59 : Nat) : Int) - parts.offset

def nanos (parts : Parts) : Nat :=
  if parts.second = 60 then parts.fraction + nanosPerSecond else parts.fraction

theorem hasDate (parts : Parts) : (new parts.seconds parts.nanos).HasDate := by
  obtain ⟨daysLow, daysHigh⟩ := Date.toDays_bounds parts.isValid parts.year_nonneg parts.year_le
  have hour := parts.hour_le
  have minute := parts.minute_le
  have offset := parts.offset_lt
  have nanos : parts.nanos < 2 * nanosPerSecond := by
    have fraction : parts.fraction < nanosPerSecond := parts.fraction_lt
    unfold nanos
    split <;> omega
  unfold HasDate leastSeconds greatestSeconds
  simp only [new, nanosPerSecond, seconds] at nanos ⊢
  omega

end Parts

private theorem parts_of_readBytes (read : readBytes bs = .ok t) :
    ∃ parts : Parts, t = new parts.seconds parts.nanos := by
  unfold readBytes at read
  obtain ⟨-, read⟩ := of_guard read
  obtain ⟨⟨date, _⟩, hdate, read⟩ := bind_eq_ok.mp read
  obtain ⟨_, -, read⟩ := bind_eq_ok.mp read
  obtain ⟨⟨hour, _⟩, -, read⟩ := bind_eq_ok.mp read
  obtain ⟨_, -, read⟩ := bind_eq_ok.mp read
  obtain ⟨⟨minute, _⟩, -, read⟩ := bind_eq_ok.mp read
  obtain ⟨_, -, read⟩ := bind_eq_ok.mp read
  obtain ⟨⟨second, _⟩, -, read⟩ := bind_eq_ok.mp read
  obtain ⟨⟨fraction, _⟩, hfraction, read⟩ := bind_eq_ok.mp read
  -- The ranges of the time of day are looked at here, after the fraction.
  obtain ⟨inDay, read⟩ := of_guard read
  obtain ⟨⟨offset, _⟩, -, read⟩ := bind_eq_ok.mp read
  obtain ⟨-, read⟩ := of_guard read
  obtain ⟨small, read⟩ := of_guard read
  cases read
  obtain ⟨valid, low, high⟩ := of_takeDate hdate
  exact ⟨⟨date, hour, minute, second, fraction, offset, valid, low, high, by omega, by omega,
    by omega, lt_of_takeFraction hfraction, Nat.not_le.mp small⟩, rfl⟩

theorem hasDate_of_read {s : String} (read : read s = .ok t) : t.HasDate := by
  obtain ⟨parts, rfl⟩ := parts_of_readBytes read
  exact parts.hasDate

theorem HasDate.exists_writeFull (dated : t.HasDate) : ∃ s, t.writeFull? = some s :=
  ⟨_, if_pos dated⟩

theorem read_ne_of_not_digit {c : Char} {cs : List Char} (ascii : Text.isAscii c)
    (notDigit : isDigitByte c.toUInt8 = false) : read (String.ofList (c :: cs)) ≠ .ok t := by
  intro read
  rw [Timestamp.read, Text.toUTF8_ofList_cons ascii] at read
  unfold readBytes at read
  obtain ⟨-, read⟩ := of_guard read
  obtain ⟨⟨date, _⟩, hdate, read⟩ := bind_eq_ok.mp read
  obtain ⟨year, hyear, -⟩ := bind_eq_ok.mp hdate
  exact takeNumber_of_not_digit notDigit year hyear

/-- Only years of four digits are written without a sign. -/
theorem HasFourDigitYear.of_read {s : String} {u : Timestamp} (written : t.writeFull? = some s)
    (read : Timestamp.read s = .ok u) : t.HasFourDigitYear := by
  refine Decidable.byContradiction fun signed => ?_
  have year : yearDigits (Date.ofDays (t.seconds / 86400)).year
      = (if (Date.ofDays (t.seconds / 86400)).year < 0 then '-' else '+')
        :: Text.padDigits 4 (Date.ofDays (t.seconds / 86400)).year.natAbs := if_neg signed
  unfold writeFull? write? at written
  split at written
  · simp only [year, List.cons_append, Option.some.injEq] at written
    subst written
    refine read_ne_of_not_digit ?_ ?_ read
    · split <;> rfl
    · split <;> rfl
  · cases written

end Timestamp

end DocumentStore
