import DocumentStore.Proofs.Text.Ascii
import DocumentStore.Proofs.Text.Decimal
import DocumentStore.Proofs.Time.Calendar
import DocumentStore.Time.Rfc3339

/-! # Timestamps are read back

The parts of a written timestamp are numbers of fixed width, so each is taken off by the reader of its
width. Years of four digits are the ones that are written without a sign. -/

namespace DocumentStore.Timestamp

open Text

/-- The bytes of a list of characters. -/
def asciiBytes (cs : List Char) : List UInt8 := cs.map Char.toUInt8

/-- What is needed of the ten digits as bytes. -/
theorem digitByte_facts :
    ∀ d < 10, d.digitChar.toUInt8.toNat - 48 = d ∧ isDigitByte d.digitChar.toUInt8 ∧
      isAscii d.digitChar := by decide

theorem digitBytes_append_singleton (bs : List UInt8) (b : UInt8) :
    digitBytes (bs ++ [b]) = 10 * digitBytes bs + (b.toNat - 48) := by
  rw [digitBytes, List.foldl_append]
  rfl

private theorem digitBytes_toDigits (n : Nat) : digitBytes (asciiBytes (Nat.toDigits 10 n)) = n := by
  induction n using Nat.strongRecOn with
  | ind n ih =>
    have last := (digitByte_facts (n % 10) (Nat.mod_lt _ (by decide))).1
    rw [toDigits_eq, asciiBytes, List.map_append, List.map_singleton, digitBytes_append_singleton,
      last]
    split
    · rename_i small
      show 10 * 0 + n % 10 = n
      omega
    · have tenth := ih (n / 10) (by omega)
      rw [asciiBytes] at tenth
      rw [tenth]
      omega

/-- Zeros in front do not count. -/
theorem digitBytes_padDigits (width n : Nat) : digitBytes (asciiBytes (padDigits width n)) = n := by
  have zeros (k : Nat) : digitBytes (asciiBytes (List.replicate k '0')) = 0 := by
    induction k with
    | zero => rfl
    | succ k ih =>
      rw [List.replicate_succ', asciiBytes, List.map_append, List.map_singleton,
        digitBytes_append_singleton, ← asciiBytes, ih]
      rfl
  have digits := digitBytes_toDigits n
  rw [padDigits, asciiBytes, List.map_append, digitBytes, List.foldl_append, ← digitBytes,
    ← asciiBytes, ← asciiBytes, zeros]
  exact digits

variable {width n : Nat}

theorem isDigitByte_of_mem {b : UInt8} (mem : b ∈ asciiBytes (padDigits width n)) :
    isDigitByte b := by
  obtain ⟨c, hc, rfl⟩ := List.mem_map.mp mem
  obtain ⟨d, lt, rfl⟩ := exists_digitChar_of_mem_padDigits hc
  exact (digitByte_facts d lt).2.1

theorem length_asciiBytes (pos : 0 < width) (lt : n < 10 ^ width) :
    (asciiBytes (padDigits width n)).length = width := by
  rw [asciiBytes, List.length_map, length_padDigits pos lt]

/-- A number of fixed width is taken off as it was written. -/
theorem takeNumber_padDigits (pos : 0 < width) (lt : n < 10 ^ width) (rest : List UInt8) :
    takeNumber width (asciiBytes (padDigits width n) ++ rest) = .ok (n, rest) := by
  have length := length_asciiBytes pos lt
  have digits : (asciiBytes (padDigits width n)).all isDigitByte :=
    List.all_eq_true.mpr fun b mem => isDigitByte_of_mem mem
  rw [takeNumber, List.take_left' length, List.drop_left' length, length, digits,
    digitBytes_padDigits]
  simp

theorem takeFraction_padDigits (lt : n < 10 ^ 9) (rest : List UInt8) :
    takeFraction (46 :: (asciiBytes (padDigits 9 n) ++ 90 :: rest)) = .ok (n, 90 :: rest) := by
  have length := length_asciiBytes (by decide) lt
  have digits : (asciiBytes (padDigits 9 n) ++ 90 :: rest).takeWhile isDigitByte
      = asciiBytes (padDigits 9 n) := by
    rw [List.takeWhile_append_of_pos fun b mem => isDigitByte_of_mem mem]
    exact List.append_nil _
  have value := digitBytes_padDigits 9 n
  have drop : (asciiBytes (padDigits 9 n) ++ 90 :: rest).drop 9 = 90 :: rest :=
    List.drop_left' length
  obtain ⟨b, bs, cons⟩ := List.exists_cons_of_length_eq_add_one length
  have mem : b ∈ asciiBytes (padDigits 9 n) := cons ▸ List.mem_cons_self
  rw [cons, List.cons_append] at digits drop ⊢
  rw [takeFraction]
  simp only [isDigitByte_of_mem mem, if_true, digits, ← cons, length, drop]
  rw [List.take_of_length_le (Nat.le_of_eq length), value, length, Nat.sub_self, Nat.pow_eq,
    Nat.pow_zero, Nat.mul_one]

private theorem takeDate_parts {year month day : Nat} (hyear : year < 10 ^ 4) (hmonth : month < 10 ^ 2)
    (hday : day < 10 ^ 2) (valid : Date.isValid ⟨year, month, day⟩) (rest : List UInt8) :
    takeDate (asciiBytes (padDigits 4 year) ++ 45 :: (asciiBytes (padDigits 2 month) ++
      45 :: (asciiBytes (padDigits 2 day) ++ rest))) = .ok (⟨year, month, day⟩, rest) := by
  have two : 0 < 2 := by decide
  have four : 0 < 4 := by decide
  simp only [takeDate, takeNumber_padDigits four hyear, takeNumber_padDigits two hmonth,
    takeNumber_padDigits two hday, takeByte, valid, beq_self_eq_true, if_true, bind, Except.bind]
  rfl

/-- The text of a date and a time of day is read as what it was written from. -/
theorem readBytes_parts {year month day hour minute second nanos : Nat}
    (hyear : year < 10 ^ 4) (hmonth : month < 10 ^ 2) (hday : day < 10 ^ 2) (hhour : hour < 24)
    (hminute : minute < 60) (hsecond : second < 60) (hnanos : nanos < 10 ^ 9)
    (valid : Date.isValid ⟨year, month, day⟩) :
    readBytes (asciiBytes (padDigits 4 year) ++ 45 :: (asciiBytes (padDigits 2 month) ++
      45 :: (asciiBytes (padDigits 2 day) ++ 84 :: (asciiBytes (padDigits 2 hour) ++
      58 :: (asciiBytes (padDigits 2 minute) ++ 58 :: (asciiBytes (padDigits 2 second) ++
      46 :: (asciiBytes (padDigits 9 nanos) ++ 90 :: [])))))))
      = .ok (new (Date.toDays ⟨year, month, day⟩ * 86400
          + (hour * 3600 + minute * 60 + (min second 59 : Nat) : Int) - 0) nanos) := by
  have two : 0 < 2 := by decide
  have four : 0 < 4 := by decide
  have hhour' : hour < 10 ^ 2 := by omega
  have hminute' : minute < 10 ^ 2 := by omega
  have hsecond' : second < 10 ^ 2 := by omega
  have inDay : ¬ (23 < hour ∨ 59 < minute ∨ 60 < second) := by omega
  have notLeap : second ≠ 60 := by omega
  rw [readBytes, if_neg]
  · simp only [takeDate_parts hyear hmonth hday valid, takeNumber_padDigits two hhour',
      takeNumber_padDigits two hminute', takeNumber_padDigits two hsecond',
      takeFraction_padDigits hnanos, takeByte, beq_self_eq_true, Bool.true_or, if_true,
      if_neg inDay, if_neg notLeap, bind, Except.bind]
    rfl
  · simp only [List.length_append, List.length_cons, length_asciiBytes four hyear,
      length_asciiBytes two hmonth, length_asciiBytes two hday, length_asciiBytes two hhour',
      length_asciiBytes two hminute', length_asciiBytes two hsecond']
    omega

/-- The timestamps whose year is written with four digits. -/
def HasFourDigitYear (t : Timestamp) : Prop :=
  0 ≤ (Date.ofDays (t.seconds / 86400)).year ∧ (Date.ofDays (t.seconds / 86400)).year ≤ 9999

instance (t : Timestamp) : Decidable t.HasFourDigitYear := inferInstanceAs (Decidable (_ ∧ _))

private theorem HasFourDigitYear.hasDate {t : Timestamp} (h : t.HasFourDigitYear) : t.HasDate := by
  obtain ⟨low, high⟩ := h
  have bounds := Date.year_ofDays_bounds (t.seconds / 86400)
  unfold HasDate leastSeconds greatestSeconds
  omega

private theorem new_parts (t : Timestamp) : new t.seconds t.nanos = t := by
  obtain ⟨seconds, nanos, nanos_lt⟩ := t
  have lt : nanos < 1000000000 := nanos_lt
  simp only [new, nanosPerSecond, mk.injEq]
  omega

/-- The characters of a date and a time of day. -/
def textOf (year month day hour minute second nanos : Nat) : List Char :=
  padDigits 4 year ++ '-' :: (padDigits 2 month ++ '-' :: (padDigits 2 day ++ 'T' ::
    (padDigits 2 hour ++ ':' :: (padDigits 2 minute ++ ':' :: (padDigits 2 second ++ '.' ::
    (padDigits 9 nanos ++ ['Z']))))))

private theorem isAscii_of_mem_textOf {year month day hour minute second nanos : Nat} :
    ∀ c ∈ textOf year month day hour minute second nanos, isAscii c := by
  have digits (width n : Nat) : ∀ c ∈ padDigits width n, isAscii c := by
    intro c mem
    obtain ⟨d, lt, rfl⟩ := exists_digitChar_of_mem_padDigits mem
    exact (digitByte_facts d lt).2.2
  simp only [textOf, List.forall_mem_append, List.forall_mem_cons]
  exact ⟨digits _ _, rfl, digits _ _, rfl, digits _ _, rfl, digits _ _, rfl, digits _ _, rfl,
    digits _ _, rfl, digits _ _, rfl, nofun⟩

private theorem read_textOf {year month day hour minute second nanos : Nat}
    (hyear : year < 10 ^ 4) (hmonth : month < 10 ^ 2) (hday : day < 10 ^ 2) (hhour : hour < 24)
    (hminute : minute < 60) (hsecond : second < 60) (hnanos : nanos < 10 ^ 9)
    (valid : Date.isValid ⟨year, month, day⟩) :
    read (String.ofList (textOf year month day hour minute second nanos))
      = .ok (new (Date.toDays ⟨year, month, day⟩ * 86400
          + (hour * 3600 + minute * 60 + (min second 59 : Nat) : Int) - 0) nanos) := by
  rw [read, toUTF8_ofList isAscii_of_mem_textOf,
    ← readBytes_parts hyear hmonth hday hhour hminute hsecond hnanos valid]
  simp only [textOf, asciiBytes, List.map_append, List.map_cons, List.map_nil]
  rfl

/-- All nine digits of the nanoseconds are written in full. -/
theorem fractionDigits_nine (t : Timestamp) :
    fractionDigits 9 t.nanos = '.' :: padDigits 9 t.nanos := by
  have places : (padDigits 9 t.nanos).take 9 = padDigits 9 t.nanos :=
    List.take_of_length_le (Nat.le_of_eq (length_padDigits (by decide) t.nanos_lt))
  exact congrArg _ places

private theorem HasFourDigitYear.writeFull_eq {t : Timestamp} (h : t.HasFourDigitYear) :
    t.writeFull? = some (String.ofList (textOf (Date.ofDays (t.seconds / 86400)).year.natAbs
      (Date.ofDays (t.seconds / 86400)).month (Date.ofDays (t.seconds / 86400)).day
      ((t.seconds % 86400).toNat / 3600) ((t.seconds % 86400).toNat / 60 % 60)
      ((t.seconds % 86400).toNat % 60) t.nanos)) := by
  have year : yearDigits (Date.ofDays (t.seconds / 86400)).year
      = padDigits 4 (Date.ofDays (t.seconds / 86400)).year.natAbs := if_pos h
  rw [writeFull?, write?, if_pos h.hasDate]
  simp only [year, fractionDigits_nine, textOf, List.append_assoc, List.cons_append]

theorem lt_of_isValid {d : Date} (valid : d.isValid) : d.month < 10 ^ 2 ∧ d.day < 10 ^ 2 := by
  simp only [Date.isValid, Bool.and_eq_true, decide_eq_true_eq] at valid
  obtain ⟨⟨⟨monthLow, monthHigh⟩, dayLow⟩, dayHigh⟩ := valid
  have length : Date.daysInMonth d.year d.month ≤ 31 := by
    unfold Date.daysInMonth
    split
    · split <;> omega
    · split <;> omega
  omega

/-- Every timestamp with a year of four digits is read back from its text. -/
theorem read_writeFull {t : Timestamp} (h : t.HasFourDigitYear) :
    ∃ s, t.writeFull? = some s ∧ read s = .ok t := by
  refine ⟨_, h.writeFull_eq, ?_⟩
  obtain ⟨date, hdate⟩ : ∃ d, d = Date.ofDays (t.seconds / 86400) := ⟨_, rfl⟩
  obtain ⟨low, high⟩ := h
  have valid := Date.isValid_ofDays (t.seconds / 86400)
  have days := Date.toDays_ofDays (t.seconds / 86400)
  rw [← hdate] at low high valid days ⊢
  obtain ⟨hmonth, hday⟩ := lt_of_isValid valid
  have same : (⟨(date.year.natAbs : Int), date.month, date.day⟩ : Date) = date := by
    rw [Int.natAbs_of_nonneg low]
  have clock : (t.seconds % 86400).toNat < 86400 := by omega
  rw [read_textOf (by omega) hmonth hday (by omega) (by omega) (by omega) t.nanos_lt
    (same.symm ▸ valid), same, days]
  have seconds : t.seconds / 86400 * 86400
      + (((t.seconds % 86400).toNat / 3600 : Nat) * 3600
        + ((t.seconds % 86400).toNat / 60 % 60 : Nat) * 60
        + (min ((t.seconds % 86400).toNat % 60) 59 : Nat) : Int) - 0 = t.seconds := by omega
  rw [seconds, new_parts]

end DocumentStore.Timestamp
