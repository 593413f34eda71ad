import DocumentStore.Proofs.Time.Rfc3339

/-! # Timestamps are told apart by their texts

Every part of a written timestamp but the year has a fixed width, so texts that agree agree in each
part. A year outside the four digits is told from the others by its sign. This holds of all years that
are written, also of those that cannot be read back. -/

namespace DocumentStore

namespace Text

variable {width m n : Nat} {as bs : List Char}

theorem padDigits_inj : padDigits width m = padDigits width n ↔ m = n := by
  refine ⟨fun same => ?_, congrArg _⟩
  rw [← Timestamp.digitBytes_padDigits width m, same, Timestamp.digitBytes_padDigits]

theorem padDigits_append_inj (pos : 0 < width) (hm : m < 10 ^ width) (hn : n < 10 ^ width)
    (same : padDigits width m ++ as = padDigits width n ++ bs) : m = n ∧ as = bs := by
  have lengths : (padDigits width m).length = (padDigits width n).length := by
    rw [length_padDigits pos hm, length_padDigits pos hn]
  obtain ⟨digits, rest⟩ := List.append_inj same lengths
  exact ⟨padDigits_inj.mp digits, rest⟩

theorem padDigits_ne_cons {sign : Char} (notDigit : sign.isDigit = false) :
    padDigits width m ≠ sign :: as := by
  intro same
  obtain ⟨d, lt, rfl⟩ := exists_digitChar_of_mem_padDigits (same ▸ List.mem_cons_self)
  rw [digitChar_isDigit lt] at notDigit
  cases notDigit

end Text

namespace Timestamp

open Text

private theorem yearDigits_inj {year other : Int} (same : yearDigits year = yearDigits other) :
    year = other := by
  have noSign : Char.isDigit '-' = false ∧ Char.isDigit '+' = false := by decide
  have unsigned {y z : Int} : padDigits 4 y.natAbs
      ≠ (if z < 0 then '-' else '+') :: padDigits 4 z.natAbs := by
    split
    · exact padDigits_ne_cons noSign.1
    · exact padDigits_ne_cons noSign.2
  unfold yearDigits at same
  by_cases four : 0 ≤ year ∧ year ≤ 9999 <;> by_cases four' : 0 ≤ other ∧ other ≤ 9999
  · rw [if_pos four, if_pos four', padDigits_inj] at same
    omega
  · rw [if_pos four, if_neg four'] at same
    exact absurd same unsigned
  · rw [if_neg four, if_pos four'] at same
    exact absurd same.symm unsigned
  · rw [if_neg four, if_neg four', List.cons.injEq, padDigits_inj] at same
    obtain ⟨signs, sizes⟩ := same
    by_cases negative : year < 0 <;> by_cases negative' : other < 0
    · omega
    · rw [if_pos negative, if_neg negative'] at signs
      cases signs
    · rw [if_neg negative, if_pos negative'] at signs
      cases signs
    · omega

/-- What is written after the year: the other parts of the date, the time of day and the fraction. -/
def afterYear (month day clock nanos : Nat) : List Char :=
  '-' :: (padDigits 2 month ++ '-' :: (padDigits 2 day ++ 'T' :: (padDigits 2 (clock / 3600) ++
    ':' :: (padDigits 2 (clock / 60 % 60) ++ ':' :: (padDigits 2 (clock % 60) ++
    '.' :: (padDigits 9 nanos ++ ['Z']))))))

section AfterYear

variable {month month' day day' clock clock' nanos nanos' : Nat}

private theorem length_afterYear (hmonth : month < 10 ^ 2) (hday : day < 10 ^ 2)
    (hclock : clock < 86400)
    (hnanos : nanos < 10 ^ 9) : (afterYear month day clock nanos).length = 26 := by
  have two : 0 < 2 := by decide
  have nine : 0 < 9 := by decide
  have hhour : clock / 3600 < 10 ^ 2 := by omega
  have hminute : clock / 60 % 60 < 10 ^ 2 := by omega
  have hsecond : clock % 60 < 10 ^ 2 := by omega
  simp only [afterYear, List.length_cons, List.length_append, length_padDigits two hmonth,
    length_padDigits two hday, length_padDigits two hhour, length_padDigits two hminute,
    length_padDigits two hsecond, length_padDigits nine hnanos, List.length_nil]

private theorem afterYear_inj (hmonth : month < 10 ^ 2) (hmonth' : month' < 10 ^ 2)
    (hday : day < 10 ^ 2)
    (hday' : day' < 10 ^ 2) (hclock : clock < 86400) (hclock' : clock' < 86400)
    (hnanos : nanos < 10 ^ 9) (hnanos' : nanos' < 10 ^ 9)
    (same : afterYear month day clock nanos = afterYear month' day' clock' nanos') :
    month = month' ∧ day = day' ∧ clock = clock' ∧ nanos = nanos' := by
  have two : 0 < 2 := by decide
  obtain ⟨months, same⟩ := padDigits_append_inj two hmonth hmonth' (List.cons.inj same).2
  obtain ⟨days, same⟩ := padDigits_append_inj two hday hday' (List.cons.inj same).2
  obtain ⟨hours, same⟩ :=
    padDigits_append_inj two (by omega) (by omega) (List.cons.inj same).2
  obtain ⟨minutes, same⟩ :=
    padDigits_append_inj two (by omega) (by omega) (List.cons.inj same).2
  obtain ⟨seconds, same⟩ :=
    padDigits_append_inj two (by omega) (by omega) (List.cons.inj same).2
  obtain ⟨fractions, -⟩ :=
    padDigits_append_inj (by decide) hnanos hnanos' (List.cons.inj same).2
  exact ⟨months, days, by omega, fractions⟩

end AfterYear

variable {t u : Timestamp} {s : String}

/-- The second of the day. -/
def clock (t : Timestamp) : Nat := (t.seconds % 86400).toNat

private theorem clock_lt (t : Timestamp) : t.clock < 86400 := by
  unfold clock
  omega

def date (t : Timestamp) : Date := Date.ofDays (t.seconds / 86400)

private theorem date_lt (t : Timestamp) : t.date.month < 10 ^ 2 ∧ t.date.day < 10 ^ 2 :=
  lt_of_isValid (Date.isValid_ofDays _)

private theorem seconds_eq (t : Timestamp) : t.seconds = t.date.toDays * 86400 + t.clock := by
  rw [date, Date.toDays_ofDays, clock]
  omega

private theorem eq_of_parts (dates : t.date = u.date) (clocks : t.clock = u.clock)
    (nanos : t.nanos = u.nanos) : t = u := by
  have seconds : t.seconds = u.seconds := by rw [seconds_eq, seconds_eq, dates, clocks]
  cases t
  cases u
  simp_all

private theorem toList_of_writeFull (written : t.writeFull? = some s) :
    s.toList = yearDigits t.date.year ++ afterYear t.date.month t.date.day t.clock t.nanos := by
  rw [writeFull?, write?] at written
  split at written
  · cases written
    simp only [fractionDigits_nine, String.toList_ofList, afterYear, date, clock, List.append_assoc,
      List.cons_append]
  · cases written

/-- Timestamps with one text are one timestamp. -/
theorem writeFull_inj (ht : t.writeFull? = some s) (hu : u.writeFull? = some s) : t = u := by
  have same : yearDigits t.date.year ++ afterYear t.date.month t.date.day t.clock t.nanos
      = yearDigits u.date.year ++ afterYear u.date.month u.date.day u.clock u.nanos := by
    rw [← toList_of_writeFull ht, toList_of_writeFull hu]
  obtain ⟨tMonth, tDay⟩ := t.date_lt
  obtain ⟨uMonth, uDay⟩ := u.date_lt
  -- Years differ in their widths, so the texts are compared from the end.
  have lengths : (afterYear t.date.month t.date.day t.clock t.nanos).length
      = (afterYear u.date.month u.date.day u.clock u.nanos).length := by
    rw [length_afterYear tMonth tDay t.clock_lt t.nanos_lt,
      length_afterYear uMonth uDay u.clock_lt u.nanos_lt]
  obtain ⟨yearTexts, same⟩ := List.append_inj' same lengths
  have years := yearDigits_inj yearTexts
  obtain ⟨months, days, clocks, nanos⟩ := afterYear_inj tMonth uMonth tDay uDay t.clock_lt
    u.clock_lt t.nanos_lt u.nanos_lt same
  have dates : t.date = u.date := by
    calc t.date = ⟨t.date.year, t.date.month, t.date.day⟩ := rfl
      _ = ⟨u.date.year, u.date.month, u.date.day⟩ := by rw [years, months, days]
      _ = u.date := rfl
  exact eq_of_parts dates clocks nanos

end Timestamp

end DocumentStore
