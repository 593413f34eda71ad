import DocumentStore.Proofs.Text.Ascii
import DocumentStore.Text.Base64

/-! # Base64 texts are read back

A group of three bytes makes four symbols that give the bytes again; a last group of one or two bytes
makes two or three symbols and padding. -/

namespace DocumentStore.Text.Base64

def symbolByte (n : Nat) : UInt8 := (symbolOf n).toUInt8

/-- What is needed of the sixty-four symbols. -/
theorem symbol_facts : ∀ n < 64,
    isAscii (symbolOf n) ∧ value? (symbolByte n) = some n ∧ symbolByte n ≠ pad := by
  decide

variable {n : Nat}

theorem symbolAt_symbolByte (h : n < 64) (offset : Nat) :
    symbolAt (symbolByte n) offset = .ok n := by
  rw [symbolAt, (symbol_facts n h).2.1]

theorem lastSymbols_symbolByte (h : n < 64) (start index : Nat) (rest : List UInt8) :
    lastSymbols start (symbolByte n :: rest) index none 0
      = (lastSymbols start rest (index + 1) none 0).map fun r =>
          ((symbolByte n, n) :: r.1, r.2) := by
  rw [lastSymbols, if_neg (symbol_facts n h).2.2]
  simp only [symbolAt_symbolByte h]
  cases lastSymbols start rest (index + 1) none 0 <;> rfl

section Symbols

variable {m k l : Nat} (start : Nat)

private theorem lastGroup_two (hm : m < 64) (hn : n < 64) (rest : n % 16 = 0) :
    lastGroup start [symbolByte m, symbolByte n, pad, pad] = .ok [UInt8.ofNat (m * 4 + n / 16)] := by
  have read : lastSymbols start [symbolByte m, symbolByte n, pad, pad] 0 none 0
      = .ok ([(symbolByte m, m), (symbolByte n, n)], 2) := by
    rw [lastSymbols_symbolByte hm, lastSymbols_symbolByte hn]
    rfl
  simp only [lastGroup, read, List.length_cons, List.length_nil, rest]
  rfl

private theorem lastGroup_three (hm : m < 64) (hn : n < 64) (hk : k < 64) (rest : k % 4 = 0) :
    lastGroup start [symbolByte m, symbolByte n, symbolByte k, pad]
      = .ok [UInt8.ofNat (m * 4 + n / 16), UInt8.ofNat (n % 16 * 16 + k / 4)] := by
  have read : lastSymbols start [symbolByte m, symbolByte n, symbolByte k, pad] 0 none 0
      = .ok ([(symbolByte m, m), (symbolByte n, n), (symbolByte k, k)], 1) := by
    rw [lastSymbols_symbolByte hm, lastSymbols_symbolByte hn, lastSymbols_symbolByte hk]
    rfl
  simp only [lastGroup, read, List.length_cons, List.length_nil, rest]
  rfl

private theorem lastGroup_four (hm : m < 64) (hn : n < 64) (hk : k < 64) (hl : l < 64) :
    lastGroup start [symbolByte m, symbolByte n, symbolByte k, symbolByte l]
      = .ok [UInt8.ofNat (m * 4 + n / 16), UInt8.ofNat (n % 16 * 16 + k / 4),
          UInt8.ofNat (k % 4 * 64 + l)] := by
  have read : lastSymbols start [symbolByte m, symbolByte n, symbolByte k, symbolByte l] 0 none 0
      = .ok ([(symbolByte m, m), (symbolByte n, n), (symbolByte k, k), (symbolByte l, l)], 0) := by
    rw [lastSymbols_symbolByte hm, lastSymbols_symbolByte hn, lastSymbols_symbolByte hk,
      lastSymbols_symbolByte hl]
    rfl
  simp only [lastGroup, read, List.length_cons, List.length_nil]
  rfl

theorem decodeGroups_four (hm : m < 64) (hn : n < 64) (hk : k < 64) (hl : l < 64)
    {e : UInt8} {more bytes : List UInt8} (rest : decodeGroups (start + 4) (e :: more) = .ok bytes) :
    decodeGroups start (symbolByte m :: symbolByte n :: symbolByte k :: symbolByte l :: e :: more)
      = .ok (UInt8.ofNat (m * 4 + n / 16) :: UInt8.ofNat (n % 16 * 16 + k / 4) ::
          UInt8.ofNat (k % 4 * 64 + l) :: bytes) := by
  rw [decodeGroups, symbolAt_symbolByte hm, symbolAt_symbolByte hn, symbolAt_symbolByte hk,
    symbolAt_symbolByte hl, rest]
  rfl

end Symbols

/-- A byte that is put together from its parts. -/
theorem ofNat_eq {k : Nat} {a : UInt8} (h : k = a.toNat) : UInt8.ofNat k = a := by
  rw [h, UInt8.ofNat_toNat]

section Groups

variable (a b c : UInt8)

/-- The four symbols of three bytes. -/
theorem symbols_lt :
    a.toNat / 4 < 64 ∧ a.toNat % 4 * 16 + b.toNat / 16 < 64 ∧
      b.toNat % 16 * 4 + c.toNat / 64 < 64 ∧ c.toNat % 64 < 64 := by
  have ha := a.toNat_lt
  have hb := b.toNat_lt
  have hc := c.toNat_lt
  omega

theorem bytes_of_symbols :
    UInt8.ofNat (a.toNat / 4 * 4 + (a.toNat % 4 * 16 + b.toNat / 16) / 16) = a ∧
      UInt8.ofNat ((a.toNat % 4 * 16 + b.toNat / 16) % 16 * 16
        + (b.toNat % 16 * 4 + c.toNat / 64) / 4) = b ∧
      UInt8.ofNat ((b.toNat % 16 * 4 + c.toNat / 64) % 4 * 64 + c.toNat % 64) = c := by
  have ha := a.toNat_lt
  have hb := b.toNat_lt
  have hc := c.toNat_lt
  exact ⟨ofNat_eq (by omega), ofNat_eq (by omega), ofNat_eq (by omega)⟩

end Groups

private theorem decodeGroups_encodeBytes (start : Nat) (bytes : List UInt8) :
    decodeGroups start ((encodeBytes bytes).map Char.toUInt8) = .ok bytes := by
  fun_induction encodeBytes bytes generalizing start with
  | case1 => rfl
  | case2 a =>
    have ha := a.toNat_lt
    have value : a.toNat / 4 * 4 + a.toNat % 4 * 16 / 16 = a.toNat := by omega
    have group := lastGroup_two start (m := a.toNat / 4) (n := a.toNat % 4 * 16) (by omega)
      (by omega) (by omega)
    rw [ofNat_eq value] at group
    exact group
  | case3 a b =>
    have ha := a.toNat_lt
    have hb := b.toNat_lt
    have valueA : a.toNat / 4 * 4 + (a.toNat % 4 * 16 + b.toNat / 16) / 16 = a.toNat := by omega
    have valueB : (a.toNat % 4 * 16 + b.toNat / 16) % 16 * 16 + b.toNat % 16 * 4 / 4
        = b.toNat := by omega
    have group := lastGroup_three start (m := a.toNat / 4)
      (n := a.toNat % 4 * 16 + b.toNat / 16) (k := b.toNat % 16 * 4) (by omega) (by omega)
      (by omega) (by omega)
    rw [ofNat_eq valueA, ofNat_eq valueB] at group
    exact group
  | case4 a b c rest ih =>
    obtain ⟨first, second, third, fourth⟩ := symbols_lt a b c
    obtain ⟨valueA, valueB, valueC⟩ := bytes_of_symbols a b c
    have later := ih (start + 4)
    rw [List.map_cons, List.map_cons, List.map_cons, List.map_cons]
    cases symbols : (encodeBytes rest).map Char.toUInt8 with
    | nil =>
      rw [symbols] at later
      cases later
      have group := lastGroup_four start first second third fourth
      rw [valueA, valueB, valueC] at group
      exact group
    | cons e more =>
      rw [symbols] at later
      have group := decodeGroups_four start first second third fourth later
      rw [valueA, valueB, valueC] at group
      exact group

theorem length_encodeBytes (bytes : List UInt8) : (encodeBytes bytes).length % 4 = 0 := by
  fun_induction encodeBytes bytes with
  | case1 => rfl
  | case2 a => simp only [List.length_cons, List.length_nil]
  | case3 a b => simp only [List.length_cons, List.length_nil]
  | case4 a b c rest ih =>
    simp only [List.length_cons]
    omega

theorem isAscii_of_mem_encodeBytes (bytes : List UInt8) :
    ∀ ch ∈ encodeBytes bytes, isAscii ch := by
  have symbol {n : Nat} (h : n < 64) : isAscii (symbolOf n) := (symbol_facts n h).1
  fun_induction encodeBytes bytes with
  | case1 => nofun
  | case2 a =>
    have ha := a.toNat_lt
    simp only [List.forall_mem_cons]
    exact ⟨symbol (by omega), symbol (by omega), rfl, rfl, nofun⟩
  | case3 a b =>
    have ha := a.toNat_lt
    have hb := b.toNat_lt
    simp only [List.forall_mem_cons]
    exact ⟨symbol (by omega), symbol (by omega), symbol (by omega), rfl, nofun⟩
  | case4 a b c rest ih =>
    obtain ⟨first, second, third, fourth⟩ := symbols_lt a b c
    simp only [List.forall_mem_cons]
    exact ⟨symbol first, symbol second, symbol third, symbol fourth, ih⟩

/-- Every list of bytes is read back from its text. -/
theorem decode_encode (bytes : List UInt8) : decode (encode bytes) = .ok bytes := by
  have symbols := toUTF8_ofList (isAscii_of_mem_encodeBytes bytes)
  have noStray : strayLast? ((encodeBytes bytes).map Char.toUInt8) = none := by
    have length := length_encodeBytes bytes
    unfold strayLast?
    rw [List.length_map, length]
    split <;> rfl
  rw [decode, encode, symbols]
  simp only [noStray]
  exact decodeGroups_encodeBytes 0 bytes

end DocumentStore.Text.Base64
