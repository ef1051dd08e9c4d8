import Mathlib

/-!
# Base-128 varints

A number as groups of seven bits, the low one first, with the high bit set on every byte
but the last (`varint`).  `encode` makes the same bytes from the two 32-bit halves of a
64-bit value, without a wide shift: four groups of the low half, a group across the two,
and the rest of the high half (`encode_eq`).
-/

namespace Varint

def varint (n : Nat) : List UInt8 :=
  if n < 128 then [n.toUInt8] else (n % 128 + 128).toUInt8 :: varint (n / 128)
termination_by n
decreasing_by omega

/-! ### From two halves -/

/-- The bytes of the high half, behind a byte that is not yet written. -/
def highBytes : Nat → Nat → Nat → List UInt8
  | 0, byte, _ => [byte.toUInt8]
  | k + 1, byte, high =>
    if high = 0 then [byte.toUInt8]
    else (byte + 128).toUInt8 :: highBytes k (high % 128) (high / 128)

/-- The byte across the halves takes three bits of the high one. -/
def middleByte (byte high : Nat) : List UInt8 :=
  if high = 0 then [byte.toUInt8] else highBytes 5 (byte + 16 * (high % 8)) (high / 8)

/-- At most `k` more bytes of the low half. -/
def lowBytes : Nat → Nat → Nat → Nat → List UInt8
  | 0, byte, _, high => middleByte byte high
  | k + 1, byte, low, high =>
    if low ≠ 0 ∨ high ≠ 0 then
      (byte + 128).toUInt8 :: lowBytes k (low % 128) (low / 128) high
    else [byte.toUInt8]

/-- A 64-bit value. -/
def encode (n : Nat) : List UInt8 :=
  if n ≤ 127 then [n.toUInt8]
  else
    let low := n % 4294967296
    lowBytes 4 (low % 128) (low / 128) (n / 4294967296)

/-! ### The two are the same -/

theorem varint_small {n : Nat} (h : n < 128) : varint n = [n.toUInt8] := by
  rw [varint, if_pos h]

/-- One group, and the rest. -/
theorem varint_cons {byte rest : Nat} (hbyte : byte < 128) (hrest : rest ≠ 0) :
    varint (byte + 128 * rest) = (byte + 128).toUInt8 :: varint rest := by
  have hmod : (byte + 128 * rest) % 128 = byte := by omega
  have hdiv : (byte + 128 * rest) / 128 = rest := by omega
  rw [varint, if_neg (by omega), hmod, hdiv]

theorem highBytes_eq (k : Nat) {byte high : Nat} (hbyte : byte < 128) (hhigh : high < 128 ^ k) :
    highBytes k byte high = varint (byte + 128 * high) := by
  induction k generalizing byte high with
  | zero =>
    obtain rfl : high = 0 := by omega
    exact (varint_small hbyte).symm
  | succ k ih =>
    rw [Nat.pow_succ] at hhigh
    rw [highBytes]
    split_ifs with hzero
    · subst hzero
      exact (varint_small hbyte).symm
    · have hsplit : high % 128 + 128 * (high / 128) = high := by omega
      rw [ih (Nat.mod_lt _ (by omega)) (Nat.div_lt_of_lt_mul (by omega)), hsplit,
        varint_cons hbyte hzero]

theorem middleByte_eq {byte high : Nat} (hbyte : byte < 16) (hhigh : high < 4294967296) :
    middleByte byte high = varint (byte + 16 * high) := by
  rw [middleByte]
  split_ifs with hzero
  · subst hzero
    exact (varint_small (by omega)).symm
  · have hsplit : byte + 16 * (high % 8) + 128 * (high / 8) = byte + 16 * high := by omega
    rw [highBytes_eq 5 (by omega) (by omega), hsplit]

theorem lowBytes_eq (k : Nat) {byte low high : Nat} (hbyte : byte < 128)
    (hlow : byte + 128 * low < 16 * 128 ^ k) (hhigh : high < 4294967296) :
    lowBytes k byte low high = varint (byte + 128 * low + 16 * 128 ^ k * high) := by
  induction k generalizing byte low with
  | zero =>
    obtain rfl : low = 0 := by omega
    rw [lowBytes, middleByte_eq (by omega) hhigh]
    rfl
  | succ k ih =>
    rw [lowBytes]
    split_ifs with hmore
    · have hpow : 16 * 128 ^ (k + 1) = 128 * (16 * 128 ^ k) := by rw [Nat.pow_succ]; omega
      rw [hpow] at hlow ⊢
      have hrest : low + 16 * 128 ^ k * high ≠ 0 := by
        have hpos : 0 < 16 * 128 ^ k := Nat.mul_pos (by omega) (Nat.pow_pos (by omega))
        rcases hmore with hne | hne
        · omega
        · have := Nat.mul_pos hpos (Nat.pos_of_ne_zero hne)
          omega
      have hsplit : low % 128 + 128 * (low / 128) = low := by omega
      rw [ih (Nat.mod_lt _ (by omega)) (by omega), hsplit, Nat.mul_assoc 128, Nat.add_assoc byte,
        ← Nat.mul_add, varint_cons hbyte hrest]
    · obtain ⟨rfl, rfl⟩ : low = 0 ∧ high = 0 := by omega
      exact (varint_small hbyte).symm

/-- Without a wide shift the bytes are those of the varint. -/
theorem encode_eq {n : Nat} (h : n < 18446744073709551616) : encode n = varint n := by
  rw [encode]
  split_ifs with hsmall
  · exact (varint_small (by omega)).symm
  · have hpow : 16 * 128 ^ 4 = 4294967296 := by decide
    have hsplit : n % 4294967296 % 128 + 128 * (n % 4294967296 / 128) +
        4294967296 * (n / 4294967296) = n := by omega
    dsimp only
    rw [lowBytes_eq 4 (by omega) (by rw [hpow]; omega) (by omega), hpow, hsplit]

/-! ### How many bytes -/

theorem length_varint (n : Nat) : (varint n).length = Nat.log 128 n + 1 := by
  induction n using Nat.strongRecOn with
  | ind n ih =>
    rw [varint]
    split_ifs with hsmall
    · rw [Nat.log_of_lt hsmall]
      rfl
    · rw [List.length_cons, ih (n / 128) (by omega),
        Nat.log_of_one_lt_of_le (n := n) (by omega) (by omega)]

theorem length_encode {n : Nat} (h : n < 18446744073709551616) :
    (encode n).length = Nat.log 128 n + 1 := by
  rw [encode_eq h, length_varint]

/-- A value with the 64th bit takes ten bytes. -/
theorem length_encode_of_high {n : Nat} (hlow : 9223372036854775808 ≤ n)
    (hhigh : n < 18446744073709551616) : (encode n).length = 10 := by
  rw [length_encode hhigh, Nat.log_eq_of_pow_le_of_lt_pow (m := 9)]
  · change 9223372036854775808 ≤ n
    exact hlow
  · change n < 1180591620717411303424
    omega

end Varint
