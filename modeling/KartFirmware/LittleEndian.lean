import Mathlib.Data.List.GetD

/-!
# Little-endian words

A 32-bit word as its four bytes, the low one first.  `word` and the four bytes are
inverse to each other in both directions (`word_bytes`, `bytes_word`).
-/

namespace LittleEndian

def bytes (x : UInt32) : List UInt8 :=
  [x.toUInt8, (x >>> 8).toUInt8, (x >>> 16).toUInt8, (x >>> 24).toUInt8]

def word (b₀ b₁ b₂ b₃ : UInt8) : UInt32 :=
  b₀.toUInt32 ||| b₁.toUInt32 <<< 8 ||| b₂.toUInt32 <<< 16 ||| b₃.toUInt32 <<< 24

@[simp] theorem length_bytes (x : UInt32) : (bytes x).length = 4 := rfl

/-- A word is put together again from its four bytes. -/
theorem bytes_or (x : UInt32) :
    (x.toUInt8.toUInt32 ||| (x >>> 8).toUInt8.toUInt32 <<< 8 |||
      (x >>> 16).toUInt8.toUInt32 <<< 16 ||| (x >>> 24).toUInt8.toUInt32 <<< 24) = x := by
  apply UInt32.toBitVec_inj.mp
  ext i hi
  simp only [UInt32.toBitVec_or, UInt32.toBitVec_shiftLeft, UInt8.toBitVec_toUInt32,
    UInt32.toBitVec_toUInt8, UInt32.toBitVec_shiftRight]
  have hback : ∀ j, j ≤ i → x.toBitVec.getLsbD (j + (i - j)) = x.toBitVec[i] := by
    intro j hj
    rw [Nat.add_sub_cancel' hj, BitVec.getLsbD_eq_getElem hi]
  have hbit := BitVec.getLsbD_eq_getElem (x := x.toBitVec) hi
  rcases Nat.lt_or_ge i 8 with h8 | h8
  · simp [h8, show i < 16 by omega, show i < 24 by omega, hbit]
  rcases Nat.lt_or_ge i 16 with h16 | h16
  · simp [hback 8 h8, show ¬ i < 8 by omega, h16, show i < 24 by omega, show i - 8 < 8 by omega]
  rcases Nat.lt_or_ge i 24 with h24 | h24
  · simp [hback 16 h16, show ¬ i < 8 by omega, show ¬ i < 16 by omega, h24,
      show i - 16 < 8 by omega, show ¬ i - 8 < 8 by omega]
  · simp [hback 24 h24, show ¬ i < 8 by omega, show ¬ i < 16 by omega, show ¬ i < 24 by omega,
      show i - 24 < 8 by omega, show ¬ i - 8 < 8 by omega, show ¬ i - 16 < 8 by omega]


theorem word_bytes (x : UInt32) :
    word x.toUInt8 (x >>> 8).toUInt8 (x >>> 16).toUInt8 (x >>> 24).toUInt8 = x := bytes_or x

/-! ### The bytes of a word that was put together -/

section

variable (b₀ b₁ b₂ b₃ : UInt8)

/-- The four bytes do not overlap. -/
theorem word_toNat : (word b₀ b₁ b₂ b₃).toNat =
    b₀.toNat + 256 * (b₁.toNat + 256 * (b₂.toNat + 256 * b₃.toNat)) := by
  have h₀ := b₀.toNat_lt
  have h₁ := b₁.toNat_lt
  have h₂ := b₂.toNat_lt
  have h₃ := b₃.toNat_lt
  have s₁ : (b₁.toUInt32 <<< 8).toNat = 2 ^ 8 * b₁.toNat := by
    rw [UInt32.toNat_shiftLeft, UInt8.toNat_toUInt32, Nat.shiftLeft_eq]
    change b₁.toNat * 2 ^ 8 % 2 ^ 32 = _
    omega
  have s₂ : (b₂.toUInt32 <<< 16).toNat = 2 ^ 16 * b₂.toNat := by
    rw [UInt32.toNat_shiftLeft, UInt8.toNat_toUInt32, Nat.shiftLeft_eq]
    change b₂.toNat * 2 ^ 16 % 2 ^ 32 = _
    omega
  have s₃ : (b₃.toUInt32 <<< 24).toNat = 2 ^ 24 * b₃.toNat := by
    rw [UInt32.toNat_shiftLeft, UInt8.toNat_toUInt32, Nat.shiftLeft_eq]
    change b₃.toNat * 2 ^ 24 % 2 ^ 32 = _
    omega
  rw [word, UInt32.toNat_or, UInt32.toNat_or, UInt32.toNat_or, s₁, s₂, s₃,
    UInt8.toNat_toUInt32, Nat.or_comm b₀.toNat, ← Nat.two_pow_add_eq_or_of_lt h₀,
    Nat.or_comm _ (2 ^ 16 * _), ← Nat.two_pow_add_eq_or_of_lt (by omega),
    Nat.or_comm _ (2 ^ 24 * _), ← Nat.two_pow_add_eq_or_of_lt (by omega)]
  omega

/-- The bytes come back from the word. -/
theorem bytes_word : bytes (word b₀ b₁ b₂ b₃) = [b₀, b₁, b₂, b₃] := by
  have h₀ := b₀.toNat_lt
  have h₁ := b₁.toNat_lt
  have h₂ := b₂.toNat_lt
  have h₃ := b₃.toNat_lt
  have hword := word_toNat b₀ b₁ b₂ b₃
  have hbyte : ∀ (k : UInt32) (b : UInt8),
      (word b₀ b₁ b₂ b₃).toNat / 2 ^ (k.toNat % 32) % 2 ^ 8 = b.toNat →
        (word b₀ b₁ b₂ b₃ >>> k).toUInt8 = b := by
    intro k b hk
    apply UInt8.toNat_inj.mp
    rw [UInt32.toNat_toUInt8, UInt32.toNat_shiftRight, Nat.shiftRight_eq_div_pow]
    exact hk
  have e₀ : (word b₀ b₁ b₂ b₃).toUInt8 = b₀ := by
    apply UInt8.toNat_inj.mp
    rw [UInt32.toNat_toUInt8, hword]
    omega
  have e₁ : (word b₀ b₁ b₂ b₃ >>> 8).toUInt8 = b₁ := by
    apply hbyte
    change _ / 2 ^ 8 % 2 ^ 8 = _
    omega
  have e₂ : (word b₀ b₁ b₂ b₃ >>> 16).toUInt8 = b₂ := by
    apply hbyte
    change _ / 2 ^ 16 % 2 ^ 8 = _
    omega
  have e₃ : (word b₀ b₁ b₂ b₃ >>> 24).toUInt8 = b₃ := by
    apply hbyte
    change _ / 2 ^ 24 % 2 ^ 8 = _
    omega
  rw [bytes, e₀, e₁, e₂, e₃]

/-- The high byte of a word that was put together. -/
theorem word_high : (word b₀ b₁ b₂ b₃ >>> 24).toUInt8 = b₃ := by
  have hbytes := bytes_word b₀ b₁ b₂ b₃
  simp only [bytes, List.cons.injEq] at hbytes
  exact hbytes.2.2.2.1

end

/-! ### Words cut short -/

/-- The first `n` bytes of a word, with ones for the rest. -/
def cut (x : UInt32) (n : Nat) : UInt32 :=
  word (((bytes x).take n).getD 0 0xFF) (((bytes x).take n).getD 1 0xFF)
    (((bytes x).take n).getD 2 0xFF) (((bytes x).take n).getD 3 0xFF)

theorem cut_zero (x : UInt32) : cut x 0 = 0xFFFFFFFF := by
  have hnone : cut x 0 = word 0xFF 0xFF 0xFF 0xFF := by
    rw [cut, List.take_zero]
    rfl
  rw [hnone]
  decide

theorem cut_of_le (x : UInt32) {n : Nat} (h : 4 ≤ n) : cut x n = x := by
  rw [cut, List.take_of_length_le (by rw [length_bytes]; exact h)]
  exact word_bytes x

/-- The high byte is the first that is missing. -/
theorem cut_high (x : UInt32) {n : Nat} (h : n < 4) : (cut x n >>> 24).toUInt8 = 0xFF := by
  rw [cut, word_high, List.getD_eq_default]
  rw [List.length_take]
  omega

end LittleEndian
