import KartFirmware.PbDecode
import Mathlib.Tactic.IntervalCases

/-!
# What the nanopb decoder reads

The protobuf wire format, read by the functions of `pb_decode.c`: varints, tags, the values
of each wire type, and whole fields.  A number is read back from its varint, by the 64-bit
function and, where it has 32 bits, by the short one.

The two functions agree: what the short one accepts is accepted by the long one, with the
same low bits, and it accepts every number that a 32-bit integer has after a zero or a sign
extension (`decodeVarint32_agrees`).
-/

namespace PbDecode

open Reader

/-! ### Groups of seven bits -/

theorem payload_toNat (byte : UInt8) : (byte &&& 0x7F).toNat = byte.toNat % 128 := by
  rw [UInt8.toNat_and]
  exact Nat.and_two_pow_sub_one_eq_mod byte.toNat 7

/-- The high bit says that another byte follows. -/
theorem last_iff {byte : UInt8} : byte &&& 0x80 = 0 ↔ byte.toNat < 128 := by
  have hcases : ∀ b : BitVec 8, b &&& 0x80 = 0 ↔ b.toNat < 128 := by decide
  rw [← UInt8.toBitVec_inj]
  exact hcases byte.toBitVec

theorem toUInt8_toNat {n : Nat} (h : n < 256) : n.toUInt8.toNat = n := by
  rw [Nat.toUInt8, UInt8.toNat_ofNat']
  exact Nat.mod_eq_of_lt h

/-- A group of bits above a number that has none there. -/
theorem or_shift {r p s w : Nat} (hr : r < 2 ^ s) (hs : s ≤ w) :
    r ||| p * 2 ^ s % 2 ^ w = r + 2 ^ s * (p % 2 ^ (w - s)) := by
  have hpow : 2 ^ w = 2 ^ s * 2 ^ (w - s) := by rw [← pow_add, Nat.add_sub_cancel' hs]
  rw [Nat.mul_comm p, hpow, Nat.mul_mod_mul_left, Nat.or_comm,
    ← Nat.two_pow_add_eq_or_of_lt hr, Nat.add_comm]

theorem or_payload32 {result : UInt32} {bitpos : Nat} (hresult : result.toNat < 2 ^ bitpos)
    (hbitpos : bitpos < 32) (group : UInt8) :
    (result ||| group.toUInt32 <<< bitpos.toUInt32).toNat =
      result.toNat + 2 ^ bitpos * (group.toNat % 2 ^ (32 - bitpos)) := by
  have hshift : bitpos.toUInt32.toNat = bitpos := by
    rw [Nat.toUInt32, UInt32.toNat_ofNat']
    omega
  rw [UInt32.toNat_or, UInt32.toNat_shiftLeft, UInt8.toNat_toUInt32, hshift,
    Nat.mod_eq_of_lt hbitpos, Nat.shiftLeft_eq]
  exact or_shift hresult (Nat.le_of_lt hbitpos)

theorem or_payload64 {result : UInt64} {bitpos : Nat} (hresult : result.toNat < 2 ^ bitpos)
    (hbitpos : bitpos < 64) (group : UInt8) :
    (result ||| group.toUInt64 <<< bitpos.toUInt64).toNat =
      result.toNat + 2 ^ bitpos * (group.toNat % 2 ^ (64 - bitpos)) := by
  have hshift : bitpos.toUInt64.toNat = bitpos := by
    rw [Nat.toUInt64, UInt64.toNat_ofNat']
    omega
  rw [UInt64.toNat_or, UInt64.toNat_shiftLeft, UInt8.toNat_toUInt64, hshift,
    Nat.mod_eq_of_lt hbitpos, Nat.shiftLeft_eq]
  exact or_shift hresult (Nat.le_of_lt hbitpos)

/-! ### Byte by byte -/

theorem varintLoop_nil (result : UInt64) (bitpos : Nat) :
    (varintLoop result bitpos).run [] = .error (some "end-of-stream") := by
  rw [varintLoop]
  rfl

/-- One turn of the 64-bit loop. -/
theorem varintLoop_cons (result : UInt64) (bitpos : Nat) (byte : UInt8) (rest : List UInt8) :
    (varintLoop result bitpos).run (byte :: rest) =
      if 63 ≤ bitpos ∧ byte &&& 0xFE ≠ 0 then .error (some "varint overflow")
      else if byte &&& 0x80 = 0 then
        .ok (result ||| (byte &&& 0x7F).toUInt64 <<< bitpos.toUInt64, rest)
      else
        (varintLoop (result ||| (byte &&& 0x7F).toUInt64 <<< bitpos.toUInt64) (bitpos + 7)).run
          rest := by
  rw [varintLoop, run_bind_ok (show readByte.run (byte :: rest) = .ok (byte, rest) from rfl)]
  by_cases hover : 63 ≤ bitpos ∧ byte &&& 0xFE ≠ 0
  · rw [dif_pos hover, if_pos hover]
    rfl
  · rw [dif_neg hover, if_neg hover]
    by_cases hlast : byte &&& 0x80 = 0
    · simp [hlast]
    · simp [hlast]

theorem varint32Loop_nil (result : UInt32) (bitpos : Nat) :
    (varint32Loop result bitpos).run [] = .error (some "end-of-stream") := by
  rw [varint32Loop]
  rfl

/-- One turn of the 32-bit loop. -/
theorem varint32Loop_cons (result : UInt32) (bitpos : Nat) (byte : UInt8) (rest : List UInt8) :
    (varint32Loop result bitpos).run (byte :: rest) =
      match varint32Bits result bitpos byte with
      | .error e => .error e
      | .ok next =>
        if byte &&& 0x80 = 0 then .ok (next, rest)
        else (varint32Loop next (bitpos + 7)).run rest := by
  rw [varint32Loop, run_bind_ok (show readByte.run (byte :: rest) = .ok (byte, rest) from rfl)]
  split
  · next e he => simp [he]
  · next next hnext =>
    simp only [hnext]
    by_cases hlast : byte &&& 0x80 = 0
    · simp [hlast]
    · simp [hlast]

/-! ### A number and its varint -/

/-- The groups of a number below `2 ^ w`, above `bitpos` bits that are read. -/
theorem lt_two_pow_sub {m bitpos w : Nat} (hbitpos : bitpos ≤ w) (hm : 2 ^ bitpos * m < 2 ^ w) :
    m < 2 ^ (w - bitpos) := by
  have hsplit : 2 ^ w = 2 ^ bitpos * 2 ^ (w - bitpos) := by
    rw [← pow_add, Nat.add_sub_cancel' hbitpos]
  rw [hsplit] at hm
  exact Nat.lt_of_mul_lt_mul_left hm

theorem add_lt_two_pow {r m bitpos w : Nat} (hbitpos : bitpos ≤ w) (hr : r < 2 ^ bitpos)
    (hm : 2 ^ bitpos * m < 2 ^ w) : r + 2 ^ bitpos * m < 2 ^ w := by
  have hsplit : 2 ^ w = 2 ^ bitpos * 2 ^ (w - bitpos) := by
    rw [← pow_add, Nat.add_sub_cancel' hbitpos]
  have hle : 2 ^ bitpos * (m + 1) ≤ 2 ^ w := by
    rw [hsplit]
    exact Nat.mul_le_mul_left _ (lt_two_pow_sub hbitpos hm)
  rw [Nat.mul_succ] at hle
  omega

/-- The byte of a group that another one follows. -/
theorem more_byte (m : Nat) :
    ¬ (m % 128 + 128).toUInt8 &&& 0x80 = 0 ∧
      ((m % 128 + 128).toUInt8 &&& 0x7F).toNat = m % 128 := by
  have hbyte : (m % 128 + 128).toUInt8.toNat = m % 128 + 128 := toUInt8_toNat (by omega)
  rw [last_iff, payload_toNat, hbyte]
  omega

theorem last_byte {m : Nat} (h : m < 128) :
    m.toUInt8 &&& 0x80 = 0 ∧ (m.toUInt8 &&& 0x7F).toNat = m := by
  have hbyte : m.toUInt8.toNat = m := toUInt8_toNat (by omega)
  rw [last_iff, payload_toNat, hbyte]
  omega

/-- A whole group stays below the bits of the number. -/
theorem group_split (m bitpos : Nat) :
    2 ^ bitpos * (m % 128) + 2 ^ (bitpos + 7) * (m / 128) = 2 ^ bitpos * m := by
  have hsplit : m % 128 + 2 ^ 7 * (m / 128) = m := by omega
  rw [pow_add, Nat.mul_assoc, ← Nat.mul_add, hsplit]

theorem add_group_lt {r m bitpos : Nat} (hr : r < 2 ^ bitpos) :
    r + 2 ^ bitpos * (m % 128) < 2 ^ (bitpos + 7) := by
  have hle : 2 ^ bitpos * (m % 128) ≤ 2 ^ bitpos * 127 := Nat.mul_le_mul_left _ (by omega)
  rw [pow_add]
  omega

theorem bitpos_of_more {m bitpos w : Nat} (hm : 2 ^ bitpos * m < 2 ^ (w + 7)) (hmore : ¬ m < 128) :
    bitpos < w := by
  by_contra hge
  have hpow : 2 ^ w ≤ 2 ^ bitpos := Nat.pow_le_pow_right (by omega) (Nat.le_of_not_lt hge)
  have := Nat.mul_le_mul hpow (Nat.le_of_not_lt hmore)
  rw [pow_add] at hm
  omega

/-- The 64-bit loop, with the groups below `bitpos` read. -/
theorem reads_varintLoop {m bitpos : Nat} {result : UInt64} (hresult : result.toNat < 2 ^ bitpos)
    (hbitpos : bitpos < 64) (hm : 2 ^ bitpos * m < 2 ^ 64) :
    (varintLoop result bitpos).Reads (Varint.varint m)
      (UInt64.ofNat (result.toNat + 2 ^ bitpos * m)) := by
  induction m using Nat.strongRecOn generalizing bitpos result with
  | ind m ih =>
    intro rest
    rw [Varint.varint]
    split_ifs with hsmall
    · -- the last group
      obtain ⟨hlast, hpayload⟩ := last_byte hsmall
      have hfits := lt_two_pow_sub (Nat.le_of_lt hbitpos) hm
      have hover : ¬ (63 ≤ bitpos ∧ m.toUInt8 &&& 0xFE ≠ 0) := by
        rintro ⟨h63, hne⟩
        obtain rfl : bitpos = 63 := by omega
        have hone : m < 2 := hfits
        interval_cases m <;> exact hne (by decide)
      rw [List.singleton_append, varintLoop_cons, if_neg hover, if_pos hlast]
      refine congrArg (fun v => Except.ok (v, rest)) (UInt64.toNat_inj.mp ?_)
      rw [or_payload64 hresult hbitpos, hpayload, Nat.mod_eq_of_lt hfits, UInt64.toNat_ofNat']
      exact (Nat.mod_eq_of_lt (add_lt_two_pow (Nat.le_of_lt hbitpos) hresult hm)).symm
    · -- a group, and the rest of the number
      obtain ⟨hmore, hpayload⟩ := more_byte m
      have hless : bitpos < 57 := bitpos_of_more hm hsmall
      have hgroup : m % 128 < 2 ^ (64 - bitpos) :=
        Nat.lt_of_lt_of_le (Nat.mod_lt m (by omega))
          (Nat.pow_le_pow_right (n := 2) (i := 7) (by omega) (by omega))
      have hnext := or_payload64 hresult hbitpos ((m % 128 + 128).toUInt8 &&& 0x7F)
      rw [hpayload, Nat.mod_eq_of_lt hgroup] at hnext
      rw [List.cons_append, varintLoop_cons, if_neg (by omega), if_neg hmore,
        ih (m / 128) (by omega) (by rw [hnext]; exact add_group_lt hresult) (by omega)
          (by have := group_split m bitpos; omega) rest,
        hnext, Nat.add_assoc, group_split]

theorem reads_decodeVarint {n : Nat} (h : n < 2 ^ 64) :
    decodeVarint.Reads (Varint.varint n) (UInt64.ofNat n) := by
  have hloop : (varintLoop 0 0).Reads (Varint.varint n) _ :=
    reads_varintLoop (by decide) (by omega) (by rwa [pow_zero, Nat.one_mul])
  rwa [pow_zero, Nat.one_mul, UInt64.toNat_zero, Nat.zero_add] at hloop

/-- In 32 bits the groups of a number end before the sign extension. -/
theorem reads_varint32Loop {m bitpos : Nat} {result : UInt32} (hresult : result.toNat < 2 ^ bitpos)
    (hbitpos : bitpos ≤ 28) (h7 : 7 ∣ bitpos) (hm : 2 ^ bitpos * m < 2 ^ 32) :
    (varint32Loop result bitpos).Reads (Varint.varint m)
      (UInt32.ofNat (result.toNat + 2 ^ bitpos * m)) := by
  induction m using Nat.strongRecOn generalizing bitpos result with
  | ind m ih =>
    intro rest
    rw [Varint.varint]
    split_ifs with hsmall
    · obtain ⟨hlast, hpayload⟩ := last_byte hsmall
      have hfits := lt_two_pow_sub (by omega) hm
      have hsum : ∀ group : UInt8, group.toNat = m →
          result ||| group.toUInt32 <<< bitpos.toUInt32 =
            UInt32.ofNat (result.toNat + 2 ^ bitpos * m) := by
        intro group hgroup
        apply UInt32.toNat_inj.mp
        rw [or_payload32 hresult (by omega), hgroup, Nat.mod_eq_of_lt hfits, UInt32.toNat_ofNat']
        exact (Nat.mod_eq_of_lt (add_lt_two_pow (by omega) hresult hm)).symm
      rw [List.singleton_append, varint32Loop_cons, varint32Bits, if_neg (by omega)]
      by_cases h28 : bitpos = 28
      · subst h28
        have hm16 : m < 16 := hfits
        have hnibble : (m.toUInt8 &&& 0x0F).toNat = m := by interval_cases m <;> decide
        have hover : ¬ (m.toUInt8 &&& 0x70 ≠ 0 ∧ m.toUInt8 &&& 0x78 ≠ 0x78) := by
          rintro ⟨hne, -⟩
          interval_cases m <;> exact hne (by decide)
        rw [if_pos rfl, if_neg hover, hsum _ hnibble]
        exact if_pos hlast
      · rw [if_neg h28, hsum _ hpayload]
        exact if_pos hlast
    · obtain ⟨hmore, hpayload⟩ := more_byte m
      have hless : bitpos < 25 := bitpos_of_more hm hsmall
      have hgroup : m % 128 < 2 ^ (32 - bitpos) :=
        Nat.lt_of_lt_of_le (Nat.mod_lt m (by omega))
          (Nat.pow_le_pow_right (n := 2) (i := 7) (by omega) (by omega))
      have hnext := or_payload32 hresult (by omega) ((m % 128 + 128).toUInt8 &&& 0x7F)
      rw [hpayload, Nat.mod_eq_of_lt hgroup] at hnext
      rw [List.cons_append, varint32Loop_cons, varint32Bits, if_neg (by omega), if_neg (by omega)]
      dsimp only
      rw [if_neg hmore,
        ih (m / 128) (by omega) (by rw [hnext]; exact add_group_lt hresult) (by omega) (by omega)
          (by have := group_split m bitpos; omega) rest,
        hnext, Nat.add_assoc, group_split]

theorem reads_decodeVarint32 {n : Nat} (h : n < 2 ^ 32) :
    decodeVarint32.Reads (Varint.varint n) (UInt32.ofNat n) := by
  intro rest
  rw [Varint.varint]
  split_ifs with hsmall
  · obtain ⟨hlast, -⟩ := last_byte hsmall
    rw [List.singleton_append, decodeVarint32,
      run_bind_ok (show readByte.run (n.toUInt8 :: rest) = .ok (n.toUInt8, rest) from rfl),
      if_pos hlast, run_pure]
    refine congrArg (fun v => Except.ok (v, rest)) (UInt32.toNat_inj.mp ?_)
    rw [UInt8.toNat_toUInt32, toUInt8_toNat (by omega), UInt32.toNat_ofNat']
    omega
  · obtain ⟨hmore, hpayload⟩ := more_byte n
    have hfirst : ((n % 128 + 128).toUInt8 &&& 0x7F).toUInt32.toNat = n % 128 := by
      rw [UInt8.toNat_toUInt32, hpayload]
    rw [List.cons_append, decodeVarint32,
      run_bind_ok (show readByte.run ((n % 128 + 128).toUInt8 :: (Varint.varint (n / 128) ++ rest)) =
        .ok ((n % 128 + 128).toUInt8, Varint.varint (n / 128) ++ rest) from rfl),
      if_neg hmore, reads_varint32Loop (by rw [hfirst]; omega) (by omega) ⟨1, rfl⟩ (by omega),
      hfirst]
    have hsplit : n % 128 + 2 ^ 7 * (n / 128) = n := by omega
    rw [hsplit]

/-! ### The two functions -/

/-- The masks of the 32-bit function. -/
theorem masks (byte : UInt8) :
    (byte &&& 0x70 = 0 ↔ byte.toNat % 128 < 16) ∧
      (byte &&& 0x78 = 0x78 ↔ 120 ≤ byte.toNat % 128) ∧
      (byte &&& 0x0F).toNat = byte.toNat % 16 ∧ (byte &&& 0xFE = 0 ↔ byte.toNat < 2) ∧
      (byte &&& 0x7F = 0 ↔ byte.toNat % 128 = 0) := by
  have hcases : ∀ b : BitVec 8, (b &&& 0x70 = 0 ↔ b.toNat % 128 < 16) ∧
      (b &&& 0x78 = 0x78 ↔ 120 ≤ b.toNat % 128) ∧
      (b &&& 0x0F).toNat = b.toNat % 16 ∧ (b &&& 0xFE = 0 ↔ b.toNat < 2) ∧
      (b &&& 0x7F = 0 ↔ b.toNat % 128 = 0) := by decide
  simp only [← UInt8.toBitVec_inj]
  exact hcases byte.toBitVec

theorem shift_ne_zero_iff {result : UInt32} : result >>> 31 ≠ 0 ↔ 2 ^ 31 ≤ result.toNat := by
  have hval : (result >>> 31).toNat = result.toNat / 2 ^ 31 := by
    rw [UInt32.toNat_shiftRight, Nat.shiftRight_eq_div_pow]
    rfl
  rw [ne_eq, ← UInt32.toNat_inj, hval]
  have hlt := result.toNat_lt
  change ¬ result.toNat / 2 ^ 31 = 0 ↔ _
  omega

theorem validExtension_iff {result : UInt32} {bitpos : Nat} {byte : UInt8} :
    validExtension result bitpos byte = true ↔
      byte.toNat % 128 = 0 ∨
        2 ^ 31 ≤ result.toNat ∧ byte = if bitpos < 63 then 0xFF else 0x01 := by
  simp only [validExtension, Bool.or_eq_true, Bool.and_eq_true, bne_iff_ne, ne_eq, beq_iff_eq,
    (masks byte).2.2.2.2, ← shift_ne_zero_iff]

/-- What a further byte must be for the 32-bit function, and what it adds. -/
theorem varint32Bits_eq_ok {result next : UInt32} {bitpos : Nat} {byte : UInt8}
    (hresult : bitpos ≤ 28 → result.toNat < 2 ^ bitpos) (h7 : 7 ∣ bitpos) :
    varint32Bits result bitpos byte = .ok next ↔
      (bitpos < 28 → next.toNat = result.toNat + 2 ^ bitpos * (byte.toNat % 128)) ∧
        (bitpos = 28 → (byte.toNat % 128 < 16 ∨ 120 ≤ byte.toNat % 128) ∧
          next.toNat = result.toNat + 2 ^ 28 * (byte.toNat % 16)) ∧
        (28 < bitpos → bitpos < 64 ∧ validExtension result bitpos byte = true ∧
          next = result) := by
  obtain ⟨h70, h78, h0F, -, -⟩ := masks byte
  have hbelow : ∀ group : UInt8, group.toNat < 2 ^ (32 - bitpos) → bitpos ≤ 28 →
      (Except.ok (result ||| group.toUInt32 <<< bitpos.toUInt32) = (.ok next : Except Errmsg _) ↔
        next.toNat = result.toNat + 2 ^ bitpos * group.toNat) := by
    intro group hgroup hle
    rw [Except.ok.injEq, ← UInt32.toNat_inj, or_payload32 (hresult hle) (by omega),
      Nat.mod_eq_of_lt hgroup]
    exact eq_comm
  unfold varint32Bits
  rcases Nat.lt_trichotomy bitpos 28 with hlt | rfl | hgt
  · have hroom : (byte &&& 0x7F).toNat < 2 ^ (32 - bitpos) := by
      rw [payload_toNat]
      exact Nat.lt_of_lt_of_le (Nat.mod_lt _ (by omega))
        (Nat.pow_le_pow_right (n := 2) (i := 7) (by omega) (by omega))
    rw [if_neg (by omega), if_neg (by omega), hbelow _ hroom (by omega), payload_toNat]
    simp only [hlt, forall_true_left, show bitpos ≠ 28 by omega, show ¬ 28 < bitpos by omega,
      false_implies, and_true]
  · have hroom : (byte &&& 0x0F).toNat < 2 ^ (32 - 28) := by rw [h0F]; omega
    rw [if_neg (by omega), if_pos rfl]
    by_cases hover : byte &&& 0x70 ≠ 0 ∧ byte &&& 0x78 ≠ 0x78
    · rw [if_pos hover]
      rw [ne_eq, ne_eq, h70, h78] at hover
      simp [hover]
    · rw [if_neg hover, hbelow _ hroom (le_refl 28), h0F]
      rw [ne_eq, ne_eq, h70, h78] at hover
      simp only [Nat.lt_irrefl, false_implies, true_and, forall_true_left, and_true,
        iff_and_self]
      omega
  · rw [if_pos (by omega)]
    have hnot : ¬ bitpos < 28 ∧ bitpos ≠ 28 := by omega
    simp only [hnot, hgt, forall_true_left, false_implies, true_and]
    by_cases h64 : 64 ≤ bitpos
    · simp [h64]
    · have hlt := Nat.lt_of_not_le h64
      cases validExtension result bitpos byte <;> simp [hlt, h64, eq_comm]

theorem bitpos_of_low {bitpos : Nat} {byte : UInt8} (h7 : 7 ∣ bitpos) (hbitpos : bitpos < 64)
    (hover : ¬ (63 ≤ bitpos ∧ byte &&& 0xFE ≠ 0)) (hmore : ¬ byte &&& 0x80 = 0) :
    bitpos ≤ 56 := by
  by_contra hge
  refine hover ⟨by omega, fun hlow => hmore (last_iff.mpr ?_)⟩
  have := (masks byte).2.2.2.1.mp hlow
  omega

/-- What the 64-bit function adds. -/
theorem next_bits {result : UInt64} {bitpos : Nat} {byte : UInt8}
    (hresult : result.toNat < 2 ^ bitpos) (h7 : 7 ∣ bitpos) (hbitpos : bitpos < 64)
    (hover : ¬ (63 ≤ bitpos ∧ byte &&& 0xFE ≠ 0)) :
    (result ||| (byte &&& 0x7F).toUInt64 <<< bitpos.toUInt64).toNat =
      result.toNat + 2 ^ bitpos * (byte.toNat % 128) := by
  rw [or_payload64 hresult hbitpos, payload_toNat]
  congr 2
  by_cases h63 : bitpos = 63
  · subst h63
    have hlow : byte &&& 0xFE = 0 := by
      by_contra hne
      exact hover ⟨le_refl 63, hne⟩
    have := (masks byte).2.2.2.1.mp hlow
    omega
  · refine Nat.mod_eq_of_lt (Nat.lt_of_lt_of_le (Nat.mod_lt _ (by omega)) ?_)
    exact Nat.pow_le_pow_right (n := 2) (i := 7) (by omega) (by omega)

/-- The bits that the 64-bit function has are kept, and the next group is that of the
byte. -/
theorem varintLoop_bits {result v : UInt64} {bitpos : Nat} {s r : List UInt8}
    (hresult : result.toNat < 2 ^ bitpos) (h7 : 7 ∣ bitpos) (hbitpos : bitpos < 64)
    (h : (varintLoop result bitpos).run s = .ok (v, r)) : v.toNat % 2 ^ bitpos = result.toNat := by
  induction s generalizing result bitpos with
  | nil => simp [varintLoop_nil] at h
  | cons byte s ih =>
    rw [varintLoop_cons] at h
    split_ifs at h with hover hlast
    · obtain ⟨rfl, -⟩ := Prod.mk.inj (Except.ok.inj h)
      rw [next_bits hresult h7 hbitpos hover, Nat.add_mul_mod_self_left, Nat.mod_eq_of_lt hresult]
    · have hnext := next_bits hresult h7 hbitpos hover
      have hle := bitpos_of_low h7 hbitpos hover hlast
      have hlow := ih (by rw [hnext]; exact add_group_lt hresult) (by omega) (by omega) h
      have hdvd : 2 ^ bitpos ∣ 2 ^ (bitpos + 7) := pow_dvd_pow 2 (by omega)
      rw [← Nat.mod_mod_of_dvd _ hdvd, hlow, hnext, Nat.add_mul_mod_self_left,
        Nat.mod_eq_of_lt hresult]

/-- The low bits stay the same when both functions add a byte. -/
theorem varint32Bits_low {result next : UInt32} {wide : UInt64} {bitpos : Nat} {byte : UInt8}
    (hwide : wide.toNat < 2 ^ bitpos) (hlow : wide.toNat % 2 ^ 32 = result.toNat)
    (h7 : 7 ∣ bitpos) (h : varint32Bits result bitpos byte = .ok next) :
    (wide.toNat + 2 ^ bitpos * (byte.toNat % 128)) % 2 ^ 32 = next.toNat := by
  have hsmall : bitpos ≤ 28 → wide.toNat = result.toNat := by
    intro hle
    have hpow : 2 ^ bitpos ≤ 2 ^ 28 := Nat.pow_le_pow_right (by omega) hle
    omega
  obtain ⟨hbelow, hsign, hhigh⟩ := (varint32Bits_eq_ok
    (fun hle => by rw [← hsmall hle]; exact hwide) h7).mp h
  rcases Nat.lt_trichotomy bitpos 28 with hlt | rfl | hgt
  · rw [hsmall (by omega), ← hbelow hlt]
    exact Nat.mod_eq_of_lt next.toNat_lt
  · rw [(hsign rfl).2, ← hsmall (le_refl 28)]
    omega
  · have hdvd : 2 ^ 32 ∣ 2 ^ bitpos * (byte.toNat % 128) :=
      Dvd.dvd.mul_right (pow_dvd_pow 2 (by omega)) _
    rw [(hhigh hgt).2.2, ← hlow, Nat.add_mod, Nat.mod_eq_zero_of_dvd hdvd, Nat.add_zero,
      Nat.mod_mod]

/-- The 32-bit loop follows the 64-bit one. -/
theorem varint32Loop_sound {result : UInt32} {wide : UInt64} {bitpos : Nat} {s r : List UInt8}
    {v : UInt32} (hwide : wide.toNat < 2 ^ bitpos) (hlow : wide.toNat % 2 ^ 32 = result.toNat)
    (h7 : 7 ∣ bitpos) (hbitpos : bitpos < 64) (h : (varint32Loop result bitpos).run s = .ok (v, r)) :
    ∃ w, (varintLoop wide bitpos).run s = .ok (w, r) ∧ w.toNat % 2 ^ 32 = v.toNat := by
  induction s generalizing result wide bitpos with
  | nil => simp [varint32Loop_nil] at h
  | cons byte s ih =>
    rw [varint32Loop_cons] at h
    cases hbits : varint32Bits result bitpos byte with
    | error e => simp [hbits] at h
    | ok next =>
      simp only [hbits] at h
      -- the last byte of the ten has one bit, unless the loop goes on and fails
      have hover : ¬ (63 ≤ bitpos ∧ byte &&& 0xFE ≠ 0) := by
        rintro ⟨h63, hne⟩
        obtain rfl : bitpos = 63 := by omega
        have hvalid : validExtension result 63 byte = true := by
          rw [← Bool.not_eq_false]
          intro hinvalid
          simp [varint32Bits, hinvalid] at hbits
        rw [ne_eq, (masks byte).2.2.2.1] at hne
        rcases validExtension_iff.mp hvalid with hempty | ⟨-, rfl⟩
        · have hmore : ¬ byte &&& 0x80 = 0 := by rw [last_iff]; omega
          rw [if_neg hmore] at h
          cases s with
          | nil => simp [varint32Loop_nil] at h
          | cons byte' s => simp [varint32Loop_cons, varint32Bits] at h
        · exact hne (by decide)
      have hnext := next_bits hwide h7 hbitpos hover
      have hagree := varint32Bits_low hwide hlow h7 hbits
      rw [← hnext] at hagree
      rw [varintLoop_cons, if_neg hover]
      by_cases hlast : byte &&& 0x80 = 0
      · rw [if_pos hlast] at h ⊢
        obtain ⟨rfl, rfl⟩ := Prod.mk.inj (Except.ok.inj h)
        exact ⟨_, rfl, hagree⟩
      · rw [if_neg hlast] at h ⊢
        have hle := bitpos_of_low h7 hbitpos hover hlast
        exact ih (by rw [hnext]; exact add_group_lt hwide) hagree (by omega) (by omega) h

/-- A number that has 32 bits, or 31 and a sign extension. -/
def Fits32 (v : UInt64) : Prop := v.toNat < 2 ^ 32 ∨ 2 ^ 64 - 2 ^ 31 ≤ v.toNat

/-- The byte of such a number is one that the 32-bit function takes. -/
theorem varint32Bits_of_fits {result : UInt32} {wide w : UInt64} {bitpos : Nat} {byte : UInt8}
    (hwide : wide.toNat < 2 ^ bitpos) (hlow : wide.toNat % 2 ^ 32 = result.toNat)
    (h7 : 7 ∣ bitpos) (hbitpos : bitpos < 64) (hover : ¬ (63 ≤ bitpos ∧ byte &&& 0xFE ≠ 0))
    (hfits : Fits32 w)
    (hgroup : w.toNat % 2 ^ (bitpos + 7) = wide.toNat + 2 ^ bitpos * (byte.toNat % 128))
    (hlast : byte.toNat < 128 → w.toNat < 2 ^ (bitpos + 7)) :
    ∃ next, varint32Bits result bitpos byte = .ok next := by
  obtain ⟨-, -, -, hlow2, -⟩ := masks byte
  have hbyte := byte.toNat_lt
  have hw := w.toNat_lt
  unfold Fits32 at hfits
  rcases Nat.lt_trichotomy bitpos 28 with hlt | rfl | hgt
  · exact ⟨_, by rw [varint32Bits, if_neg (by omega), if_neg (by omega)]⟩
  · have hsign : ¬ (byte &&& 0x70 ≠ 0 ∧ byte &&& 0x78 ≠ 0x78) := by
      rw [ne_eq, ne_eq, (masks byte).1, (masks byte).2.1]
      omega
    exact ⟨_, by rw [varint32Bits, if_neg (by omega), if_pos rfl, if_neg hsign]⟩
  · refine ⟨result, ?_⟩
    rw [varint32Bits, if_pos (by omega), if_neg]
    rintro (h64 | hinvalid)
    · omega
    · rw [← Bool.not_eq_true, validExtension_iff] at hinvalid
      apply hinvalid
      have h63 : bitpos = 63 → byte.toNat < 2 := by
        intro heq
        rw [← hlow2]
        by_contra hne
        exact hover ⟨by omega, hne⟩
      have hmore : byte = 0xFF ↔ byte.toNat = 255 := UInt8.toNat_inj.symm
      have hone : byte = 0x01 ↔ byte.toNat = 1 := UInt8.toNat_inj.symm
      obtain ⟨k, rfl⟩ := h7
      have hk : k = 5 ∨ k = 6 ∨ k = 7 ∨ k = 8 ∨ k = 9 := by omega
      rcases hk with rfl | rfl | rfl | rfl | rfl
      all_goals
        norm_num [hmore, hone] at hgroup hwide hlast h63 ⊢
        omega

/-- The 64-bit loop ends as the 32-bit one does, on a number that fits. -/
theorem varintLoop_fits {result : UInt32} {wide w : UInt64} {bitpos : Nat} {s r : List UInt8}
    (hwide : wide.toNat < 2 ^ bitpos) (hlow : wide.toNat % 2 ^ 32 = result.toNat)
    (h7 : 7 ∣ bitpos) (hbitpos : bitpos < 64) (hfits : Fits32 w)
    (h : (varintLoop wide bitpos).run s = .ok (w, r)) :
    ∃ v, (varint32Loop result bitpos).run s = .ok (v, r) := by
  induction s generalizing result wide bitpos with
  | nil => simp [varintLoop_nil] at h
  | cons byte s ih =>
    rw [varintLoop_cons] at h
    by_cases hover : 63 ≤ bitpos ∧ byte &&& 0xFE ≠ 0
    · simp [if_pos hover] at h
    rw [if_neg hover] at h
    have hnext := next_bits hwide h7 hbitpos hover
    rw [varint32Loop_cons]
    by_cases hlast : byte &&& 0x80 = 0
    · rw [if_pos hlast] at h
      obtain ⟨rfl, rfl⟩ := Prod.mk.inj (Except.ok.inj h)
      have hlt := add_group_lt (m := byte.toNat) hwide
      obtain ⟨next, hbits⟩ := varint32Bits_of_fits hwide hlow h7 hbitpos hover hfits
        (by rw [hnext]; exact Nat.mod_eq_of_lt hlt) fun _ => by rw [hnext]; exact hlt
      exact ⟨next, by simp [hbits, hlast]⟩
    · rw [if_neg hlast] at h
      have hle := bitpos_of_low h7 hbitpos hover hlast
      have hlt : (wide ||| (byte &&& 0x7F).toUInt64 <<< bitpos.toUInt64).toNat <
          2 ^ (bitpos + 7) := by
        rw [hnext]
        exact add_group_lt hwide
      have hbits := varintLoop_bits hlt (by omega) (by omega) h
      obtain ⟨next, hbits⟩ := varint32Bits_of_fits hwide hlow h7 hbitpos hover hfits
        (by rw [hbits, hnext]) fun hsmall => absurd (last_iff.mpr hsmall) hlast
      have hagree := varint32Bits_low hwide hlow h7 hbits
      rw [← hnext] at hagree
      obtain ⟨v, hv⟩ := ih hlt hagree (by omega) (by omega) h
      exact ⟨v, by simp [hbits, hlast, hv]⟩

/-- The first byte is not a case of its own. -/
theorem decodeVarint32_run (s : List UInt8) : decodeVarint32.run s = (varint32Loop 0 0).run s := by
  cases s with
  | nil => simp [varint32Loop_nil, decodeVarint32, run_bind, readByte, Reader.byte]
  | cons byte s =>
    have hzero : ∀ group : UInt32, 0 ||| group <<< (0 : Nat).toUInt32 = group := by
      intro group
      apply UInt32.toNat_inj.mp
      simp
    rw [varint32Loop_cons, varint32Bits, if_neg (by omega), if_neg (by omega), decodeVarint32,
      run_bind_ok (show readByte.run (byte :: s) = .ok (byte, s) from rfl), hzero]
    by_cases hlast : byte &&& 0x80 = 0
    · have hall : byte &&& 0x7F = byte := by
        apply UInt8.toNat_inj.mp
        rw [payload_toNat, Nat.mod_eq_of_lt (last_iff.mp hlast)]
      simp only [hlast, if_true, hall, run_pure]
    · simp only [hlast, if_false]

/-- The short function reads what the long one does, and all that a 32-bit integer becomes
after an extension to 64 bits. -/
theorem decodeVarint32_agrees (s r : List UInt8) :
    (∀ v, decodeVarint32.run s = .ok (v, r) →
      ∃ w, decodeVarint.run s = .ok (w, r) ∧ w.toUInt32 = v) ∧
      ∀ w, decodeVarint.run s = .ok (w, r) → Fits32 w →
        decodeVarint32.run s = .ok (w.toUInt32, r) := by
  have hsound : ∀ v, decodeVarint32.run s = .ok (v, r) →
      ∃ w, decodeVarint.run s = .ok (w, r) ∧ w.toUInt32 = v := by
    intro v h
    rw [decodeVarint32_run] at h
    have hzero : (0 : UInt64).toNat % 2 ^ 32 = (0 : UInt32).toNat := rfl
    obtain ⟨w, hw, hlow⟩ := varint32Loop_sound (by decide) hzero ⟨0, rfl⟩ (by omega) h
    exact ⟨w, hw, UInt32.toNat_inj.mp (by rw [UInt64.toNat_toUInt32, hlow])⟩
  refine ⟨hsound, ?_⟩
  intro w h hfits
  have hzero : (0 : UInt64).toNat % 2 ^ 32 = (0 : UInt32).toNat := rfl
  obtain ⟨v, hv⟩ := varintLoop_fits (by decide) hzero ⟨0, rfl⟩ (by omega) hfits h
  rw [← decodeVarint32_run] at hv
  obtain ⟨w', hw', rfl⟩ := hsound v hv
  rw [h] at hw'
  obtain rfl : w = w' := by simpa using hw'
  exact hv

end PbDecode
