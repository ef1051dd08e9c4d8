import KartFirmware.Binary32
import Mathlib.Tactic.FieldSimp
import Mathlib.Tactic.IntervalCases

/-!
# Integers in binary32

What the conversion of an integer to `Float32` is worth.  Integers of up to 24
bits are exact (`value_ofInt`); larger 32-bit integers are rounded to a multiple
of the dropped power of two, by 64 at most, so they stay beyond 24 bits
(`value_ofInt_large`, `value_ofInt_small`).  Adding a half to a small integer is exact
(`value_ofInt_add_half`).

The way there follows the model: shifting a mantissa keeps what rounding needs to
know (`shift_residue`), rounding moves it by half a unit at most
(`roundedMantissa_shift`), and packing a normal float loses nothing
(`unpack_pack`).
-/

namespace Binary32

open Float.Model Float.Model.UnpackedFloat

/-! ### Shifting a mantissa -/

theorem shift_mantissa (em : ExtendedMantissa) (k : Nat) :
    (em >>> k).mantissa = em.mantissa / 2 ^ k := by
  induction k with
  | zero => exact (Nat.div_one _).symm
  | succ k ih =>
    have hstep : (em >>> (k + 1)).mantissa = (em >>> k).mantissa / 2 := rfl
    rw [hstep, ih, Nat.div_div_eq_div_mul, ← Nat.pow_succ]

/-- The bits of `m` while it is shifted. -/
abbrev exactMantissa (m : Nat) : ExtendedMantissa := ⟨m, false, false⟩

theorem shift_residue (m k : Nat) :
    (exactMantissa m >>> (k + 1)).roundBit = (m / 2 ^ k % 2 != 0) ∧
      (exactMantissa m >>> (k + 1)).stickyBit = (m % 2 ^ k != 0) := by
  induction k with
  | zero =>
    rw [pow_zero, Nat.div_one, Nat.mod_one]
    exact ⟨rfl, rfl⟩
  | succ k ih =>
    obtain ⟨hround, hsticky⟩ := ih
    have hround' : (exactMantissa m >>> (k + 1 + 1)).roundBit =
        ((exactMantissa m >>> (k + 1)).mantissa % 2 != 0) := rfl
    have hsticky' : (exactMantissa m >>> (k + 1 + 1)).stickyBit =
        ((exactMantissa m >>> (k + 1)).roundBit || (exactMantissa m >>> (k + 1)).stickyBit) := rfl
    constructor
    · rw [hround', shift_mantissa]
    · have hpos : 0 < 2 ^ k := Nat.two_pow_pos k
      rw [hsticky', hround, hsticky, Nat.mod_pow_succ]
      rcases Nat.mod_two_eq_zero_or_one (m / 2 ^ k) with hbit | hbit <;> simp [hbit]

/-- A shifted mantissa is rounded down when at most half a unit is dropped, and up when
at least half a unit is. -/
theorem roundedMantissa_cases (m k : Nat) :
    ((exactMantissa m >>> (k + 1)).roundedMantissa = m / 2 ^ (k + 1) ∧ m % 2 ^ (k + 1) ≤ 2 ^ k) ∨
      ((exactMantissa m >>> (k + 1)).roundedMantissa = m / 2 ^ (k + 1) + 1 ∧
        2 ^ k ≤ m % 2 ^ (k + 1)) := by
  have hq := shift_mantissa (exactMantissa m) (k + 1)
  obtain ⟨hround, hsticky⟩ := shift_residue m k
  have hrem := Nat.mod_pow_succ (x := m) (b := 2) (k := k)
  have hlow : m % 2 ^ k < 2 ^ k := Nat.mod_lt _ (Nat.two_pow_pos k)
  generalize exactMantissa m >>> (k + 1) = em at hq hround hsticky ⊢
  obtain ⟨q, b, s⟩ := em
  dsimp only at hq hround hsticky
  rw [← hq, hrem]
  cases b with
  | false =>
    have hbit : m / 2 ^ k % 2 = 0 := by simpa using hround
    rw [hbit, Nat.mul_zero]
    cases s <;> exact Or.inl ⟨rfl, hlow.le⟩
  | true =>
    have hbit : m / 2 ^ k % 2 = 1 := by
      have hne : m / 2 ^ k % 2 ≠ 0 := by simpa using hround
      omega
    rw [hbit, Nat.mul_one]
    cases s with
    | true => exact Or.inr ⟨rfl, Nat.le_add_left _ _⟩
    | false =>
      -- a tie goes to the even neighbour
      have hzero : m % 2 ^ k = 0 := by simpa using hsticky
      rw [hzero, Nat.zero_add]
      have htie : (ExtendedMantissa.mk q true false).roundedMantissa = q + q % 2 := rfl
      rcases Nat.mod_two_eq_zero_or_one q with heven | hodd
      · exact Or.inl ⟨by rw [htie, heven, Nat.add_zero], le_refl _⟩
      · exact Or.inr ⟨by rw [htie, hodd], le_refl _⟩

/-- Rounding moves a shifted mantissa by half a unit at most. -/
theorem roundedMantissa_shift (m k : Nat) :
    (exactMantissa m >>> (k + 1)).roundedMantissa * 2 ^ (k + 1) ≤ m + 2 ^ k ∧
      m ≤ (exactMantissa m >>> (k + 1)).roundedMantissa * 2 ^ (k + 1) + 2 ^ k ∧
      m / 2 ^ (k + 1) ≤ (exactMantissa m >>> (k + 1)).roundedMantissa ∧
      (exactMantissa m >>> (k + 1)).roundedMantissa ≤ m / 2 ^ (k + 1) + 1 := by
  have hdiv : 2 ^ (k + 1) * (m / 2 ^ (k + 1)) + m % 2 ^ (k + 1) = m := Nat.div_add_mod m _
  have hpow : 2 ^ (k + 1) = 2 * 2 ^ k := by rw [pow_succ, Nat.mul_comm]
  rw [Nat.mul_comm] at hdiv
  rcases roundedMantissa_cases m k with ⟨hr, hhalf⟩ | ⟨hr, hhalf⟩
  · rw [hr]
    refine ⟨?_, ?_, ?_, ?_⟩ <;> omega
  · have hrem : m % 2 ^ (k + 1) < 2 ^ (k + 1) := Nat.mod_lt _ (Nat.two_pow_pos _)
    rw [hr, Nat.succ_mul]
    refine ⟨?_, ?_, ?_, ?_⟩ <;> omega

/-- Dropping zeros only is exact. -/
theorem roundedMantissa_shift_of_dvd {m k : Nat} (h : 2 ^ k ∣ m) :
    (exactMantissa m >>> k).roundedMantissa = m / 2 ^ k := by
  cases k with
  | zero => exact (Nat.div_one m).symm
  | succ k =>
    rcases roundedMantissa_cases m k with ⟨hr, -⟩ | ⟨-, hhalf⟩
    · exact hr
    · rw [Nat.mod_eq_zero_of_dvd h] at hhalf
      exact absurd hhalf (Nat.not_le.mpr (Nat.two_pow_pos k))

/-! ### Rounding an integer -/

theorem targetExponent_eq (m : Nat) (e : Int) :
    Format.binary32.targetExponent (totalExponent m e) = max ((m.log2 : Int) + e - 23) (-149) := by
  have hbits : (Format.binary32.mantissaBits : Int) = 24 := rfl
  have hmin : Format.binary32.minExponent = -149 := rfl
  have htarget : Format.binary32.targetExponent (totalExponent m e) =
      max ((m.log2 : Int) + 1 + e - Format.binary32.mantissaBits) Format.binary32.minExponent := rfl
  rw [htarget, hbits, hmin]
  congr 1
  omega

theorem shiftToTargetExponent_of (m : Nat) (e : Int) (acc : Accuracy) {k : Nat}
    (hk : (max ((m.log2 : Int) + e - 23) (-149) - e).toNat = k) :
    shiftToTargetExponent Format.binary32 m e acc =
      (ExtendedMantissa.ofMantissaAndAccuracy m acc >>> k, e + k) := by
  have hshift : shiftToTargetExponent Format.binary32 m e acc =
      shiftToExponent m e acc (Format.binary32.targetExponent (totalExponent m e)) := rfl
  rw [hshift, targetExponent_eq, ← hk]
  rfl

theorem shiftToTargetExponent_eq (m : Nat) (e : Int) {k : Nat}
    (hk : (max ((m.log2 : Int) + e - 23) (-149) - e).toNat = k) :
    shiftToTargetExponent Format.binary32 m e .exact = (exactMantissa m >>> k, e + k) :=
  shiftToTargetExponent_of m e .exact hk

/-! ### Digits -/

theorem log2_mul_two_pow {n : Nat} (hn : n ≠ 0) (d : Nat) : (n * 2 ^ d).log2 = n.log2 + d := by
  have hpos : 0 < 2 ^ d := Nat.two_pow_pos d
  refine (Nat.log2_eq_iff (Nat.mul_ne_zero hn hpos.ne')).mpr ⟨?_, ?_⟩
  · rw [pow_add]
    exact Nat.mul_le_mul_right _ (Nat.log2_self_le hn)
  · rw [Nat.add_right_comm, pow_add]
    exact Nat.mul_lt_mul_of_pos_right Nat.lt_log2_self hpos

/-- Shifted up to 24 bits. -/
theorem mantissa_range {n d : Nat} (hn : n ≠ 0) (hlt : n < 2 ^ 24) (hd : d = 23 - n.log2) :
    2 ^ 23 ≤ n * 2 ^ d ∧ n * 2 ^ d < 2 ^ 24 := by
  have hlog : n.log2 ≤ 23 := Nat.le_of_lt_succ ((Nat.log2_lt hn).mpr hlt)
  have hshift : (n * 2 ^ d).log2 = 23 := by
    rw [log2_mul_two_pow hn]
    omega
  exact (Nat.log2_eq_iff (Nat.mul_ne_zero hn (Nat.two_pow_pos d).ne')).mp hshift

theorem ne_zero_of_log2 {m k : Nat} (hlog : m.log2 = 23 + k) : m ≠ 0 := by
  rintro rfl
  rw [Nat.log2_zero] at hlog
  omega

/-- Cut down to 24 bits. -/
theorem leading_range {m k : Nat} (hlog : m.log2 = 23 + k) :
    2 ^ 23 ≤ m / 2 ^ k ∧ m / 2 ^ k < 2 ^ 24 := by
  constructor
  · rw [Nat.le_div_iff_mul_le (Nat.two_pow_pos _), ← pow_add, ← hlog]
    exact Nat.log2_self_le (ne_zero_of_log2 hlog)
  · rw [Nat.div_lt_iff_lt_mul (Nat.two_pow_pos _), ← pow_add, show 24 + k = m.log2 + 1 by omega]
    exact Nat.lt_log2_self

/-! ### Rounding -/

/-- A mantissa of 24 bits is rounded to itself; one carry is shifted out. -/
theorem roundWithAccuracy_of {s : Sign} {m : Nat} {e : Int} {acc : Accuracy}
    {em : ExtendedMantissa} {e₁ : Int}
    (hfirst : shiftToTargetExponent Format.binary32 m e acc = (em, e₁)) (he : -149 ≤ e₁)
    (hlow : 2 ^ 23 ≤ em.roundedMantissa) (hhigh : em.roundedMantissa ≤ 2 ^ 24) :
    ∃ m' e' h, roundWithAccuracy Format.binary32 s m e acc = .finite s m' e' h ∧
      2 ^ 23 ≤ m' ∧ m' < 2 ^ 24 ∧ ((m' = em.roundedMantissa ∧ e' = e₁) ∨
        (em.roundedMantissa = 2 ^ 24 ∧ m' = 2 ^ 23 ∧ e' = e₁ + 1)) := by
  have hround : ∀ {em₂ : ExtendedMantissa} {e₂ : Int} (hpos : 0 < em₂.mantissa),
      shiftToTargetExponent Format.binary32 em.roundedMantissa e₁ .exact = (em₂, e₂) →
      roundWithAccuracy Format.binary32 s m e acc = .finite s em₂.mantissa e₂ hpos := by
    intro em₂ e₂ hpos hsecond
    unfold roundWithAccuracy
    rw [hfirst]
    dsimp only
    rw [hsecond]
    exact dif_neg (Nat.ne_of_gt hpos)
  rcases Nat.lt_or_ge em.roundedMantissa (2 ^ 24) with hlt | hge
  · have hlog : em.roundedMantissa.log2 = 23 :=
      (Nat.log2_eq_iff (by omega)).mpr ⟨hlow, hlt⟩
    have hsecond := shiftToTargetExponent_eq em.roundedMantissa e₁ (k := 0) (by rw [hlog]; omega)
    exact ⟨_, _, _, hround (Nat.lt_of_lt_of_le (by norm_num) hlow) hsecond, hlow, hlt,
      Or.inl ⟨rfl, by omega⟩⟩
  · have hr : em.roundedMantissa = 2 ^ 24 := Nat.le_antisymm hhigh hge
    have hlog : em.roundedMantissa.log2 = 24 := by rw [hr, Nat.log2_two_pow]
    have hsecond := shiftToTargetExponent_eq em.roundedMantissa e₁ (k := 1) (by rw [hlog]; omega)
    have hmant : (exactMantissa em.roundedMantissa >>> 1).mantissa = 2 ^ 23 := by
      rw [shift_mantissa]
      simp only [hr]
      norm_num
    exact ⟨_, _, _, hround (by rw [hmant]; norm_num) hsecond, hmant.ge, by rw [hmant]; norm_num,
      Or.inr ⟨hr, hmant, rfl⟩⟩

/-! ### Packing a normal float -/

theorem unpackSign_packComponents {spec : Format} (s : Sign) (exponent : BitVec spec.exponentBits)
    (mantissa : BitVec spec.mantissaBitsWithoutImplicit) :
    unpackSign (packComponents spec s exponent mantissa) = s.toBitVec := by
  ext i hi
  obtain rfl : i = 0 := by omega
  have hhigh : ∀ j, (s.toBitVec ++ exponent ++ mantissa).getLsbD
      (spec.mantissaBitsWithoutImplicit + spec.exponentBits + j) = s.toBitVec.getLsbD j := by
    intro j
    rw [BitVec.getLsbD_append, if_neg (by omega), BitVec.getLsbD_append, if_neg (by omega)]
    congr 1
    omega
  have hsign := hhigh 0
  rw [Nat.add_zero, BitVec.getLsbD_eq_getElem hi] at hsign
  have hdef : (unpackSign (packComponents spec s exponent mantissa))[0] =
      ((s.toBitVec ++ exponent ++ mantissa).extractLsb
        (spec.mantissaBitsWithoutImplicit + spec.exponentBits)
        (spec.mantissaBitsWithoutImplicit + spec.exponentBits))[0] := BitVec.getElem_cast _ _ _
  rw [hdef]
  simpa using hsign

theorem finite_congr {s s' : Sign} {m m' : Nat} {e e' : Int} {h : 0 < m} {h' : 0 < m'}
    (hs : s = s') (hm : m = m') (he : e = e') :
    UnpackedFloat.finite s m e h = .finite s' m' e' h' := by
  subst hs hm he
  rfl

theorem unpack_pack {s : Sign} {m : Nat} {e : Int} {h : 0 < m} (hlow : 2 ^ 23 ≤ m)
    (hhigh : m < 2 ^ 24) (hmin : -149 ≤ e) (hmax : e ≤ 104) :
    UnpackedFloat.unpack Format.binary32 (UnpackedFloat.pack Format.binary32 (.finite s m e h)) =
      .finite s m e h := by
  obtain ⟨biased, hbiased⟩ : ∃ biased : Nat, e + 150 = biased := ⟨(e + 150).toNat, by omega⟩
  have hlog : m.log2 = 23 := (Nat.log2_eq_iff (by omega)).mpr ⟨hlow, hhigh⟩
  have hbias : (e + (Format.binary32.exponentBias : Int) + (23 : Nat)).toNat = biased := by
    have hvalue : (Format.binary32.exponentBias : Int) = 127 := rfl
    rw [hvalue]
    omega
  have hpack : UnpackedFloat.pack Format.binary32 (.finite s m e h) =
      packComponents Format.binary32 s (BitVec.ofNat 8 biased) (BitVec.ofNat 23 m) := by
    have hdef : UnpackedFloat.pack Format.binary32 (.finite s m e h) =
        if 2 ^ 8 ≤ (e + (Format.binary32.exponentBias : Int) + (23 : Nat)).toNat + 1 then
          packedInfinity Format.binary32 s
        else if m.log2 + 1 = 24 then
          packComponents Format.binary32 s (BitVec.ofNat 8
            (e + (Format.binary32.exponentBias : Int) + (23 : Nat)).toNat) (BitVec.ofNat 23 m)
        else packComponents Format.binary32 s 0#_ (BitVec.ofNat 23 m) := rfl
    rw [hdef, hbias, hlog, if_neg (by omega), if_pos rfl]
  have hmant : (1#1 ++ BitVec.ofNat 23 m).toNat = m := by
    rw [BitVec.toNat_append, BitVec.toNat_ofNat]
    have hor := Nat.two_pow_add_eq_or_of_lt (Nat.mod_lt m (Nat.two_pow_pos 23)) 1
    exact hor.symm.trans (by omega)
  have hexp : (BitVec.ofNat 8 biased).toNat = biased := by
    rw [BitVec.toNat_ofNat]
    omega
  have hspecial : BitVec.ofNat 8 biased ≠ -1#8 := by
    intro heq
    have hval := congrArg BitVec.toNat heq
    rw [hexp] at hval
    have hones : (-1#8).toNat = 255 := by decide
    omega
  have hzero : BitVec.ofNat 8 biased ≠ 0#8 := by
    intro heq
    have hval := congrArg BitVec.toNat heq
    rw [hexp] at hval
    have hnone : (0#8).toNat = 0 := rfl
    omega
  rw [hpack]
  refine Eq.trans (if_neg ?_) (Eq.trans (if_neg ?_) (finite_congr ?_ ?_ ?_))
  · rwa [unpackExponent_packComponents]
  · rwa [unpackExponent_packComponents]
  · rw [unpackSign_packComponents]
    cases s <;> rfl
  · rw [unpackMantissa_packComponents]
    exact hmant
  · rw [unpackExponent_packComponents, hexp]
    change (biased : Int) - (127 + 23) = e
    omega

theorem round_eq (s : Sign) (m : Nat) (e : Int) {d : Nat}
    (hd : (e - max ((m.log2 : Int) + e - 23) (-149)).toNat = d) :
    UnpackedFloat.round Format.binary32 s m e =
      roundWithAccuracy Format.binary32 s (m <<< d) (e - d) .exact := by
  have hround : UnpackedFloat.round Format.binary32 s m e =
      roundWithAccuracy Format.binary32 s
        (m <<< (e - Format.binary32.targetExponent (totalExponent m e)).toNat)
        (e - ((e - Format.binary32.targetExponent (totalExponent m e)).toNat : Int)) .exact := rfl
  rw [hround, targetExponent_eq, hd]

/-- A mantissa that only drops zeros is kept. -/
theorem roundWithAccuracy_exact (s : Sign) {m k : Nat} {e : Int} (hlog : m.log2 = 23 + k)
    (hdvd : 2 ^ k ∣ m) (he : -149 ≤ e) :
    ∃ h, roundWithAccuracy Format.binary32 s m e .exact = .finite s (m / 2 ^ k) (e + k) h ∧
      2 ^ 23 ≤ m / 2 ^ k ∧ m / 2 ^ k < 2 ^ 24 := by
  obtain ⟨hlow, hhigh⟩ := leading_range hlog
  have hfirst := shiftToTargetExponent_eq m e (k := k) (by rw [hlog]; omega)
  have hself := roundedMantissa_shift_of_dvd hdvd
  obtain ⟨m', e', h, hround, -, -, hcase⟩ := roundWithAccuracy_of (s := s) hfirst (by omega)
    (by rw [hself]; exact hlow) (by rw [hself]; exact hhigh.le)
  rw [hself] at hcase
  rcases hcase with ⟨rfl, rfl⟩ | ⟨hfull, -, -⟩
  · exact ⟨h, hround, hlow, hhigh⟩
  · omega

theorem round_exact (s : Sign) {m k : Nat} {e : Int} (hlog : m.log2 = 23 + k) (hdvd : 2 ^ k ∣ m)
    (he : -149 ≤ e) :
    ∃ h, UnpackedFloat.round Format.binary32 s m e = .finite s (m / 2 ^ k) (e + k) h ∧
      2 ^ 23 ≤ m / 2 ^ k ∧ m / 2 ^ k < 2 ^ 24 := by
  obtain ⟨h, hround, hbounds⟩ := roundWithAccuracy_exact s hlog hdvd he
  refine ⟨h, ?_, hbounds⟩
  rw [round_eq s m e (d := 0) (by rw [hlog]; omega), ← hround]
  exact congrArg (fun x : Int => roundWithAccuracy Format.binary32 s m x .exact) (Int.sub_zero e)

/-- A natural number of up to 24 bits is shifted to fill the mantissa. -/
theorem round_small (s : Sign) {m d : Nat} (hpos : 0 < m) (hm : m < 2 ^ 24)
    (hd : d = 23 - m.log2) :
    ∃ h, UnpackedFloat.round Format.binary32 s m 0 = .finite s (m * 2 ^ d) (-(d : Int)) h ∧
      2 ^ 23 ≤ m * 2 ^ d ∧ m * 2 ^ d < 2 ^ 24 := by
  have hlog : m.log2 ≤ 23 := Nat.le_of_lt_succ ((Nat.log2_lt (by omega)).mpr hm)
  obtain ⟨hlow, hhigh⟩ := mantissa_range hpos.ne' hm hd
  have hlog' : (m * 2 ^ d).log2 = 23 + 0 := (Nat.log2_eq_iff (by omega)).mpr ⟨hlow, hhigh⟩
  obtain ⟨h, hround, -⟩ :=
    roundWithAccuracy_exact s (e := 0 - d) hlog' (one_dvd _) (by omega)
  have hpos' : 0 < m * 2 ^ d := by omega
  refine ⟨hpos', ?_, hlow, hhigh⟩
  rw [round_eq s m 0 (d := d) (by omega), Nat.shiftLeft_eq, hround]
  exact finite_congr rfl (Nat.div_one _) (by omega)

/-- What a float with a normal mantissa is worth after packing. -/
theorem value_pack {s : Sign} {m : Nat} {e : Int} {h : 0 < m} (hlow : 2 ^ 23 ≤ m)
    (hhigh : m < 2 ^ 24) (hmin : -149 ≤ e) (hmax : e ≤ 104) :
    (Float32.ofModel (.pack (.finite s m e h))).isFinite ∧
      value (Float32.ofModel (.pack (.finite s m e h))) =
        (s.apply ((m : Int) * 2 ^ (e + 149).toNat) : Int) / 2 ^ 149 := by
  have hunpack := unpack_pack (s := s) (h := h) hlow hhigh hmin hmax
  constructor
  · change (UnpackedFloat.unpack Format.binary32
      (UnpackedFloat.pack Format.binary32 (.finite s m e h))).isFinite = true
    rw [hunpack]
    rfl
  · change (scaled (UnpackedFloat.unpack Format.binary32
      (UnpackedFloat.pack Format.binary32 (.finite s m e h))) : ℚ) / 2 ^ 149 = _
    rw [hunpack]
    rfl

theorem apply_mul_div (s : Sign) (x : Int) :
    ((s.apply (x * 2 ^ 149) : Int) : ℚ) / 2 ^ 149 = (s.apply x : Int) := by
  have hpow : (2 : ℚ) ^ 149 ≠ 0 := by positivity
  cases s with
  | positive =>
    change ((x * 2 ^ 149 : Int) : ℚ) / 2 ^ 149 = (x : ℚ)
    push_cast
    exact mul_div_cancel_right₀ _ hpow
  | negative =>
    change ((-(x * 2 ^ 149) : Int) : ℚ) / 2 ^ 149 = ((-x : Int) : ℚ)
    push_cast
    rw [← neg_mul]
    exact mul_div_cancel_right₀ _ hpow

/-- The magnitude that rounding a natural number of up to 24 bits yields: itself. -/
theorem value_round_small (s : Sign) {m : Nat} (hpos : 0 < m) (hm : m < 2 ^ 24) :
    (Float32.ofModel (.pack (UnpackedFloat.round Format.binary32 s m 0))).isFinite ∧
      value (Float32.ofModel (.pack (UnpackedFloat.round Format.binary32 s m 0))) =
        (s.apply (m : Int) : Int) := by
  obtain ⟨d, hd⟩ : ∃ d, d = 23 - m.log2 := ⟨_, rfl⟩
  obtain ⟨h, hround, hlow, hhigh⟩ := round_small s hpos hm hd
  obtain ⟨hfinite, hvalue⟩ :=
    value_pack (s := s) (e := -(d : Int)) (h := h) hlow hhigh (by omega) (by omega)
  rw [hround]
  refine ⟨hfinite, hvalue.trans ?_⟩
  have hexp : (-(d : Int) + 149).toNat = 149 - d := by omega
  have hsplit : d + (149 - d) = 149 := by omega
  have hpow : ((m * 2 ^ d : Nat) : Int) * 2 ^ (-(d : Int) + 149).toNat = (m : Int) * 2 ^ 149 := by
    calc ((m * 2 ^ d : Nat) : Int) * 2 ^ (-(d : Int) + 149).toNat
        = (m : Int) * 2 ^ (d + (149 - d)) := by rw [hexp]; push_cast; ring
      _ = (m : Int) * 2 ^ 149 := by rw [hsplit]
  rw [hpow, apply_mul_div]

/-- Beyond 24 bits rounding yields a multiple of the dropped power of two, half of it
away at most. -/
theorem value_round_large (s : Sign) {m k : Nat} (hlog : m.log2 = 24 + k) (hk : k ≤ 100) :
    ∃ r : Nat, (Float32.ofModel (.pack (UnpackedFloat.round Format.binary32 s m 0))).isFinite ∧
      value (Float32.ofModel (.pack (UnpackedFloat.round Format.binary32 s m 0))) =
        (s.apply ((r * 2 ^ (k + 1) : Nat) : Int) : Int) ∧
      r * 2 ^ (k + 1) ≤ m + 2 ^ k ∧ m ≤ r * 2 ^ (k + 1) + 2 ^ k ∧ 2 ^ 23 ≤ r := by
  obtain ⟨hle, hge, hlow, hhigh⟩ := roundedMantissa_shift m k
  obtain ⟨hq, hq'⟩ := leading_range (m := m) (k := k + 1) (by omega)
  have hfirst := shiftToTargetExponent_eq m 0 (k := k + 1) (by rw [hlog]; omega)
  obtain ⟨m', e', h, hround, hlow', hhigh', hcase⟩ :=
    roundWithAccuracy_of (s := s) hfirst (by omega) (hq.trans hlow) (by omega)
  have hround' : UnpackedFloat.round Format.binary32 s m 0 = .finite s m' e' h :=
    (round_eq s m 0 (d := 0) (by omega)).trans hround
  rw [hround']
  obtain ⟨r, hr⟩ : ∃ r, r = (exactMantissa m >>> (k + 1)).roundedMantissa := ⟨_, rfl⟩
  rw [← hr] at hle hge hlow hhigh hcase
  have hbounds : 0 ≤ e' ∧ e' ≤ 104 := by
    rcases hcase with ⟨-, he'⟩ | ⟨-, -, he'⟩ <;> omega
  obtain ⟨hfinite, hvalue⟩ :=
    value_pack (s := s) (e := e') (h := h) hlow' hhigh' (by omega) hbounds.2
  refine ⟨r, hfinite, hvalue.trans ?_, hle, hge, hq.trans hlow⟩
  have hpow : (m' : Int) * 2 ^ (e' + 149).toNat = ((r * 2 ^ (k + 1) : Nat) : Int) * 2 ^ 149 := by
    rcases hcase with ⟨hm', he'⟩ | ⟨hfull, hm', he'⟩
    · have hexp : (e' + 149).toNat = (k + 1) + 149 := by omega
      rw [hexp, hm']
      push_cast
      ring
    · have hexp : (e' + 149).toNat = (k + 1) + 1 + 149 := by omega
      rw [hexp, hm', hfull]
      push_cast
      ring
  rw [hpow, apply_mul_div]

/-! ### Converting an integer -/

abbrev ofInt (n : Int) : Float32 := Float32.ofModel (.ofInt n)

theorem normalize_of_pos (spec : Format) {x : Int} (e : Int) (z : Sign) (h : 0 < x) :
    normalize spec x e z = UnpackedFloat.round spec .positive x.toNat e := by
  have hcmp : compare x 0 = .gt := compare_gt_iff_gt.mpr h
  unfold UnpackedFloat.normalize
  rw [hcmp]

theorem normalize_of_neg (spec : Format) {x : Int} (e : Int) (z : Sign) (h : x < 0) :
    normalize spec x e z = UnpackedFloat.round spec .negative (-x).toNat e := by
  have hcmp : compare x 0 = .lt := compare_lt_iff_lt.mpr h
  unfold UnpackedFloat.normalize
  rw [hcmp]

theorem ofInt_of_pos {n : Int} (h : 0 < n) :
    ofInt n = Float32.ofModel (.pack (UnpackedFloat.round Format.binary32 .positive n.toNat 0)) :=
  congrArg (fun x => Float32.ofModel (.pack x)) (normalize_of_pos Format.binary32 0 .positive h)

theorem ofInt_of_neg {n : Int} (h : n < 0) :
    ofInt n =
      Float32.ofModel (.pack (UnpackedFloat.round Format.binary32 .negative (-n).toNat 0)) :=
  congrArg (fun x => Float32.ofModel (.pack x)) (normalize_of_neg Format.binary32 0 .positive h)

/-- Integers of up to 24 bits are exact. -/
theorem value_ofInt {n : Int} (h : n.natAbs < 2 ^ 24) :
    (ofInt n).isFinite ∧ value (ofInt n) = n := by
  rcases Int.lt_trichotomy n 0 with hneg | rfl | hpos
  · obtain ⟨hfinite, hvalue⟩ := value_round_small .negative (m := (-n).toNat) (by omega) (by omega)
    rw [ofInt_of_neg hneg]
    refine ⟨hfinite, hvalue.trans ?_⟩
    have hback : -(((-n).toNat : Nat) : Int) = n := by omega
    exact congrArg (fun z : Int => (z : ℚ)) hback
  · decide +kernel
  · obtain ⟨hfinite, hvalue⟩ := value_round_small .positive (m := n.toNat) (by omega) (by omega)
    rw [ofInt_of_pos hpos]
    refine ⟨hfinite, hvalue.trans ?_⟩
    have hback : ((n.toNat : Nat) : Int) = n := by omega
    exact congrArg (fun z : Int => (z : ℚ)) hback

/-- The magnitude of a larger 32-bit integer is rounded by 64 at most, and not below
24 bits. -/
theorem value_round_int32 (s : Sign) {m : Nat} (hlow : 2 ^ 24 ≤ m) (hhigh : m ≤ 2 ^ 31) :
    ∃ v : Nat, (Float32.ofModel (.pack (UnpackedFloat.round Format.binary32 s m 0))).isFinite ∧
      value (Float32.ofModel (.pack (UnpackedFloat.round Format.binary32 s m 0))) =
        (s.apply (v : Int) : Int) ∧
      2 ^ 24 ≤ v ∧ v ≤ m + 64 ∧ v ≤ 2 ^ 31 ∧ (2 ^ 31 - 64 < m → v = 2 ^ 31) := by
  have hne : m ≠ 0 := by omega
  have hlog : 24 ≤ m.log2 := (Nat.le_log2 hne).mpr hlow
  have hlog' : m.log2 ≤ 31 := Nat.le_of_lt_succ ((Nat.log2_lt hne).mpr (by omega))
  obtain ⟨k, hk⟩ : ∃ k, m.log2 = 24 + k := ⟨m.log2 - 24, by omega⟩
  obtain ⟨r, hfinite, hvalue, hle, hge, hr⟩ := value_round_large s hk (by omega)
  have hself : 2 ^ (24 + k) ≤ m := by
    rw [← hk]
    exact Nat.log2_self_le hne
  have hlt : m < 2 ^ (24 + k + 1) := by
    rw [← hk]
    exact Nat.lt_log2_self
  refine ⟨r * 2 ^ (k + 1), hfinite, hvalue, ?_⟩
  have hk7 : k ≤ 7 := by omega
  interval_cases k <;> omega

/-- Larger integers stay beyond 24 bits, and nothing below `2^31 - 64` reaches `2^31`. -/
theorem value_ofInt_large {n : Int} (hlow : 2 ^ 24 ≤ n) (hhigh : n < 2 ^ 31) :
    (ofInt n).isFinite ∧ ∃ v : Int, value (ofInt n) = v ∧ 2 ^ 24 ≤ v ∧ v ≤ n + 64 ∧ v ≤ 2 ^ 31 ∧
      (2 ^ 31 - 64 ≤ n → v = 2 ^ 31) := by
  obtain ⟨v, hfinite, hvalue, h1, h2, h3, h4⟩ :=
    value_round_int32 .positive (m := n.toNat) (by omega) (by omega)
  rw [← ofInt_of_pos (by omega)] at hfinite hvalue
  refine ⟨hfinite, v, hvalue, by omega, by omega, by omega, fun htop => ?_⟩
  rcases Int.lt_or_eq_of_le htop with hlt | htie
  · have hv := h4 (by omega)
    omega
  · -- the tie goes to the even mantissa, that of `2^31`
    have htie' : value (ofInt n) = 2 ^ 31 := by
      rw [← htie]
      decide +kernel
    have hv : ((v : Int) : ℚ) = 2 ^ 31 := Eq.trans (Eq.symm hvalue) htie'
    exact_mod_cast hv

theorem value_ofInt_small {n : Int} (hlow : -2 ^ 31 ≤ n) (hhigh : n ≤ -2 ^ 24) :
    (ofInt n).isFinite ∧ ∃ v : Int, value (ofInt n) = v ∧ -2 ^ 31 ≤ v ∧ v ≤ -2 ^ 24 := by
  obtain ⟨v, hfinite, hvalue, h1, h2, h3, h4⟩ :=
    value_round_int32 .negative (m := (-n).toNat) (by omega) (by omega)
  rw [← ofInt_of_neg (by omega)] at hfinite hvalue
  exact ⟨hfinite, -v, hvalue, by omega, by omega⟩

/-! ### Adding a half -/

theorem unpack_ofInt {n : Int} (hpos : 0 < n) (hn : n < 2 ^ 24) {d : Nat}
    (hd : d = 23 - n.toNat.log2) :
    ∃ h, (ofInt n).toModel.unpack = .finite .positive (n.toNat * 2 ^ d) (-(d : Int)) h := by
  obtain ⟨h, hround, hlow, hhigh⟩ :=
    round_small .positive (m := n.toNat) (by omega) (by omega) hd
  refine ⟨h, ?_⟩
  rw [ofInt_of_pos hpos, hround]
  exact unpack_pack hlow hhigh (by omega) (by omega)

theorem unpack_half :
    ∃ h, (0.5 : Float32).toModel.unpack = .finite .positive (2 ^ 23) (-24) h := by
  have hhalf : (0.5 : Float32) =
      Float32.ofModel (.pack (.finite .positive (2 ^ 23) (-24) (by norm_num))) := by
    decide +kernel
  refine ⟨by norm_num, ?_⟩
  rw [hhalf]
  exact unpack_pack (le_refl _) (by norm_num) (by norm_num) (by norm_num)

theorem add_finite (spec : Format) {m₁ m₂ : Nat} {e₁ e₂ : Int} (h₁ : 0 < m₁) (h₂ : 0 < m₂) :
    UnpackedFloat.add spec (.finite .positive m₁ e₁ h₁) (.finite .positive m₂ e₂ h₂) =
      normalize spec
        ((m₁ <<< (e₁ - min e₁ e₂).toNat : Nat) + (m₂ <<< (e₂ - min e₁ e₂).toNat : Nat))
        (min e₁ e₂) .positive := rfl

theorem sum_mantissa {m d : Nat} (hd : d ≤ 23) :
    (((m * 2 ^ d) <<< (24 - d) : Nat) : Int) + ((2 ^ 23) <<< ((-24 : Int) - -24).toNat : Nat) =
      (((2 * m + 1) * 2 ^ 23 : Nat) : Int) := by
  have hzero : ((-24 : Int) - -24).toNat = 0 := rfl
  have hsplit : d + (24 - d) = 24 := by omega
  rw [hzero, Nat.shiftLeft_zero, Nat.shiftLeft_eq, mul_assoc, ← pow_add, hsplit]
  push_cast
  ring

/-- The sum of an integer and a half, in units of `2^-24`, before it is rounded. -/
theorem add_half_eq_round {n : Int} (hpos : 0 < n) (hn : n < 2 ^ 24) :
    UnpackedFloat.add Format.binary32 (ofInt n).toModel.unpack (0.5 : Float32).toModel.unpack =
      UnpackedFloat.round Format.binary32 .positive ((2 * n.toNat + 1) * 2 ^ 23) (-24) := by
  obtain ⟨d, hd⟩ : ∃ d, d = 23 - n.toNat.log2 := ⟨_, rfl⟩
  obtain ⟨h, hint⟩ := unpack_ofInt hpos hn hd
  obtain ⟨h', hhalf⟩ := unpack_half
  have hmin : min (-(d : Int)) (-24) = -24 := by omega
  have hshift : (-(d : Int) - -24).toNat = 24 - d := by omega
  rw [hint, hhalf, add_finite, hmin, hshift, sum_mantissa (by omega)]
  exact normalize_of_pos _ _ _ (by omega)

/-- A half is added exactly to an integer of up to 22 bits. -/
theorem value_ofInt_add_half {n : Int} (hpos : 0 < n) (hn : n < 2 ^ 22) :
    value (ofInt n + 0.5) = n + 1 / 2 := by
  obtain ⟨M, hM⟩ : ∃ M, M = (2 * n.toNat + 1) * 2 ^ 23 := ⟨_, rfl⟩
  obtain ⟨k, hk⟩ : ∃ k, k = (2 * n.toNat + 1).log2 := ⟨_, rfl⟩
  have hk22 : k ≤ 22 := by
    rw [hk]
    exact Nat.le_of_lt_succ ((Nat.log2_lt (by omega)).mpr (by omega))
  have hlogM : M.log2 = 23 + k := by
    rw [hM, log2_mul_two_pow (by omega), ← hk, Nat.add_comm]
  have hdvd : 2 ^ k ∣ M := by
    rw [hM]
    exact Dvd.dvd.mul_left (pow_dvd_pow 2 (by omega)) _
  obtain ⟨hpos', hround, hlow, hhigh⟩ := round_exact .positive (e := -24) hlogM hdvd (by omega)
  have hvalue := (value_pack (s := .positive) (e := -24 + k) (h := hpos') hlow hhigh (by omega)
    (by omega)).2
  rw [← hround, hM, ← add_half_eq_round hpos (by omega), ← hM] at hvalue
  refine Eq.trans hvalue ?_
  have hexp : (-24 + (k : Int) + 149).toNat = k + 125 := by omega
  have hscaled : ((M / 2 ^ k : Nat) : Int) * 2 ^ (-24 + (k : Int) + 149).toNat =
      ((2 * n + 1) * 2 ^ 148 : Int) := by
    obtain ⟨q, hq⟩ := hdvd
    have hback : (q : Int) * 2 ^ k = (2 * n + 1) * 2 ^ 23 := by
      have hcast : ((2 ^ k * q : Nat) : Int) = (((2 * n.toNat + 1) * 2 ^ 23 : Nat) : Int) := by
        rw [← hq, hM]
      have hn' : ((n.toNat : Nat) : Int) = n := by omega
      push_cast at hcast
      rw [hn'] at hcast
      linarith
    calc ((M / 2 ^ k : Nat) : Int) * 2 ^ (-24 + (k : Int) + 149).toNat
        = (q : Int) * 2 ^ k * 2 ^ 125 := by
          rw [hexp, hq, Nat.mul_div_cancel_left q (Nat.two_pow_pos k), pow_add]
          ring
      _ = (2 * n + 1) * 2 ^ 148 := by
          rw [hback]
          ring
  rw [hscaled]
  change (((2 * n + 1) * 2 ^ 148 : Int) : ℚ) / 2 ^ 149 = n + 1 / 2
  push_cast
  field_simp
  ring

end Binary32
