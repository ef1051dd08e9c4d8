import KartFirmware.CInt
import KartFirmware.RingIndex
import Mathlib.Data.List.Induction
import Mathlib.Tactic.SplitIfs

/-!
# The history ring

`ringbuffer.hpp`: the circular buffer behind the charts of the web page.  The capacity is a
template argument of type `int`, and so are the head and the count; their sums are checked,
and an access outside the array is undefined too, so a call that is some is one that C
defines.

After any number of pushes the count is that of the last `CAP` values, and they are in their
slots (`Ring.Represents`).  A push never overflows.  `copyTo` adds the index of the oldest
value to that of the value it copies before it reduces the sum, and this sum fits only up to
`2 ^ 31` (`Ring.keeps_iff`): up to a capacity of `2 ^ 30` it always does.
-/

namespace KartFirmware

open RingIndex

/-- `int CAP`, positive. -/
structure Capacity where
  val : Nat
  pos : 0 < val
  fits : (val : Int) ≤ CInt.INT_MAX

structure Ring (T : Type) (CAP : Capacity) where
  buf : Nat → T
  count : Int
  head : Int

namespace Ring

variable {T : Type} {CAP : Capacity}

/-! ### The operations -/

/-- `m_buf[i]`, which is defined within the array. -/
def load (r : Ring T CAP) (i : Int) : Option T :=
  if 0 ≤ i ∧ i < CAP.val then some (r.buf i.toNat) else none

def store (r : Ring T CAP) (i : Int) (v : T) : Option (Ring T CAP) :=
  if 0 ≤ i ∧ i < CAP.val then some { r with buf := Function.update r.buf i.toNat v } else none

/-- `zero` is the value-initialized element. -/
def new (CAP : Capacity) (zero : T) : Ring T CAP where
  buf _ := zero
  count := 0
  head := 0

/-- `(m_head + 1) % CAP`. -/
def nextHead (r : Ring T CAP) : Option Int := do CInt.rem (← CInt.add r.head 1) CAP.val

/-- The count saturates. -/
def nextCount (r : Ring T CAP) : Option Int :=
  if r.count < CAP.val then CInt.add r.count 1 else some r.count

def push (r : Ring T CAP) (v : T) : Option (Ring T CAP) := do
  let r ← r.store r.head v
  let head ← r.nextHead
  let r : Ring T CAP := { r with head := head }
  let count ← r.nextCount
  some { r with count := count }

/-- One turn of the loop of `copyTo`. -/
def copySlot (r : Ring T CAP) (oldest : Int) (dst : Nat → T) (i : Nat) : Option (Nat → T) := do
  let sum ← CInt.add oldest i
  let slot ← CInt.rem sum CAP.val
  let v ← r.load slot
  some (Function.update dst i v)

/-- `(m_head - m_count + CAP) % CAP`. -/
def oldest (r : Ring T CAP) : Option Int := do
  CInt.rem (← CInt.add (← CInt.sub r.head r.count) CAP.val) CAP.val

/-- Linearizes the ring into `dst`, from the oldest value on. -/
def copyTo (r : Ring T CAP) (dst : Nat → T) (cap : Int) : Option (Int × (Nat → T)) := do
  let n := if r.count < cap then r.count else cap
  let oldest ← r.oldest
  let dst ← (List.range n.toNat).foldlM (r.copySlot oldest) dst
  some (n, dst)

def pushAll (CAP : Capacity) (zero : T) (vs : List T) : Option (Ring T CAP) :=
  vs.foldlM push (new CAP zero)

/-! ### What a ring holds -/

/-- The ring after the pushes of `vs`: the last `CAP` of them are in their slots. -/
structure Represents (r : Ring T CAP) (vs : List T) : Prop where
  count : r.count = (min vs.length CAP.val : Nat)
  head : r.head = (vs.length % CAP.val : Nat)
  holds : Holds CAP.val r.buf vs (vs.length - CAP.val)

theorem Represents.new (zero : T) : (new CAP zero).Represents [] where
  count := by simp [Ring.new]
  head := by simp [Ring.new]
  holds := by simp [Holds]

variable {r : Ring T CAP} {vs : List T}

theorem Represents.store (h : r.Represents vs) (v : T) :
    r.store r.head v =
      some { r with buf := Function.update r.buf (vs.length % CAP.val) v } := by
  have hslot : vs.length % CAP.val < CAP.val := Nat.mod_lt _ CAP.pos
  rw [Ring.store, h.head, if_pos ⟨Int.natCast_nonneg _, by exact_mod_cast hslot⟩,
    Int.toNat_natCast]

theorem nextHead_eq {n : Nat} (h : r.head = (n % CAP.val : Nat)) :
    r.nextHead = some (((n + 1) % CAP.val : Nat) : Int) := by
  have hslot : n % CAP.val < CAP.val := Nat.mod_lt _ CAP.pos
  have hfits := CAP.fits
  have hadd : CInt.add r.head 1 = some ((n % CAP.val + 1 : Nat) : Int) := by
    rw [CInt.add, h, CInt.fit_of_nonneg (by omega), if_pos (by omega)]
    rfl
  rw [nextHead, hadd, Option.bind_eq_bind, Option.bind_some,
    CInt.rem_of_nonneg (Int.natCast_nonneg _) (by exact_mod_cast CAP.pos), ← Int.natCast_emod,
    Nat.mod_add_mod]

theorem nextCount_eq {n : Nat} (h : r.count = (min n CAP.val : Nat)) :
    r.nextCount = some ((min (n + 1) CAP.val : Nat) : Int) := by
  have hfits := CAP.fits
  rw [nextCount, h]
  split_ifs with hroom
  · rw [CInt.add, CInt.fit_of_nonneg (by omega), if_pos (by omega)]
    congr 1
    omega
  · congr 1
    omega

/-- No sum of a push overflows. -/
theorem Represents.push (h : r.Represents vs) (v : T) :
    ∃ r', r.push v = some r' ∧ r'.Represents (vs ++ [v]) := by
  have hlen : (vs ++ [v]).length = vs.length + 1 := by simp
  have hholds : Holds CAP.val (Function.update r.buf (vs.length % CAP.val) v) (vs ++ [v])
      (vs.length + 1 - CAP.val) := by
    have hmono := h.holds.mono (m := vs.length + 1 - CAP.val) (by omega)
    exact (hmono.update (by omega) v).push (Function.update_self ..)
  refine ⟨{
    buf := Function.update r.buf (vs.length % CAP.val) v
    count := (min (vs.length + 1) CAP.val : Nat)
    head := ((vs.length + 1) % CAP.val : Nat) }, ?_, ?_, ?_, ?_⟩
  · have hhead := nextHead_eq
      (r := { r with buf := Function.update r.buf (vs.length % CAP.val) v }) h.head
    have hcount := nextCount_eq
      (r := {
        buf := Function.update r.buf (vs.length % CAP.val) v
        count := r.count
        head := ((vs.length + 1) % CAP.val : Nat) }) h.count
    simp only [Ring.push, h.store, Option.bind_eq_bind, Option.bind_some, hhead, hcount]
  · rw [hlen]
  · rw [hlen]
  · rw [hlen]
    exact hholds

theorem pushAll_represents (CAP : Capacity) (zero : T) (vs : List T) :
    ∃ r, pushAll CAP zero vs = some r ∧ r.Represents vs := by
  induction vs using List.reverseRecOn with
  | nil => exact ⟨_, rfl, .new zero⟩
  | append_singleton vs v ih =>
    obtain ⟨r, hr, hrep⟩ := ih
    obtain ⟨r', hr', hrep'⟩ := hrep.push v
    refine ⟨r', ?_, hrep'⟩
    rw [pushAll] at hr ⊢
    rw [List.foldlM_append, hr, Option.bind_eq_bind, Option.bind_some, List.foldlM_cons, hr',
      Option.bind_eq_bind, Option.bind_some]
    rfl

/-! ### Linearizing -/

/-- The slot of the oldest value. -/
theorem Represents.oldest (h : r.Represents vs) :
    r.oldest = some (((vs.length - CAP.val) % CAP.val : Nat) : Int) := by
  have hpos := CAP.pos
  have hfits := CAP.fits
  have hslot : vs.length % CAP.val < CAP.val := Nat.mod_lt _ hpos
  have hle : vs.length % CAP.val ≤ vs.length := Nat.mod_le _ _
  rw [CInt.INT_MAX] at hfits
  have hback : CInt.sub r.head r.count = some (r.head - r.count) := by
    rw [CInt.sub, h.head, h.count, CInt.fit_eq_some]
    · rw [CInt.INT_MIN]
      omega
    · rw [CInt.INT_MAX]
      omega
  have hstart : CInt.add (r.head - r.count) CAP.val =
      some ((vs.length % CAP.val + CAP.val - min vs.length CAP.val : Nat) : Int) := by
    have hcast : r.head - r.count + CAP.val =
        ((vs.length % CAP.val + CAP.val - min vs.length CAP.val : Nat) : Int) := by
      rw [h.head, h.count]
      omega
    rw [CInt.add, hcast, CInt.fit_of_nonneg (by omega), if_pos]
    rw [CInt.INT_MAX]
    rcases Nat.lt_or_ge vs.length CAP.val with hlt | hge
    · rw [Nat.mod_eq_of_lt hlt]
      omega
    · omega
  have hwrap : (vs.length % CAP.val + CAP.val - min vs.length CAP.val) % CAP.val =
      (vs.length - CAP.val) % CAP.val := by
    rcases Nat.lt_or_ge vs.length CAP.val with hlt | hge
    · rw [Nat.mod_eq_of_lt hlt, min_eq_left hlt.le, Nat.add_sub_cancel_left, Nat.mod_self,
        Nat.sub_eq_zero_of_le hlt.le, Nat.zero_mod]
    · rw [min_eq_right hge, Nat.add_sub_cancel, Nat.mod_mod, ← Nat.mod_eq_sub_mod hge]
  have hrem : CInt.rem ((vs.length % CAP.val + CAP.val - min vs.length CAP.val : Nat) : Int)
      CAP.val = some (((vs.length - CAP.val) % CAP.val : Nat) : Int) := by
    rw [CInt.rem_of_nonneg (Int.natCast_nonneg _) (by exact_mod_cast hpos), ← Int.natCast_emod,
      hwrap]
  simp only [Ring.oldest, hback, Option.bind_eq_bind, Option.bind_some, hstart, hrem]

/-- A turn is defined when an `int` holds the sum of its indices. -/
theorem copySlot_eq (r : Ring T CAP) (oldest : Nat) (dst : Nat → T) (i : Nat) :
    r.copySlot oldest dst i =
      if oldest + i < 2147483648 then
        some (Function.update dst i (r.buf ((oldest + i) % CAP.val)))
      else none := by
  have hsum : CInt.add oldest i =
      if oldest + i < 2147483648 then some ((oldest + i : Nat) : Int) else none := by
    rw [CInt.add, CInt.fit_of_nonneg (by omega)]
    refine if_congr ?_ rfl rfl
    rw [CInt.INT_MAX]
    omega
  have hslot : (oldest + i) % CAP.val < CAP.val := Nat.mod_lt _ CAP.pos
  have hload : r.load ((oldest + i) % CAP.val : Nat) = some (r.buf ((oldest + i) % CAP.val)) := by
    rw [load, if_pos ⟨Int.natCast_nonneg _, by exact_mod_cast hslot⟩, Int.toNat_natCast]
  rw [copySlot, hsum]
  split_ifs
  · have hrem : CInt.rem ((oldest + i : Nat) : Int) CAP.val =
        some (((oldest + i) % CAP.val : Nat) : Int) :=
      CInt.rem_of_nonneg (Int.natCast_nonneg _) (by exact_mod_cast CAP.pos)
    simp only [Option.bind_eq_bind, Option.bind_some, hrem, hload]
  · rfl

/-- The loop is defined up to the first turn that is not. -/
theorem copyLoop_eq (r : Ring T CAP) {oldest : Nat} (hold : oldest < CAP.val) (dst : Nat → T)
    (k : Nat) :
    (List.range k).foldlM (r.copySlot oldest) dst =
      if oldest + k ≤ 2147483648 then
        some fun i => if i < k then r.buf ((oldest + i) % CAP.val) else dst i
      else none := by
  induction k with
  | zero =>
    have hfits := CAP.fits
    rw [CInt.INT_MAX] at hfits
    rw [if_pos (by omega)]
    simp
  | succ k ih =>
    rw [List.range_succ, List.foldlM_append, ih]
    by_cases hnext : oldest + k < 2147483648
    · rw [if_pos (by omega), if_pos (by omega), Option.bind_eq_bind, Option.bind_some,
        List.foldlM_cons, copySlot_eq, if_pos hnext]
      refine congrArg some ?_
      funext i
      rcases Nat.lt_trichotomy i k with hlt | rfl | hgt
      · rw [Function.update_of_ne (by omega), if_pos hlt, if_pos (by omega)]
      · rw [Function.update_self, if_pos (Nat.lt_succ_self _)]
      · rw [Function.update_of_ne (by omega), if_neg (by omega), if_neg (by omega)]
    · rw [if_neg (show ¬ oldest + (k + 1) ≤ 2147483648 by omega)]
      split_ifs
      · rw [Option.bind_eq_bind, Option.bind_some, List.foldlM_cons, copySlot_eq, if_neg hnext]
        rfl
      · rfl

/-- The elements that `copyTo` returns with room for `cap`. -/
def copied (CAP : Capacity) (vs : List T) (cap : Nat) : Nat := min (min vs.length CAP.val) cap

theorem Represents.copyTo (h : r.Represents vs) (dst : Nat → T) (cap : Nat) :
    r.copyTo dst cap =
      if (vs.length - CAP.val) % CAP.val + copied CAP vs cap ≤ 2147483648 then
        some (((copied CAP vs cap : Nat) : Int), fun i =>
          if i < copied CAP vs cap then
            r.buf (((vs.length - CAP.val) % CAP.val + i) % CAP.val)
          else dst i)
      else none := by
  have hn : (if r.count < cap then r.count else cap) = ((copied CAP vs cap : Nat) : Int) := by
    rw [h.count, copied]
    split_ifs <;> omega
  simp only [Ring.copyTo, hn, h.oldest, Option.bind_eq_bind, Option.bind_some, Int.toNat_natCast,
    copyLoop_eq r (Nat.mod_lt _ CAP.pos) dst]
  split_ifs <;> rfl

/-- The value in the slot that turn `i` copies. -/
theorem Represents.buf (h : r.Represents vs) {i : Nat} (hi : i < min vs.length CAP.val) :
    (vs.drop (vs.length - CAP.val))[i]? =
      some (r.buf (((vs.length - CAP.val) % CAP.val + i) % CAP.val)) := by
  have hlen : vs.length - CAP.val + i < vs.length := by omega
  rw [List.getElem?_drop, Nat.mod_add_mod, List.getElem?_eq_getElem hlen,
    h.holds _ (Nat.le_add_right _ _) _ (List.getElem?_eq_getElem hlen)]

/-! ### What the ring is for -/

/-- `n` elements of `dst` are overwritten, with the first of the last `CAP` values. -/
structure Copies (CAP : Capacity) (vs : List T) (cap : Int) (dst : Nat → T) (n : Int)
    (dst' : Nat → T) : Prop where
  count : n = min (min (vs.length : Int) CAP.val) cap
  written : ∀ i : Nat, i < n → (vs.drop (vs.length - CAP.val))[i]? = some (dst' i)
  rest : ∀ i : Nat, n ≤ i → dst' i = dst i

/-- After the pushes `vs`, all defined, the ring counts the last `CAP` values and copies
them. -/
def Keeps (CAP : Capacity) (zero : T) (vs : List T) (cap : Int) (dst : Nat → T) : Prop :=
  ∃ r, pushAll CAP zero vs = some r ∧ r.count = min (vs.length : Int) CAP.val ∧
    ∃ n dst', r.copyTo dst cap = some (n, dst') ∧ Copies CAP vs cap dst n dst'

theorem keeps_iff (CAP : Capacity) (zero : T) (vs : List T) (cap : Nat) (dst : Nat → T) :
    Keeps CAP zero vs cap dst ↔
      (vs.length - CAP.val) % CAP.val + copied CAP vs cap ≤ 2147483648 := by
  obtain ⟨r, hr, h⟩ := pushAll_represents CAP zero vs
  have hcopy := h.copyTo dst cap
  constructor
  · rintro ⟨r', hr', -, n, dst', hcopy', -⟩
    obtain rfl : r' = r := Option.some.inj (hr'.symm.trans hr)
    by_contra hover
    rw [if_neg hover, hcopy'] at hcopy
    exact absurd hcopy (Option.some_ne_none _)
  · intro hfits
    rw [if_pos hfits] at hcopy
    refine ⟨r, hr, by rw [h.count]; omega, _, _, hcopy, ?_, ?_, ?_⟩
    · rw [copied]
      omega
    · intro i hi
      have hi' : i < copied CAP vs cap := by exact_mod_cast hi
      rw [if_pos hi']
      exact h.buf (hi'.trans_le (min_le_left _ _))
    · intro i hi
      exact if_neg (by omega)

/-- Up to a capacity of `2 ^ 30` no sum overflows, whatever is pushed and asked for. -/
theorem keeps_of_le (hsmall : CAP.val ≤ 1073741824) (zero : T) (vs : List T) (cap : Nat)
    (dst : Nat → T) : Keeps CAP zero vs cap dst := by
  have hslot : (vs.length - CAP.val) % CAP.val < CAP.val := Nat.mod_lt _ CAP.pos
  have hcopied : copied CAP vs cap ≤ CAP.val := (min_le_left _ _).trans (min_le_right _ _)
  rw [keeps_iff]
  omega

/-- The rings of the page, `HIST_FAST_N` samples of a byte each. -/
def histFast : Capacity where
  val := 120
  pos := by decide
  fits := by decide

theorem histFast_keeps (vs : List UInt8) (dst : Nat → UInt8) :
    Keeps histFast 0 vs histFast.val dst :=
  keeps_of_le (by decide) 0 vs histFast.val dst

/-- **The history ring.**  It counts and copies the last `CAP` values exactly when it is not
full yet, or the slot after the last one that is copied is at most `2 ^ 31`. -/
theorem history_ring (CAP : Capacity) (zero : T) (vs : List T) {cap : Int} (hcap : 0 ≤ cap)
    (dst : Nat → T) :
    Keeps CAP zero vs cap dst ↔
      vs.length < CAP.val ∨
        ((vs.length % CAP.val : Nat) : Int) + min cap CAP.val ≤ CInt.INT_MAX + 1 := by
  obtain ⟨cap, rfl⟩ := Int.eq_ofNat_of_zero_le hcap
  have hfits := CAP.fits
  rw [CInt.INT_MAX] at hfits ⊢
  rw [keeps_iff, copied]
  rcases Nat.lt_or_ge vs.length CAP.val with hlt | hge
  · -- not full: the oldest value is in the first slot
    refine iff_of_true ?_ (Or.inl hlt)
    rw [Nat.sub_eq_zero_of_le hlt.le, Nat.zero_mod]
    omega
  · rw [or_iff_right (Nat.not_lt.mpr hge), ← Nat.mod_eq_sub_mod hge, min_eq_right hge]
    omega

/-- The test of the repository: one value past full. -/
theorem history_ring_four :
    Keeps ⟨4, by decide, by decide⟩ (0 : UInt8) [1, 2, 3, 4, 5] 8 (fun _ => 0) :=
  (history_ring ⟨4, by decide, by decide⟩ 0 [1, 2, 3, 4, 5] (by decide) (fun _ => 0)).mpr
    (Or.inr (by decide))

/-- One slot more than `2 ^ 30`.  After `2 * CAP - 1` pushes the oldest value is in the last
slot, and the sum for the last value is `2 ^ 31`. -/
def overCapacity : Capacity where
  val := 1073741825
  pos := by decide
  fits := by decide

theorem history_ring_overflow :
    ¬ Keeps overCapacity (0 : UInt8) (List.replicate 2147483649 0) (1073741825 : Nat)
      (fun _ => 0) := by
  rw [keeps_iff, copied, List.length_replicate]
  decide

end Ring

end KartFirmware
