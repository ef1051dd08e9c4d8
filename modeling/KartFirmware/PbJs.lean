import KartFirmware.PbMessage
import KartFirmware.Utf8

/-!
# The protobuf.js decoder

What a browser makes of a message: the `Reader` of protobuf.js, the decoder that it generates
from a descriptor, and `toObject`, which fills in the defaults.  A string is what `Utf8.read`
makes of its bytes.  The decoder does not look at the wire type of a field that it knows, its
`uint32` skips the sign extension of a negative number as five bytes, and a nested message is
read until the position is past its end.

A `Part` of a message is a field of the descriptor with the values that are sent in it and
what the reader makes of each.  The bytes of a list of parts are read as the object of the
parts (`reads_message`), whoever wrote them.
-/

namespace PbJs

open PbDecode (Value WireField)
open Reader

/-- What the decoder throws. -/
inductive Thrown where
  | indexOutOfRange
  | invalidWireType
  | invalidVarint
deriving DecidableEq

abbrev JsReader (α : Type) := Reader Thrown α

/-! ### The reader -/

def nextByte : JsReader UInt8 := Reader.byte .indexOutOfRange

/-- The bytes of a `uint32` from the one on that has `more` before the fifth. -/
def uint32Loop (value : UInt32) (bitpos : Nat) : Nat → JsReader UInt32
  | 0 => do
    let byte ← nextByte
    let value := value ||| (byte &&& 15).toUInt32 <<< bitpos.toUInt32
    if byte < 128 then pure value
    else do
      let _ ← Reader.take .indexOutOfRange 5
      pure value
  | more + 1 => do
    let byte ← nextByte
    let value := value ||| (byte &&& 127).toUInt32 <<< bitpos.toUInt32
    if byte < 128 then pure value else uint32Loop value (bitpos + 7) more

def uint32 : JsReader UInt32 := uint32Loop 0 0 4

def int32 : JsReader Int := do
  let value ← uint32
  pure value.toInt32.toInt

/-- The zigzag of small negative numbers. -/
def sint32 : JsReader Int := do
  let value ← uint32
  pure (value >>> 1 ^^^ (0 - (value &&& 1))).toInt32.toInt

/-- The five groups of the high word that follow the one across the words. -/
def longHigh (hi : UInt32) (bitpos : Nat) : Nat → JsReader UInt32
  | 0 => Reader.fail .invalidVarint
  | more + 1 => do
    let byte ← nextByte
    let hi := hi ||| (byte &&& 127).toUInt32 <<< bitpos.toUInt32
    if byte < 128 then pure hi else longHigh hi (bitpos + 7) more

/-- The low word and the high one of a varint.  In the last four bytes of a buffer protobuf.js
takes a number that is cut off for a whole one, which is left out. -/
def longVarint (lo : UInt32) (bitpos : Nat) : Nat → JsReader (UInt32 × UInt32)
  | 0 => do
    let byte ← nextByte
    let lo := lo ||| (byte &&& 127).toUInt32 <<< bitpos.toUInt32
    let hi := (byte &&& 127).toUInt32 >>> 4
    if byte < 128 then pure (lo, hi)
    else do
      let hi ← longHigh hi 3 5
      pure (lo, hi)
  | more + 1 => do
    let byte ← nextByte
    let lo := lo ||| (byte &&& 127).toUInt32 <<< bitpos.toUInt32
    if byte < 128 then pure (lo, 0) else longVarint lo (bitpos + 7) more

/-- `LongBits.toNumber`, of a signed number. -/
def toNumber (lo hi : UInt32) : Int :=
  if hi >>> 31 ≠ 0 then
    let lo := ~~~lo + 1
    let hi := ~~~hi
    let hi := if lo = 0 then hi + 1 else hi
    Int.negOfNat (lo.toNat + hi.toNat * 4294967296)
  else lo.toNat + hi.toNat * 4294967296

/-- As a number, which is exact below `2^53`. -/
def int64 : JsReader Int := do
  let long ← longVarint 0 0 4
  pure (toNumber long.1 long.2)

def bool : JsReader Bool := do
  let value ← uint32
  pure (value ≠ 0)

def float : JsReader UInt32 := do
  let b₀ ← nextByte
  let b₁ ← nextByte
  let b₂ ← nextByte
  let b₃ ← nextByte
  pure (LittleEndian.word b₀ b₁ b₂ b₃)

def bytes : JsReader (List UInt8) := do
  let length ← uint32
  Reader.take .indexOutOfRange length.toNat

def skip (count : Nat) : JsReader Unit := do
  let _ ← Reader.take .indexOutOfRange count
  pure ()

def skipVarint : JsReader Unit := do
  let _ ← Reader.skipThrough .indexOutOfRange fun byte => 128 &&& byte ≠ 0
  pure ()

/-- Groups, which proto3 does not have, are left out. -/
def skipType (wireType : UInt32) : JsReader Unit :=
  if wireType = 0 then skipVarint
  else if wireType = 1 then skip 8
  else if wireType = 2 then do
    let length ← uint32
    skip length.toNat
  else if wireType = 5 then skip 4
  else Reader.fail .invalidWireType

/-! ### Objects -/

inductive Js where
  | bool (b : Bool)
  | int (n : Int)
  /-- A number with the bits of a `float`. -/
  | float (bits : UInt32)
  | text (s : Utf8.JsString)
  | bytes (content : List UInt8)
  | arr (items : List Js)
  | obj (members : List (String × Js))

/-- The own properties of an object, in the order in which they were set first. -/
abbrev Obj := List (String × Js)

namespace Obj

def assign (name : String) (v : Js) : Obj → Obj
  | [] => [(name, v)]
  | p :: m => if p.1 = name then (name, v) :: m else p :: assign name v m

def push (name : String) (v : Js) (m : Obj) : Obj :=
  match m.lookup name with
  | some (.arr items) => assign name (.arr (items ++ [v])) m
  | _ => assign name (.arr [v]) m

theorem lookup_assign_self (name : String) (v : Js) (m : Obj) :
    (assign name v m).lookup name = some v := by
  induction m with
  | nil => simp [assign]
  | cons p m ih =>
    rw [assign]
    split_ifs with hname
    · simp
    · rw [List.lookup_cons, beq_eq_false_iff_ne.mpr (Ne.symm hname)]
      exact ih

theorem lookup_assign_of_ne {name other : String} (h : other ≠ name) (v : Js) (m : Obj) :
    (assign name v m).lookup other = m.lookup other := by
  induction m with
  | nil => simp [assign, List.lookup_cons, beq_eq_false_iff_ne.mpr h]
  | cons p m ih =>
    rw [assign]
    split_ifs with hname
    · obtain ⟨key, w⟩ := p
      obtain rfl : key = name := hname
      simp [List.lookup_cons, beq_eq_false_iff_ne.mpr h]
    · rw [List.lookup_cons, List.lookup_cons, ih]

end Obj

/-- A member of a message is set, with a default for the object (a message has none, and
neither has a member of a oneof), or the value is pushed to an array. -/
inductive Rule where
  | singular (dflt : Option Js)
  | repeated

structure Field where
  name : String
  read : JsReader Js
  rule : Rule

namespace Field

def put (f : Field) (m : Obj) (v : Js) : Obj :=
  match f.rule with
  | .singular _ => m.assign f.name v
  | .repeated => m.push f.name v

/-- What `toObject` shows of a member. -/
def shown (f : Field) (stored : Option Js) : Option Js :=
  match f.rule with
  | .singular dflt => stored.or dflt
  | .repeated => some (stored.getD (.arr []))

end Field

/-- A type, with the fields by number. -/
abbrev Descriptor := List (UInt32 × Field)

def toObject (d : Descriptor) (m : Obj) : Js :=
  .obj (d.filterMap fun p => (p.2.shown (m.lookup p.2.name)).map fun v => (p.2.name, v))

/-! ### The decoder -/

def decodeTurn (d : Descriptor) (m : Obj) : JsReader Obj := do
  let tag ← uint32
  match d.lookup (tag >>> 3) with
  | some f => do
    let v ← f.read
    pure (f.put m v)
  | none => do
    skipType (tag &&& 7)
    pure m

theorem consumes_uint32 : uint32.Consumes := (consumes_byte _).bind _

theorem consumes_decodeTurn (d : Descriptor) (m : Obj) : (decodeTurn d m).Consumes :=
  consumes_uint32.bind _

def decodeFor (d : Descriptor) (length : Nat) : JsReader Obj :=
  forBytes (decodeTurn d) (consumes_decodeTurn d) length []

/-- A nested message, as `toObject` shows it. -/
def message (d : Descriptor) : JsReader Js := do
  let length ← uint32
  let m ← decodeFor d length.toNat
  pure (toObject d m)

/-- A whole buffer. -/
def decode (d : Descriptor) (buf : List UInt8) : Except Thrown Obj :=
  ((decodeFor d buf.length).run buf).map Prod.fst

/-! ### What is read back -/

theorem payload15_toNat (byte : UInt8) : (byte &&& 15).toNat = byte.toNat % 16 := by
  rw [UInt8.toNat_and]
  exact Nat.and_two_pow_sub_one_eq_mod byte.toNat 4

theorem lt_128_iff (byte : UInt8) : byte < 128 ↔ byte.toNat < 128 := UInt8.lt_iff_toNat_lt

theorem run_nextByte (byte : UInt8) (rest : List UInt8) :
    nextByte.run (byte :: rest) = .ok (byte, rest) := rfl

/-- A number of 32 bits, or one that is sign-extended to 64. -/
def Extended (n : Nat) : Prop := n < 2 ^ 32 ∨ 2 ^ 63 ≤ n ∧ n < 2 ^ 64

/-- The fifth byte has four bits of the number, and five more follow or none. -/
theorem reads_uint32Loop_zero {n : Nat} (hn : Extended n) {value : UInt32}
    (hvalue : value.toNat = n % 2 ^ 28) :
    (uint32Loop value 28 0).Reads (Varint.varint (n / 2 ^ 28)) (UInt32.ofNat n) := by
  have hlt : value.toNat < 2 ^ 28 := hvalue ▸ Nat.mod_lt _ (by omega)
  have hsum : ∀ byte : UInt8, byte.toNat % 16 = n / 2 ^ 28 % 16 →
      value ||| (byte &&& 15).toUInt32 <<< (28 : Nat).toUInt32 = UInt32.ofNat n := by
    intro byte hbyte
    apply UInt32.toNat_inj.mp
    rw [PbDecode.or_payload32 hlt (by omega), payload15_toNat, hbyte, hvalue, UInt32.toNat_ofNat']
    omega
  intro rest
  rw [Varint.varint]
  split_ifs with hsmall
  · have hbyte : (n / 2 ^ 28).toUInt8.toNat = n / 2 ^ 28 := PbDecode.toUInt8_toNat (by omega)
    have hlast : (n / 2 ^ 28).toUInt8 < 128 := (lt_128_iff _).mpr (by rwa [hbyte])
    rw [List.singleton_append, uint32Loop, run_bind_ok (run_nextByte _ _)]
    dsimp only
    rw [if_pos hlast, run_pure, hsum _ (by rw [hbyte])]
  · have hhigh : 2 ^ 63 ≤ n ∧ n < 2 ^ 64 := by
      rcases hn with hshort | hlong
      · omega
      · exact hlong
    have hbyte : (n / 2 ^ 28 % 128 + 128).toUInt8.toNat = n / 2 ^ 28 % 128 + 128 :=
      PbDecode.toUInt8_toNat (by omega)
    have hmore : ¬ (n / 2 ^ 28 % 128 + 128).toUInt8 < 128 := by
      rw [lt_128_iff, hbyte]
      omega
    have hfive : (Varint.varint (n / 2 ^ 28 / 128)).length = 5 := by
      rw [Varint.length_varint, Nat.log_eq_of_pow_le_of_lt_pow (m := 4)] <;> omega
    have htake := reads_take Thrown.indexOutOfRange (Varint.varint (n / 2 ^ 28 / 128)) rest
    rw [hfive] at htake
    rw [List.cons_append, uint32Loop, run_bind_ok (run_nextByte _ _)]
    dsimp only
    rw [if_neg hmore, run_bind_ok htake, run_pure, hsum _ (by rw [hbyte]; omega)]

/-- One group more of a number in a word. -/
theorem add_group {n bitpos : Nat} {value : UInt32} (hvalue : value.toNat = n % 2 ^ bitpos)
    (hbitpos : bitpos < 32) {group : UInt8} (hgroup : group.toNat = n / 2 ^ bitpos % 128) :
    (value ||| group.toUInt32 <<< bitpos.toUInt32).toNat = n % 2 ^ (min (bitpos + 7) 32) := by
  have hlt : value.toNat < 2 ^ bitpos := hvalue ▸ Nat.mod_lt _ (Nat.two_pow_pos _)
  rw [PbDecode.or_payload32 hlt hbitpos, hgroup, hvalue]
  rcases Nat.le_total (bitpos + 7) 32 with hroom | hover
  · have hmod : n / 2 ^ bitpos % 128 < 2 ^ (32 - bitpos) :=
      (Nat.mod_lt _ (by omega)).trans_le
        (Nat.pow_le_pow_right (n := 2) (i := 7) (by omega) (by omega))
    rw [Nat.mod_eq_of_lt hmod, min_eq_left hroom, pow_add, Nat.mod_mul]
    rfl
  · have hdvd : 2 ^ (32 - bitpos) ∣ 2 ^ 7 := Nat.pow_dvd_pow 2 (by omega)
    have hsplit : 2 ^ 32 = 2 ^ bitpos * 2 ^ (32 - bitpos) := by
      rw [← pow_add, Nat.add_sub_cancel' (Nat.le_of_lt hbitpos)]
    rw [min_eq_right hover, hsplit, Nat.mod_mul]
    exact congrArg (fun k => n % 2 ^ bitpos + 2 ^ bitpos * k) (Nat.mod_mod_of_dvd _ hdvd)

/-- The bytes of a number, one group at a time. -/
theorem varint_groups (n bitpos : Nat) :
    (∃ byte : UInt8, Varint.varint (n / 2 ^ bitpos) = [byte] ∧ byte < 128 ∧
      (byte &&& 127).toNat = n / 2 ^ bitpos % 128 ∧ n < 2 ^ (bitpos + 7)) ∨
    ∃ byte : UInt8, Varint.varint (n / 2 ^ bitpos) =
        byte :: Varint.varint (n / 2 ^ (bitpos + 7)) ∧ ¬ byte < 128 ∧
      (byte &&& 127).toNat = n / 2 ^ bitpos % 128 ∧ 2 ^ (bitpos + 7) ≤ n := by
  rw [Varint.varint, pow_add, ← Nat.div_div_eq_div_mul]
  split_ifs with hsmall
  · left
    refine ⟨_, rfl, ?_, ?_, ?_⟩
    · rw [lt_128_iff, PbDecode.toUInt8_toNat (by omega)]
      exact hsmall
    · exact (PbDecode.last_byte hsmall).2.trans (Nat.mod_eq_of_lt hsmall).symm
    · rw [Nat.mul_comm]
      exact (Nat.div_lt_iff_lt_mul (Nat.two_pow_pos _)).mp hsmall
  · right
    refine ⟨_, rfl, ?_, (PbDecode.more_byte _).2, ?_⟩
    · rw [lt_128_iff, PbDecode.toUInt8_toNat (by omega)]
      omega
    · rw [Nat.mul_comm]
      exact (Nat.le_div_iff_mul_le (Nat.two_pow_pos _)).mp (not_lt.mp hsmall)

theorem reads_uint32Loop {n : Nat} (hn : Extended n) {more : Nat} (hmore : more ≤ 4)
    {value : UInt32} (hvalue : value.toNat = n % 2 ^ (28 - 7 * more)) :
    (uint32Loop value (28 - 7 * more) more).Reads (Varint.varint (n / 2 ^ (28 - 7 * more)))
      (UInt32.ofNat n) := by
  induction more generalizing value with
  | zero => exact reads_uint32Loop_zero hn hvalue
  | succ more ih =>
    generalize hbitpos : 28 - 7 * (more + 1) = bitpos at hvalue ⊢
    have hnext : 28 - 7 * more = bitpos + 7 := by omega
    rw [hnext] at ih
    intro rest
    rcases varint_groups n bitpos with ⟨byte, hbytes, hlast, hgroup, hall⟩ |
      ⟨byte, hbytes, hcont, hgroup, -⟩
    · have hsum := add_group hvalue (by omega) hgroup
      rw [min_eq_left (by omega), Nat.mod_eq_of_lt hall] at hsum
      rw [hbytes, List.singleton_append, uint32Loop, run_bind_ok (run_nextByte _ _)]
      dsimp only
      rw [if_pos hlast, run_pure, ← hsum, UInt32.ofNat_toNat]
    · have hsum := add_group hvalue (by omega) hgroup
      rw [min_eq_left (by omega)] at hsum
      rw [hbytes, List.cons_append, uint32Loop, run_bind_ok (run_nextByte _ _)]
      dsimp only
      rw [if_neg hcont]
      exact ih (by omega) hsum rest

theorem reads_uint32 {n : Nat} (hn : Extended n) :
    uint32.Reads (Varint.varint n) (UInt32.ofNat n) := by
  have hloop : (uint32Loop 0 0 4).Reads (Varint.varint (n / 2 ^ 0)) (UInt32.ofNat n) :=
    reads_uint32Loop hn le_rfl (by rw [pow_zero, Nat.mod_one]; rfl)
  rwa [pow_zero, Nat.div_one] at hloop

theorem reads_of_uint32 (w : UInt32) : uint32.Reads (Varint.varint w.toNat) w := by
  have hread := reads_uint32 (.inl w.toNat_lt)
  rwa [UInt32.ofNat_toNat] at hread

theorem toInt_of_mod {w : UInt32} {i : Int} (hw : (w.toNat : Int) = i % 4294967296)
    (hlow : -2147483648 ≤ i) (hhigh : i < 2147483648) : w.toInt32.toInt = i := by
  change w.toBitVec.toInt = i
  rw [BitVec.toInt_eq_toNat_cond]
  change (if 2 * w.toNat < 4294967296 then (w.toNat : Int) else w.toNat - 4294967296) = i
  split_ifs <;> omega

/-- A negative number comes with its sign extension. -/
theorem reads_int32 {i : Int} (hlow : -2147483648 ≤ i) (hhigh : i < 2147483648) :
    int32.Reads (Varint.varint (i % 18446744073709551616).toNat) i := by
  have hext : Extended (i % 18446744073709551616).toNat := by
    rw [Extended]
    omega
  have hread := (reads_uint32 hext).bind_pure (g := fun value : UInt32 => value.toInt32.toInt)
  rwa [toInt_of_mod (by rw [UInt32.toNat_ofNat']; omega) hlow hhigh] at hread

/-- The zigzag code. -/
def zigzag (i : Int) : Nat := if i < 0 then (-2 * i - 1).toNat else (2 * i).toNat

/-- Half the code, and its complement when the code is odd. -/
theorem zigzag_back {w : UInt32} {i : Int} (hw : w.toNat = zigzag i) (hlow : -2147483648 ≤ i)
    (hhigh : i < 2147483648) : (w >>> 1 ^^^ (0 - (w &&& 1))).toInt32.toInt = i := by
  have hhalf : (w >>> 1).toNat = w.toNat / 2 := by
    rw [UInt32.toNat_shiftRight, Nat.shiftRight_eq_div_pow]
    rfl
  have hparity : (w &&& 1).toNat = w.toNat % 2 := by
    rw [UInt32.toNat_and]
    exact Nat.and_one_is_mod _
  apply toInt_of_mod ?_ hlow hhigh
  unfold zigzag at hw
  split_ifs at hw with hneg
  · have hodd : w &&& 1 = 1 := by
      apply UInt32.toNat_inj.mp
      rw [hparity, hw]
      change _ = 1
      omega
    have hcomplement : w >>> 1 ^^^ (0 - 1 : UInt32) = ~~~(w >>> 1) := UInt32.xor_neg_one
    rw [hodd, hcomplement, UInt32.toNat_not, hhalf, hw]
    change ((4294967296 - 1 - (-2 * i - 1).toNat / 2 : Nat) : Int) = _
    omega
  · have heven : w &&& 1 = 0 := by
      apply UInt32.toNat_inj.mp
      rw [hparity, hw]
      change _ = 0
      omega
    rw [heven, UInt32.sub_self, UInt32.xor_zero, hhalf, hw]
    omega

theorem reads_sint32 {i : Int} (hlow : -2147483648 ≤ i) (hhigh : i < 2147483648) :
    sint32.Reads (Varint.varint (zigzag i)) i := by
  have hlt : zigzag i < 2 ^ 32 := by
    unfold zigzag
    split_ifs <;> omega
  have hread := (reads_uint32 (.inl hlt)).bind_pure
    (g := fun value : UInt32 => (value >>> 1 ^^^ (0 - (value &&& 1))).toInt32.toInt)
  have hnat : (UInt32.ofNat (zigzag i)).toNat = zigzag i := by
    rw [UInt32.toNat_ofNat']
    exact Nat.mod_eq_of_lt hlt
  rwa [zigzag_back hnat hlow hhigh] at hread

theorem reads_bool (b : Bool) : bool.Reads (Varint.varint b.toNat) b := by
  have hread := (reads_uint32 (n := b.toNat) (.inl (by cases b <;> decide))).bind_pure
    (g := fun value : UInt32 => decide (value ≠ 0))
  have hvalue : decide (UInt32.ofNat b.toNat ≠ 0) = b := by
    cases b <;> decide
  rwa [hvalue] at hread

theorem reads_float (w : UInt32) : float.Reads (LittleEndian.bytes w) w := by
  intro rest
  change Except.ok (LittleEndian.word _ _ _ _, rest) = _
  rw [LittleEndian.word_bytes]

theorem reads_bytes {content : List UInt8} (h : content.length < 2 ^ 32) :
    bytes.Reads (Varint.varint content.length ++ content) content := by
  have hlen : (UInt32.ofNat content.length).toNat = content.length := by
    rw [UInt32.toNat_ofNat']
    exact Nat.mod_eq_of_lt h
  refine (reads_uint32 (.inl h)).bind ?_
  rw [hlen]
  exact reads_take _ content

/-! ### Numbers of 64 bits -/

theorem reads_longHigh {n : Nat} (hn : n < 2 ^ 32) {more : Nat} (hmore : more ≤ 4) {hi : UInt32}
    (hhi : hi.toNat = n % 2 ^ (31 - 7 * more)) :
    (longHigh hi (31 - 7 * more) (more + 1)).Reads (Varint.varint (n / 2 ^ (31 - 7 * more)))
      (UInt32.ofNat n) := by
  induction more generalizing hi with
  | zero =>
    intro rest
    rcases varint_groups n 31 with ⟨byte, hbytes, hlast, hgroup, -⟩ | ⟨byte, -, -, -, hlarge⟩
    · have hsum := add_group hhi (by omega) hgroup
      rw [min_eq_right (by omega), Nat.mod_eq_of_lt hn] at hsum
      rw [hbytes, List.singleton_append, longHigh, run_bind_ok (run_nextByte _ _)]
      dsimp only
      rw [if_pos hlast, run_pure, ← UInt32.ofNat_toNat (x := _ ||| _), hsum]
    · omega
  | succ more ih =>
    generalize hbitpos : 31 - 7 * (more + 1) = bitpos at hhi ⊢
    have hnext : 31 - 7 * more = bitpos + 7 := by omega
    rw [hnext] at ih
    intro rest
    rcases varint_groups n bitpos with ⟨byte, hbytes, hlast, hgroup, hall⟩ |
      ⟨byte, hbytes, hcont, hgroup, -⟩
    · have hsum := add_group hhi (by omega) hgroup
      rw [min_eq_left (by omega), Nat.mod_eq_of_lt hall] at hsum
      rw [hbytes, List.singleton_append, longHigh, run_bind_ok (run_nextByte _ _)]
      dsimp only
      rw [if_pos hlast, run_pure, ← hsum, UInt32.ofNat_toNat]
    · have hsum := add_group hhi (by omega) hgroup
      rw [min_eq_left (by omega)] at hsum
      rw [hbytes, List.cons_append, longHigh, run_bind_ok (run_nextByte _ _)]
      dsimp only
      rw [if_neg hcont]
      exact ih (by omega) hsum rest

/-- The group across the two words. -/
theorem reads_longVarint_zero {n : Nat} (hn : n < 2 ^ 64) {lo : UInt32}
    (hlo : lo.toNat = n % 2 ^ 28) :
    (longVarint lo 28 0).Reads (Varint.varint (n / 2 ^ 28))
      (UInt32.ofNat n, UInt32.ofNat (n / 2 ^ 32)) := by
  have hlow : ∀ {byte : UInt8}, (byte &&& 127).toNat = n / 2 ^ 28 % 128 →
      lo ||| (byte &&& 127).toUInt32 <<< (28 : Nat).toUInt32 = UInt32.ofNat n := by
    intro byte hgroup
    apply UInt32.toNat_inj.mp
    rw [add_group hlo (by omega) hgroup, min_eq_right (by omega), UInt32.toNat_ofNat']
  have hhigh : ∀ {byte : UInt8}, (byte &&& 127).toNat = n / 2 ^ 28 % 128 →
      ((byte &&& 127).toUInt32 >>> 4).toNat = n / 2 ^ 32 % 2 ^ 3 := by
    intro byte hgroup
    rw [UInt32.toNat_shiftRight, UInt8.toNat_toUInt32, hgroup, Nat.shiftRight_eq_div_pow]
    change n / 2 ^ 28 % 128 / 2 ^ 4 = _
    omega
  intro rest
  rcases varint_groups n 28 with ⟨byte, hbytes, hlast, hgroup, hall⟩ |
    ⟨byte, hbytes, hcont, hgroup, -⟩
  · have hsum : (byte &&& 127).toUInt32 >>> 4 = UInt32.ofNat (n / 2 ^ 32) := by
      apply UInt32.toNat_inj.mp
      rw [hhigh hgroup, UInt32.toNat_ofNat']
      omega
    rw [hbytes, List.singleton_append, longVarint, run_bind_ok (run_nextByte _ _)]
    dsimp only
    rw [if_pos hlast, run_pure, hlow hgroup, hsum]
  · have hword : n / 2 ^ 32 < 2 ^ 32 := by omega
    have hread : (longHigh _ 3 5).run _ = _ :=
      @reads_longHigh _ hword 4 le_rfl _ (hhigh hgroup) rest
    have hrest : n / 2 ^ 32 / 2 ^ (31 - 7 * 4) = n / 2 ^ (28 + 7) := by omega
    rw [hrest] at hread
    rw [hbytes, List.cons_append, longVarint, run_bind_ok (run_nextByte _ _)]
    dsimp only
    rw [if_neg hcont, run_bind_ok hread, run_pure, hlow hgroup]

theorem reads_longVarint {n : Nat} (hn : n < 2 ^ 64) {more : Nat} (hmore : more ≤ 4)
    {lo : UInt32} (hlo : lo.toNat = n % 2 ^ (28 - 7 * more)) :
    (longVarint lo (28 - 7 * more) more).Reads (Varint.varint (n / 2 ^ (28 - 7 * more)))
      (UInt32.ofNat n, UInt32.ofNat (n / 2 ^ 32)) := by
  induction more generalizing lo with
  | zero => exact reads_longVarint_zero hn hlo
  | succ more ih =>
    generalize hbitpos : 28 - 7 * (more + 1) = bitpos at hlo ⊢
    have hnext : 28 - 7 * more = bitpos + 7 := by omega
    rw [hnext] at ih
    intro rest
    rcases varint_groups n bitpos with ⟨byte, hbytes, hlast, hgroup, hall⟩ |
      ⟨byte, hbytes, hcont, hgroup, -⟩
    · have hsum := add_group hlo (by omega) hgroup
      rw [min_eq_left (by omega), Nat.mod_eq_of_lt hall] at hsum
      have hzero : n / 2 ^ 32 = 0 := by
        have hle : 2 ^ (bitpos + 7) ≤ 2 ^ 32 := Nat.pow_le_pow_right (by omega) (by omega)
        exact Nat.div_eq_of_lt (hall.trans_le hle)
      rw [hbytes, List.singleton_append, longVarint, run_bind_ok (run_nextByte _ _)]
      dsimp only
      rw [if_pos hlast, run_pure, hzero]
      refine congrArg (fun v => Except.ok ((v, 0), rest)) (UInt32.toNat_inj.mp ?_)
      rw [hsum, UInt32.toNat_ofNat']
      omega
    · have hsum := add_group hlo (by omega) hgroup
      rw [min_eq_left (by omega)] at hsum
      rw [hbytes, List.cons_append, longVarint, run_bind_ok (run_nextByte _ _)]
      dsimp only
      rw [if_neg hcont]
      exact ih (by omega) hsum rest

theorem toNumber_of_nonneg {n : Nat} (hn : n < 2 ^ 63) :
    toNumber (UInt32.ofNat n) (UInt32.ofNat (n / 2 ^ 32)) = n := by
  have hlo : (UInt32.ofNat n).toNat = n % 2 ^ 32 := UInt32.toNat_ofNat'
  have hhi : (UInt32.ofNat (n / 2 ^ 32)).toNat = n / 2 ^ 32 := by
    rw [UInt32.toNat_ofNat']
    omega
  have hsign : UInt32.ofNat (n / 2 ^ 32) >>> 31 = 0 := by
    apply UInt32.toNat_inj.mp
    rw [UInt32.toNat_shiftRight, hhi, Nat.shiftRight_eq_div_pow]
    change n / 2 ^ 32 / 2 ^ 31 = 0
    omega
  rw [toNumber, if_neg (not_not.mpr hsign), hlo, hhi]
  omega

theorem reads_int64 {n : Nat} (hn : n < 2 ^ 63) : int64.Reads (Varint.varint n) n := by
  have hlong : (longVarint 0 0 4).Reads (Varint.varint (n / 2 ^ 0)) _ :=
    reads_longVarint (by omega) le_rfl (by rw [pow_zero, Nat.mod_one]; rfl)
  have hread := hlong.bind_pure (g := fun long => toNumber long.1 long.2)
  rw [toNumber_of_nonneg hn] at hread
  rwa [pow_zero, Nat.div_one] at hread

/-! ### Messages by their parts -/

/-- A field of a message, with the values that are sent in it and what is read from each. -/
structure Part where
  number : UInt32
  field : Field
  sent : List (Value × Js)
  reads : ∀ v ∈ sent, field.read.Reads v.1.encode v.2
  once : ∀ dflt, field.rule = .singular dflt → sent.length ≤ 1

namespace Part

def wire (p : Part) : List WireField := p.sent.map fun v => ⟨p.number, v.1⟩

/-- What the decoder stores in the member. -/
def stored (p : Part) : Option Js :=
  match p.field.rule with
  | .singular _ => p.sent.head?.map Prod.snd
  | .repeated => if p.sent = [] then none else some (.arr (p.sent.map Prod.snd))

def member (p : Part) : Option (String × Js) :=
  (p.field.shown p.stored).map fun v => (p.field.name, v)

end Part

def descriptor (parts : List Part) : Descriptor := parts.map fun p => (p.number, p.field)

theorem descriptor_append (parts parts' : List Part) :
    descriptor (parts ++ parts') = descriptor parts ++ descriptor parts' :=
  List.map_append

/-- The fields that are sent. -/
def wire (parts : List Part) : List WireField := parts.flatMap Part.wire

/-- The bytes of a message. -/
def body (parts : List Part) : List UInt8 := (wire parts).flatMap WireField.encode

theorem body_append (parts parts' : List Part) : body (parts ++ parts') = body parts ++ body parts' := by
  rw [body, wire, List.flatMap_append, List.flatMap_append]
  rfl

/-- The object of a message. -/
def object (parts : List Part) : Js := .obj (parts.filterMap Part.member)

/-- No two fields share a number or a name, and a number has 29 bits. -/
structure Descriptor.Valid (d : Descriptor) : Prop where
  small : ∀ p ∈ d, p.1.toNat < 2 ^ 29
  numbers : (d.map Prod.fst).Nodup
  names : (d.map fun p => p.2.name).Nodup

section Message

variable {parts : List Part}

theorem lookup_field {d : Descriptor} (h : (d.map Prod.fst).Nodup) {entry : UInt32 × Field}
    (hentry : entry ∈ d) : d.lookup entry.1 = some entry.2 := by
  induction d with
  | nil => cases hentry
  | cons first d ih =>
    rw [List.map_cons, List.nodup_cons] at h
    rcases List.mem_cons.mp hentry with rfl | hmem
    · rw [List.lookup_cons, beq_self_eq_true]
    · have hne : entry.1 ≠ first.1 := by
        intro heq
        exact h.1 (heq ▸ List.mem_map_of_mem hmem)
      rw [List.lookup_cons, beq_eq_false_iff_ne.mpr hne]
      exact ih h.2 hmem

/-- A field that is sent is stored. -/
theorem reads_turn {d : Descriptor} (h : d.Valid) {entry : UInt32 × Field} (hentry : entry ∈ d)
    {v : Value} {js : Js} (hread : entry.2.read.Reads v.encode js) (m : Obj) :
    (decodeTurn d m).Reads (⟨entry.1, v⟩ : WireField).encode (entry.2.put m js) := by
  have hwire := PbDecode.wireType_lt v
  have hsmall := h.small entry hentry
  obtain ⟨hnumber, -⟩ := PbDecode.tag_split hsmall hwire
  have htag := reads_uint32 (n := 8 * entry.1.toNat + v.wireType.toNat) (.inl (by omega))
  refine htag.bind ?_
  rw [hnumber, lookup_field h.numbers hentry]
  exact hread.bind_pure (g := entry.2.put m)

theorem reads_decodeTurn (h : (descriptor parts).Valid) {p : Part} (hp : p ∈ parts)
    {v : Value × Js} (hv : v ∈ p.sent) (m : Obj) :
    (decodeTurn (descriptor parts) m).Reads (⟨p.number, v.1⟩ : WireField).encode
      (p.field.put m v.2) := by
  have hentry : (p.number, p.field) ∈ descriptor parts :=
    List.mem_map_of_mem (f := fun p : Part => (p.number, p.field)) hp
  exact reads_turn h hentry (p.reads v hv) m

end Message

/-! ### What the members hold -/

theorem lookup_push (name : String) (v : Js) {m : Obj} {items : List Js}
    (h : m.lookup name = some (.arr items)) :
    (m.push name v).lookup name = some (.arr (items ++ [v])) := by
  rw [Obj.push, h]
  exact Obj.lookup_assign_self name _ m

theorem lookup_push_none (name : String) (v : Js) {m : Obj} (h : m.lookup name = none) :
    (m.push name v).lookup name = some (.arr [v]) := by
  rw [Obj.push, h]
  exact Obj.lookup_assign_self name _ m

theorem lookup_push_of_ne {name other : String} (h : other ≠ name) (v : Js) (m : Obj) :
    (m.push name v).lookup other = m.lookup other := by
  unfold Obj.push
  split <;> exact Obj.lookup_assign_of_ne h _ m

namespace Part

def putAll (p : Part) (m : Obj) : Obj := p.sent.foldl (fun m v => p.field.put m v.2) m

theorem lookup_putAll_of_ne (p : Part) {other : String} (h : other ≠ p.field.name) (m : Obj) :
    (p.putAll m).lookup other = m.lookup other := by
  have hput : ∀ (m : Obj) (v : Js), (p.field.put m v).lookup other = m.lookup other := by
    intro m v
    unfold Field.put
    cases p.field.rule with
    | singular dflt => exact Obj.lookup_assign_of_ne h v m
    | repeated => exact lookup_push_of_ne h v m
  unfold putAll
  induction p.sent generalizing m with
  | nil => rfl
  | cons v sent ih => rw [List.foldl_cons, ih, hput]

theorem lookup_pushAll {name : String} {vs : List (Value × Js)} {m : Obj} {items : List Js}
    (h : m.lookup name = some (.arr items)) :
    (vs.foldl (fun m v => m.push name v.2) m).lookup name =
      some (.arr (items ++ vs.map Prod.snd)) := by
  induction vs generalizing m items with
  | nil => rw [List.map_nil, List.append_nil]; exact h
  | cons v vs ih =>
    rw [List.foldl_cons, ih (lookup_push name v.2 h), List.append_assoc]
    rfl

theorem lookup_putAll_self (p : Part) {m : Obj} (h : m.lookup p.field.name = none) :
    (p.putAll m).lookup p.field.name = p.stored := by
  have honce := p.once
  unfold putAll stored Field.put
  cases hrule : p.field.rule with
  | singular dflt =>
    have hlen := honce dflt hrule
    cases hsent : p.sent with
    | nil => exact h
    | cons v sent =>
      rw [hsent, List.length_cons] at hlen
      obtain rfl : sent = [] := List.length_eq_zero_iff.mp (by omega)
      exact Obj.lookup_assign_self _ _ m
  | repeated =>
    cases hsent : p.sent with
    | nil => exact h
    | cons v sent => exact lookup_pushAll (lookup_push_none _ v.2 h)

end Part

section Message

variable {parts : List Part}

/-- Each member is what its own part says. -/
theorem lookup_putAll (h : (parts.map fun p => p.field.name).Nodup) {m : Obj}
    (hm : ∀ p ∈ parts, m.lookup p.field.name = none) {p : Part} (hp : p ∈ parts) :
    (parts.foldl (fun m p => p.putAll m) m).lookup p.field.name = p.stored := by
  have hkept : ∀ (l : List Part) (m : Obj) (name : String), (∀ q ∈ l, name ≠ q.field.name) →
      (l.foldl (fun m p => p.putAll m) m).lookup name = m.lookup name := by
    intro l
    induction l with
    | nil => exact fun _ _ _ => rfl
    | cons q l ih =>
      intro m name hne
      rw [List.foldl_cons, ih _ _ fun q' hq' => hne q' (List.mem_cons_of_mem q hq'),
        q.lookup_putAll_of_ne (hne q List.mem_cons_self)]
  induction parts generalizing m with
  | nil => cases hp
  | cons first parts ih =>
    rw [List.map_cons, List.nodup_cons] at h
    have hfirst : ∀ q ∈ parts, q.field.name ≠ first.field.name := by
      intro q hq heq
      exact h.1 (heq ▸ List.mem_map_of_mem (f := fun p : Part => p.field.name) hq)
    rw [List.foldl_cons]
    rcases List.mem_cons.mp hp with rfl | hmem
    · rw [hkept _ _ _ fun q hq => (hfirst q hq).symm]
      exact p.lookup_putAll_self (hm p List.mem_cons_self)
    · refine ih h.2 (fun q hq => ?_) hmem
      rw [first.lookup_putAll_of_ne (hfirst q hq)]
      exact hm q (List.mem_cons_of_mem first hq)

/-- The decoder stores what the parts say, and `toObject` shows it. -/
theorem reads_decodeFor (h : (descriptor parts).Valid) :
    ∃ m, (decodeFor (descriptor parts) (body parts).length).Reads (body parts) m ∧
      toObject (descriptor parts) m = object parts := by
  let sends : List (Part × Value × Js) := parts.flatMap fun p => p.sent.map fun v => (p, v)
  let chunk : Part × Value × Js → List UInt8 :=
    fun s => (⟨s.1.number, s.2.1⟩ : WireField).encode
  have hbody : body parts = sends.flatMap chunk := by
    simp only [body, wire, Part.wire, sends, chunk, List.flatMap_assoc, List.flatMap_map]
  have hsends : ∀ s ∈ sends, s.1 ∈ parts ∧ s.2 ∈ s.1.sent := by
    intro s hs
    obtain ⟨p, hp, hmem⟩ := List.mem_flatMap.mp hs
    obtain ⟨v, hv, rfl⟩ := List.mem_map.mp hmem
    exact ⟨hp, hv⟩
  have hread : (decodeFor (descriptor parts) (sends.flatMap chunk).length).Reads
      (sends.flatMap chunk) (sends.foldl (fun m s => s.1.field.put m s.2.2) []) :=
    reads_forBytes (fun s hs => reads_decodeTurn h (hsends s hs).1 (hsends s hs).2) []
  rw [← hbody] at hread
  refine ⟨_, hread, ?_⟩
  have hfold : sends.foldl (fun m s => s.1.field.put m s.2.2) ([] : Obj) =
      parts.foldl (fun m p => p.putAll m) [] := by
    simp only [sends, List.foldl_flatMap, List.foldl_map, Part.putAll]
  have hnames : (parts.map fun p => p.field.name).Nodup := by
    have := h.names
    rwa [descriptor, List.map_map] at this
  rw [hfold, toObject, object, descriptor, List.filterMap_map]
  refine congrArg Js.obj (List.filterMap_congr fun p hp => ?_)
  exact congrArg (fun v => (p.field.shown v).map fun v => (p.field.name, v))
    (lookup_putAll hnames (fun _ _ => rfl) hp)

/-- A nested message is read as its object. -/
theorem reads_message (h : (descriptor parts).Valid) (hlen : (body parts).length < 2 ^ 32) :
    (message (descriptor parts)).Reads (Value.bytes (body parts)).encode (object parts) := by
  obtain ⟨m, hread, hobject⟩ := reads_decodeFor h
  have hnat : (UInt32.ofNat (body parts).length).toNat = (body parts).length := by
    rw [UInt32.toNat_ofNat']
    exact Nat.mod_eq_of_lt hlen
  refine (reads_uint32 (.inl hlen)).bind ?_
  rw [hnat, ← hobject]
  exact hread.bind_pure (g := toObject (descriptor parts))

end Message

/-! ### The types of the fields -/

namespace Field

variable (name : String)

def ofBool : Field where
  name
  read := do
    let b ← PbJs.bool
    pure (.bool b)
  rule := .singular (some (.bool false))

/-- An integer of one of the types. -/
def ofInt (read : JsReader Int) : Field where
  name
  read := do
    let i ← read
    pure (.int i)
  rule := .singular (some (.int 0))

def ofUint32 : Field := ofInt name do
  let w ← uint32
  pure w.toNat

def ofFloat : Field where
  name
  read := do
    let bits ← float
    pure (.float bits)
  rule := .singular (some (.float 0))

def ofString : Field where
  name
  read := do
    let utf8 ← PbJs.bytes
    pure (.text (Utf8.read utf8))
  rule := .singular (some (.text []))

def ofBytes : Field where
  name
  read := do
    let content ← PbJs.bytes
    pure (.bytes content)
  rule := .singular (some (.bytes []))

/-- A message in a oneof. -/
def ofMessage (d : Descriptor) : Field where
  name
  read := message d
  rule := .singular none

def ofMessages (d : Descriptor) : Field where
  name
  read := message d
  rule := .repeated

/-- The field as a member of a oneof. -/
def inOneof (f : Field) : Field := { f with rule := .singular none }

end Field

theorem encode_varint {n : Nat} (hn : n < 2 ^ 64) :
    (Value.varint (UInt64.ofNat n)).encode = Varint.varint n := by
  rw [Value.encode, UInt64.toNat_ofNat', Nat.mod_eq_of_lt hn]

namespace Part

/-- A value that is sent, or not. -/
def single (number : UInt32) (field : Field) (v : Value) (js : Js) (sent : Bool)
    (h : field.read.Reads v.encode js) : Part where
  number
  field
  sent := if sent then [(v, js)] else []
  reads := by
    cases sent with
    | false => simp
    | true => simpa using h
  once := by cases sent <;> simp

theorem member_single {number : UInt32} {field : Field} {v : Value} {js : Js} {dflt : Option Js}
    (sent : Bool) (h : field.read.Reads v.encode js) (hrule : field.rule = .singular dflt) :
    (single number field v js sent h).member =
      (if sent then some js else dflt).map fun shown => (field.name, shown) := by
  obtain ⟨name, read, rule⟩ := field
  obtain rfl : rule = .singular dflt := hrule
  cases sent <;> rfl

/-- Messages of one type, in order. -/
def many (number : UInt32) (name : String) (d : Descriptor) (messages : List (List Part))
    (h : ∀ parts ∈ messages, descriptor parts = d ∧ d.Valid ∧ (body parts).length < 2 ^ 32) :
    Part where
  number
  field := .ofMessages name d
  sent := messages.map fun parts => (.bytes (body parts), object parts)
  reads := by
    intro v hv
    obtain ⟨parts, hparts, rfl⟩ := List.mem_map.mp hv
    obtain ⟨rfl, hvalid, hlen⟩ := h parts hparts
    exact reads_message hvalid hlen
  once := by
    intro dflt hrule
    cases hrule

end Part

/-- The array of the objects. -/
theorem Part.member_many {number : UInt32} {name : String} {d : Descriptor}
    {messages : List (List Part)}
    (h : ∀ parts ∈ messages, descriptor parts = d ∧ d.Valid ∧ (body parts).length < 2 ^ 32) :
    (Part.many number name d messages h).member = some (name, .arr (messages.map object)) := by
  have hitems : (Part.many number name d messages h).sent.map Prod.snd = messages.map object := by
    change List.map Prod.snd (messages.map fun parts => (Value.bytes (body parts), object parts)) = _
    rw [List.map_map]
    rfl
  cases messages with
  | nil => rfl
  | cons parts messages => exact congrArg (fun items => some (name, Js.arr items)) hitems

/-! ### A buffer with one field -/

theorem decode_one {d : Descriptor} (h : d.Valid) {entry : UInt32 × Field} (hentry : entry ∈ d)
    {v : Value} {js : Js} (hread : entry.2.read.Reads v.encode js) :
    decode d (⟨entry.1, v⟩ : WireField).encode = .ok (entry.2.put [] js) := by
  have hall : (decodeFor d ([()].flatMap fun _ => (⟨entry.1, v⟩ : WireField).encode).length).Reads
      ([()].flatMap fun _ => (⟨entry.1, v⟩ : WireField).encode)
      ([()].foldl (fun m _ => entry.2.put m js) []) :=
    reads_forBytes (fun _ _ m => reads_turn h hentry hread m) []
  rw [List.flatMap_singleton] at hall
  have hrun := hall []
  rw [List.append_nil] at hrun
  rw [decode, hrun]
  rfl

end PbJs
