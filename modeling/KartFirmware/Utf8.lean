import Mathlib.Algebra.Group.Nat.Defs
import Mathlib.Data.List.Flatten
import Mathlib.Tactic.SplitIfs

/-!
# Texts in JavaScript

A string of JavaScript is a list of code units, two for a character beyond the first `2^16`.
`read` is `utf8.read` of protobuf.js, which makes one of bytes.  It checks nothing: a byte that
cannot begin a character is taken for the first of three, and what a character lacks at the end
counts as zeros.  The units are collected in an array, which becomes a piece of the string each
time it has 8192 of them.

The array is not emptied then, so a third piece may end with a unit of the first.  Up to a third
piece the string is that of the units (`read_eq`), and bytes that are the UTF-8 of a text are read
as this text (`read_toUTF8`).
-/

namespace Utf8

abbrev JsString := List UInt16

/-- `String.fromCharCode`, of one number. -/
def charCode (code : Int) : UInt16 := UInt16.ofInt code

/-! ### Characters -/

/-- Six bits of the byte at a place; one behind the end has none. -/
def payload (t : List UInt8) (i : Nat) : Nat := (63 &&& t.getD i 0).toNat

/-- The units of the character that begins with the byte `r`, and what follows it. -/
def char (r : UInt8) (t : List UInt8) : JsString × List UInt8 :=
  if r < 128 then ([charCode r.toNat], t)
  else if 191 < r ∧ r < 224 then
    ([charCode ((31 &&& r).toNat <<< 6 ||| payload t 0 : Nat)], t.drop 1)
  else if 239 < r then
    -- no byte is beyond the 365 of the source
    let code : Int := ((7 &&& r).toNat <<< 18 ||| payload t 0 <<< 12 ||| payload t 1 <<< 6 |||
      payload t 2 : Nat) - 65536
    ([charCode (55296 + code / 1024), charCode (56320 + code % 1024)], t.drop 3)
  else
    ([charCode ((15 &&& r).toNat <<< 12 ||| payload t 0 <<< 6 ||| payload t 1 : Nat)], t.drop 2)

theorem length_char_rest_le (r : UInt8) (t : List UInt8) : (char r t).2.length ≤ t.length := by
  unfold char
  split_ifs
  · exact Nat.le_refl _
  · exact (List.drop_sublist ..).length_le
  · exact (List.drop_sublist ..).length_le
  · exact (List.drop_sublist ..).length_le

/-- The units of all characters. -/
def units : List UInt8 → JsString
  | [] => []
  | r :: t => (char r t).1 ++ units (char r t).2
termination_by utf8 => utf8.length
decreasing_by exact Nat.lt_succ_of_le (length_char_rest_le r t)

/-! ### Pieces -/

/-- The pieces, and the array with the number of its units that are in use. -/
structure Pieces where
  whole : List JsString
  array : JsString
  used : Nat

namespace Pieces

def empty : Pieces := ⟨[], [], 0⟩

/-- The next unit, in the place of an old one or at the end of the array. -/
def put (p : Pieces) (u : UInt16) : Pieces :=
  { p with array := p.array.take p.used ++ u :: p.array.drop (p.used + 1), used := p.used + 1 }

def flush (p : Pieces) : Pieces :=
  if 8191 < p.used then { p with whole := p.whole ++ [p.array], used := 0 } else p

/-- The pieces joined, the one in work as far as it is used. -/
def text (p : Pieces) : JsString := p.whole.flatten ++ p.array.take p.used

end Pieces

def readFrom (p : Pieces) : List UInt8 → Pieces
  | [] => p
  | r :: t => readFrom ((char r t).1.foldl Pieces.put p).flush (char r t).2
termination_by utf8 => utf8.length
decreasing_by exact Nat.lt_succ_of_le (length_char_rest_le r t)

/-- `utf8.read`. -/
def read (utf8 : List UInt8) : JsString := (readFrom .empty utf8).text

/-! ### The pieces are joined to the units -/

/-- One unit, or two for four bytes. -/
theorem length_char (r : UInt8) (t : List UInt8) :
    (char r t).1.length = 1 ∨ (char r t).1.length = 2 ∧ (char r t).2 = t.drop 3 := by
  unfold char
  split_ifs
  · exact .inl rfl
  · exact .inl rfl
  · exact .inr ⟨rfl, rfl⟩
  · exact .inl rfl

/-- Only the last character may have more units than bytes. -/
theorem length_units_le (utf8 : List UInt8) : (units utf8).length ≤ utf8.length + 1 := by
  fun_induction units utf8 with
  | case1 => exact Nat.zero_le _
  | case2 r t ih =>
    have hrest := length_char_rest_le r t
    rw [List.length_append, List.length_cons]
    rcases length_char r t with hone | ⟨htwo, hdrop⟩
    · omega
    · rw [hdrop, List.length_drop] at ih
      by_cases hend : t.length ≤ 3
      · have hnil : units (char r t).2 = [] := by
          rw [hdrop, List.drop_of_length_le hend, units]
        rw [hnil, List.length_nil]
        omega
      · rw [hdrop] at *
        omega

namespace Pieces

/-- The pieces make up the units so far, and there is no third one. -/
structure Joined (p : Pieces) (done : JsString) : Prop where
  text : p.text = done
  used_le : p.used ≤ p.array.length
  first : p.whole = [] → p.array.length = p.used
  second : p.whole ≠ [] → p.used + 8192 ≤ done.length

variable {p : Pieces} {done : JsString}

theorem Joined.put (h : p.Joined done) (u : UInt16) : (p.put u).Joined (done ++ [u]) := by
  have hlen : (p.array.take p.used).length = p.used := List.length_take_of_le h.used_le
  have htake : (p.put u).array.take (p.used + 1) = p.array.take p.used ++ [u] := by
    rw [Pieces.put, List.take_append, hlen, Nat.add_sub_cancel_left, List.take_take,
      Nat.min_eq_right (Nat.le_succ _)]
    rfl
  have harray : (p.put u).array.length = p.used + (p.array.length - (p.used + 1) + 1) := by
    rw [Pieces.put, List.length_append, hlen, List.length_cons, List.length_drop]
  refine ⟨?_, ?_, fun hfirst => ?_, fun hsecond => ?_⟩
  · change p.whole.flatten ++ (p.put u).array.take (p.used + 1) = _
    rw [htake, ← List.append_assoc]
    exact congrArg (· ++ [u]) h.text
  · rw [harray]
    exact Nat.add_le_add_left (Nat.le_add_left ..) _
  · rw [harray, h.first hfirst]
    change _ = p.used + 1
    omega
  · have hmore := h.second hsecond
    rw [List.length_append, List.length_singleton]
    change p.used + 1 + 8192 ≤ _
    omega

theorem Joined.putAll (h : p.Joined done) (us : JsString) :
    (us.foldl Pieces.put p).Joined (done ++ us) := by
  induction us generalizing p done with
  | nil =>
    rw [List.append_nil]
    exact h
  | cons u us ih =>
    rw [List.foldl_cons, ← List.singleton_append, ← List.append_assoc]
    exact ih (h.put u)

/-- The first piece is whole; a second one would be too much. -/
theorem Joined.flush (h : p.Joined done) (hlen : done.length < 16384) : p.flush.Joined done := by
  unfold Pieces.flush
  split_ifs with hfull
  · by_cases hfirst : p.whole = []
    · have harray := h.first hfirst
      have htext := h.text
      rw [Pieces.text, hfirst, List.flatten_nil, List.nil_append, ← harray, List.take_length]
        at htext
      refine ⟨?_, Nat.zero_le _, fun hnil => ?_, fun _ => ?_⟩
      · rw [Pieces.text, hfirst]
        simpa using htext
      · exact absurd hnil (by simp)
      · rw [← htext, harray, Nat.zero_add]
        exact hfull
    · have hmore := h.second hfirst
      omega
  · exact h

end Pieces

theorem joined_readFrom (utf8 : List UInt8) {p : Pieces} {done : JsString} (h : p.Joined done)
    (hlen : (done ++ units utf8).length < 16384) :
    (readFrom p utf8).Joined (done ++ units utf8) := by
  fun_induction units utf8 generalizing p done with
  | case1 =>
    rw [readFrom, List.append_nil]
    exact h
  | case2 r t ih =>
    rw [← List.append_assoc] at hlen ⊢
    rw [readFrom]
    refine ih ((h.putAll (char r t).1).flush ?_) hlen
    rw [List.length_append] at hlen
    omega

/-- Without a third piece the string is that of the units. -/
theorem read_eq {utf8 : List UInt8} (h : utf8.length < 16383) : read utf8 = units utf8 := by
  have hlen := length_units_le utf8
  have hempty : Pieces.empty.Joined [] := ⟨rfl, Nat.le_refl _, fun _ => rfl, fun h => absurd rfl h⟩
  exact (joined_readFrom utf8 hempty (by rw [List.nil_append]; omega)).text

/-! ### A character by its first byte -/

/-- The last bits of a byte. -/
theorem mask_toNat {mask : UInt8} (byte : UInt8) {k : Nat} (h : mask.toNat = 2 ^ k - 1) :
    (mask &&& byte).toNat = byte.toNat % 2 ^ k := by
  rw [UInt8.toNat_and, h, Nat.and_comm, Nat.and_two_pow_sub_one_eq_mod]

/-- Bits in front of others. -/
theorem shiftLeft_or {a b k : Nat} (h : b < 2 ^ k) : a <<< k ||| b = a * 2 ^ k + b := by
  rw [← Nat.shiftLeft_add_eq_or_of_lt h, Nat.shiftLeft_eq]

theorem payload_eq (t : List UInt8) (i : Nat) : payload t i = (t.getD i 0).toNat % 64 :=
  mask_toNat _ (k := 6) rfl

section Cases

variable {r : UInt8} (t : List UInt8)

theorem char_one (h : r.toNat < 128) : char r t = ([charCode r.toNat], t) :=
  if_pos (UInt8.lt_iff_toNat_lt.mpr h)

theorem char_two (hlow : 192 ≤ r.toNat) (hhigh : r.toNat < 224) :
    char r t = ([charCode (r.toNat % 32 * 64 + payload t 0 : Nat)], t.drop 1) := by
  have hone : ¬ r < 128 := by
    rw [UInt8.lt_iff_toNat_lt]
    exact Nat.not_lt.mpr (Nat.le_trans (by decide) hlow)
  have hlead : (31 &&& r).toNat = r.toNat % 32 := mask_toNat r (k := 5) rfl
  have hnext : payload t 0 < 64 := by rw [payload_eq]; omega
  have hcode : (31 &&& r).toNat <<< 6 ||| payload t 0 = r.toNat % 32 * 64 + payload t 0 := by
    rw [hlead]
    exact shiftLeft_or (k := 6) hnext
  rw [char, if_neg hone, if_pos, hcode]
  exact ⟨UInt8.lt_iff_toNat_lt.mpr hlow, UInt8.lt_iff_toNat_lt.mpr hhigh⟩

theorem char_three (hlow : 224 ≤ r.toNat) (hhigh : r.toNat < 240) :
    char r t =
      ([charCode (r.toNat % 16 * 4096 + payload t 0 * 64 + payload t 1 : Nat)], t.drop 2) := by
  have hone : ¬ r < 128 := by
    rw [UInt8.lt_iff_toNat_lt]
    exact Nat.not_lt.mpr (Nat.le_trans (by decide) hlow)
  have htwo : ¬ (191 < r ∧ r < 224) := by
    rw [UInt8.lt_iff_toNat_lt, UInt8.lt_iff_toNat_lt]
    exact fun h => absurd h.2 (Nat.not_lt.mpr hlow)
  have hfour : ¬ 239 < r := by
    rw [UInt8.lt_iff_toNat_lt]
    exact Nat.not_lt.mpr (Nat.le_of_lt_succ hhigh)
  have hlead : (15 &&& r).toNat = r.toNat % 16 := mask_toNat r (k := 4) rfl
  have hnext : payload t 0 < 64 := by rw [payload_eq]; omega
  have hlast : payload t 1 < 64 := by rw [payload_eq]; omega
  have hcode : (15 &&& r).toNat <<< 12 ||| payload t 0 <<< 6 ||| payload t 1 =
      r.toNat % 16 * 4096 + payload t 0 * 64 + payload t 1 := by
    rw [hlead, Nat.or_assoc, shiftLeft_or (k := 6) hlast, shiftLeft_or (k := 12) (by omega)]
    omega
  rw [char, if_neg hone, if_neg htwo, if_neg hfour, hcode]

theorem char_four (hlow : 240 ≤ r.toNat) :
    char r t =
      ([charCode (55296 + ((r.toNat % 8 * 262144 + payload t 0 * 4096 + payload t 1 * 64 +
          payload t 2 : Nat) - 65536) / 1024),
        charCode (56320 + ((r.toNat % 8 * 262144 + payload t 0 * 4096 + payload t 1 * 64 +
          payload t 2 : Nat) - 65536) % 1024)], t.drop 3) := by
  have hone : ¬ r < 128 := by
    rw [UInt8.lt_iff_toNat_lt]
    exact Nat.not_lt.mpr (Nat.le_trans (by decide) hlow)
  have htwo : ¬ (191 < r ∧ r < 224) := by
    rw [UInt8.lt_iff_toNat_lt, UInt8.lt_iff_toNat_lt]
    exact fun h => absurd h.2 (Nat.not_lt.mpr (Nat.le_trans (by decide) hlow))
  have hlead : (7 &&& r).toNat = r.toNat % 8 := mask_toNat r (k := 3) rfl
  have hnext : payload t 0 < 64 := by rw [payload_eq]; omega
  have hthird : payload t 1 < 64 := by rw [payload_eq]; omega
  have hlast : payload t 2 < 64 := by rw [payload_eq]; omega
  have hcode : (7 &&& r).toNat <<< 18 ||| payload t 0 <<< 12 ||| payload t 1 <<< 6 ||| payload t 2 =
      r.toNat % 8 * 262144 + payload t 0 * 4096 + payload t 1 * 64 + payload t 2 := by
    rw [hlead, Nat.or_assoc, Nat.or_assoc, shiftLeft_or (k := 6) hlast,
      shiftLeft_or (k := 12) (by omega), shiftLeft_or (k := 18) (by omega)]
    omega
  have hfour : 239 < r := UInt8.lt_iff_toNat_lt.mpr hlow
  rw [char, if_neg hone, if_neg htwo, if_pos hfour, hcode]

end Cases

/-! ### The UTF-8 of a text -/

/-- The code units of a character. -/
def utf16 (c : Char) : JsString :=
  if c.toNat < 65536 then [UInt16.ofNat c.toNat]
  else [UInt16.ofNat (55296 + (c.toNat - 65536) / 1024),
    UInt16.ofNat (56320 + (c.toNat - 65536) % 1024)]

theorem charCode_natCast (n : Nat) : charCode n = UInt16.ofNat n := by
  apply UInt16.toNat_inj.mp
  rw [charCode, UInt16.ofInt, UInt16.toNat_ofNat', UInt16.toNat_ofNat']
  omega

/-- A byte of a character, but not the first. -/
def contByte (n : Nat) : UInt8 := UInt8.ofNat (n % 0x40 + 0x80)

theorem payload_contByte {t : List UInt8} {i n : Nat} (h : t.getD i 0 = contByte n) :
    payload t i = n % 64 := by
  rw [payload_eq, h, contByte, UInt8.toNat_ofNat']
  omega

theorem toNat_lt (c : Char) : c.toNat < 1114112 := by
  rcases c.valid with hlow | ⟨-, hhigh⟩
  · exact Nat.lt_trans hlow (by decide)
  · exact hhigh

/-- The character that is encoded is read. -/
theorem char_utf8 (c : Char) (t : List UInt8) :
    ∃ r rest, String.utf8EncodeChar c ++ t = r :: rest ∧ char r rest = (utf16 c, t) := by
  have hvalid := toNat_lt c
  have hencode : String.utf8EncodeChar c =
      if c.toNat ≤ 0x7f then [UInt8.ofNat c.toNat]
      else if c.toNat ≤ 0x7ff then
        [UInt8.ofNat (c.toNat / 64 % 0x20 + 0xc0), contByte c.toNat]
      else if c.toNat ≤ 0xffff then
        [UInt8.ofNat (c.toNat / 4096 % 0x10 + 0xe0), contByte (c.toNat / 64), contByte c.toNat]
      else
        [UInt8.ofNat (c.toNat / 262144 % 0x08 + 0xf0), contByte (c.toNat / 4096),
          contByte (c.toNat / 64), contByte c.toNat] := rfl
  rw [hencode, utf16]
  by_cases hone : c.toNat ≤ 0x7f
  · have hr : (UInt8.ofNat c.toNat).toNat = c.toNat := by
      rw [UInt8.toNat_ofNat']
      omega
    rw [if_pos hone, if_pos (by omega)]
    refine ⟨_, _, rfl, ?_⟩
    rw [char_one _ (by omega), hr, charCode_natCast]
    rfl
  by_cases htwo : c.toNat ≤ 0x7ff
  · have hr : (UInt8.ofNat (c.toNat / 64 % 0x20 + 0xc0)).toNat = c.toNat / 64 % 32 + 192 := by
      rw [UInt8.toNat_ofNat']
      omega
    have hcode : (c.toNat / 64 % 32 + 192) % 32 * 64 + c.toNat % 64 = c.toNat := by omega
    rw [if_neg hone, if_pos htwo, if_pos (by omega)]
    refine ⟨_, _, rfl, ?_⟩
    rw [char_two _ (by omega) (by omega), hr, payload_contByte (n := c.toNat) rfl, hcode,
      charCode_natCast]
    rfl
  by_cases hthree : c.toNat ≤ 0xffff
  · have hr : (UInt8.ofNat (c.toNat / 4096 % 0x10 + 0xe0)).toNat = c.toNat / 4096 % 16 + 224 := by
      rw [UInt8.toNat_ofNat']
      omega
    have hcode : (c.toNat / 4096 % 16 + 224) % 16 * 4096 + c.toNat / 64 % 64 * 64 + c.toNat % 64 =
        c.toNat := by omega
    rw [if_neg hone, if_neg htwo, if_pos hthree, if_pos (by omega)]
    refine ⟨_, _, rfl, ?_⟩
    rw [char_three _ (by omega) (by omega), hr, payload_contByte (n := c.toNat / 64) rfl,
      payload_contByte (n := c.toNat) rfl, hcode, charCode_natCast]
    rfl
  · have hr : (UInt8.ofNat (c.toNat / 262144 % 0x08 + 0xf0)).toNat =
        c.toNat / 262144 % 8 + 240 := by
      rw [UInt8.toNat_ofNat']
      omega
    have hcode : (c.toNat / 262144 % 8 + 240) % 8 * 262144 + c.toNat / 4096 % 64 * 4096 +
        c.toNat / 64 % 64 * 64 + c.toNat % 64 = c.toNat := by omega
    have hhigh : 55296 + ((c.toNat : Int) - 65536) / 1024 =
        (55296 + (c.toNat - 65536) / 1024 : Nat) := by omega
    have hlow : 56320 + ((c.toNat : Int) - 65536) % 1024 =
        (56320 + (c.toNat - 65536) % 1024 : Nat) := by omega
    rw [if_neg hone, if_neg htwo, if_neg hthree, if_neg (by omega)]
    refine ⟨_, _, rfl, ?_⟩
    rw [char_four _ (by omega), hr, payload_contByte (n := c.toNat / 4096) rfl,
      payload_contByte (n := c.toNat / 64) rfl, payload_contByte (n := c.toNat) rfl, hcode, hhigh,
      hlow, charCode_natCast, charCode_natCast]
    rfl

theorem units_flatMap (text : List Char) :
    units (text.flatMap String.utf8EncodeChar) = text.flatMap utf16 := by
  induction text with
  | nil => rw [List.flatMap_nil, List.flatMap_nil, units]
  | cons c text ih =>
    obtain ⟨r, rest, hbytes, hchar⟩ := char_utf8 c (text.flatMap String.utf8EncodeChar)
    rw [List.flatMap_cons, List.flatMap_cons, hbytes, units, hchar, ih]

theorem toUTF8_eq (text : String) :
    text.toUTF8.data.toList = text.toList.flatMap String.utf8EncodeChar := by
  rw [String.toUTF8_eq_toByteArray, ← String.utf8Encode_toList, List.utf8Encode,
    List.data_toByteArray]

/-- **A text is read as itself**, if it is not too long. -/
theorem read_toUTF8 {text : String} (h : text.toUTF8.size < 16383) :
    read text.toUTF8.data.toList = text.toList.flatMap utf16 := by
  have hunits : read text.toUTF8.data.toList = units text.toUTF8.data.toList := read_eq h
  rw [hunits, toUTF8_eq, units_flatMap]

end Utf8
