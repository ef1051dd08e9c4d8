import KartFirmware.ConfigRoundTrip
import KartFirmware.ProtoEncode

/-!
# The size of the configuration reply

`buildConfigPb` of `webserver.cpp` with the callbacks that encode the parameter table, and
the compile-time estimate `configPbBytes` of `config_params.cpp` that is to keep the reply
within the arena of `PB_REPLY_CAP` bytes.  The table, the current values and the texts are
arbitrary.

The estimate gives an integer five bytes, and a negative one takes ten.
-/

namespace KartFirmware

open ProtoEncode

def hw.PB_REPLY_CAP : Nat := 9216

/-! ### The estimate -/

/-- The bytes of a C string, up to the terminator. -/
def cBytes (s : String) : List UInt8 := s.toUTF8.data.toList.takeWhile fun b => b ≠ 0

def cstrLen (s : String) : Nat := (cBytes s).length

def paramPbBytes (p : ParamDesc Float32) : Nat :=
  3 + 4 * 3 + cstrLen p.name + cstrLen p.desc + cstrLen p.cat + cstrLen p.help + 4 * 7

def configPbBytes (table : List (ParamDesc Float32)) : Nat := (table.map paramPbBytes).sum

/-! ### The encoders -/

section Encoders

variable {σ : Type}

def encStr (field : Nat) (s : String) : Encoder σ :=
  andThen (encodeTag field 2) (encodeString (cBytes s))

/-- What an `int32_t` member holds after a cast, which C leaves open beyond its range. -/
def storedInt (unspecified : Int → Int) (i : Int) : Int :=
  if -2147483648 ≤ i ∧ i < 2147483648 then i else toInt32 (unspecified i)

/-- The sign extension to 64 bits. -/
def signExtend (i : Int) : Nat := (i % 18446744073709551616).toNat

variable (unspecified : Int → Int)

/-- A oneof whose three members have consecutive field numbers. -/
def encOneof (first : Nat) : OneofValue → Encoder σ
  | .unset => nothing
  | .bval b => andThen (encodeTag first 0) (encodeVarint (if b then 1 else 0))
  | .ival i =>
    andThen (encodeTag (first + 1) 0) (encodeVarint (signExtend (storedInt unspecified i)))
  | .fval f => andThen (encodeTag (first + 2) 5) (write (encodeFloat f))

structure ParamMeta where
  name : String
  desc : String
  cat : String
  help : String
  value : OneofValue
  minv : OneofValue
  maxv : OneofValue
  defv : OneofValue

/-- The fields of `ParamMeta`, by number. -/
def encParamMeta (m : ParamMeta) : Encoder σ :=
  all
    [encStr 1 m.name, encStr 2 m.desc, encStr 3 m.cat, encStr 4 m.help,
      encOneof unspecified 8 m.value, encOneof unspecified 11 m.minv,
      encOneof unspecified 14 m.maxv, encOneof unspecified 17 m.defv]

/-- What the loop of `encParamMetas` fills in for a parameter. -/
def ParamDesc.meta (p : ParamDesc Float32) (value : Float32) : ParamMeta where
  name := p.name
  desc := p.desc
  cat := p.cat
  help := p.help
  value := p.entry.oneof value
  minv := p.entry.oneof (cfgMin p)
  maxv := p.entry.oneof (cfgMax p)
  defv := p.entry.oneof (cfgDef p)

/-- `encParamMetas`, for the current value of each parameter. -/
def encParamMetas (table : List (ParamDesc Float32)) (get : ParamDesc Float32 → Float32) :
    Encoder σ :=
  all (table.map fun p =>
    andThen (encodeTag 1 2) (submessage (encParamMeta unspecified (p.meta (get p)))))

/-- `encodeMsg`: the reply in the arena, or nothing when the encoding fails. -/
def encodeMsg (field : Nat) (body : Encoder σ) (x : σ) : Option (List UInt8) :=
  (andThen (encodeTag field 2) (submessage body) (.buffer hw.PB_REPLY_CAP) x).map fun r =>
    r.1.written

end Encoders

def buildConfigPb (unspecified : Int → Int) (table : List (ParamDesc Float32))
    (get : ParamDesc Float32 → Float32) : Option (List UInt8) :=
  encodeMsg 2 (encParamMetas unspecified table get) ()

/-! ### What is written -/

/-- The number of a field, with its wire type. -/
def tagSize (field : Nat) : Nat := if field < 16 then 1 else 2

def textSize (s : String) : Nat := 1 + (varintSize (cstrLen s) + cstrLen s)

section Sizes

variable (unspecified : Int → Int)

/-- The integer is negative when it is written. -/
def negative : OneofValue → Nat
  | .ival i => if storedInt unspecified i < 0 then 1 else 0
  | _ => 0

/-- The bytes of a number, with ten for a negative integer. -/
def numberSize (first : Nat) : OneofValue → Nat
  | .unset => 0
  | .bval _ => tagSize first + 1
  | .ival i =>
    tagSize (first + 1) +
      if storedInt unspecified i < 0 then 10 else varintSize (storedInt unspecified i).toNat
  | .fval _ => tagSize (first + 2) + 4

def metaSize (m : ParamMeta) : Nat :=
  textSize m.name + (textSize m.desc + (textSize m.cat + (textSize m.help +
    (numberSize unspecified 8 m.value + (numberSize unspecified 11 m.minv +
      (numberSize unspecified 14 m.maxv + (numberSize unspecified 17 m.defv + 0)))))))

end Sizes

section Sized

variable {σ : Type} {unspecified : Int → Int}

theorem sized_tag {field wire : Nat} (hfield : field < 2048) (hwire : wire < 8) :
    Sized (encodeTag field wire : Encoder σ) (tagSize field) := by
  have hsize : varintSize (8 * field + wire) = tagSize field := by
    rw [varintSize, tagSize]
    split_ifs with hsmall
    · rw [Nat.log_of_lt (by omega)]
    · rw [Nat.log_eq_of_pow_le_of_lt_pow (m := 1) (by omega) (by omega)]
  exact hsize ▸ sized_varint (by omega)

theorem sized_encStr {field : Nat} (hfield : field < 16) {s : String}
    (hs : cstrLen s < 18446744073709551616) : Sized (encStr field s : Encoder σ) (textSize s) := by
  have htag : tagSize field = 1 := if_pos hfield
  exact (htag ▸ sized_tag (by omega) (by omega)).andThen (sized_string hs)

theorem storedInt_range (unspecified : Int → Int) (i : Int) :
    -2147483648 ≤ storedInt unspecified i ∧ storedInt unspecified i < 2147483648 := by
  rw [storedInt]
  split_ifs with hfits
  · exact hfits
  · have hlow := Int.le_bmod (x := unspecified i) (m := 2 ^ 32) (by decide)
    have hhigh := Int.bmod_lt (x := unspecified i) (m := 2 ^ 32) (by decide)
    rw [toInt32]
    omega

/-- A negative integer is sign-extended, and its varint has the 64th bit. -/
theorem sized_int (i : Int) :
    Sized (encodeVarint (signExtend (storedInt unspecified i)) : Encoder σ)
      (if storedInt unspecified i < 0 then 10
        else varintSize (storedInt unspecified i).toNat) := by
  obtain ⟨hlow, hhigh⟩ := storedInt_range unspecified i
  have hwide : signExtend (storedInt unspecified i) < 18446744073709551616 := by
    rw [signExtend]
    omega
  split_ifs with hneg
  · have hten : varintSize (signExtend (storedInt unspecified i)) = 10 := by
      rw [varintSize, ← Varint.length_encode hwide, Varint.length_encode_of_high _ hwide]
      rw [signExtend]
      omega
    exact hten ▸ sized_varint hwide
  · have hsame : signExtend (storedInt unspecified i) = (storedInt unspecified i).toNat := by
      rw [signExtend]
      omega
    rw [hsame]
    exact sized_varint (by omega)

theorem sized_encOneof {first : Nat} (hfirst : first < 32) (v : OneofValue) :
    Sized (encOneof unspecified first v : Encoder σ) (numberSize unspecified first v) := by
  cases v with
  | unset => exact sized_nothing
  | bval b =>
    have hone : Sized (encodeVarint (if b then 1 else 0) : Encoder σ) 1 := by
      have hsize : varintSize (if b then 1 else 0) = 1 := by cases b <;> simp [varintSize]
      have hwrite : Sized (encodeVarint (if b then 1 else 0) : Encoder σ) _ :=
        sized_varint (by cases b <;> decide)
      rwa [hsize] at hwrite
    exact (sized_tag (by omega) (by omega)).andThen hone
  | ival i => exact (sized_tag (by omega) (by omega)).andThen (sized_int i)
  | fval f => exact (sized_tag (by omega) (by omega)).andThen (sized_write (encodeFloat f))

theorem sized_encParamMeta {m : ParamMeta}
    (h : ∀ s ∈ [m.name, m.desc, m.cat, m.help], cstrLen s < 18446744073709551616) :
    Sized (encParamMeta unspecified m : Encoder σ) (metaSize unspecified m) := by
  refine (sized_encStr (by omega) (h _ (by simp))).cons ?_
  refine (sized_encStr (by omega) (h _ (by simp))).cons ?_
  refine (sized_encStr (by omega) (h _ (by simp))).cons ?_
  refine (sized_encStr (by omega) (h _ (by simp))).cons ?_
  refine (sized_encOneof (by omega) _).cons ?_
  refine (sized_encOneof (by omega) _).cons ?_
  refine (sized_encOneof (by omega) _).cons ?_
  exact (sized_encOneof (by omega) _).cons sized_nothing

end Sized

/-! ### Against the estimate -/

section Estimate

variable (unspecified : Int → Int)

/-- What a length varint leaves of its two bytes. -/
def unusedLength (n : Nat) : Int := 2 - varintSize n

/-- What a number leaves of its seven bytes, with five for a negative integer. -/
def unusedNumber (first : Nat) : OneofValue → Int
  | .unset => 7
  | .bval _ => 6 - tagSize first
  | .ival i =>
    7 - tagSize (first + 1) -
      if storedInt unspecified i < 0 then 5 else varintSize (storedInt unspecified i).toNat
  | .fval _ => 3 - tagSize (first + 2)

def ParamMeta.negatives (m : ParamMeta) : Nat :=
  negative unspecified m.value + negative unspecified m.minv + negative unspecified m.maxv +
    negative unspecified m.defv

/-- What a parameter leaves of its estimate. -/
def ParamMeta.unused (m : ParamMeta) : Int :=
  unusedLength (metaSize unspecified m) + unusedLength (cstrLen m.name) +
    unusedLength (cstrLen m.desc) + unusedLength (cstrLen m.cat) + unusedLength (cstrLen m.help) +
    unusedNumber unspecified 8 m.value + unusedNumber unspecified 11 m.minv +
    unusedNumber unspecified 14 m.maxv + unusedNumber unspecified 17 m.defv

theorem numberSize_eq (first : Nat) (v : OneofValue) :
    (numberSize unspecified first v : Int) =
      7 + 5 * negative unspecified v - unusedNumber unspecified first v := by
  cases v with
  | unset => rfl
  | bval b =>
    simp only [numberSize, negative, unusedNumber]
    omega
  | ival i =>
    simp only [numberSize, negative, unusedNumber]
    split_ifs <;> omega
  | fval f =>
    simp only [numberSize, negative, unusedNumber]
    omega

/-- One parameter with its header. -/
def entrySize (m : ParamMeta) : Nat :=
  1 + (varintSize (metaSize unspecified m) + metaSize unspecified m)

theorem entrySize_eq (m : ParamMeta) :
    (entrySize unspecified m : Int) =
      43 + (cstrLen m.name + cstrLen m.desc + cstrLen m.cat + cstrLen m.help) +
        5 * m.negatives unspecified - m.unused unspecified := by
  have hvalue := numberSize_eq unspecified 8 m.value
  have hminv := numberSize_eq unspecified 11 m.minv
  have hmaxv := numberSize_eq unspecified 14 m.maxv
  have hdefv := numberSize_eq unspecified 17 m.defv
  have hmeta : metaSize unspecified m = _ := metaSize.eq_1 unspecified m
  simp only [textSize] at hmeta
  simp only [entrySize, ParamMeta.negatives, ParamMeta.unused, unusedLength]
  omega

theorem paramPbBytes_eq (p : ParamDesc Float32) (value : Float32) :
    paramPbBytes p = 43 + (cstrLen (p.meta value).name + cstrLen (p.meta value).desc +
      cstrLen (p.meta value).cat + cstrLen (p.meta value).help) := by
  change 3 + 4 * 3 + cstrLen p.name + cstrLen p.desc + cstrLen p.cat + cstrLen p.help + 4 * 7 =
    43 + (cstrLen p.name + cstrLen p.desc + cstrLen p.cat + cstrLen p.help)
  omega

variable (table : List (ParamDesc Float32)) (get : ParamDesc Float32 → Float32)

/-- How many integers of the table are negative when they are written. -/
def negatives : Nat := (table.map fun p => (p.meta (get p)).negatives unspecified).sum

/-- What the parameters leave of their estimates. -/
def unused : Int := (table.map fun p => (p.meta (get p)).unused unspecified).sum

def bodySize : Nat := (table.map fun p => entrySize unspecified (p.meta (get p))).sum

theorem bodySize_eq :
    (bodySize unspecified table get : Int) =
      configPbBytes table + 5 * negatives unspecified table get - unused unspecified table get := by
  unfold bodySize configPbBytes negatives unused
  induction table with
  | nil => rfl
  | cons p table ih =>
    have hentry := entrySize_eq unspecified (p.meta (get p))
    have hestimate := paramPbBytes_eq p (get p)
    simp only [List.map_cons, List.sum_cons]
    omega

/-! ### Tables that pass the guard -/

variable {table}

theorem paramPbBytes_le {p : ParamDesc Float32} (hp : p ∈ table) :
    paramPbBytes p ≤ configPbBytes table :=
  List.single_le_sum (fun _ _ => Nat.zero_le _) _ (List.mem_map_of_mem hp)

theorem tagSize_range (field : Nat) : 1 ≤ tagSize field ∧ tagSize field ≤ 2 := by
  rw [tagSize]
  split_ifs <;> omega

theorem varintSize_storedInt_le (i : Int) : varintSize (storedInt unspecified i).toNat ≤ 5 := by
  obtain ⟨-, hhigh⟩ := storedInt_range unspecified i
  exact varintSize_le (by omega) (by omega)

theorem numberSize_le (first : Nat) (v : OneofValue) : numberSize unspecified first v ≤ 12 := by
  have hone := tagSize_range first
  have htwo := tagSize_range (first + 1)
  have hthree := tagSize_range (first + 2)
  cases v with
  | ival i =>
    have hdigits := varintSize_storedInt_le unspecified i
    rw [numberSize]
    split_ifs <;> omega
  | _ =>
    simp only [numberSize]
    omega

theorem textSize_le {s : String} (h : cstrLen s < 2097152) : textSize s ≤ cstrLen s + 4 := by
  have hlength : varintSize (cstrLen s) ≤ 3 := varintSize_le (by omega) h
  rw [textSize]
  omega

/-- The texts of a parameter that passes the guard are short. -/
theorem texts_le {p : ParamDesc Float32} (hp : p ∈ table)
    (hguard : configPbBytes table ≤ hw.PB_REPLY_CAP) :
    43 + (cstrLen p.name + cstrLen p.desc + cstrLen p.cat + cstrLen p.help) ≤ 9216 := by
  have hparam := paramPbBytes_le hp
  rw [paramPbBytes] at hparam
  rw [hw.PB_REPLY_CAP] at hguard
  omega

theorem metaSize_le {p : ParamDesc Float32} (hp : p ∈ table)
    (hguard : configPbBytes table ≤ hw.PB_REPLY_CAP) (value : Float32) :
    metaSize unspecified (p.meta value) ≤ paramPbBytes p + 21 := by
  have htexts := texts_le hp hguard
  have hname := textSize_le (s := p.name) (by omega)
  have hdesc := textSize_le (s := p.desc) (by omega)
  have hcat := textSize_le (s := p.cat) (by omega)
  have hhelp := textSize_le (s := p.help) (by omega)
  have hvalue := numberSize_le unspecified 8 (p.meta value).value
  have hminv := numberSize_le unspecified 11 (p.meta value).minv
  have hmaxv := numberSize_le unspecified 14 (p.meta value).maxv
  have hdefv := numberSize_le unspecified 17 (p.meta value).defv
  rw [metaSize, paramPbBytes]
  change textSize p.name + (textSize p.desc + (textSize p.cat + (textSize p.help + _))) ≤ _
  omega

theorem entrySize_le {p : ParamDesc Float32} (hp : p ∈ table)
    (hguard : configPbBytes table ≤ hw.PB_REPLY_CAP) (value : Float32) :
    entrySize unspecified (p.meta value) ≤ 2 * paramPbBytes p := by
  have hmeta := metaSize_le unspecified hp hguard value
  have htexts := texts_le hp hguard
  have hestimate := paramPbBytes.eq_1 p
  have hlength : varintSize (metaSize unspecified (p.meta value)) ≤ 3 :=
    varintSize_le (by omega) (by omega)
  rw [entrySize]
  omega

theorem bodySize_le (hguard : configPbBytes table ≤ hw.PB_REPLY_CAP) :
    bodySize unspecified table get ≤ 2 * configPbBytes table := by
  have hsum := List.sum_le_sum fun p hp => entrySize_le unspecified hp hguard (get p)
  rwa [List.sum_map_mul_left] at hsum

variable {σ : Type}

/-- The table is written in `bodySize` bytes. -/
theorem sized_encParamMetas (hguard : configPbBytes table ≤ hw.PB_REPLY_CAP) :
    Sized (encParamMetas unspecified table get : Encoder σ) (bodySize unspecified table get) := by
  refine sized_all fun p hp => ?_
  have htexts := texts_le hp hguard
  have hmeta := metaSize_le unspecified hp hguard (get p)
  have hparam := paramPbBytes_le hp
  rw [hw.PB_REPLY_CAP] at hguard
  have htag : Sized (encodeTag 1 2 : Encoder σ) 1 := sized_tag (by omega) (by omega)
  refine htag.andThen ((sized_encParamMeta ?_).submessage (by omega))
  intro s hs
  simp only [List.mem_cons, List.not_mem_nil, or_false] at hs
  rcases hs with rfl | rfl | rfl | rfl
  · change cstrLen p.name < 18446744073709551616
    omega
  · change cstrLen p.desc < 18446744073709551616
    omega
  · change cstrLen p.cat < 18446744073709551616
    omega
  · change cstrLen p.help < 18446744073709551616
    omega

/-! ### Whether the reply fits -/

/-- The header of the message takes three bytes when that matters. -/
theorem withHeader_le_iff {n : Nat} (h : n ≤ 18432) :
    1 + (varintSize n + n) ≤ hw.PB_REPLY_CAP ↔ n + 3 ≤ hw.PB_REPLY_CAP := by
  rw [hw.PB_REPLY_CAP, varintSize]
  by_cases hsmall : n < 128
  · rw [Nat.log_of_lt hsmall]
    omega
  · by_cases hmiddle : n < 16384
    · rw [Nat.log_eq_of_pow_le_of_lt_pow (m := 1) (by omega) (by omega)]
      omega
    · omega

theorem buildConfigPb_fits_iff (hguard : configPbBytes table ≤ hw.PB_REPLY_CAP) :
    (∃ msg, buildConfigPb unspecified table get = some msg ∧ msg.length ≤ hw.PB_REPLY_CAP) ↔
      bodySize unspecified table get + 3 ≤ hw.PB_REPLY_CAP := by
  have hbody := bodySize_le unspecified get hguard
  have hcap := hguard
  rw [hw.PB_REPLY_CAP] at hcap
  have htag : Sized (encodeTag 2 2 : Encoder Unit) 1 := sized_tag (by omega) (by omega)
  have hmessage := htag.andThen
    ((sized_encParamMetas unspecified get hguard).submessage (by omega))
  rw [← withHeader_le_iff (by omega)]
  exact hmessage.buffer hw.PB_REPLY_CAP ()

/-- The reply is sent exactly when the five bytes that each negative integer takes beyond
its estimate, and the header, fit in what the guard and the estimates leave. -/
theorem config_reply_fits_iff (unspecified : Int → Int) (table : List (ParamDesc Float32))
    (get : ParamDesc Float32 → Float32) (hguard : configPbBytes table ≤ hw.PB_REPLY_CAP) :
    (∃ msg, buildConfigPb unspecified table get = some msg ∧ msg.length ≤ hw.PB_REPLY_CAP) ↔
      (5 * negatives unspecified table get + 3 : Int) ≤
        ((hw.PB_REPLY_CAP - configPbBytes table : Nat) : Int) + unused unspecified table get := by
  have hbody := bodySize_eq unspecified table get
  rw [buildConfigPb_fits_iff unspecified get hguard]
  omega

theorem config_reply_fits_iff_params :
    configPbBytes PARAMS ≤ hw.PB_REPLY_CAP ∧
      ((∃ msg, buildConfigPb (fun _ => 0) PARAMS cfgDef = some msg ∧
          msg.length ≤ hw.PB_REPLY_CAP) ↔
        (5 * negatives (fun _ => 0) PARAMS cfgDef + 3 : Int) ≤
          ((hw.PB_REPLY_CAP - configPbBytes PARAMS : Nat) : Int) +
            unused (fun _ => 0) PARAMS cfgDef) :=
  have hguard : configPbBytes PARAMS ≤ hw.PB_REPLY_CAP := by decide +kernel
  ⟨hguard, config_reply_fits_iff _ _ _ hguard⟩

/-- A setting below zero, with a long help text. -/
def trimEntry : ParamDesc Float32 :=
  ⟨"trim", "Trim", "Drive feel", String.ofList (List.replicate 515 'x'),
    .int .int (-100) (-1) (-1) .mixType⟩

/-- Sixteen of them fill the estimate, and nothing is sent. -/
theorem config_reply_overflows :
    configPbBytes (List.replicate 16 trimEntry) ≤ hw.PB_REPLY_CAP ∧
      (∀ p ∈ List.replicate 16 trimEntry, cfgMin p ≤ cfgDef p ∧ cfgDef p ≤ cfgMax p) ∧
      ¬ ∃ msg, buildConfigPb (fun _ => 0) (List.replicate 16 trimEntry) cfgDef = some msg ∧
        msg.length ≤ hw.PB_REPLY_CAP := by
  have hguard : configPbBytes (List.replicate 16 trimEntry) ≤ hw.PB_REPLY_CAP := by
    decide +kernel
  refine ⟨hguard, by decide +kernel, ?_⟩
  rw [buildConfigPb_fits_iff _ _ hguard]
  decide +kernel

/-! ### Tables without a negative integer -/

/-- A number leaves a byte when its tag is short. -/
theorem unusedNumber_ge (first : Nat) (v : OneofValue) :
    2 - (tagSize (first + 1) : Int) ≤ unusedNumber unspecified first v := by
  have hone := tagSize_range first
  have htwo := tagSize_range (first + 1)
  have hthree := tagSize_range (first + 2)
  cases v with
  | ival i =>
    have hdigits := varintSize_storedInt_le unspecified i
    rw [unusedNumber]
    split_ifs <;> omega
  | _ =>
    simp only [unusedNumber]
    omega

theorem unusedLength_nonneg {n : Nat} (h : n < 16384) : 0 ≤ unusedLength n := by
  have hlength : varintSize n ≤ 2 := varintSize_le (by omega) h
  rw [unusedLength]
  omega

theorem ParamMeta.unused_ge {p : ParamDesc Float32} (hp : p ∈ table)
    (hguard : configPbBytes table ≤ hw.PB_REPLY_CAP) (value : Float32) :
    3 ≤ (p.meta value).unused unspecified := by
  have htexts := texts_le hp hguard
  have hmeta := metaSize_le unspecified hp hguard value
  have hestimate := paramPbBytes.eq_1 p
  have hbody := unusedLength_nonneg (n := metaSize unspecified (p.meta value)) (by omega)
  have hname := unusedLength_nonneg (n := cstrLen (p.meta value).name)
    (Nat.lt_of_le_of_lt (by omega : cstrLen p.name ≤ 9216) (by omega))
  have hdesc := unusedLength_nonneg (n := cstrLen (p.meta value).desc)
    (Nat.lt_of_le_of_lt (by omega : cstrLen p.desc ≤ 9216) (by omega))
  have hcat := unusedLength_nonneg (n := cstrLen (p.meta value).cat)
    (Nat.lt_of_le_of_lt (by omega : cstrLen p.cat ≤ 9216) (by omega))
  have hhelp := unusedLength_nonneg (n := cstrLen (p.meta value).help)
    (Nat.lt_of_le_of_lt (by omega : cstrLen p.help ≤ 9216) (by omega))
  have hvalue := unusedNumber_ge unspecified 8 (p.meta value).value
  have hminv := unusedNumber_ge unspecified 11 (p.meta value).minv
  have hmaxv := unusedNumber_ge unspecified 14 (p.meta value).maxv
  have hdefv := unusedNumber_ge unspecified 17 (p.meta value).defv
  have htags : tagSize 9 = 1 ∧ tagSize 12 = 1 ∧ tagSize 15 = 1 ∧ tagSize 18 = 2 := by decide
  obtain ⟨hnine, htwelve, hfifteen, heighteen⟩ := htags
  rw [hnine] at hvalue
  rw [htwelve] at hminv
  rw [hfifteen] at hmaxv
  rw [heighteen] at hdefv
  rw [ParamMeta.unused]
  omega

theorem unused_ge (hguard : configPbBytes table ≤ hw.PB_REPLY_CAP) :
    (3 * table.length : Int) ≤ unused unspecified table get := by
  have hsum := List.sum_le_sum fun p hp =>
    ParamMeta.unused_ge unspecified (p := p) (hp : p ∈ table) hguard (get p)
  rw [List.map_const', List.sum_replicate, nsmul_eq_mul] at hsum
  rw [unused]
  omega

/-- Without a negative integer the guard is enough. -/
theorem config_reply_fits (hguard : configPbBytes table ≤ hw.PB_REPLY_CAP)
    (hnonneg : negatives unspecified table get = 0) :
    ∃ msg, buildConfigPb unspecified table get = some msg ∧ msg.length ≤ hw.PB_REPLY_CAP := by
  rw [buildConfigPb_fits_iff unspecified get hguard]
  have hbody := bodySize_eq unspecified table get
  have hunused := unused_ge unspecified get hguard
  cases table with
  | nil =>
    rw [hw.PB_REPLY_CAP]
    change 0 + 3 ≤ 9216
    omega
  | cons p table =>
    rw [List.length_cons] at hunused
    omega

end Estimate

end KartFirmware
