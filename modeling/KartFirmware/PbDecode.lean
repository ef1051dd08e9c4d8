import KartFirmware.ByteReader
import KartFirmware.LittleEndian
import KartFirmware.Varint

/-!
# The nanopb decoder

`pb_decode.c`, for messages with boolean, integer, 32-bit and string members and callback
fields.  A stream is the bytes that are left of it; a substream is a block of them.  The
descriptor of a message is a table of its fields by number, and the field iterator's search
is the search in this table.

`pb_decode` reads fields until the stream is empty.  A varint is read by one of two
functions, with 32 or with 64 bits (`decodeVarint32`, `decodeVarint`).
-/

namespace PbDecode

/-- `errmsg`, `none` while it is NULL. -/
abbrev Errmsg := Option String

abbrev Decoder (α : Type) := Reader Errmsg α

variable {α σ : Type}

def returnError (msg : String) : Decoder α := Reader.fail (some msg)

def readByte : Decoder UInt8 := Reader.byte (some "end-of-stream")

def read (count : Nat) : Decoder (List UInt8) := Reader.take (some "end-of-stream") count

/-! ### Varints -/

/-- Past bit 31 a byte may be empty, or repeat the sign. -/
def validExtension (result : UInt32) (bitpos : Nat) (byte : UInt8) : Bool :=
  let signExtension : UInt8 := if bitpos < 63 then 0xFF else 0x01
  byte &&& 0x7F == 0 || result >>> 31 != 0 && byte == signExtension

/-- What a further byte adds to a 32-bit varint. -/
def varint32Bits (result : UInt32) (bitpos : Nat) (byte : UInt8) : Except Errmsg UInt32 :=
  if 32 ≤ bitpos then
    if 64 ≤ bitpos ∨ validExtension result bitpos byte = false then
      .error (some "varint overflow")
    else .ok result
  else if bitpos = 28 then
    if byte &&& 0x70 ≠ 0 ∧ byte &&& 0x78 ≠ 0x78 then .error (some "varint overflow")
    else .ok (result ||| (byte &&& 0x0F).toUInt32 <<< bitpos.toUInt32)
  else .ok (result ||| (byte &&& 0x7F).toUInt32 <<< bitpos.toUInt32)

theorem lt_of_varint32Bits {result next : UInt32} {bitpos : Nat} {byte : UInt8}
    (h : varint32Bits result bitpos byte = .ok next) : bitpos < 64 := by
  unfold varint32Bits at h
  split_ifs at h with hhigh hover
  · exact Nat.lt_of_not_le fun h64 => hover (Or.inl h64)
  · omega
  · omega

def varint32Loop (result : UInt32) (bitpos : Nat) : Decoder UInt32 := do
  let byte ← readByte
  match _h : varint32Bits result bitpos byte with
  | .error e => Reader.fail e
  | .ok next => if byte &&& 0x80 ≠ 0 then varint32Loop next (bitpos + 7) else pure next
termination_by 71 - bitpos
decreasing_by
  have hlt := lt_of_varint32Bits _h
  omega

/-- `pb_decode_varint32_eof`; the loop that reads a message never calls it at the end. -/
def decodeVarint32 : Decoder UInt32 := do
  let byte ← readByte
  if byte &&& 0x80 = 0 then pure byte.toUInt32
  else varint32Loop (byte &&& 0x7F).toUInt32 7

theorem more_of_high {byte : UInt8} (h : byte &&& 0xFE = 0) : byte &&& 0x80 = 0 := by
  have hcases : ∀ b : BitVec 8, b &&& 0xFE = 0 → b &&& 0x80 = 0 := by decide
  exact UInt8.toBitVec_inj.mp (hcases byte.toBitVec (congrArg UInt8.toBitVec h))

def varintLoop (result : UInt64) (bitpos : Nat) : Decoder UInt64 := do
  let byte ← readByte
  if _hover : 63 ≤ bitpos ∧ byte &&& 0xFE ≠ 0 then returnError "varint overflow"
  else
    let next := result ||| (byte &&& 0x7F).toUInt64 <<< bitpos.toUInt64
    if _hmore : byte &&& 0x80 ≠ 0 then varintLoop next (bitpos + 7) else pure next
termination_by 70 - bitpos
decreasing_by
  have hlt : bitpos < 63 := by
    by_contra hge
    by_cases hhigh : byte &&& 0xFE = 0
    · exact _hmore (more_of_high hhigh)
    · exact _hover ⟨Nat.le_of_not_lt hge, hhigh⟩
  omega

/-- `pb_decode_varint`. -/
def decodeVarint : Decoder UInt64 := varintLoop 0 0

/-! ### Fields -/

def WT_VARINT : UInt32 := 0

def WT_64BIT : UInt32 := 1

def WT_STRING : UInt32 := 2

def WT_32BIT : UInt32 := 5

/-- The number of a field and its wire type. -/
def decodeTag : Decoder (UInt32 × UInt32) := do
  let temp ← decodeVarint32
  pure (temp >>> 3, temp &&& 7)

def skipVarint : Decoder Unit := do
  let _ ← Reader.skipThrough (some "end-of-stream") fun byte => byte &&& 0x80 ≠ 0
  pure ()

def skipString : Decoder Unit := do
  let length ← decodeVarint32
  let _ ← read length.toNat
  pure ()

def skipField (wireType : UInt32) : Decoder Unit :=
  if wireType = WT_VARINT then skipVarint
  else if wireType = WT_64BIT then do
    let _ ← read 8
    pure ()
  else if wireType = WT_STRING then skipString
  else if wireType = WT_32BIT then do
    let _ ← read 4
    pure ()
  else returnError "invalid wire_type"

/-- The bytes of a varint, in a buffer of a limited size. -/
def rawVarint : Nat → Decoder (List UInt8)
  | 0 => returnError "varint overflow"
  | size + 1 => do
    let byte ← readByte
    if byte &&& 0x80 ≠ 0 then do
      let rest ← rawVarint size
      pure (byte :: rest)
    else pure [byte]

def readRawValue (wireType : UInt32) : Decoder (List UInt8) :=
  if wireType = WT_VARINT then rawVarint 10
  else if wireType = WT_64BIT then read 8
  else if wireType = WT_32BIT then read 4
  else returnError "invalid wire_type"

def decodeBool : Decoder Bool := do
  let value ← decodeVarint32
  pure (value ≠ 0)

/-- `pb_dec_varint`, for a signed member of 32 bits. -/
def decVarint : Decoder Int32 := do
  let value ← decodeVarint
  pure value.toUInt32.toInt32

def decodeFixed32 : Decoder UInt32 := do
  let b₀ ← readByte
  let b₁ ← readByte
  let b₂ ← readByte
  let b₃ ← readByte
  pure (LittleEndian.word b₀ b₁ b₂ b₃)

/-- `pb_dec_string`, into an array of `dataSize` bytes with the terminator. -/
def decString (dataSize : Nat) : Decoder (List UInt8) := do
  let size ← decodeVarint32
  if size = 0xFFFFFFFF then returnError "size too large"
  else if size.toNat + 1 > dataSize then returnError "string overflow"
  else read size.toNat

/-- A member of a message, with how it is set, or a field that is handed to a callback. -/
inductive MsgField (σ : Type) where
  | bool (set : σ → Bool → σ)
  | int32 (set : σ → Int32 → σ)
  | fixed32 (set : σ → UInt32 → σ)
  | string (dataSize : Nat) (set : σ → List UInt8 → σ)
  | callback (decode : σ → List UInt8 → Except Errmsg (σ × List UInt8))

/-- The callback is called again while it leaves some of its substream and takes some. -/
def callbackLoop (decode : σ → List UInt8 → Except Errmsg (σ × List UInt8)) (x : σ)
    (substream : List UInt8) : Except Errmsg σ :=
  match decode x substream with
  | .error e => .error (some (e.getD "callback failed"))
  | .ok (y, left) =>
    if left.length > 0 ∧ left.length < substream.length then callbackLoop decode y left
    else .ok y
termination_by substream.length

def decodeCallbackField (decode : σ → List UInt8 → Except Errmsg (σ × List UInt8))
    (wireType : UInt32) (x : σ) : Decoder σ :=
  if wireType = WT_STRING then do
    let size ← decodeVarint32
    Reader.block (some "parent stream too short") size.toNat (callbackLoop decode x)
  else do
    let raw ← readRawValue wireType
    match decode x raw with
    | .error _ => Reader.fail none
    | .ok (y, _) => pure y

/-- A member of a given wire type. -/
def decodeBasicField (expected wireType : UInt32) (value : Decoder σ) : Decoder σ :=
  if wireType ≠ expected then returnError "wrong wire type" else value

def decodeField (field : MsgField σ) (wireType : UInt32) (x : σ) : Decoder σ :=
  match field with
  | .bool set => decodeBasicField WT_VARINT wireType do
      let value ← decodeBool
      pure (set x value)
  | .int32 set => decodeBasicField WT_VARINT wireType do
      let value ← decVarint
      pure (set x value)
  | .fixed32 set => decodeBasicField WT_32BIT wireType do
      let value ← decodeFixed32
      pure (set x value)
  | .string dataSize set => decodeBasicField WT_STRING wireType do
      let value ← decString dataSize
      pure (set x value)
  | .callback decode => decodeCallbackField decode wireType x

/-! ### Messages -/

/-- One turn of the loop of `pb_decode_inner`. -/
def decodeTurn (fields : List (UInt32 × MsgField σ)) (x : σ) : Decoder σ := do
  let (tag, wireType) ← decodeTag
  if tag = 0 then returnError "zero tag"
  else
    match fields.lookup tag with
    | none => do
      skipField wireType
      pure x
    | some field => decodeField field wireType x

theorem consumes_decodeVarint32 : decodeVarint32.Consumes :=
  (Reader.consumes_byte _).bind _

theorem consumes_decodeTurn (fields : List (UInt32 × MsgField σ)) (x : σ) :
    (decodeTurn fields x).Consumes := (consumes_decodeVarint32.bind _).bind _

/-- `pb_decode` into a message with its default values. -/
def decode (fields : List (UInt32 × MsgField σ)) (x : σ) (s : List UInt8) : Except Errmsg σ :=
  Reader.runAll (decodeTurn fields) (consumes_decodeTurn fields) x s

end PbDecode
