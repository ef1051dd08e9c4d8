import KartFirmware.PbJs
import KartFirmware.ProtoEncode

/-!
# From a struct to an object

`pb_encode` walks over the fields of a struct: one that is not in a oneof is sent unless it
has its default value, where a string that a callback encodes has none, and of a oneof the
member that is set is sent, whatever its value.  The page declares a field of the same type,
but for an enumeration, which it reads as an `int32`.

What protobuf.js reads in the bytes is the value of the field (`reads_value`), and so the
bytes of a struct are read as the object with its values.
-/

namespace PbFields

open PbDecode (Value WireField)
open PbJs ProtoEncode Reader

/-! ### The fields of a struct -/

/-- The bytes of a string or a block.  A length of 32 bits has room for two hundred. -/
abbrev Chars := { content : List UInt8 // content.length < 2 ^ 24 }

inductive FieldValue where
  | bool (b : Bool)
  | uenum (code : UInt32)
  | uint32 (w : UInt32)
  | int32 (i : Int32)
  | sint32 (i : Int32)
  /-- A number of 64 bits that a number of JavaScript holds exactly, and not negative. -/
  | int64 (n : Fin (2 ^ 53))
  /-- The bits of a float. -/
  | float (bits : UInt32)
  /-- Strings and bytes, encoded by a callback. -/
  | string (utf8 : Chars)
  | bytes (content : Chars)

namespace FieldValue

/-- `pb_check_proto3_default_value`. -/
def isDefault : FieldValue → Bool
  | bool b => !b
  | uenum code => code = 0
  | uint32 w => w = 0
  | int32 i => i = 0
  | sint32 i => i = 0
  | int64 n => n.val = 0
  | float bits => bits = 0
  | string _ => false
  | bytes _ => false

/-- Varints, words, and what has a length in front. -/
def wireType : FieldValue → Nat
  | float _ => 5
  | string _ => 2
  | bytes _ => 2
  | _ => 0

section Encode

variable {σ : Type}

/-- `pb_encode_svarint`: twice the value, complemented if it is negative. -/
def encodeSvarint (value : Int) : Encoder σ :=
  let doubled := (2 * value % 18446744073709551616).toNat
  encodeVarint (if value < 0 then 18446744073709551615 - doubled else doubled)

def encode : FieldValue → Encoder σ
  | bool b => encodeVarint (if b then 1 else 0)
  | uenum code => encodeVarint code.toNat
  | uint32 w => encodeVarint w.toNat
  | int32 i => encodeVarint (i.toInt % 18446744073709551616).toNat
  | sint32 i => encodeSvarint i.toInt
  | int64 n => encodeVarint n
  | float bits => write (LittleEndian.bytes bits)
  | string utf8 => encodeString utf8.val
  | bytes content => encodeString content.val

end Encode

end FieldValue

inductive Presence where
  | singular
  /-- A member of a oneof, which is the one that is set or not. -/
  | oneof (set : Bool)

structure StructField where
  number : UInt32
  name : String
  presence : Presence
  value : FieldValue

namespace StructField

def isSent (f : StructField) : Bool :=
  match f.presence with
  | .singular => !f.value.isDefault
  | .oneof set => set

/-- `encode_field`. -/
def encode {σ : Type} (f : StructField) : Encoder σ :=
  if f.isSent then andThen (encodeTag f.number.toNat f.value.wireType) f.value.encode
  else nothing

end StructField

/-- `pb_encode`. -/
def encodeStruct {σ : Type} (fields : List StructField) : Encoder σ :=
  all (fields.map StructField.encode)

/-! ### What the page reads -/

namespace FieldValue

/-- The value as it is sent. -/
def wire : FieldValue → Value
  | bool b => .varint (UInt64.ofNat b.toNat)
  | uenum code => .varint (UInt64.ofNat code.toNat)
  | uint32 w => .varint (UInt64.ofNat w.toNat)
  | int32 i => .varint (UInt64.ofNat (i.toInt % 18446744073709551616).toNat)
  | sint32 i => .varint (UInt64.ofNat (zigzag i.toInt))
  | int64 n => .varint (UInt64.ofNat n)
  | float bits => .fixed32 bits
  | string utf8 => .bytes utf8.val
  | bytes content => .bytes content.val

/-- The field that the page declares. -/
def pageField (name : String) : FieldValue → Field
  | bool _ => .ofBool name
  | uenum _ => .ofInt name PbJs.int32
  | uint32 _ => .ofUint32 name
  | int32 _ => .ofInt name PbJs.int32
  | sint32 _ => .ofInt name PbJs.sint32
  | int64 _ => .ofInt name PbJs.int64
  | float _ => .ofFloat name
  | string _ => .ofString name
  | bytes _ => .ofBytes name

def js : FieldValue → Js
  | bool b => .bool b
  | uenum code => .int code.toInt32.toInt
  | uint32 w => .int w.toNat
  | int32 i => .int i.toInt
  | sint32 i => .int i.toInt
  | int64 n => .int n
  | float bits => .float bits
  | string utf8 => .text (Utf8.read utf8.val)
  | bytes content => .bytes content.val

theorem zigzag_lt (i : Int32) : zigzag i.toInt < 2 ^ 32 := by
  have hlow := i.le_toInt
  have hhigh := i.toInt_lt
  unfold zigzag
  split_ifs <;> omega

/-- protobuf.js reads the value of the field. -/
theorem reads_value (name : String) (v : FieldValue) :
    (v.pageField name).read.Reads v.wire.encode v.js := by
  cases v with
  | bool b =>
    rw [wire, encode_varint (by cases b <;> decide)]
    exact (reads_bool b).bind_pure (g := Js.bool)
  | uenum code =>
    rw [wire, encode_varint (by have := code.toNat_lt; omega)]
    exact ((reads_of_uint32 code).bind_pure (g := fun w : UInt32 => w.toInt32.toInt)).bind_pure
      (g := Js.int)
  | uint32 w =>
    rw [wire, encode_varint (by have := w.toNat_lt; omega)]
    exact ((reads_of_uint32 w).bind_pure (g := fun w : UInt32 => (w.toNat : Int))).bind_pure
      (g := Js.int)
  | int32 i =>
    rw [wire, encode_varint (by omega)]
    exact (reads_int32 i.le_toInt i.toInt_lt).bind_pure (g := Js.int)
  | sint32 i =>
    rw [wire, encode_varint (by have := zigzag_lt i; omega)]
    exact (reads_sint32 i.le_toInt i.toInt_lt).bind_pure (g := Js.int)
  | int64 n =>
    rw [wire, encode_varint (by omega)]
    exact (reads_int64 (n.isLt.trans (by decide))).bind_pure (g := Js.int)
  | float bits => exact (reads_float bits).bind_pure (g := Js.float)
  | string utf8 =>
    exact (reads_bytes (utf8.property.trans (by decide))).bind_pure
      (g := fun utf8 => Js.text (Utf8.read utf8))
  | bytes content =>
    exact (reads_bytes (content.property.trans (by decide))).bind_pure (g := Js.bytes)

/-- The default of the page is the value that is left out. -/
theorem rule_pageField (name : String) (v : FieldValue) :
    ∃ dflt, (v.pageField name).rule = .singular (some dflt) ∧
      (v.isDefault = true → dflt = v.js) := by
  cases v with
  | bool b =>
    refine ⟨_, rfl, fun h => ?_⟩
    obtain rfl : b = false := by simpa [isDefault] using h
    rfl
  | uenum code =>
    refine ⟨_, rfl, fun h => ?_⟩
    obtain rfl : code = 0 := by simpa [isDefault] using h
    rfl
  | uint32 w =>
    refine ⟨_, rfl, fun h => ?_⟩
    obtain rfl : w = 0 := by simpa [isDefault] using h
    rfl
  | int32 i =>
    refine ⟨_, rfl, fun h => ?_⟩
    obtain rfl : i = 0 := by simpa [isDefault] using h
    rfl
  | sint32 i =>
    refine ⟨_, rfl, fun h => ?_⟩
    obtain rfl : i = 0 := by simpa [isDefault] using h
    rfl
  | int64 n =>
    refine ⟨_, rfl, fun h => ?_⟩
    obtain rfl : n = 0 := Fin.ext (by simpa [isDefault] using h)
    rfl
  | float bits =>
    refine ⟨_, rfl, fun h => ?_⟩
    obtain rfl : bits = 0 := by simpa [isDefault] using h
    rfl
  | string utf8 => exact ⟨_, rfl, by simp [isDefault]⟩
  | bytes content => exact ⟨_, rfl, by simp [isDefault]⟩

end FieldValue

/-! ### What the encoder writes -/

section Writes

variable {σ : Type} (I : σ → Prop)

theorem writes_encodeString {content : List UInt8} (h : content.length < 2 ^ 32) :
    Writes I (encodeString content) (Value.bytes content).encode := by
  have hall := writes_andThen (writes_varint I content.length) (writes_write I content)
  rwa [Varint.encode_eq (by omega)] at hall

theorem writes_field (tag wire : Nat) {f : WireField} (htag : f.tag.toNat = tag)
    (hwire : f.value.wireType.toNat = wire) (h : tag < 2 ^ 29) {e : Encoder σ}
    (he : Writes I e f.value.encode) : Writes I (andThen (encodeTag tag wire) e) f.encode := by
  have htype := PbDecode.wireType_lt f.value
  have hfirst : Writes I (encodeTag tag wire) (Varint.encode (8 * tag + wire)) :=
    writes_varint I (8 * tag + wire)
  rw [Varint.encode_eq (by omega)] at hfirst
  have hall := writes_andThen hfirst he
  rw [← htag, ← hwire] at hall ⊢
  exact hall

theorem svarint_eq (i : Int32) :
    (if i.toInt < 0 then 18446744073709551615 - (2 * i.toInt % 18446744073709551616).toNat
      else (2 * i.toInt % 18446744073709551616).toNat) = zigzag i.toInt := by
  have hlow := i.le_toInt
  have hhigh := i.toInt_lt
  unfold zigzag
  split_ifs <;> omega

namespace FieldValue

theorem writes_encode (v : FieldValue) : Writes I v.encode v.wire.encode := by
  have hvarint : ∀ {n : Nat}, n < 2 ^ 64 →
      Writes I (encodeVarint n) (Value.varint (UInt64.ofNat n)).encode := by
    intro n hn
    rw [encode_varint hn, ← Varint.encode_eq hn]
    exact writes_varint I n
  cases v with
  | bool b => cases b <;> exact hvarint (by decide)
  | uenum code => exact hvarint (by have := code.toNat_lt; omega)
  | uint32 w => exact hvarint (by have := w.toNat_lt; omega)
  | int32 i => exact hvarint (by omega)
  | sint32 i =>
    rw [encode, encodeSvarint, svarint_eq]
    exact hvarint (by have := zigzag_lt i; omega)
  | int64 n => exact hvarint (by omega)
  | float bits => exact writes_write I _
  | string utf8 => exact writes_encodeString I (utf8.property.trans (by decide))
  | bytes content => exact writes_encodeString I (content.property.trans (by decide))

theorem wireType_wire (v : FieldValue) : v.wire.wireType.toNat = v.wireType := by
  cases v <;> rfl

end FieldValue

end Writes

namespace StructField

/-- The field on both sides. -/
def part (f : StructField) : Part :=
  match f.presence with
  | .singular =>
    .single f.number (f.value.pageField f.name) f.value.wire f.value.js f.isSent
      (f.value.reads_value f.name)
  | .oneof _ =>
    .single f.number (f.value.pageField f.name).inOneof f.value.wire f.value.js f.isSent
      (f.value.reads_value f.name)

/-- What the page shows of the field. -/
def shown (f : StructField) : Option (String × Js) :=
  match f.presence with
  | .singular => some (f.name, f.value.js)
  | .oneof set => if set then some (f.name, f.value.js) else none

theorem member_part (f : StructField) : f.part.member = f.shown := by
  obtain ⟨number, name, presence, value⟩ := f
  have hname : (value.pageField name).name = name := by
    cases value <;> rfl
  cases presence with
  | singular =>
    obtain ⟨dflt, hrule, hdflt⟩ := value.rule_pageField name
    refine (Part.member_single (!value.isDefault) (value.reads_value name) hrule).trans ?_
    rw [hname]
    cases hzero : value.isDefault with
    | false => rfl
    | true => rw [hdflt hzero]; rfl
  | oneof set =>
    have hread : (value.pageField name).inOneof.read.Reads value.wire.encode value.js :=
      value.reads_value name
    refine (Part.member_single set hread rfl).trans ?_
    cases set with
    | false => rfl
    | true => exact congrArg (fun shown => some (shown, value.js)) hname

theorem writes_encode {σ : Type} (I : σ → Prop) {f : StructField} (h : f.number.toNat < 2 ^ 29) :
    Writes I f.encode (f.part.wire.flatMap WireField.encode) := by
  have hsent := writes_field I f.number.toNat f.value.wireType
    (f := ⟨f.number, f.value.wire⟩) rfl f.value.wireType_wire h (f.value.writes_encode I)
  have hwire : f.part.wire = if f.isSent then [⟨f.number, f.value.wire⟩] else [] := by
    unfold part Part.wire
    cases f.presence <;> cases f.isSent <;> rfl
  rw [hwire, encode]
  split_ifs
  · rwa [List.flatMap_singleton]
  · exact writes_nothing I

end StructField

theorem body_struct (fields : List StructField) :
    body (fields.map StructField.part) =
      fields.flatMap fun f => f.part.wire.flatMap WireField.encode := by
  rw [body, wire, List.flatMap_map, List.flatMap_assoc]

/-- The bytes of a struct are those of its parts. -/
theorem writes_struct {σ : Type} (I : σ → Prop) {fields : List StructField}
    (h : ∀ f ∈ fields, f.number.toNat < 2 ^ 29) :
    Writes I (encodeStruct fields) (body (fields.map StructField.part)) := by
  rw [body_struct]
  exact writes_all fun f hf => StructField.writes_encode I (h f hf)

/-! ### Structs that the page declares -/

/-- The object that the page makes of a struct. -/
def shown (fields : List StructField) : Js := .obj (fields.filterMap StructField.shown)

theorem object_struct (fields : List StructField) :
    object (fields.map StructField.part) = shown fields := by
  rw [object, List.filterMap_map]
  exact congrArg Js.obj (List.filterMap_congr fun f _ => f.member_part)

/-- The page declares the members of the struct, not more than a length has room for. -/
structure Declares (d : Descriptor) (fields : List StructField) : Prop where
  members : descriptor (fields.map StructField.part) = d
  valid : d.Valid
  short : d.length ≤ 200

theorem length_varint_le_of_lt {n : Nat} (hn : n < 2 ^ 64) : (Varint.varint n).length ≤ 10 := by
  rw [Varint.length_varint]
  have hlog : Nat.log 128 n < 10 := Nat.log_lt_of_lt_pow' (by omega) (by omega)
  omega

theorem FieldValue.length_wire_le (v : FieldValue) : v.wire.encode.length ≤ 2 ^ 24 + 10 := by
  have hvarint : ∀ n : UInt64, (Value.varint n).encode.length ≤ 2 ^ 24 + 10 := by
    intro n
    have hlen := length_varint_le_of_lt n.toNat_lt
    rw [Value.encode]
    omega
  have htext : ∀ content : Chars, (Value.bytes content.val).encode.length ≤ 2 ^ 24 + 10 := by
    intro content
    have hlen := content.property
    have hfirst := length_varint_le_of_lt (n := content.val.length) (by omega)
    rw [Value.encode, List.length_append]
    omega
  cases v with
  | float bits => exact show 4 ≤ 2 ^ 24 + 10 by omega
  | string utf8 => exact htext utf8
  | bytes content => exact htext content
  | _ => exact hvarint _

theorem StructField.length_part_le {f : StructField} (h : f.number.toNat < 2 ^ 29) :
    (f.part.wire.flatMap WireField.encode).length ≤ 2 ^ 24 + 20 := by
  have hwire : f.part.wire = [⟨f.number, f.value.wire⟩] ∨ f.part.wire = [] := by
    unfold part Part.wire
    cases f.presence <;> cases f.isSent <;> simp [Part.single]
  rcases hwire with hsent | hnone
  · have htype := PbDecode.wireType_lt f.value.wire
    have htag := length_varint_le_of_lt (n := 8 * f.number.toNat + f.value.wire.wireType.toNat)
      (by omega)
    have hvalue := f.value.length_wire_le
    rw [hsent, List.flatMap_singleton, WireField.encode, List.length_append]
    exact (Nat.add_le_add htag hvalue).trans_eq (Nat.add_left_comm 10 (2 ^ 24) 10)
  · rw [hnone, List.flatMap_nil, List.length_nil]
    omega

namespace Declares

variable {d : Descriptor} {fields : List StructField}

theorem number_lt (h : Declares d fields) : ∀ f ∈ fields, f.number.toNat < 2 ^ 29 := by
  intro f hf
  have hmem : (f.number, f.part.field) ∈ d := by
    rw [← h.members, descriptor, List.map_map]
    refine List.mem_map.mpr ⟨f, hf, ?_⟩
    unfold StructField.part
    cases hp : f.presence <;> simp [hp, Part.single]
  exact h.valid.small _ hmem

theorem writes {σ : Type} (I : σ → Prop) (h : Declares d fields) :
    Writes I (encodeStruct fields) (body (fields.map StructField.part)) :=
  writes_struct I h.number_lt

theorem length_lt (h : Declares d fields) : (body (fields.map StructField.part)).length < 2 ^ 32 := by
  have hshort : fields.length ≤ 200 := by
    have hlen := h.short
    rwa [← h.members, descriptor, List.length_map, List.length_map] at hlen
  have hsum : (fields.map fun f => (f.part.wire.flatMap WireField.encode).length).sum ≤
      fields.length * (2 ^ 24 + 20) := by
    have hall := List.sum_le_card_nsmul
      (fields.map fun f => (f.part.wire.flatMap WireField.encode).length) (2 ^ 24 + 20) fun n hn => by
        obtain ⟨f, hf, rfl⟩ := List.mem_map.mp hn
        exact StructField.length_part_le (h.number_lt f hf)
    rwa [List.length_map, smul_eq_mul] at hall
  rw [body_struct, List.length_flatMap]
  omega

theorem map {α : Type} {fieldsOf : α → List StructField} (h : ∀ a, Declares d (fieldsOf a))
    (l : List α) : ∀ fs ∈ l.map fieldsOf, Declares d fs := by
  intro fs hfs
  obtain ⟨a, -, rfl⟩ := List.mem_map.mp hfs
  exact h a

end Declares

/-! ### Messages in a list -/

section Many

variable {d : Descriptor} {structs : List (List StructField)}

/-- Structs of one type, each a message with its length. -/
def manyStructs (number : UInt32) (name : String) (d : Descriptor)
    (structs : List (List StructField)) (h : ∀ fields ∈ structs, Declares d fields) : Part :=
  .many number name d (structs.map fun fields => fields.map StructField.part) <| by
    intro parts hparts
    obtain ⟨fields, hfields, rfl⟩ := List.mem_map.mp hparts
    exact ⟨(h fields hfields).members, (h fields hfields).valid, (h fields hfields).length_lt⟩

theorem member_manyStructs (number : UInt32) (name : String)
    (h : ∀ fields ∈ structs, Declares d fields) :
    (manyStructs number name d structs h).member = some (name, .arr (structs.map shown)) := by
  refine (Part.member_many _).trans ?_
  rw [List.map_map]
  exact congrArg (fun items => some (name, Js.arr items))
    (List.map_congr_left fun fields _ => object_struct fields)

theorem writes_manyStructs {σ : Type} {I : σ → Prop} (number : UInt32)
    (hnumber : number.toNat < 2 ^ 29) (name : String) {α : Type} {l : List α}
    {fields : α → List StructField} {e : α → Encoder σ}
    (he : ∀ a ∈ l, Writes I (e a) (body ((fields a).map StructField.part)))
    (h : ∀ fs ∈ l.map fields, Declares d fs) :
    Writes I (all (l.map fun a => andThen (encodeTag number.toNat 2) (submessage (e a))))
      (body [manyStructs number name d (l.map fields) h]) := by
  have hbody : body [manyStructs number name d (l.map fields) h] =
      l.flatMap fun a =>
        (⟨number, .bytes (body ((fields a).map StructField.part))⟩ : WireField).encode := by
    rw [body, wire, List.flatMap_singleton, Part.wire, manyStructs, Part.many, List.map_map,
      List.map_map, List.map_map, List.flatMap_map]
    rfl
  rw [hbody]
  refine writes_all fun a ha => ?_
  have hlen := (h (fields a) (List.mem_map_of_mem ha)).length_lt
  have hsub := writes_submessage (he a ha)
  rw [Varint.encode_eq (by omega)] at hsub
  exact writes_field I number.toNat 2 rfl rfl hnumber hsub

end Many

end PbFields
