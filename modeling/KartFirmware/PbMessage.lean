import KartFirmware.PbWire

/-!
# Messages on the wire

A message is a list of fields, each a tag and a value of one of the four wire types.  A
field that the descriptor does not have is skipped, whatever its type, and one that it has
sets its member (`applyField`).  The bytes of a list of fields, in any order, are decoded to
what the fields do one after the other (`decode_encode`), and nothing is decoded from bytes
that are cut off within a field (`decode_cut`).
-/

namespace PbDecode

open Reader

variable {σ : Type}

/-! ### Fields on the wire -/

inductive Value where
  | varint (n : UInt64)
  | fixed64 (low high : UInt32)
  | bytes (content : List UInt8)
  | fixed32 (w : UInt32)

namespace Value

def wireType : Value → UInt32
  | varint _ => WT_VARINT
  | fixed64 _ _ => WT_64BIT
  | bytes _ => WT_STRING
  | fixed32 _ => WT_32BIT

def encode : Value → List UInt8
  | varint n => Varint.varint n.toNat
  | fixed64 low high => LittleEndian.bytes low ++ LittleEndian.bytes high
  | bytes content => Varint.varint content.length ++ content
  | fixed32 w => LittleEndian.bytes w

/-- A length has 32 bits. -/
def Fits : Value → Prop
  | bytes content => content.length < 2 ^ 32
  | _ => True

instance (v : Value) : Decidable v.Fits :=
  match v with
  | bytes content => inferInstanceAs (Decidable (content.length < 2 ^ 32))
  | varint _ | fixed64 _ _ | fixed32 _ => isTrue trivial

end Value

structure WireField where
  tag : UInt32
  value : Value

namespace WireField

def encode (f : WireField) : List UInt8 :=
  Varint.varint (8 * f.tag.toNat + f.value.wireType.toNat) ++ f.value.encode

/-- The numbers of fields have 29 bits, and none is zero. -/
def Fits (f : WireField) : Prop := f.tag ≠ 0 ∧ f.tag.toNat < 2 ^ 29 ∧ f.value.Fits

instance (f : WireField) : Decidable f.Fits := inferInstanceAs (Decidable (_ ∧ _))

end WireField

/-- What a value does to a member.  The last case is a value of another type, or one that
the member does not hold. -/
def MsgField.put (field : MsgField σ) (x : σ) (v : Value) : Option σ :=
  match field, v with
  | .bool set, .varint n => if n.toNat < 2 ^ 32 then some (set x (n ≠ 0)) else none
  | .int32 set, .varint n => some (set x n.toUInt32.toInt32)
  | .fixed32 set, .fixed32 w => some (set x w)
  | .string dataSize set, .bytes content =>
    if content.length < dataSize then some (set x content) else none
  | .callback decode, .bytes content => (callbackLoop decode x content).toOption
  | _, _ => none

def applyField (fields : List (UInt32 × MsgField σ)) (x : σ) (f : WireField) : Option σ :=
  match fields.lookup f.tag with
  | none => some x
  | some field => field.put x f.value

/-! ### What is read -/

theorem wireType_lt (v : Value) : v.wireType.toNat < 8 := by
  cases v with
  | varint n => exact show WT_VARINT.toNat < 8 by decide
  | fixed64 low high => exact show WT_64BIT.toNat < 8 by decide
  | bytes content => exact show WT_STRING.toNat < 8 by decide
  | fixed32 w => exact show WT_32BIT.toNat < 8 by decide

/-- The number of a field and its wire type share a number. -/
theorem tag_split {tag wireType : UInt32} (htag : tag.toNat < 2 ^ 29) (hwire : wireType.toNat < 8) :
    UInt32.ofNat (8 * tag.toNat + wireType.toNat) >>> 3 = tag ∧
      UInt32.ofNat (8 * tag.toNat + wireType.toNat) &&& 7 = wireType := by
  have htemp : (UInt32.ofNat (8 * tag.toNat + wireType.toNat)).toNat =
      8 * tag.toNat + wireType.toNat := by
    rw [UInt32.toNat_ofNat']
    omega
  constructor
  · apply UInt32.toNat_inj.mp
    rw [UInt32.toNat_shiftRight, htemp, Nat.shiftRight_eq_div_pow]
    change (8 * tag.toNat + wireType.toNat) / 2 ^ 3 = tag.toNat
    omega
  · apply UInt32.toNat_inj.mp
    rw [UInt32.toNat_and, htemp]
    change (8 * tag.toNat + wireType.toNat) &&& (2 ^ 3 - 1) = wireType.toNat
    rw [Nat.and_two_pow_sub_one_eq_mod]
    omega

theorem reads_decodeTag {tag wireType : UInt32} (htag : tag.toNat < 2 ^ 29)
    (hwire : wireType.toNat < 8) :
    decodeTag.Reads (Varint.varint (8 * tag.toNat + wireType.toNat)) (tag, wireType) := by
  obtain ⟨hnumber, htype⟩ := tag_split htag hwire
  have hread := (reads_decodeVarint32 (n := 8 * tag.toNat + wireType.toNat) (by omega)).bind_pure
    (g := fun temp : UInt32 => (temp >>> 3, temp &&& 7))
  rwa [hnumber, htype] at hread

/-- All bytes of a varint but the last have the high bit. -/
theorem varint_split (n : Nat) : ∃ init last, Varint.varint n = init ++ [last] ∧
    (∀ byte ∈ init, byte &&& 0x80 ≠ 0) ∧ last &&& 0x80 = 0 := by
  induction n using Nat.strongRecOn with
  | ind n ih =>
    rw [Varint.varint]
    split_ifs with hsmall
    · exact ⟨[], n.toUInt8, rfl, by simp, (last_byte hsmall).1⟩
    · obtain ⟨init, last, hrest, hmore, hlast⟩ := ih (n / 128) (by omega)
      refine ⟨(n % 128 + 128).toUInt8 :: init, last, by rw [hrest]; rfl, ?_, hlast⟩
      intro byte hbyte
      rcases List.mem_cons.mp hbyte with rfl | hinit
      · exact (more_byte n).1
      · exact hmore byte hinit

theorem reads_skipVarint (n : Nat) : skipVarint.Reads (Varint.varint n) () := by
  obtain ⟨init, last, hsplit, hmore, hlast⟩ := varint_split n
  rw [hsplit]
  refine (reads_skipThrough _ ?_ ?_).bind_pure (g := fun _ => ())
  · intro byte hbyte
    simpa using hmore byte hbyte
  · simpa using hlast

theorem reads_block_of_length {content : List UInt8} (h : content.length < 2 ^ 32) :
    decodeVarint32.Reads (Varint.varint content.length) (UInt32.ofNat content.length) ∧
      (UInt32.ofNat content.length).toNat = content.length := by
  refine ⟨reads_decodeVarint32 h, ?_⟩
  rw [UInt32.toNat_ofNat']
  exact Nat.mod_eq_of_lt h

theorem reads_read (content : List UInt8) : (read content.length).Reads content content :=
  reads_take _ content

theorem reads_skipField {v : Value} (h : v.Fits) : (skipField v.wireType).Reads v.encode () := by
  cases v with
  | varint n => exact reads_skipVarint n.toNat
  | fixed64 low high =>
    exact (reads_read (LittleEndian.bytes low ++ LittleEndian.bytes high)).bind_pure
      (g := fun _ => ())
  | bytes content =>
    obtain ⟨hlength, hsize⟩ := reads_block_of_length h
    refine hlength.bind ?_
    rw [hsize]
    exact (reads_read content).bind_pure (g := fun _ => ())
  | fixed32 w => exact (reads_read (LittleEndian.bytes w)).bind_pure (g := fun _ => ())

theorem reads_decodeFixed32 (w : UInt32) : decodeFixed32.Reads (LittleEndian.bytes w) w := by
  intro rest
  change Except.ok (LittleEndian.word _ _ _ _, rest) = _
  rw [LittleEndian.word_bytes]

theorem reads_decString {content : List UInt8} {dataSize : Nat} (hsize : dataSize < 2 ^ 32)
    (h : content.length < dataSize) :
    (decString dataSize).Reads (Varint.varint content.length ++ content) content := by
  obtain ⟨hlength, hnat⟩ := reads_block_of_length (Nat.lt_trans h hsize)
  refine hlength.bind ?_
  have hmax : UInt32.ofNat content.length ≠ 0xFFFFFFFF := by
    intro heq
    rw [heq] at hnat
    change 4294967295 = content.length at hnat
    omega
  rw [if_neg hmax, hnat, if_neg (by omega)]
  exact reads_read content

/-- The arrays of the strings of a message have a size that fits a word. -/
def MsgField.Small : MsgField σ → Prop
  | .string dataSize _ => dataSize < 2 ^ 32
  | _ => True

theorem reads_decodeField {field : MsgField σ} {x y : σ} {v : Value} (hsmall : field.Small)
    (hfits : v.Fits) (h : field.put x v = some y) :
    (decodeField field v.wireType x).Reads v.encode y := by
  cases field with
  | bool set =>
    cases v with
    | varint n =>
      obtain ⟨hn, rfl⟩ : n.toNat < 2 ^ 32 ∧ set x (n ≠ 0) = y := by simpa [MsgField.put] using h
      have hvalue := (reads_decodeVarint32 hn).bind_pure (g := fun value => decide (value ≠ 0))
      have hzero : UInt32.ofNat n.toNat ≠ 0 ↔ n ≠ 0 := by
        rw [ne_eq, ne_eq, ← UInt32.toNat_inj, ← UInt64.toNat_inj, UInt32.toNat_ofNat',
          Nat.mod_eq_of_lt hn]
        rfl
      rw [decide_eq_decide.mpr hzero] at hvalue
      exact hvalue.bind_pure (g := set x)
    | _ => simp [MsgField.put] at h
  | int32 set =>
    cases v with
    | varint n =>
      obtain rfl : set x n.toUInt32.toInt32 = y := by simpa [MsgField.put] using h
      have hvalue := (reads_decodeVarint n.toNat_lt).bind_pure
        (g := fun value : UInt64 => value.toUInt32.toInt32)
      rw [UInt64.ofNat_toNat] at hvalue
      exact hvalue.bind_pure (g := set x)
    | _ => simp [MsgField.put] at h
  | fixed32 set =>
    cases v with
    | fixed32 w =>
      obtain rfl : set x w = y := by simpa [MsgField.put] using h
      exact (reads_decodeFixed32 w).bind_pure (g := set x)
    | _ => simp [MsgField.put] at h
  | string dataSize set =>
    cases v with
    | bytes content =>
      obtain ⟨hlength, rfl⟩ : content.length < dataSize ∧ set x content = y := by
        simpa [MsgField.put] using h
      exact (reads_decString hsmall hlength).bind_pure (g := set x)
    | _ => simp [MsgField.put] at h
  | callback decode =>
    cases v with
    | bytes content =>
      have hdone : callbackLoop decode x content = .ok y := by
        cases hloop : callbackLoop decode x content with
        | error e => simp [MsgField.put, hloop, Except.toOption] at h
        | ok z =>
          obtain rfl : z = y := by simpa [MsgField.put, hloop, Except.toOption] using h
          rfl
      obtain ⟨hlength, hsize⟩ := reads_block_of_length hfits
      refine hlength.bind ?_
      rw [hsize]
      exact reads_block hdone
    | _ => simp [MsgField.put] at h

/-! ### Whole messages -/

section Message

variable {fields : List (UInt32 × MsgField σ)} {l : List WireField} {x y : σ}

/-- A field that the descriptor knows or not. -/
theorem reads_decodeTurn (hsmall : ∀ p ∈ fields, p.2.Small) {f : WireField} (hfits : f.Fits)
    (h : applyField fields x f = some y) : (decodeTurn fields x).Reads f.encode y := by
  obtain ⟨hzero, htag, hvalue⟩ := hfits
  refine (reads_decodeTag htag (wireType_lt f.value)).bind ?_
  dsimp only
  rw [if_neg hzero]
  unfold applyField at h
  cases hfind : fields.lookup f.tag with
  | none =>
    obtain rfl : x = y := by simpa [hfind] using h
    exact (reads_skipField hvalue).bind_pure (g := fun _ => x)
  | some field =>
    simp only [hfind] at h
    obtain ⟨before, after, hsplit, -⟩ := List.lookup_eq_some_iff.mp hfind
    have hmem : (f.tag, field) ∈ fields := by simp [hsplit]
    exact reads_decodeField (hsmall _ hmem) hvalue h

/-- The fields of a message do what they mean, in any order and with unknown ones among
them. -/
theorem decode_encode (hsmall : ∀ p ∈ fields, p.2.Small) (hfits : ∀ f ∈ l, f.Fits)
    (h : l.foldlM (applyField fields) x = some y) :
    decode fields x (l.flatMap WireField.encode) = .ok y :=
  runAll_flatMap (fun _ hf _ _ hput => reads_decodeTurn hsmall (hfits _ hf) hput) h

theorem decode_cut (hsmall : ∀ p ∈ fields, p.2.Small) (hfits : ∀ f ∈ l, f.Fits)
    (h : l.foldlM (applyField fields) x = some y) {start : List UInt8}
    (hstart : start <+: l.flatMap WireField.encode) :
    (∃ n, start = (l.take n).flatMap WireField.encode) ∨
      ∃ e, decode fields x start = .error e :=
  runAll_cut (fun _ hf _ _ hput => reads_decodeTurn hsmall (hfits _ hf) hput) h hstart

end Message

/-! ### What an accepted field has done -/

/-- A member is set to a value that it holds, or its callback was called. -/
def MsgField.Sets (field : MsgField σ) (x y : σ) : Prop :=
  match field with
  | .bool set => ∃ b, y = set x b
  | .int32 set => ∃ i, y = set x i
  | .fixed32 set => ∃ w, y = set x w
  | .string dataSize set => ∃ content : List UInt8, content.length < dataSize ∧ y = set x content
  | .callback decode =>
    (∃ content, callbackLoop decode x content = .ok y) ∨
      ∃ raw left, decode x raw = .ok (y, left)

theorem length_of_decString {dataSize : Nat} {s r content : List UInt8}
    (h : (decString dataSize).run s = .ok (content, r)) : content.length < dataSize := by
  obtain ⟨size, t, -, hrest⟩ := run_bind_eq_ok.mp h
  split_ifs at hrest with hmax hover
  · simp [returnError] at hrest
  · simp [returnError] at hrest
  · simp only [read, take] at hrest
    split_ifs at hrest with hshort
    obtain ⟨rfl, -⟩ := Prod.mk.inj (Except.ok.inj hrest)
    rw [List.length_take]
    omega

/-- A value and what is made of it. -/
theorem exists_of_run {α : Type} {value : Decoder α} {f : α → σ} {s r : List UInt8} {y : σ}
    (h : (value >>= fun a => pure (f a)).run s = .ok (y, r)) :
    ∃ a, value.run s = .ok (a, r) ∧ y = f a := by
  obtain ⟨a, t, hvalue, hpure⟩ := run_bind_eq_ok.mp h
  obtain ⟨rfl, rfl⟩ := Prod.mk.inj (Except.ok.inj hpure)
  exact ⟨a, hvalue, rfl⟩

theorem of_decodeBasicField {expected wireType : UInt32} {value : Decoder σ} {s r : List UInt8}
    {y : σ} (h : (decodeBasicField expected wireType value).run s = .ok (y, r)) :
    value.run s = .ok (y, r) := by
  unfold decodeBasicField at h
  split_ifs at h with hwrong
  · simp [returnError] at h
  · exact h

theorem sets_of_decodeField {field : MsgField σ} {wireType : UInt32} {x y : σ}
    {s r : List UInt8} (h : (decodeField field wireType x).run s = .ok (y, r)) :
    field.Sets x y := by
  cases field with
  | bool set =>
    obtain ⟨b, -, hy⟩ := exists_of_run (of_decodeBasicField h)
    exact ⟨b, hy⟩
  | int32 set =>
    obtain ⟨i, -, hy⟩ := exists_of_run (of_decodeBasicField h)
    exact ⟨i, hy⟩
  | fixed32 set =>
    obtain ⟨w, -, hy⟩ := exists_of_run (of_decodeBasicField h)
    exact ⟨w, hy⟩
  | string dataSize set =>
    obtain ⟨content, hread, hy⟩ := exists_of_run (of_decodeBasicField h)
    exact ⟨content, length_of_decString hread, hy⟩
  | callback decode =>
    change (decodeCallbackField decode wireType x).run s = .ok (y, r) at h
    unfold decodeCallbackField at h
    split_ifs at h with hstring
    · obtain ⟨size, t, -, hblock⟩ := run_bind_eq_ok.mp h
      simp only [block] at hblock
      split_ifs at hblock with hshort
      cases hloop : callbackLoop decode x (t.take size.toNat) with
      | error e => simp [hloop, Except.map] at hblock
      | ok z =>
        obtain ⟨rfl, -⟩ : z = y ∧ t.drop size.toNat = r := by
          simpa [hloop, Except.map] using hblock
        exact Or.inl ⟨_, hloop⟩
    · obtain ⟨raw, t, -, hcall⟩ := run_bind_eq_ok.mp h
      cases hdecode : decode x raw with
      | error e => simp [hdecode] at hcall
      | ok p =>
        simp only [hdecode] at hcall
        obtain ⟨rfl, -⟩ := Prod.mk.inj (Except.ok.inj hcall)
        exact Or.inr ⟨raw, p.2, hdecode⟩

/-- Everything that one field can do. -/
theorem decodeTurn_cases {fields : List (UInt32 × MsgField σ)} {x y : σ} {s r : List UInt8}
    (h : (decodeTurn fields x).run s = .ok (y, r)) : y = x ∨ ∃ p ∈ fields, p.2.Sets x y := by
  obtain ⟨⟨tag, wireType⟩, t, -, hfield⟩ := run_bind_eq_ok.mp h
  dsimp only at hfield
  split_ifs at hfield with hzero
  · simp [returnError] at hfield
  · cases hfind : fields.lookup tag with
    | none =>
      simp only [hfind] at hfield
      obtain ⟨-, -, rfl⟩ := exists_of_run (f := fun _ => x) hfield
      exact Or.inl rfl
    | some field =>
      simp only [hfind] at hfield
      obtain ⟨before, after, hsplit, -⟩ := List.lookup_eq_some_iff.mp hfind
      exact Or.inr ⟨(tag, field), by simp [hsplit], sets_of_decodeField hfield⟩

/-- What every member and callback keeps is kept, whatever the bytes. -/
theorem decode_invariant {fields : List (UInt32 × MsgField σ)} {P : σ → Prop}
    (hsets : ∀ p ∈ fields, ∀ x y, P x → p.2.Sets x y → P y) {x y : σ} {s : List UInt8}
    (hx : P x) (h : decode fields x s = .ok y) : P y := by
  refine runAll_invariant ?_ hx h
  intro x s y r hx hrun
  rcases decodeTurn_cases hrun with rfl | ⟨p, hp, hset⟩
  · exact hx
  · exact hsets p hp x y hx hset

end PbDecode
