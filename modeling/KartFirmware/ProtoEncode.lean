import KartFirmware.Varint

/-!
# Streaming protobuf encoders

Encoders that write to an output stream: into a buffer of a fixed size, or only counting.
A nested message is encoded twice, first to count its bytes for the length in front of it,
then into the stream, and an encoder that does not come to the same length the second time
is an error.  Encoders are callbacks, so they read and change a world `σ`.

`Writes I e bytes` says that in every world with `I` the encoder `e` writes these bytes,
or fails when they do not fit, and keeps `I`; `Sized e n`, that it writes `n` bytes in
every world.  The rules of both follow the combinators.
-/

namespace ProtoEncode

/-! ### Streams -/

/-- The size of the buffer, none when the bytes are only counted, and what was written. -/
structure OStream where
  maxSize : Option Nat
  written : List UInt8

namespace OStream

def sizing : OStream := ⟨none, []⟩

def buffer (size : Nat) : OStream := ⟨some size, []⟩

def put (os : OStream) (bytes : List UInt8) : OStream :=
  { os with written := os.written ++ bytes }

/-- There is room for these bytes. -/
def Fits (os : OStream) (bytes : List UInt8) : Prop :=
  ∀ max, os.maxSize = some max → os.written.length + bytes.length ≤ max

variable {os : OStream} {bytes bytes' : List UInt8}

@[simp] theorem put_maxSize : (os.put bytes).maxSize = os.maxSize := rfl

@[simp] theorem put_written : (os.put bytes).written = os.written ++ bytes := rfl

theorem put_put : (os.put bytes).put bytes' = os.put (bytes ++ bytes') := by
  rw [put, put, put, List.append_assoc]

theorem fits_of_none (h : os.maxSize = none) (bytes : List UInt8) : os.Fits bytes := by
  intro max hmax
  rw [h] at hmax
  cases hmax

theorem fits_sizing (bytes : List UInt8) : sizing.Fits bytes := fits_of_none rfl bytes

theorem fits_buffer_iff {size : Nat} : (buffer size).Fits bytes ↔ bytes.length ≤ size := by
  constructor
  · intro h
    have hroom := h size rfl
    rwa [buffer, List.length_nil, Nat.zero_add] at hroom
  · intro h max hmax
    obtain rfl : size = max := Option.some.inj hmax
    rwa [buffer, List.length_nil, Nat.zero_add]

theorem Fits.left (h : os.Fits (bytes ++ bytes')) : os.Fits bytes := by
  intro max hmax
  have hroom := h max hmax
  rw [List.length_append] at hroom
  omega

theorem fits_put_iff : (os.put bytes).Fits bytes' ↔ os.Fits (bytes ++ bytes') := by
  simp only [Fits, put_maxSize, put_written, List.length_append, Nat.add_assoc]

theorem Fits.put (h : os.Fits bytes) : (os.put bytes).Fits [] := by
  rw [fits_put_iff, List.append_nil]
  exact h

end OStream

/-! ### Encoders -/

/-- What is left of the stream and the world, unless the encoder fails. -/
def Encoder (σ : Type) := OStream → σ → Option (OStream × σ)

section Encoders

variable {σ : Type}

def write (bytes : List UInt8) : Encoder σ := fun os x =>
  match os.maxSize with
  | none => some (os.put bytes, x)
  | some max =>
    if bytes ≠ [] ∧ os.written.length + bytes.length > max then none else some (os.put bytes, x)

def andThen (e f : Encoder σ) : Encoder σ := fun os x => (e os x).bind fun r => f r.1 r.2

def nothing : Encoder σ := fun os x => some (os, x)

theorem andThen_nothing (e : Encoder σ) : andThen e nothing = e := by
  funext os x
  exact Option.bind_fun_some (e os x)

/-- One encoder after the other. -/
def all (es : List (Encoder σ)) : Encoder σ := es.foldr andThen nothing

def encodeVarint (n : Nat) : Encoder σ := write (Varint.encode n)

/-- The number of a field and how its value is encoded. -/
def encodeTag (field wire : Nat) : Encoder σ := encodeVarint (8 * field + wire)

def encodeString (bytes : List UInt8) : Encoder σ :=
  andThen (encodeVarint bytes.length) (write bytes)

def submessage (e : Encoder σ) : Encoder σ := fun os x =>
  (e .sizing x).bind fun counted =>
    let size := counted.1.written.length
    (encodeVarint size os counted.2).bind fun r =>
      match r.1.maxSize with
      | none => write counted.1.written r.1 r.2
      | some max =>
        if r.1.written.length + size > max then none
        else
          (e (.buffer size) r.2).bind fun sub =>
            if sub.1.written.length ≠ size then none else some (r.1.put sub.1.written, sub.2)

/-- A look at the world, which may change before it, says what is encoded. -/
def reading {α : Type} (look : σ → α × σ) (e : α → Encoder σ) : Encoder σ :=
  fun os x => e (look x).1 os (look x).2

/-! ### What an encoder writes -/

def Writes (I : σ → Prop) (e : Encoder σ) (bytes : List UInt8) : Prop :=
  ∀ os x, os.Fits [] → I x →
    (os.Fits bytes → ∃ y, e os x = some (os.put bytes, y) ∧ I y) ∧
      (¬ os.Fits bytes → e os x = none)

variable {I : σ → Prop} {e f : Encoder σ} {bytes bytes' : List UInt8}

theorem writes_write (I : σ → Prop) (bytes : List UInt8) : Writes I (write bytes) bytes := by
  intro os x hok hx
  unfold write
  cases hmax : os.maxSize with
  | none =>
    exact ⟨fun _ => ⟨x, rfl, hx⟩, fun hfull => absurd (OStream.fits_of_none hmax bytes) hfull⟩
  | some max =>
    dsimp only
    constructor
    · intro hfits
      have hroom := hfits max hmax
      rw [if_neg (by omega)]
      exact ⟨x, rfl, hx⟩
    · intro hfull
      refine if_pos ⟨?_, ?_⟩
      · rintro rfl
        exact hfull hok
      · by_contra hroom
        refine hfull fun max' hmax' => ?_
        obtain rfl : max = max' := Option.some.inj (hmax.symm.trans hmax')
        omega

theorem writes_nothing (I : σ → Prop) : Writes I nothing [] := by
  intro os x hok hx
  refine ⟨fun _ => ⟨x, ?_, hx⟩, fun hfull => absurd hok hfull⟩
  rw [nothing, OStream.put, List.append_nil]

theorem writes_andThen (he : Writes I e bytes) (hf : Writes I f bytes') :
    Writes I (andThen e f) (bytes ++ bytes') := by
  intro os x hok hx
  obtain ⟨hwrite, hfail⟩ := he os x hok hx
  unfold andThen
  constructor
  · intro hfits
    obtain ⟨y, hy, hI⟩ := hwrite hfits.left
    obtain ⟨z, hz, hI'⟩ :=
      (hf (os.put bytes) y hfits.left.put hI).1 (OStream.fits_put_iff.mpr hfits)
    rw [OStream.put_put] at hz
    exact ⟨z, by rw [hy, Option.bind_some, hz], hI'⟩
  · intro hfull
    by_cases hfirst : os.Fits bytes
    · obtain ⟨y, hy, hI⟩ := hwrite hfirst
      rw [hy, Option.bind_some]
      exact (hf (os.put bytes) y hfirst.put hI).2 fun h => hfull (OStream.fits_put_iff.mp h)
    · rw [hfail hfirst, Option.bind_none]

/-- A list of encoders writes what they write, one after the other. -/
theorem writes_all {α : Type} {enc : α → Encoder σ} {out : α → List UInt8} {l : List α}
    (h : ∀ a ∈ l, Writes I (enc a) (out a)) : Writes I (all (l.map enc)) (l.flatMap out) := by
  induction l with
  | nil => exact writes_nothing I
  | cons a l ih =>
    rw [List.flatMap_cons]
    exact writes_andThen (h a List.mem_cons_self) (ih fun b hb => h b (List.mem_cons_of_mem a hb))

theorem writes_varint (I : σ → Prop) (n : Nat) : Writes I (encodeVarint n) (Varint.encode n) :=
  writes_write I _

theorem writes_reading {α : Type} {look : σ → α × σ} {e : α → Encoder σ}
    (h : ∀ x, I x → I (look x).2 ∧ Writes I (e (look x).1) bytes) :
    Writes I (reading look e) bytes := by
  intro os x hok hx
  obtain ⟨hlook, he⟩ := h x hx
  exact he os _ hok hlook

/-- Nothing that the first pass writes changes what the second one does. -/
theorem writes_submessage (he : Writes I e bytes) :
    Writes I (submessage e) (Varint.encode bytes.length ++ bytes) := by
  intro os x hok hx
  obtain ⟨y, hcount, hy⟩ := (he .sizing x (OStream.fits_sizing _) hx).1 (OStream.fits_sizing _)
  have hlen := writes_varint I bytes.length os y hok hy
  have hpass : submessage e os x = (encodeVarint bytes.length os y).bind fun r =>
      match r.1.maxSize with
      | none => write bytes r.1 r.2
      | some max =>
        if r.1.written.length + bytes.length > max then none
        else
          (e (.buffer bytes.length) r.2).bind fun sub =>
            if sub.1.written.length ≠ bytes.length then none
            else some (r.1.put sub.1.written, sub.2) := by
    rw [submessage, hcount]
    rfl
  by_cases hfirst : os.Fits (Varint.encode bytes.length)
  · obtain ⟨z, hz, hI⟩ := hlen.1 hfirst
    rw [hpass, hz, Option.bind_some]
    dsimp only
    rw [← OStream.fits_put_iff, ← OStream.put_put]
    generalize os.put (Varint.encode bytes.length) = os' at hz
    cases hmax : os'.maxSize with
    | none =>
      have hroom := OStream.fits_of_none hmax
      obtain ⟨z', hz', hI'⟩ := (writes_write I bytes os' z (hroom []) hI).1 (hroom bytes)
      exact ⟨fun _ => ⟨z', hz', hI'⟩, fun hfull => absurd (hroom bytes) hfull⟩
    | some max =>
      dsimp only
      have hroom : os'.Fits bytes ↔ os'.written.length + bytes.length ≤ max := by
        refine ⟨fun h => h max hmax, fun h max' hmax' => ?_⟩
        obtain rfl : max = max' := Option.some.inj (hmax.symm.trans hmax')
        exact h
      constructor
      · intro hfits
        have hbuffer := OStream.fits_buffer_iff.mpr (le_refl bytes.length)
        obtain ⟨z', hz', hI'⟩ := (he (.buffer bytes.length) z
          (OStream.fits_buffer_iff.mpr (Nat.zero_le _)) hI).1 hbuffer
        refine ⟨z', ?_, hI'⟩
        rw [if_neg (by have := hroom.mp hfits; omega), hz', Option.bind_some]
        exact if_neg fun hne => hne rfl
      · intro hfull
        exact if_pos (by rw [hroom] at hfull; omega)
  · refine ⟨fun hfits => absurd hfits.left hfirst, fun _ => ?_⟩
    rw [hpass, hlen.2 hfirst, Option.bind_none]

/-- An encoder writes the same bytes in every world. -/
theorem Writes.unique (he : Writes I e bytes) (he' : Writes I e bytes') {x : σ} (hx : I x) :
    bytes = bytes' := by
  obtain ⟨y, hy, -⟩ := (he .sizing x (OStream.fits_sizing _) hx).1 (OStream.fits_sizing _)
  obtain ⟨z, hz, -⟩ := (he' .sizing x (OStream.fits_sizing _) hx).1 (OStream.fits_sizing _)
  have hput : OStream.sizing.put bytes = OStream.sizing.put bytes' :=
    (Prod.ext_iff.mp (Option.some.inj (hy.symm.trans hz))).1
  exact congrArg OStream.written hput

/-- What an encoder leaves in a buffer. -/
theorem Writes.buffer (he : Writes I e bytes) (size : Nat) {x : σ} (hx : I x) :
    (e (.buffer size) x).map (fun r => r.1.written) =
      if bytes.length ≤ size then some bytes else none := by
  obtain ⟨hwrite, hfail⟩ := he (.buffer size) x (OStream.fits_buffer_iff.mpr (Nat.zero_le _)) hx
  rw [OStream.fits_buffer_iff] at hwrite hfail
  split_ifs with hfits
  · obtain ⟨y, hy, -⟩ := hwrite hfits
    rw [hy]
    rfl
  · rw [hfail hfits]
    rfl

/-! ### How much an encoder writes -/

/-- The encoder writes `n` bytes, whatever the world. -/
def Sized (e : Encoder σ) (n : Nat) : Prop :=
  ∃ bytes, Writes (fun _ => True) e bytes ∧ bytes.length = n

/-- The bytes of a length or a number. -/
def varintSize (n : Nat) : Nat := Nat.log 128 n + 1

variable {n k : Nat}

theorem varintSize_le (hk : k ≠ 0) (h : n < 128 ^ k) : varintSize n ≤ k :=
  Nat.log_lt_of_lt_pow' hk h

theorem sized_write (bytes : List UInt8) : Sized (write bytes : Encoder σ) bytes.length :=
  ⟨bytes, writes_write _ bytes, rfl⟩

theorem sized_nothing : Sized (nothing : Encoder σ) 0 := ⟨[], writes_nothing _, rfl⟩

theorem Sized.andThen (he : Sized e n) (hf : Sized f k) : Sized (andThen e f) (n + k) := by
  obtain ⟨bytes, hbytes, rfl⟩ := he
  obtain ⟨bytes', hbytes', rfl⟩ := hf
  exact ⟨bytes ++ bytes', writes_andThen hbytes hbytes', List.length_append⟩

theorem Sized.cons (he : Sized e n) {es : List (Encoder σ)} (hes : Sized (all es) k) :
    Sized (all (e :: es)) (n + k) := he.andThen hes

theorem sized_all {α : Type} {enc : α → Encoder σ} {size : α → Nat} {l : List α}
    (h : ∀ a ∈ l, Sized (enc a) (size a)) : Sized (all (l.map enc)) (l.map size).sum := by
  induction l with
  | nil => exact sized_nothing
  | cons a l ih =>
    rw [List.map_cons, List.map_cons, List.sum_cons]
    exact (h a List.mem_cons_self).cons (ih fun b hb => h b (List.mem_cons_of_mem a hb))

theorem sized_varint (h : n < 18446744073709551616) :
    Sized (encodeVarint n : Encoder σ) (varintSize n) :=
  ⟨Varint.encode n, writes_varint _ n, Varint.length_encode h⟩

theorem sized_string {bytes : List UInt8} (h : bytes.length < 18446744073709551616) :
    Sized (encodeString bytes : Encoder σ) (varintSize bytes.length + bytes.length) :=
  (sized_varint h).andThen (sized_write bytes)

theorem Sized.submessage (he : Sized e n) (h : n < 18446744073709551616) :
    Sized (submessage e) (varintSize n + n) := by
  obtain ⟨bytes, hbytes, rfl⟩ := he
  refine ⟨Varint.encode bytes.length ++ bytes, writes_submessage hbytes, ?_⟩
  rw [List.length_append, Varint.length_encode h, varintSize]

/-- An encoder into a buffer fails exactly when the bytes do not fit. -/
theorem Sized.buffer (he : Sized e n) (size : Nat) (x : σ) :
    (∃ bytes, (e (.buffer size) x).map (fun r => r.1.written) = some bytes ∧
      bytes.length ≤ size) ↔ n ≤ size := by
  obtain ⟨bytes, hbytes, rfl⟩ := he
  rw [hbytes.buffer size trivial]
  split_ifs with hfits
  · exact iff_of_true ⟨bytes, rfl, hfits⟩ hfits
  · exact iff_of_false (fun ⟨_, hnone, _⟩ => absurd hnone (by simp)) hfits

end Encoders

end ProtoEncode
