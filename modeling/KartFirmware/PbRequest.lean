import KartFirmware.PbMessage
import KartFirmware.WebServer

/-!
# The bytes of a request

The descriptors of `Req` and `ParamVal` in `kart.pb.h`, and the decoder that `wsHandler`
calls (`decodeReq`).  A client writes a request as a list of fields, in any order, with
fields of a newer version among them.  What is decoded is what the fields say, the last one
of each kind (`decodeReq_encodeReq`), and bytes that end within a field are no request
(`decodeReq_cut`).
-/

namespace KartFirmware

namespace web

open PbDecode

/-! ### Descriptors -/

/-- What an array holds as a C string. -/
def cString (bytes : List UInt8) : String :=
  String.ofList ((bytes.takeWhile fun b => b ≠ 0).map fun b => Char.ofNat b.toNat)

def ParamVal_fields : List (UInt32 × MsgField ParamVal) :=
  [(1, .string 16 fun pv bytes => { pv with name := cString bytes }),
    (2, .bool fun pv b => { pv with value := .bval b }),
    (3, .int32 fun pv i => { pv with value := .ival i.toInt }),
    (4, .fixed32 fun pv w => { pv with value := .fval (Float32.ofBits w) })]

/-- `ParamVal_init_zero`. -/
def ParamVal_zero : ParamVal := { name := "", value := .unset }

/-- `Req_init_zero`, and the pairs that were handed to `decSetParam`. -/
def Req_zero : Req × List ParamVal := ({ type := "", ssid := "", pass := "", enabled := false }, [])

/-- `decSetParam` decodes a pair to the end of its stream. -/
def decodePair (x : Req × List ParamVal) (stream : List UInt8) :
    Except Errmsg ((Req × List ParamVal) × List UInt8) :=
  (decode ParamVal_fields ParamVal_zero stream).map fun pv => ((x.1, x.2 ++ [pv]), [])

def Req_fields : List (UInt32 × MsgField (Req × List ParamVal)) :=
  [(1, .string 16 fun x bytes => ({ x.1 with type := cString bytes }, x.2)),
    (2, .string 33 fun x bytes => ({ x.1 with ssid := cString bytes }, x.2)),
    (3, .string 65 fun x bytes => ({ x.1 with pass := cString bytes }, x.2)),
    (4, .bool fun x b => ({ x.1 with enabled := b }, x.2)),
    (5, .callback decodePair)]

/-- The decoder of `wsHandler`.  The draft of a request that fails is dropped with its
pairs. -/
def decodeReq (body : List UInt8) : Decoded :=
  match decode Req_fields Req_zero body with
  | .ok (rq, pairs) => { pairs := pairs, req := some rq }
  | .error _ => { pairs := [], req := none }

/-! ### What a client writes -/

inductive PvField where
  | name (bytes : List UInt8)
  | bval (b : Bool)
  | ival (i : Int32)
  | fval (f : Float32)
  | unknown (f : WireField)

namespace PvField

def wire : PvField → WireField
  | name bytes => ⟨1, .bytes bytes⟩
  | bval b => ⟨2, .varint (if b then 1 else 0)⟩
  | ival i => ⟨3, .varint i.toInt64.toUInt64⟩
  | fval f => ⟨4, .fixed32 f.toBits⟩
  | unknown f => f

/-- A name has room in its array, and what is unknown has another number. -/
def Fits : PvField → Prop
  | name bytes => bytes.length < 16
  | unknown f => f.Fits ∧ f.tag ∉ ParamVal_fields.map Prod.fst
  | _ => True

instance (f : PvField) : Decidable f.Fits :=
  match f with
  | name bytes => inferInstanceAs (Decidable (bytes.length < 16))
  | unknown f => inferInstanceAs (Decidable (f.Fits ∧ f.tag ∉ ParamVal_fields.map Prod.fst))
  | bval _ | ival _ | fval _ => isTrue trivial

def apply (pv : ParamVal) : PvField → ParamVal
  | name bytes => { pv with name := cString bytes }
  | bval b => { pv with value := .bval b }
  | ival i => { pv with value := .ival i.toInt }
  | fval f => { pv with value := .fval f }
  | unknown _ => pv

end PvField

def encodePv (l : List PvField) : List UInt8 := l.flatMap fun f => f.wire.encode

/-- The last of the fields that `g` reads. -/
def lastOf {κ α : Type} (g : κ → Option α) (l : List κ) : Option α := (l.filterMap g).getLast?

namespace PvField

def nameOf : PvField → Option String
  | name bytes => some (cString bytes)
  | _ => none

def valueOf : PvField → Option OneofValue
  | bval b => some (.bval b)
  | ival i => some (.ival i.toInt)
  | fval f => some (.fval f)
  | _ => none

end PvField

/-- What the fields of a pair say: the last name, and the last value of any type. -/
def pairOf (l : List PvField) : ParamVal where
  name := (lastOf PvField.nameOf l).getD ""
  value := (lastOf PvField.valueOf l).getD .unset

inductive ReqField where
  | type (bytes : List UInt8)
  | ssid (bytes : List UInt8)
  | pass (bytes : List UInt8)
  | enabled (b : Bool)
  | set (pair : List PvField)
  | unknown (f : WireField)

namespace ReqField

def wire : ReqField → WireField
  | type bytes => ⟨1, .bytes bytes⟩
  | ssid bytes => ⟨2, .bytes bytes⟩
  | pass bytes => ⟨3, .bytes bytes⟩
  | enabled b => ⟨4, .varint (if b then 1 else 0)⟩
  | set pair => ⟨5, .bytes (encodePv pair)⟩
  | unknown f => f

def Fits : ReqField → Prop
  | type bytes => bytes.length < 16
  | ssid bytes => bytes.length < 33
  | pass bytes => bytes.length < 65
  | enabled _ => True
  | set pair => (∀ f ∈ pair, f.Fits) ∧ (encodePv pair).length < 2 ^ 32
  | unknown f => f.Fits ∧ f.tag ∉ Req_fields.map Prod.fst

instance (f : ReqField) : Decidable f.Fits :=
  match f with
  | type bytes => inferInstanceAs (Decidable (bytes.length < 16))
  | ssid bytes => inferInstanceAs (Decidable (bytes.length < 33))
  | pass bytes => inferInstanceAs (Decidable (bytes.length < 65))
  | enabled _ => isTrue trivial
  | set pair =>
    inferInstanceAs (Decidable ((∀ f ∈ pair, f.Fits) ∧ (encodePv pair).length < 2 ^ 32))
  | unknown f => inferInstanceAs (Decidable (f.Fits ∧ f.tag ∉ Req_fields.map Prod.fst))

def apply (x : Req × List ParamVal) : ReqField → Req × List ParamVal
  | type bytes => ({ x.1 with type := cString bytes }, x.2)
  | ssid bytes => ({ x.1 with ssid := cString bytes }, x.2)
  | pass bytes => ({ x.1 with pass := cString bytes }, x.2)
  | enabled b => ({ x.1 with enabled := b }, x.2)
  | set pair => (x.1, x.2 ++ [pairOf pair])
  | unknown _ => x

end ReqField

def encodeReq (l : List ReqField) : List UInt8 := l.flatMap fun f => f.wire.encode

namespace ReqField

def typeOf : ReqField → Option String
  | type bytes => some (cString bytes)
  | _ => none

def ssidOf : ReqField → Option String
  | ssid bytes => some (cString bytes)
  | _ => none

def passOf : ReqField → Option String
  | pass bytes => some (cString bytes)
  | _ => none

def enabledOf : ReqField → Option Bool
  | enabled b => some b
  | _ => none

def setOf : ReqField → Option ParamVal
  | set pair => some (pairOf pair)
  | _ => none

end ReqField

/-- What the fields of a request say: the last of each kind, and all the pairs in order. -/
def reqOf (l : List ReqField) : Req where
  type := (lastOf ReqField.typeOf l).getD ""
  ssid := (lastOf ReqField.ssidOf l).getD ""
  pass := (lastOf ReqField.passOf l).getD ""
  enabled := (lastOf ReqField.enabledOf l).getD false

def requestOf (l : List ReqField) : Decoded where
  pairs := l.filterMap ReqField.setOf
  req := some (reqOf l)

/-! ### One field after the other -/

section Last

variable {κ α : Type} (g : κ → Option α) (l : List κ) (k : κ)

theorem lastOf_append : lastOf g (l ++ [k]) = (g k).or (lastOf g l) := by
  unfold lastOf
  rw [List.filterMap_append, List.getLast?_append, List.filterMap_cons, List.filterMap_nil]
  cases g k <;> rfl

end Last

theorem foldl_pv (l : List PvField) : l.foldl PvField.apply ParamVal_zero = pairOf l := by
  induction l using List.reverseRecOn with
  | nil => rfl
  | append_singleton l f ih =>
    rw [List.foldl_append, List.foldl_cons, List.foldl_nil, ih]
    unfold pairOf
    rw [lastOf_append, lastOf_append]
    cases f <;> rfl

theorem foldl_req (l : List ReqField) :
    l.foldl ReqField.apply Req_zero = (reqOf l, l.filterMap ReqField.setOf) := by
  induction l using List.reverseRecOn with
  | nil => rfl
  | append_singleton l f ih =>
    rw [List.foldl_append, List.foldl_cons, List.foldl_nil, ih]
    unfold reqOf
    simp only [lastOf_append, List.filterMap_append, List.filterMap_cons, List.filterMap_nil]
    cases f <;> simp [ReqField.apply, ReqField.typeOf, ReqField.ssidOf, ReqField.passOf,
      ReqField.enabledOf, ReqField.setOf]

/-! ### The fields are decoded -/

theorem lookup_none {σ : Type} {fields : List (UInt32 × MsgField σ)} {tag : UInt32}
    (h : tag ∉ fields.map Prod.fst) : fields.lookup tag = none := by
  rw [List.lookup_eq_none_iff]
  intro p hp
  simp only [bne_iff_ne, ne_eq]
  rintro rfl
  exact h (List.mem_map_of_mem hp)

/-- A sign extension is undone. -/
theorem toInt32_signExtend (i : Int32) : i.toInt64.toUInt64.toUInt32.toInt32 = i := by
  apply Int32.toBitVec_inj.mp
  change (i.toBitVec.signExtend 64).truncate 32 = i.toBitVec
  ext j hj
  have hwide : j < 64 := by omega
  simp [BitVec.getElem_signExtend, hj, hwide]

theorem boolValue (b : Bool) :
    (if b then 1 else 0 : UInt64).toNat < 2 ^ 32 ∧
      decide ((if b then 1 else 0 : UInt64) ≠ 0) = b := by
  cases b <;> decide

theorem fits_of_value {tag : UInt32} (htag : tag ≠ 0 ∧ tag.toNat < 2 ^ 29) {v : Value}
    (hv : v.Fits) : (⟨tag, v⟩ : WireField).Fits := ⟨htag.1, htag.2, hv⟩

theorem PvField.fits_wire {f : PvField} (h : f.Fits) : f.wire.Fits := by
  cases f with
  | name bytes =>
    have hlen : bytes.length < 16 := h
    exact fits_of_value (by decide) (show bytes.length < 2 ^ 32 by omega)
  | bval b => exact fits_of_value (by decide) trivial
  | ival i => exact fits_of_value (by decide) trivial
  | fval f => exact fits_of_value (by decide) trivial
  | unknown f => exact h.1

theorem PvField.applyField_wire {f : PvField} (h : f.Fits) (pv : ParamVal) :
    applyField ParamVal_fields pv f.wire = some (f.apply pv) := by
  cases f with
  | name bytes => exact if_pos h
  | bval b =>
    obtain ⟨hsmall, hvalue⟩ := boolValue b
    change (if (if b then 1 else 0 : UInt64).toNat < 2 ^ 32 then
      some { pv with value := .bval (decide ((if b then 1 else 0 : UInt64) ≠ 0)) } else none) = _
    rw [if_pos hsmall, hvalue]
    rfl
  | ival i =>
    change some { pv with value := OneofValue.ival i.toInt64.toUInt64.toUInt32.toInt32.toInt } = _
    rw [toInt32_signExtend]
    rfl
  | fval f =>
    change some { pv with value := OneofValue.fval (Float32.ofBits f.toBits) } = _
    rw [Float32.ofBits_toBits]
    rfl
  | unknown f =>
    unfold applyField PvField.wire
    rw [lookup_none h.2]
    rfl

section Fold

variable {σ κ : Type} {fields : List (UInt32 × MsgField σ)} {wire : κ → WireField}
  {apply : σ → κ → σ} {l : List κ}

theorem foldlM_wire (h : ∀ k ∈ l, ∀ x, applyField fields x (wire k) = some (apply x k)) (x : σ) :
    (l.map wire).foldlM (applyField fields) x = some (l.foldl apply x) := by
  induction l generalizing x with
  | nil => rfl
  | cons k l ih =>
    rw [List.map_cons, List.foldlM_cons, h k List.mem_cons_self x]
    exact ih (fun k' hk' => h k' (List.mem_cons_of_mem k hk')) _

theorem fits_map_wire (h : ∀ k ∈ l, (wire k).Fits) : ∀ f ∈ l.map wire, f.Fits := by
  intro f hf
  obtain ⟨k, hk, rfl⟩ := List.mem_map.mp hf
  exact h k hk

end Fold

theorem ParamVal_small : ∀ p ∈ ParamVal_fields, p.2.Small := by
  simp [ParamVal_fields, MsgField.Small]

theorem decode_encodePv {l : List PvField} (h : ∀ f ∈ l, f.Fits) :
    decode ParamVal_fields ParamVal_zero (encodePv l) = .ok (pairOf l) := by
  have hfold := foldlM_wire (fun f hf pv => PvField.applyField_wire (h f hf) pv) ParamVal_zero
  have hall := decode_encode ParamVal_small
    (fits_map_wire fun f hf => PvField.fits_wire (h f hf)) hfold
  rwa [List.flatMap_map, foldl_pv] at hall

/-- A pair is read in one call. -/
theorem callbackLoop_decodePair (x : Req × List ParamVal) (content : List UInt8) :
    callbackLoop decodePair x content =
      match decode ParamVal_fields ParamVal_zero content with
      | .error e => .error (some (e.getD "callback failed"))
      | .ok pv => .ok (x.1, x.2 ++ [pv]) := by
  rw [callbackLoop, decodePair]
  cases decode ParamVal_fields ParamVal_zero content with
  | error e => rfl
  | ok pv => simp [Except.map]

theorem ReqField.fits_wire {f : ReqField} (h : f.Fits) : f.wire.Fits := by
  cases f with
  | type bytes =>
    have hlen : bytes.length < 16 := h
    exact fits_of_value (by decide) (show bytes.length < 2 ^ 32 by omega)
  | ssid bytes =>
    have hlen : bytes.length < 33 := h
    exact fits_of_value (by decide) (show bytes.length < 2 ^ 32 by omega)
  | pass bytes =>
    have hlen : bytes.length < 65 := h
    exact fits_of_value (by decide) (show bytes.length < 2 ^ 32 by omega)
  | enabled b => exact fits_of_value (by decide) trivial
  | set pair => exact fits_of_value (by decide) h.2
  | unknown f => exact h.1

theorem ReqField.applyField_wire {f : ReqField} (h : f.Fits) (x : Req × List ParamVal) :
    applyField Req_fields x f.wire = some (f.apply x) := by
  cases f with
  | type bytes => exact if_pos h
  | ssid bytes => exact if_pos h
  | pass bytes => exact if_pos h
  | enabled b =>
    obtain ⟨hsmall, hvalue⟩ := boolValue b
    change (if (if b then 1 else 0 : UInt64).toNat < 2 ^ 32 then
      some ({ x.1 with enabled := decide ((if b then 1 else 0 : UInt64) ≠ 0) }, x.2) else none) = _
    rw [if_pos hsmall, hvalue]
    rfl
  | set pair =>
    change (callbackLoop decodePair x (encodePv pair)).toOption = _
    rw [callbackLoop_decodePair, decode_encodePv h.1]
    rfl
  | unknown f =>
    unfold applyField ReqField.wire
    rw [lookup_none h.2]
    rfl

theorem Req_small : ∀ p ∈ Req_fields, p.2.Small := by
  simp [Req_fields, MsgField.Small]

section Fields

variable {l : List ReqField} (h : ∀ f ∈ l, f.Fits)

include h

theorem foldlM_req :
    (l.map ReqField.wire).foldlM (applyField Req_fields) Req_zero =
      some (l.foldl ReqField.apply Req_zero) :=
  foldlM_wire (fun f hf x => ReqField.applyField_wire (h f hf) x) Req_zero

theorem decode_encodeReq :
    decode Req_fields Req_zero (encodeReq l) = .ok (l.foldl ReqField.apply Req_zero) := by
  have hall := decode_encode Req_small (fits_map_wire fun f hf => ReqField.fits_wire (h f hf))
    (foldlM_req h)
  rwa [List.flatMap_map] at hall

/-- Fields in any order are decoded to what they say. -/
theorem decodeReq_encodeReq : decodeReq (encodeReq l) = requestOf l := by
  rw [decodeReq, decode_encodeReq h, foldl_req]
  rfl

/-- A beginning of a request is one of its first fields, or it is not decoded. -/
theorem decodeReq_cut {start : List UInt8} (hstart : start <+: encodeReq l) :
    (∃ n, start = encodeReq (l.take n)) ∨ (decodeReq start).req = none := by
  have hsplit : encodeReq l = (l.map ReqField.wire).flatMap WireField.encode := by
    rw [List.flatMap_map]
    rfl
  rw [hsplit] at hstart
  rcases decode_cut Req_small (fits_map_wire fun f hf => ReqField.fits_wire (h f hf))
    (foldlM_req h) hstart with ⟨n, rfl⟩ | ⟨e, he⟩
  · refine Or.inl ⟨n, ?_⟩
    rw [← List.map_take, List.flatMap_map]
    rfl
  · exact Or.inr (by rw [decodeReq, he])

end Fields

theorem encodeReq_ne_nil {l : List ReqField} (h : l ≠ []) : encodeReq l ≠ [] := by
  obtain ⟨f, l, rfl⟩ := List.exists_cons_of_ne_nil h
  intro hnil
  have hzero := congrArg List.length hnil
  simp [encodeReq, WireField.encode, Varint.length_varint] at hzero

end web

end KartFirmware
