import KartFirmware.ConfigReply
import KartFirmware.PbFields
import KartFirmware.RequestRange

/-!
# From frames to requests

`wsHandler` with the decoder it has.  A frame that a client wrote field by field does what
the fields say (`wsHandler_fields`), and one that is cut off within a field does nothing
(`wsHandler_truncated`).  The reply with the values is a list of pairs in the form in which
a `set` takes them: sent back as they are, they restore the configuration
(`wsHandler_restores`).
-/

namespace KartFirmware

namespace web

open PbDecode ProtoEncode
open PbFields (writes_encodeString writes_field)

/-- A binary frame. -/
def frame (body : List UInt8) : WsRequest where
  isGet := false
  len := some body.length
  payload := some body

/-! ### The reply with the values -/

section Encoders

variable {σ : Type} (unspecified : Int → Int)

/-- A `ParamVal` as `pb_encode_submessage` writes it; its name is never empty. -/
def encParamVal (pv : ParamVal) : Encoder σ :=
  all [encStr 1 pv.name, encOneof unspecified 2 pv.value]

end Encoders

def buildValsPb (unspecified : Int → Int) (c : KartConfig Float32) : Option (List UInt8) :=
  encodeMsg 3 (all ((encParamVals c).map fun pv =>
    andThen (encodeTag 1 2) (submessage (encParamVal unspecified pv)))) ()

/-- A pair that fits, with a name that is one byte for each character. -/
structure Storable (pv : ParamVal) : Prop where
  fits : PairFits pv
  ascii : cBytes pv.name = textBytes pv.name

/-! ### What the encoder writes -/

section Writes

variable {σ : Type} (I : σ → Prop)

theorem toNat_ofInt (x : Int64) : x.toUInt64.toNat = (x.toInt % 18446744073709551616).toNat := by
  have hcond := BitVec.toInt_eq_toNat_cond x.toBitVec
  have hlt := x.toBitVec.isLt
  change x.toBitVec.toNat = (x.toBitVec.toInt % 18446744073709551616).toNat
  rw [hcond]
  split_ifs <;> omega

theorem writes_name {pv : ParamVal} (h : Storable pv) :
    Writes I (encStr 1 pv.name) (PvField.name (textBytes pv.name)).wire.encode := by
  have hlen := (cString_textBytes h.fits.name).2
  have hcontent := writes_encodeString I (show (textBytes pv.name).length < 2 ^ 32 by omega)
  rw [encStr, h.ascii]
  exact writes_field I 1 2 rfl rfl (by omega) hcontent

theorem encodePv_singleton (f : PvField) : encodePv [f] = f.wire.encode := by
  simp [encodePv]

theorem writes_value (unspecified : Int → Int) {value : OneofValue}
    (h : OneofValue.InRange value) :
    Writes I (encOneof unspecified 2 value) (encodePv (valueFields value)) := by
  cases value with
  | unset => exact writes_nothing I
  | bval b =>
    have hbit := writes_varint I (if b then 1 else 0)
    have hvalue : Varint.encode (if b then 1 else 0) = (PvField.bval b).wire.value.encode := by
      rw [Varint.encode_eq (by cases b <;> decide)]
      cases b <;> rfl
    rw [hvalue] at hbit
    change Writes I _ (encodePv [PvField.bval b])
    rw [encodePv_singleton]
    exact writes_field I 2 0 rfl rfl (by omega) hbit
  | ival i =>
    have hrange : -2147483648 ≤ i ∧ i < 2147483648 := h
    have hint : (Int32.ofInt i).toInt = i := Int32.toInt_ofInt_of_le hrange.1 hrange.2
    have hstored : storedInt unspecified i = i := if_pos hrange
    have hbits : (Int32.ofInt i).toInt64.toUInt64.toNat = signExtend i := by
      rw [toNat_ofInt, Int32.toInt_toInt64, hint]
      rfl
    have hnumber := writes_varint I (signExtend (storedInt unspecified i))
    have hvalue : Varint.encode (signExtend (storedInt unspecified i)) =
        (PvField.ival (Int32.ofInt i)).wire.value.encode := by
      rw [hstored, ← hbits, Varint.encode_eq (UInt64.toNat_lt _)]
      rfl
    rw [hvalue] at hnumber
    change Writes I _ (encodePv [PvField.ival (Int32.ofInt i)])
    rw [encodePv_singleton]
    exact writes_field I 3 0 rfl rfl (by omega) hnumber
  | fval v =>
    have hword := writes_write I (encodeFloat v)
    change Writes I _ (encodePv [PvField.fval v])
    rw [encodePv_singleton]
    exact writes_field I 4 5 rfl rfl (by omega) hword

/-- The bytes of a pair are those of its fields. -/
theorem writes_encParamVal (unspecified : Int → Int) {pv : ParamVal} (h : Storable pv) :
    Writes I (encParamVal unspecified pv) (encodePv (pvFields pv)) := by
  have hrest := writes_andThen (writes_value I unspecified h.fits.value) (writes_nothing I)
  rw [List.append_nil] at hrest
  exact writes_andThen (writes_name I h) hrest

end Writes

/-! ### The reply of a configuration in range -/

section Reply

variable {c : KartConfig Float32}

/-- The names are short, and a byte is a character of them. -/
theorem names_plain : ∀ p ∈ (PARAMS : List (ParamDesc Float32)),
    cBytes p.name = textBytes p.name ∧ p.name.toList.length < 16 ∧
      (p.name.toList.all fun c => decide (c.toNat ≠ 0 ∧ c.toNat < 256)) = true := by
  decide +kernel

/-- An integer of the reply is the one that is stored. -/
theorem inRange_oneof (h : c.InRange) {p : ParamDesc Float32}
    (hp : p ∈ (PARAMS : List (ParamDesc Float32))) :
    OneofValue.InRange (p.entry.oneof (cfgGet c p)) := by
  have hrange := h p hp
  have htyped := PARAMS_typed p hp
  cases he : p.entry with
  | float lo d hi f => trivial
  | int t lo d hi i =>
    obtain ⟨hlow, hhigh, habs⟩ := natAbs_lt_of_inRange hp he hrange
    rw [he] at htyped
    cases t with
    | bool => trivial
    | int =>
      have hget : cfgGet c p = Binary32.ofInt (c.getI i) := by
        rw [cfgGet, he]
        rfl
      have hround : iround (Binary32.ofInt (c.getI i)) = c.getI i :=
        iround_ofInt (htyped.1.trans hlow) (lt_of_le_of_lt hhigh htyped.2)
      rw [hget]
      change -2147483648 ≤ iround (Binary32.ofInt (c.getI i)) ∧
        iround (Binary32.ofInt (c.getI i)) < 2147483648
      rw [hround]
      omega

theorem storable_reply (h : c.InRange) : ∀ pv ∈ encParamVals c, Storable pv := by
  intro pv hpv
  obtain ⟨p, hp, rfl⟩ := List.mem_map.mp hpv
  rw [names_fit p hp]
  have hname : InArray 16 p.name := by
    refine ⟨(names_plain p hp).2.1, fun c hc => ?_⟩
    have hchars := List.all_eq_true.mp (names_plain p hp).2.2 c hc
    simpa using hchars
  exact ⟨⟨hname, inRange_oneof h hp⟩, (names_plain p hp).1⟩

/-- The pairs of the reply, each as its bytes. -/
def pairBytes (c : KartConfig Float32) : List (List UInt8) :=
  (encParamVals c).map fun pv => encodePv (pvFields pv)

theorem length_pairBytes (c : KartConfig Float32) : (pairBytes c).length = 15 := by
  unfold pairBytes encParamVals
  rw [List.length_map, List.length_map]
  rfl

theorem pairBytes_le (h : c.InRange) : ∀ pair ∈ pairBytes c, pair.length ≤ 34 := by
  intro pair hpair
  obtain ⟨pv, hpv, rfl⟩ := List.mem_map.mp hpair
  exact length_pair_le (storable_reply h pv hpv).fits

/-- A list of messages, each a field with this number. -/
def repeated (tag : UInt32) (messages : List (List UInt8)) : List UInt8 :=
  messages.flatMap fun content => (⟨tag, .bytes content⟩ : WireField).encode

theorem repeated_le (h : c.InRange) (tag : UInt32) (htag : tag.toNat < 8) :
    (repeated tag (pairBytes c)).length ≤ 540 := by
  have hall : (repeated tag (pairBytes c)).length ≤ (pairBytes c).length * 36 := by
    refine length_flatMap_le fun pair hpair => ?_
    have hlen := pairBytes_le h pair hpair
    have hfield := length_bytes_le tag (by omega) (show pair.length < 128 by omega)
    omega
  rw [length_pairBytes] at hall
  exact hall

theorem repeated_pairBytes (tag : UInt32) (c : KartConfig Float32) :
    repeated tag (pairBytes c) = (encParamVals c).flatMap fun pv =>
      (⟨tag, .bytes (encodePv (pvFields pv))⟩ : WireField).encode := by
  rw [repeated, pairBytes, List.flatMap_map]

theorem writes_pairs {σ : Type} (I : σ → Prop) (unspecified : Int → Int) (h : c.InRange) :
    Writes I (all ((encParamVals c).map fun pv =>
      andThen (encodeTag 1 2) (submessage (encParamVal unspecified pv))))
      (repeated 1 (pairBytes c)) := by
  rw [repeated_pairBytes]
  refine writes_all fun pv hpv => ?_
  have hpair := writes_submessage (writes_encParamVal I unspecified (storable_reply h pv hpv))
  have hshort := length_pair_le (storable_reply h pv hpv).fits
  rw [Varint.encode_eq (by omega)] at hpair
  exact writes_field I 1 2 rfl rfl (by omega) hpair

/-- The reply is these pairs in their envelope. -/
theorem buildValsPb_eq (unspecified : Int → Int) (h : c.InRange) :
    buildValsPb unspecified c =
      some (⟨3, .bytes (repeated 1 (pairBytes c))⟩ : WireField).encode := by
  have hlen := repeated_le h 1 (by decide)
  have hbody := writes_submessage (writes_pairs (fun _ : Unit => True) unspecified h)
  rw [Varint.encode_eq (by omega)] at hbody
  have hmsg : Writes (fun _ : Unit => True) (andThen (encodeTag 3 2) (submessage _))
      (⟨3, .bytes (repeated 1 (pairBytes c))⟩ : WireField).encode :=
    writes_field _ 3 2 rfl rfl (by omega) hbody
  have hroom : (⟨3, .bytes (repeated 1 (pairBytes c))⟩ : WireField).encode.length ≤
      hw.PB_REPLY_CAP := by
    have hfirst := length_varint_le (n := 26) (k := 1) (by omega) (by omega)
    have hlength := length_varint_le (n := (repeated 1 (pairBytes c)).length) (k := 2) (by omega)
      (by omega)
    change (Varint.varint 26 ++ (Varint.varint (repeated 1 (pairBytes c)).length ++
      repeated 1 (pairBytes c))).length ≤ 9216
    simp only [List.length_append]
    omega
  unfold buildValsPb encodeMsg
  rw [hmsg.buffer hw.PB_REPLY_CAP trivial, if_pos hroom]

end Reply

/-! ### Requests of a client -/

section Handler

variable {δ : Type} (drv : evlog.FlashDriver δ) (unspecified : Float32 → Int)
  (uninit : KartConfig Float32) (d : Device δ) (a : Answers)

/-- The draft that a list of pairs leaves. -/
def draftOf (pairs : List ParamVal) : SetCtx :=
  pairs.foldl (decSetParam unspecified d.store.cfg) { cfg := uninit, touched := false }

theorem received_frame {body : List UInt8} (h : 0 < body.length) (hcap : body.length ≤ BODY_CAP) :
    (frame body).received decodeReq = some (decodeReq body) := by
  have hroom : ¬ ((frame body).isGet = true ∨ body.length = 0 ∨ body.length > BODY_CAP) := by
    rintro (hget | hempty | hlarge)
    · exact Bool.noConfusion hget
    · omega
    · omega
  unfold WsRequest.received WsRequest.body
  change (if _ then none else some body).map decodeReq = _
  rw [if_neg hroom]
  rfl

theorem wsHandler_encodeReq {l : List ReqField} (hfits : ∀ f ∈ l, f.Fits) (hne : l ≠ [])
    (hcap : (encodeReq l).length ≤ BODY_CAP) :
    wsHandler drv unspecified decodeReq uninit d (frame (encodeReq l)) a =
      dispatch drv unspecified d (draftOf unspecified uninit d (l.filterMap ReqField.setOf))
        (reqOf l) a := by
  have hpos := List.length_pos_of_ne_nil (encodeReq_ne_nil hne)
  have heq := wsHandler_eq drv unspecified decodeReq uninit d (frame (encodeReq l)) a
  simp only [received_frame hpos hcap, decodeReq_encodeReq hfits, requestOf] at heq
  exact heq

/-- The field is one of this version. -/
def ReqField.known : ReqField → Bool
  | unknown _ => false
  | _ => true

theorem filterMap_known {α : Type} {g : ReqField → Option α}
    (hg : ∀ f, g (.unknown f) = none) (l : List ReqField) :
    (l.filter ReqField.known).filterMap g = l.filterMap g := by
  induction l with
  | nil => rfl
  | cons f l ih =>
    rw [List.filter_cons]
    cases f with
    | unknown f =>
      rw [if_neg (by simp [ReqField.known]), ih, List.filterMap_cons, hg]
    | _ => rw [if_pos (by simp [ReqField.known]), List.filterMap_cons, List.filterMap_cons, ih]

theorem reqOf_known (l : List ReqField) : reqOf (l.filter ReqField.known) = reqOf l := by
  unfold reqOf lastOf
  simp only [filterMap_known (g := ReqField.typeOf) fun f => rfl,
    filterMap_known (g := ReqField.ssidOf) fun f => rfl,
    filterMap_known (g := ReqField.passOf) fun f => rfl,
    filterMap_known (g := ReqField.enabledOf) fun f => rfl]

/-- An empty frame is not a request. -/
theorem wsHandler_empty :
    wsHandler drv unspecified decodeReq uninit d (frame (encodeReq [])) a = (d, .ok) := rfl

/-- A request with no field of this version asks for the configuration. -/
theorem dispatch_nothing (draft : SetCtx) :
    dispatch drv unspecified d draft (reqOf []) a = (d, .reply .config) := by
  have hget : Verb.of (reqOf []).type = .get := rfl
  unfold dispatch
  rw [hget]

/-- **A request does what its fields say: the last of each kind counts and the pairs are
applied in order.**  An empty frame is not answered.  What a newer client adds among the fields
does not matter; a frame of such fields alone asks for the configuration. -/
theorem wsHandler_fields {l : List ReqField} (hfits : ∀ f ∈ l, f.Fits)
    (hcap : (encodeReq l).length ≤ BODY_CAP) :
    wsHandler drv unspecified decodeReq uninit d (frame (encodeReq l)) a =
        (if l = [] then (d, .ok)
        else dispatch drv unspecified d (draftOf unspecified uninit d (l.filterMap ReqField.setOf))
          (reqOf l) a) ∧
      ∀ newer : List ReqField, newer.filter ReqField.known = l → newer ≠ [] →
        (∀ f ∈ newer, f.Fits) → (encodeReq newer).length ≤ BODY_CAP →
        wsHandler drv unspecified decodeReq uninit d (frame (encodeReq newer)) a =
          if l = [] then (d, .reply .config)
          else wsHandler drv unspecified decodeReq uninit d (frame (encodeReq l)) a := by
  have hl : wsHandler drv unspecified decodeReq uninit d (frame (encodeReq l)) a =
      if l = [] then (d, .ok)
      else dispatch drv unspecified d (draftOf unspecified uninit d (l.filterMap ReqField.setOf))
        (reqOf l) a := by
    split_ifs with hempty
    · rw [hempty]
      exact wsHandler_empty drv unspecified uninit d a
    · exact wsHandler_encodeReq drv unspecified uninit d a hfits hempty hcap
  refine ⟨hl, ?_⟩
  rintro newer rfl hsome hnewer hroom
  have hall := wsHandler_encodeReq drv unspecified uninit d a hnewer hsome hroom
  rw [← reqOf_known, ← filterMap_known (g := ReqField.setOf) fun f => rfl] at hall
  rw [hall]
  split_ifs at hl ⊢ with hempty
  · rw [hempty]
    exact dispatch_nothing drv unspecified d a _
  · exact hl.symm

end Handler

/-! ### A request of a newer client -/

/-- The turning gain twice, first with its value before its name, and the type twice. -/
def mixedFields : List ReqField :=
  [.set [.fval 0.25, .name (cBytes "turn_gain")], .type (cBytes "status"),
    .set [.name (cBytes "accel_pct_s"), .ival 400], .type (cBytes "set"),
    .set [.name (cBytes "turn_gain"), .fval 0.5]]

/-- The same with fields of another version among them. -/
def newerFields : List ReqField :=
  [.unknown ⟨9, .varint 300⟩, .set [.fval 0.25, .name (cBytes "turn_gain")],
    .type (cBytes "status"), .unknown ⟨6, .bytes [1, 2, 3]⟩,
    .set [.name (cBytes "accel_pct_s"), .ival 400], .type (cBytes "set"),
    .set [.name (cBytes "turn_gain"), .fval 0.5], .unknown ⟨7, .fixed32 0⟩]

/-- Both fit, and the 40th byte is within a field. -/
theorem mixedFields_sent :
    (∀ f ∈ newerFields, f.Fits) ∧ (encodeReq newerFields).length ≤ BODY_CAP ∧
      (encodeReq mixedFields).length ≤ BODY_CAP ∧
      ∀ n < 6, (encodeReq mixedFields).take 40 ≠ encodeReq (mixedFields.take n) := by
  decide +kernel

theorem fits_mixed : ∀ f ∈ mixedFields, f.Fits := fun f hf =>
  mixedFields_sent.1 f (List.mem_of_mem_filter (show f ∈ newerFields.filter ReqField.known from hf))

/-- The last type makes it a `set`, and the last gain counts. -/
theorem wsHandler_fields_mixed :
    wsHandler noFlash (fun _ => 0) decodeReq factoryCfg zeroDevice (frame (encodeReq newerFields))
        quietAnswers =
      wsHandler noFlash (fun _ => 0) decodeReq factoryCfg zeroDevice
        (frame (encodeReq mixedFields)) quietAnswers ∧
    (wsHandler noFlash (fun _ => 0) decodeReq factoryCfg zeroDevice
      (frame (encodeReq mixedFields)) quietAnswers).2 = .reply .vals ∧
    (wsHandler noFlash (fun _ => 0) decodeReq factoryCfg zeroDevice
      (frame (encodeReq mixedFields)) quietAnswers).1.store.cfg.turnGain = 0.5 ∧
    (wsHandler noFlash (fun _ => 0) decodeReq factoryCfg zeroDevice
      (frame (encodeReq mixedFields)) quietAnswers).1.store.cfg.accelPctS = 400 := by
  obtain ⟨hl, hnewer⟩ := wsHandler_fields noFlash (fun _ => 0) factoryCfg zeroDevice quietAnswers
    fits_mixed mixedFields_sent.2.2.1
  have hsome : mixedFields ≠ [] := List.cons_ne_nil _ _
  rw [if_neg hsome] at hl
  refine ⟨?_, ?_⟩
  · have hsame := hnewer newerFields rfl (List.cons_ne_nil _ _) mixedFields_sent.1
      mixedFields_sent.2.1
    rwa [if_neg hsome] at hsame
  · rw [hl]
    decide +kernel

section Handler

variable {δ : Type} (drv : evlog.FlashDriver δ) (unspecified : Float32 → Int)
  (uninit : KartConfig Float32) (d : Device δ) (a : Answers)

/-- A body that is not decoded. -/
theorem wsHandler_undecoded {body : List UInt8} (h : (decodeReq body).req = none) :
    (wsHandler drv unspecified decodeReq uninit d (frame body) a).1 = d ∧
      ∀ reply, (wsHandler drv unspecified decodeReq uninit d (frame body) a).2 ≠ .reply reply := by
  have heq := wsHandler_eq drv unspecified decodeReq uninit d (frame body) a
  cases hreceived : (frame body).received decodeReq with
  | none =>
    simp only [hreceived] at heq
    exact heq
  | some decoded =>
    have hdecoded : decoded.req = none := by
      unfold WsRequest.received at hreceived
      obtain ⟨bytes, hbody, rfl⟩ := Option.map_eq_some_iff.mp hreceived
      have hbytes : bytes = body := by
        change (if (frame body).isGet = true ∨ body.length = 0 ∨ body.length > BODY_CAP then none
          else some body) = some bytes at hbody
        split_ifs at hbody with hout
        exact (Option.some.inj hbody).symm
      rw [hbytes]
      exact h
    simp only [hreceived, hdecoded] at heq
    rw [heq]
    exact ⟨rfl, fun reply hreply => by simp at hreply⟩

/-- **A frame that is cut off within a field changes nothing and is not answered.** -/
theorem wsHandler_truncated {l : List ReqField} (hfits : ∀ f ∈ l, f.Fits) {start : List UInt8}
    (hstart : start <+: encodeReq l) (hcut : ∀ n, start ≠ encodeReq (l.take n)) :
    (wsHandler drv unspecified decodeReq uninit d (frame start) a).1 = d ∧
      ∀ reply, (wsHandler drv unspecified decodeReq uninit d (frame start) a).2 ≠
        .reply reply := by
  rcases decodeReq_cut hfits hstart with ⟨n, hn⟩ | hnone
  · exact absurd hn (hcut n)
  · exact wsHandler_undecoded drv unspecified uninit d a hnone

end Handler

/-- The mixed request, cut off within its third field. -/
theorem wsHandler_truncated_mixed :
    (wsHandler noFlash (fun _ => 0) decodeReq factoryCfg zeroDevice
        (frame ((encodeReq mixedFields).take 40)) quietAnswers).1 = zeroDevice ∧
      ∀ reply, (wsHandler noFlash (fun _ => 0) decodeReq factoryCfg zeroDevice
        (frame ((encodeReq mixedFields).take 40)) quietAnswers).2 ≠ .reply reply := by
  have hcut := mixedFields_sent.2.2.2
  refine wsHandler_truncated noFlash (fun _ => 0) factoryCfg zeroDevice quietAnswers fits_mixed
    (List.take_prefix _ _) fun n => ?_
  by_cases hn : n < 6
  · exact hcut n hn
  · have hall : mixedFields.take n = mixedFields.take 5 :=
      List.take_of_length_le (Nat.le_of_lt (Nat.not_lt.mp hn))
    rw [hall]
    exact hcut 5 (by decide)

section Handler

variable {δ : Type} (drv : evlog.FlashDriver δ) (unspecified : Float32 → Int)
  (uninit : KartConfig Float32) (d : Device δ) (a : Answers)

/-! ### Sending the reply back -/

/-- A `set` with pairs as they are in a reply. -/
def setRequest (pairs : List (List UInt8)) : List UInt8 :=
  (⟨1, .bytes (cBytes "set")⟩ : WireField).encode ++ repeated 5 pairs

/-- The fields of this request. -/
def setFields (c : KartConfig Float32) : List ReqField :=
  .type (cBytes "set") :: setsOf (encParamVals c)

theorem setRequest_eq (c : KartConfig Float32) :
    setRequest (pairBytes c) = encodeReq (setFields c) := by
  rw [setRequest, repeated_pairBytes, encodeReq, setFields, List.flatMap_cons, setsOf,
    List.flatMap_map]
  rfl

theorem type_set : cString (cBytes "set") = "set" ∧ (cBytes "set").length = 3 := ⟨rfl, rfl⟩

theorem fits_setFields {c : KartConfig Float32} (h : c.InRange) : ∀ f ∈ setFields c, f.Fits := by
  intro f hf
  rcases List.mem_cons.mp hf with rfl | hset
  · change (cBytes "set").length < 16
    rw [type_set.2]
    omega
  · exact fits_setsOf (fun pv hpv => (storable_reply h pv hpv).fits) f hset

theorem setFields_pairs {c : KartConfig Float32} (h : c.InRange) :
    (setFields c).filterMap ReqField.setOf = encParamVals c :=
  setOf_setsOf fun pv hpv => (storable_reply h pv hpv).fits

theorem setFields_type (c : KartConfig Float32) : (reqOf (setFields c)).type = "set" := by
  unfold reqOf setFields lastOf
  rw [List.filterMap_cons, filterMap_setsOf fun _ => rfl]
  exact type_set.1

variable {d} in
/-- **The reply restores the configuration it was made of: its pairs, sent back byte for
byte, are a request that fits and that a disarmed kart takes whole, from whatever
configuration it has.**  If the NVS calls succeed it is also what the next boot loads, up to
the sign of a zero. -/
theorem wsHandler_restores {c : KartConfig Float32} (h : c.InRange)
    (harmed : d.status.arming = false) (unspecifiedInt : Int → Int) :
    ∃ pairs : List (List UInt8),
      buildValsPb unspecifiedInt c = some (⟨3, .bytes (repeated 1 pairs)⟩ : WireField).encode ∧
      (setRequest pairs).length ≤ BODY_CAP ∧
      wsHandler drv unspecified decodeReq uninit d (frame (setRequest pairs)) a =
        ({ d with store := configUpdate unspecified d.store a.nvs c true }, .reply .vals) ∧
      (configUpdate unspecified d.store a.nvs c true).cfg = c ∧
      ∀ boot uninit, a.nvs.opens = true → (∀ key, a.nvs.sets key = true) → boot.opens = true →
        Restored c (configLoad unspecified (configUpdate unspecified d.store a.nvs c true) boot
          uninit).1.cfg := by
  have hlen := repeated_le h 5 (by decide)
  have htype := length_bytes_le 1 (by decide) (show (cBytes "set").length < 128 by
    rw [type_set.2]
    omega)
  have hroom : (setRequest (pairBytes c)).length ≤ BODY_CAP := by
    rw [type_set.2] at htype
    rw [setRequest, List.length_append, BODY_CAP]
    omega
  have hclamp := clampAll_of_inRange unspecified h
  refine ⟨pairBytes c, buildValsPb_eq unspecifiedInt h, hroom, ?_, ?_, ?_⟩
  · have hne := encParamVals_ne_nil c
    rw [setRequest_eq] at hroom ⊢
    rw [wsHandler_encodeReq drv unspecified uninit d a (fits_setFields h) (List.cons_ne_nil _ _)
      hroom, setFields_pairs h]
    have hcfg := foldl_decSetParam_cfg unspecified uninit d.store.cfg hne
    rw [draft_reply unspecified h] at hcfg
    have htouched := (foldl_decSetParam_touched unspecified uninit d.store.cfg
      (encParamVals c)).mpr hne
    unfold dispatch
    rw [setFields_type, Verb.of_eq_set.mpr rfl]
    simp only [draftOf, htouched, harmed, hcfg, if_true, Bool.false_eq_true, if_false]
  · rw [configUpdate_cfg, hclamp]
  · intro boot uninit hopens hsets hboot
    have hsaved : configUpdate unspecified d.store a.nvs c true =
        (configSave { cfg := c, nvs := d.store.nvs } a.nvs).1 := by
      rw [configUpdate, if_pos rfl, hclamp]
    rw [hsaved]
    exact load_save unspecified h d.store.nvs hopens hsets hboot uninit

end Handler

theorem wsHandler_restores_factory :
    ∃ pairs : List (List UInt8),
      buildValsPb (fun _ => 0) factoryCfg =
        some (⟨3, .bytes (repeated 1 pairs)⟩ : WireField).encode ∧
      (wsHandler noFlash (fun _ => 0) decodeReq factoryCfg zeroDevice (frame (setRequest pairs))
        quietAnswers).1.store.cfg = factoryCfg ∧
      Restored factoryCfg (configLoad (fun _ => 0) (wsHandler noFlash (fun _ => 0) decodeReq
        factoryCfg zeroDevice (frame (setRequest pairs)) quietAnswers).1.store flashOk
        factoryCfg).1.cfg := by
  obtain ⟨pairs, hreply, -, hset, hcfg, hload⟩ := wsHandler_restores noFlash (fun _ => 0) factoryCfg
    quietAnswers factoryCfg_inRange (show zeroDevice.status.arming = false from rfl) fun _ => 0
  refine ⟨pairs, hreply, ?_, ?_⟩
  · rw [hset]
    exact hcfg
  · rw [hset]
    exact hload flashOk factoryCfg rfl (fun _ => rfl) rfl

end web

end KartFirmware
