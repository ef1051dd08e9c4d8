import KartFirmware.PbRequest

/-!
# The requests that a body can be

`wsHandler` reads the strings of a request into arrays.  Whatever bytes are received, what
comes out of the decoder has room there and has no zero before its end, and each request of
this kind comes out for some bytes (`decodeReq_range`).
-/

namespace KartFirmware

namespace web

open PbDecode

/-! ### What fits in the arrays -/

/-- A C string in an array of `size` bytes: the terminator has room, and it is the only
zero. -/
structure InArray (size : Nat) (text : String) : Prop where
  length : text.length < size
  chars : ∀ c ∈ text.toList, c.toNat ≠ 0 ∧ c.toNat < 256

theorem inArray_empty {size : Nat} (h : 0 < size) : InArray size "" :=
  ⟨h, fun c hc => by simp at hc⟩

theorem toNat_ofByte (b : UInt8) : (Char.ofNat b.toNat).toNat = b.toNat := by
  have hlt := b.toNat_lt
  have hvalid : b.toNat.isValidChar := Or.inl (by omega)
  rw [Char.ofNat, dif_pos hvalid]
  exact Char.toNat_val

theorem inArray_cString {content : List UInt8} {size : Nat} (h : content.length < size) :
    InArray size (cString content) := by
  constructor
  · rw [cString, String.length_ofList, List.length_map]
    exact Nat.lt_of_le_of_lt (List.takeWhile_sublist _).length_le h
  · intro c hc
    rw [cString, String.toList_ofList] at hc
    obtain ⟨b, hb, rfl⟩ := List.mem_map.mp hc
    rw [toNat_ofByte]
    refine ⟨fun hzero => ?_, b.toNat_lt⟩
    have hne : b ≠ 0 := by simpa using List.mem_takeWhile_imp hb
    exact hne (UInt8.toNat_inj.mp hzero)

/-- An `int32_t`. -/
def OneofValue.InRange : OneofValue → Prop
  | .ival i => -2147483648 ≤ i ∧ i < 2147483648
  | _ => True

structure PairFits (pv : ParamVal) : Prop where
  name : InArray 16 pv.name
  value : OneofValue.InRange pv.value

structure ReqFits (x : Req × List ParamVal) : Prop where
  type : InArray 16 x.1.type
  ssid : InArray 33 x.1.ssid
  pass : InArray 65 x.1.pass
  pairs : ∀ pv ∈ x.2, PairFits pv

theorem pairFits_of_decode {content : List UInt8} {pv : ParamVal}
    (h : decode ParamVal_fields ParamVal_zero content = .ok pv) : PairFits pv := by
  have hzero : PairFits ParamVal_zero := ⟨inArray_empty (by decide), trivial⟩
  refine decode_invariant ?_ hzero h
  intro p hp x y hx hset
  simp only [ParamVal_fields, List.mem_cons, List.not_mem_nil, or_false] at hp
  rcases hp with rfl | rfl | rfl | rfl
  · obtain ⟨content, hlen, rfl⟩ := hset
    exact { hx with name := inArray_cString hlen }
  · obtain ⟨b, rfl⟩ := hset
    exact { hx with value := trivial }
  · obtain ⟨i, rfl⟩ := hset
    exact { hx with value := ⟨i.le_toInt, i.toInt_lt⟩ }
  · obtain ⟨w, rfl⟩ := hset
    exact { hx with value := trivial }

/-- One call of `decSetParam` adds one pair. -/
theorem pair_of_sets {x y : Req × List ParamVal}
    (h : (MsgField.callback decodePair).Sets x y) :
    ∃ content pv, decode ParamVal_fields ParamVal_zero content = .ok pv ∧
      y = (x.1, x.2 ++ [pv]) := by
  rcases h with ⟨content, hloop⟩ | ⟨raw, left, hcall⟩
  · rw [callbackLoop_decodePair] at hloop
    cases hdecode : decode ParamVal_fields ParamVal_zero content with
    | error e => simp [hdecode] at hloop
    | ok pv =>
      simp only [hdecode] at hloop
      exact ⟨content, pv, hdecode, (Except.ok.inj hloop).symm⟩
  · unfold decodePair at hcall
    cases hdecode : decode ParamVal_fields ParamVal_zero raw with
    | error e => simp [hdecode, Except.map] at hcall
    | ok pv =>
      simp only [hdecode, Except.map] at hcall
      exact ⟨raw, pv, hdecode, (Prod.mk.inj (Except.ok.inj hcall)).1.symm⟩

theorem reqFits_of_decode {body : List UInt8} {x : Req × List ParamVal}
    (h : decode Req_fields Req_zero body = .ok x) : ReqFits x := by
  have hzero : ReqFits Req_zero :=
    { type := inArray_empty (by decide)
      ssid := inArray_empty (by decide)
      pass := inArray_empty (by decide)
      pairs := fun pv hpv => absurd hpv List.not_mem_nil }
  refine decode_invariant ?_ hzero h
  intro p hp x y hx hset
  simp only [Req_fields, List.mem_cons, List.not_mem_nil, or_false] at hp
  rcases hp with rfl | rfl | rfl | rfl | rfl
  · obtain ⟨content, hlen, rfl⟩ := hset
    exact { hx with type := inArray_cString hlen }
  · obtain ⟨content, hlen, rfl⟩ := hset
    exact { hx with ssid := inArray_cString hlen }
  · obtain ⟨content, hlen, rfl⟩ := hset
    exact { hx with pass := inArray_cString hlen }
  · obtain ⟨b, rfl⟩ := hset
    exact { hx with }
  · obtain ⟨content, pv, hpair, rfl⟩ := pair_of_sets hset
    refine { hx with pairs := ?_ }
    intro q hq
    rcases List.mem_append.mp hq with hold | hnew
    · exact hx.pairs q hold
    · obtain rfl := List.mem_singleton.mp hnew
      exact pairFits_of_decode hpair

/-- Whatever bytes are received. -/
theorem reqFits_of_decodeReq {body : List UInt8} {rq : Req} (h : (decodeReq body).req = some rq) :
    ReqFits (rq, (decodeReq body).pairs) := by
  unfold decodeReq at h ⊢
  cases hdecode : decode Req_fields Req_zero body with
  | error e => simp [hdecode] at h
  | ok x =>
    simp only [hdecode] at h ⊢
    obtain rfl := Option.some.inj h
    exact reqFits_of_decode hdecode

/-! ### Every request that fits -/

/-- The bytes of a C string, one for each character. -/
def textBytes (text : String) : List UInt8 := text.toList.map fun c => c.toNat.toUInt8

theorem cString_textBytes {size : Nat} {text : String} (h : InArray size text) :
    cString (textBytes text) = text ∧ (textBytes text).length < size := by
  have hall : (textBytes text).takeWhile (fun b => b ≠ 0) = textBytes text := by
    rw [List.takeWhile_eq_self_iff]
    intro b hb
    obtain ⟨c, hc, rfl⟩ := List.mem_map.mp hb
    obtain ⟨hzero, hlt⟩ := h.chars c hc
    simp only [ne_eq, decide_not, Bool.not_eq_true', decide_eq_false_iff_not]
    intro heq
    have hnat := congrArg UInt8.toNat heq
    rw [toUInt8_toNat hlt] at hnat
    exact hzero hnat
  constructor
  · rw [cString, hall, textBytes, List.map_map]
    refine Eq.trans (congrArg String.ofList ?_) String.ofList_toList
    refine (List.map_congr_left fun c hc => ?_).trans (List.map_id _)
    simp [toUInt8_toNat (h.chars c hc).2]
  · rw [textBytes, List.length_map]
    exact h.length

/-- The field of a value, if there is one. -/
def valueFields : OneofValue → List PvField
  | .unset => []
  | .bval b => [.bval b]
  | .ival i => [.ival (Int32.ofInt i)]
  | .fval f => [.fval f]

/-- A pair as two fields. -/
def pvFields (pv : ParamVal) : List PvField := .name (textBytes pv.name) :: valueFields pv.value

theorem fits_pvFields {pv : ParamVal} (h : PairFits pv) : ∀ f ∈ pvFields pv, f.Fits := by
  intro f hf
  rcases List.mem_cons.mp hf with rfl | hvalue
  · exact (cString_textBytes h.name).2
  · cases hv : pv.value with
    | unset => simp [hv, valueFields] at hvalue
    | _ =>
      simp only [hv, valueFields, List.mem_singleton] at hvalue
      subst hvalue
      trivial

theorem pairOf_pvFields {pv : ParamVal} (h : PairFits pv) : pairOf (pvFields pv) = pv := by
  obtain ⟨name, value⟩ := pv
  have hname : cString (textBytes name) = name := (cString_textBytes h.name).1
  cases value with
  | unset => exact congrArg (fun n => ParamVal.mk n .unset) hname
  | bval b => exact congrArg (fun n => ParamVal.mk n (.bval b)) hname
  | ival i =>
    have hrange : -2147483648 ≤ i ∧ i < 2147483648 := h.value
    have hint : (Int32.ofInt i).toInt = i := Int32.toInt_ofInt_of_le hrange.1 hrange.2
    change ParamVal.mk (cString (textBytes name)) (.ival (Int32.ofInt i).toInt) = _
    rw [hname, hint]
  | fval v => exact congrArg (fun n => ParamVal.mk n (.fval v)) hname

/-! ### How long it is -/

theorem length_varint_le {n k : Nat} (hk : k ≠ 0) (h : n < 128 ^ k) :
    (Varint.varint n).length ≤ k := by
  rw [Varint.length_varint]
  exact Nat.log_lt_of_lt_pow' hk h

theorem length_bytes_le (tag : UInt32) (htag : tag.toNat < 15) {content : List UInt8}
    (h : content.length < 128) :
    (⟨tag, .bytes content⟩ : WireField).encode.length ≤ 2 + content.length := by
  have hfirst := length_varint_le (n := 8 * tag.toNat + 2) (k := 1) (by omega) (by omega)
  have hlength := length_varint_le (n := content.length) (k := 1) (by omega) (by omega)
  change (Varint.varint (8 * tag.toNat + 2) ++
    (Varint.varint content.length ++ content)).length ≤ _
  simp only [List.length_append]
  omega

/-- A name or a number. -/
theorem length_pvField_le {f : PvField} (h : f.Fits) (hknown : ∀ g, f ≠ .unknown g) :
    f.wire.encode.length ≤ 17 := by
  have htag : ∀ n, n < 128 → (Varint.varint n).length = 1 := by
    intro n hn
    rw [Varint.varint_small hn]
    rfl
  cases f with
  | name content =>
    have hlen : content.length < 16 := h
    have hall := length_bytes_le 1 (by decide) (show content.length < 128 by omega)
    exact Nat.le_trans hall (by omega)
  | bval b =>
    have hbit : (if b then 1 else 0 : UInt64).toNat < 128 := by cases b <;> decide
    change (Varint.varint 16 ++ Varint.varint (if b then 1 else 0 : UInt64).toNat).length ≤ 17
    rw [List.length_append, htag _ hbit, htag 16 (by omega)]
    omega
  | ival i =>
    have hlt := i.toInt64.toUInt64.toNat_lt
    have hnumber := length_varint_le (n := i.toInt64.toUInt64.toNat) (k := 10) (by omega) (by omega)
    change (Varint.varint 24 ++ Varint.varint i.toInt64.toUInt64.toNat).length ≤ 17
    rw [List.length_append, htag 24 (by omega)]
    omega
  | fval v =>
    change (Varint.varint 37 ++ LittleEndian.bytes v.toBits).length ≤ 17
    rw [List.length_append, htag 37 (by omega), LittleEndian.length_bytes]
    omega
  | unknown g => exact absurd rfl (hknown g)

theorem length_flatMap_le {κ : Type} {f : κ → List UInt8} {l : List κ} {n : Nat}
    (h : ∀ k ∈ l, (f k).length ≤ n) : (l.flatMap f).length ≤ l.length * n := by
  induction l with
  | nil => exact Nat.zero_le _
  | cons k l ih =>
    have hk := h k List.mem_cons_self
    have hl := ih fun k' hk' => h k' (List.mem_cons_of_mem k hk')
    rw [List.flatMap_cons, List.length_append, List.length_cons, Nat.succ_mul]
    omega

theorem length_pair_le {pv : ParamVal} (h : PairFits pv) :
    (encodePv (pvFields pv)).length ≤ 34 := by
  have hcount : (pvFields pv).length ≤ 2 := by
    unfold pvFields valueFields
    cases pv.value <;> simp
  have hall : (encodePv (pvFields pv)).length ≤ (pvFields pv).length * 17 := by
    refine length_flatMap_le fun f hf => length_pvField_le (fits_pvFields h f hf) ?_
    rintro g rfl
    unfold pvFields valueFields at hf
    cases hv : pv.value <;> simp [hv] at hf
  omega

/-! ### The whole range -/

/-- The pairs of a request, each as a field. -/
def setsOf (pairs : List ParamVal) : List ReqField := pairs.map fun pv => .set (pvFields pv)

theorem fits_setsOf {pairs : List ParamVal} (h : ∀ pv ∈ pairs, PairFits pv) :
    ∀ f ∈ setsOf pairs, f.Fits := by
  intro f hf
  obtain ⟨pv, hpv, rfl⟩ := List.mem_map.mp hf
  have hlen := length_pair_le (h pv hpv)
  exact ⟨fits_pvFields (h pv hpv), by omega⟩

theorem setOf_setsOf {pairs : List ParamVal} (h : ∀ pv ∈ pairs, PairFits pv) :
    (setsOf pairs).filterMap ReqField.setOf = pairs := by
  unfold setsOf
  rw [List.filterMap_map]
  refine (List.filterMap_congr fun pv hpv => ?_).trans List.filterMap_some
  exact congrArg some (pairOf_pvFields (h pv hpv))

/-- A pair says nothing else. -/
theorem filterMap_setsOf {α : Type} {g : ReqField → Option α} (hg : ∀ pair, g (.set pair) = none)
    (pairs : List ParamVal) : (setsOf pairs).filterMap g = [] := by
  rw [List.filterMap_eq_nil_iff]
  intro f hf
  obtain ⟨pv, -, rfl⟩ := List.mem_map.mp hf
  exact hg _

/-- **The decoder gives exactly the requests whose strings have room in their arrays and
whose integers have 32 bits: nothing else whatever the bytes, and each of these for some
bytes.** -/
theorem decodeReq_range (rq : Req) (pairs : List ParamVal) :
    (∃ body, decodeReq body = { pairs := pairs, req := some rq }) ↔ ReqFits (rq, pairs) := by
  constructor
  · rintro ⟨body, hbody⟩
    have hreq : (decodeReq body).req = some rq := by rw [hbody]
    have hfits := reqFits_of_decodeReq hreq
    rwa [hbody] at hfits
  · intro h
    obtain ⟨htype, htypeFits⟩ := cString_textBytes h.type
    obtain ⟨hssid, hssidFits⟩ := cString_textBytes h.ssid
    obtain ⟨hpass, hpassFits⟩ := cString_textBytes h.pass
    let l : List ReqField :=
      [.type (textBytes rq.type), .ssid (textBytes rq.ssid), .pass (textBytes rq.pass),
        .enabled rq.enabled] ++ setsOf pairs
    have hl : ∀ f ∈ l, f.Fits := by
      intro f hf
      rcases List.mem_append.mp hf with hfirst | hset
      · simp only [List.mem_cons, List.not_mem_nil, or_false] at hfirst
        rcases hfirst with rfl | rfl | rfl | rfl
        · exact htypeFits
        · exact hssidFits
        · exact hpassFits
        · trivial
      · exact fits_setsOf h.pairs f hset
    refine ⟨encodeReq l, ?_⟩
    rw [decodeReq_encodeReq hl]
    have hlast : reqOf l = rq := by
      unfold reqOf lastOf
      simp only [l, List.filterMap_append, filterMap_setsOf (g := ReqField.typeOf) fun _ => rfl,
        filterMap_setsOf (g := ReqField.ssidOf) fun _ => rfl,
        filterMap_setsOf (g := ReqField.passOf) fun _ => rfl,
        filterMap_setsOf (g := ReqField.enabledOf) fun _ => rfl, List.append_nil]
      change Req.mk (cString _) (cString _) (cString _) rq.enabled = rq
      rw [htype, hssid, hpass]
    have hsets : l.filterMap ReqField.setOf = pairs := by
      rw [List.filterMap_append, setOf_setsOf h.pairs]
      rfl
    rw [requestOf, hlast, hsets]

end web

end KartFirmware
