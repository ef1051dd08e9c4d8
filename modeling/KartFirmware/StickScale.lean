import KartFirmware.Input
import KartFirmware.StickArith

/-!
# What a calibration guarantees

A stick axis between `calStart` and `get`: the extremes that the Bluetooth hook
collects (`Collecting`), the half-amplitude that `calFinish` takes from them
(`IsAmplitude`), and the scale that `get` then applies to every raw value
(`AxisScaled`).

The two sides of a stick that is not centered have different travel.  The
half-amplitude is that of the longer side, so only its end maps to a unit and the
shorter side is not clamped either.
-/

set_option linter.unusedSectionVars false

namespace KartFirmware

namespace Input

variable {F : Type} [CFloat F]

/-! ### One axis -/

/-- One axis of `get`, before the clamp. -/
def scaleAxis (c h x : F) : F := if h > 0.05 then (x - c) / h else 0

/-- One axis of `get`, before `squareMap`. -/
def mapAxis (c h x : F) : F := stdClamp (scaleAxis c h x) (-1) 1

theorem mapStick_eq [CSqrt F] (cal : Calibration F) (x y : F) :
    mapStick cal x y =
      ctl.squareMap (mapAxis cal.cx cal.hx x) (mapAxis cal.cy cal.hy y) := rfl

/-- The largest distance of a position from the center. -/
structure IsAmplitude (c : F) (xs : List F) (h : F) : Prop where
  reached : ∃ x ∈ xs, h = CFloat.fabs (x - c)
  largest : ∀ x ∈ xs, CFloat.fabs (x - c) ≤ h

/-- Some position is far enough from the center. -/
def Sufficient (c : F) (xs : List F) : Prop := ∃ x ∈ xs, CFloat.fabs (x - c) > 0.2

/-- What the scale of an axis promises about the positions collected. -/
structure AxisScaled (Raw Number : F → Prop) (c h : F) (xs : List F) : Prop where
  unclamped : ∀ x ∈ xs, -1 ≤ scaleAxis c h x ∧ scaleAxis c h x ≤ 1 ∧
    mapAxis c h x = scaleAxis c h x
  center : mapAxis c h c = 0
  increasing : ∀ lo ∈ xs, ∀ hi ∈ xs, ∀ x y, Raw x → Raw y → lo ≤ x → x < y → y ≤ hi →
    mapAxis c h x < mapAxis c h y
  farthest : ∀ x ∈ xs, (∀ y ∈ xs, CFloat.fabs (y - c) ≤ CFloat.fabs (x - c)) →
    mapAxis c h x = if x < c then -1 else 1
  bounded : ∀ x, Number x → -1 ≤ mapAxis c h x ∧ mapAxis c h x ≤ 1

section Axis

variable (A : StickArith F) {c h x : F} {xs : List F}

theorem val_distance (hx : A.Raw x) (hc : A.Raw c) :
    A.Exact (CFloat.fabs (x - c)) ∧ A.val (CFloat.fabs (x - c)) = |A.val x - A.val c| := by
  obtain ⟨hsub, hval⟩ := A.sub hx hc
  obtain ⟨habs, hval'⟩ := A.fabs hsub
  exact ⟨habs, by rw [hval', hval]⟩

theorem IsAmplitude.exact (hamp : IsAmplitude c xs h) (hc : A.Raw c)
    (hxs : ∀ x ∈ xs, A.Raw x) : A.Exact h := by
  obtain ⟨x, hx, rfl⟩ := hamp.reached
  exact (val_distance A (hxs x hx) hc).1

theorem IsAmplitude.reach (hamp : IsAmplitude c xs h) (hc : A.Raw c)
    (hxs : ∀ x ∈ xs, A.Raw x) (hx : x ∈ xs) : |A.val x - A.val c| ≤ A.val h := by
  obtain ⟨hexact, hval⟩ := val_distance A (hxs x hx) hc
  rw [← hval, ← A.le_iff hexact (hamp.exact A hc hxs)]
  exact hamp.largest x hx

theorem IsAmplitude.sufficient_iff (hamp : IsAmplitude c xs h) (hc : A.Raw c)
    (hxs : ∀ x ∈ xs, A.Raw x) : h > 0.2 ↔ Sufficient c xs := by
  constructor
  · intro hsuff
    obtain ⟨x, hx, rfl⟩ := hamp.reached
    exact ⟨x, hx, hsuff⟩
  · rintro ⟨x, hx, hfar⟩
    obtain ⟨hexact, hval⟩ := val_distance A (hxs x hx) hc
    rw [A.sufficient hexact, hval] at hfar
    rw [A.sufficient (hamp.exact A hc hxs)]
    exact hfar.trans_le (hamp.reach A hc hxs hx)

/-- Between two collected positions no difference exceeds the half-amplitude. -/
theorem IsAmplitude.between (hamp : IsAmplitude c xs h) (hc : A.Raw c)
    (hxs : ∀ x ∈ xs, A.Raw x) {lo hi : F} (hlo : lo ∈ xs) (hhi : hi ∈ xs)
    (hlox : A.val lo ≤ A.val x) (hxhi : A.val x ≤ A.val hi) :
    |A.val x - A.val c| ≤ A.val h := by
  have hlow := (abs_le.mp (hamp.reach A hc hxs hlo)).1
  have hhigh := (abs_le.mp (hamp.reach A hc hxs hhi)).2
  exact abs_le.mpr ⟨by linarith, by linarith⟩

theorem scaleAxis_eq (hh : A.Exact h) (hsuff : h > 0.2) : scaleAxis c h x = (x - c) / h :=
  if_pos (A.usable hh ((A.sufficient hh).mp hsuff))

theorem val_pos (hh : A.Exact h) (hsuff : h > 0.2) : 0 < A.val h :=
  lt_trans (by norm_num) ((A.sufficient hh).mp hsuff)

theorem scaleAxis_mem (hx : A.Raw x) (hc : A.Raw c) (hh : A.Exact h) (hsuff : h > 0.2)
    (hle : |A.val x - A.val c| ≤ A.val h) :
    -1 ≤ scaleAxis c h x ∧ scaleAxis c h x ≤ 1 ∧ mapAxis c h x = scaleAxis c h x := by
  obtain ⟨hsub, hval⟩ := A.sub hx hc
  obtain ⟨hlo, hhi⟩ := A.div_mem hsub hh (val_pos A hh hsuff) (by rwa [hval])
  rw [mapAxis, scaleAxis_eq A hh hsuff]
  exact ⟨hlo, hhi, A.clamp_of_mem hlo hhi⟩

/-- **The scale of an axis.**  What the collected positions and the rest of the raw values
become of a half-amplitude that suffices. -/
theorem IsAmplitude.scaled (hamp : IsAmplitude c xs h) (hc : A.Raw c)
    (hxs : ∀ x ∈ xs, A.Raw x) (hsuff : h > 0.2) : AxisScaled A.Raw A.Number c h xs := by
  have hh := hamp.exact A hc hxs
  have hpos := val_pos A hh hsuff
  have hmap : ∀ {x}, A.Raw x → |A.val x - A.val c| ≤ A.val h → mapAxis c h x = (x - c) / h := by
    intro x hx hle
    rw [(scaleAxis_mem A hx hc hh hsuff hle).2.2, scaleAxis_eq A hh hsuff]
  refine ⟨?_, ?_, ?_, ?_, ?_⟩
  · intro x hx
    exact scaleAxis_mem A (hxs x hx) hc hh hsuff (hamp.reach A hc hxs hx)
  · obtain ⟨hsub, hval⟩ := A.sub hc hc
    rw [hmap hc (by rw [sub_self, abs_zero]; exact hpos.le)]
    exact A.div_zero hsub hh hpos (hval.trans (sub_self _))
  · intro lo hlo hi hhi x y hx hy hlox hxy hyhi
    have hexact : ∀ {z}, z ∈ xs → A.Exact z := fun hz => A.exact_of_raw (hxs _ hz)
    rw [A.le_iff (hexact hlo) (A.exact_of_raw hx)] at hlox
    rw [A.lt_iff (A.exact_of_raw hx) (A.exact_of_raw hy)] at hxy
    rw [A.le_iff (A.exact_of_raw hy) (hexact hhi)] at hyhi
    have hxh := hamp.between A hc hxs hlo hhi hlox (hxy.le.trans hyhi)
    have hyh := hamp.between A hc hxs hlo hhi (hlox.trans hxy.le) hyhi
    obtain ⟨hxc, hvalx⟩ := A.sub hx hc
    obtain ⟨hyc, hvaly⟩ := A.sub hy hc
    rw [hmap hx hxh, hmap hy hyh]
    exact A.div_lt hxc hyc hh (by rwa [hvalx]) (by rwa [hvaly]) (by linarith)
  · intro x hx hfar
    have hxr := hxs x hx
    have hle := hamp.reach A hc hxs hx
    have hge : A.val h ≤ |A.val x - A.val c| := by
      obtain ⟨x₀, hx₀, rfl⟩ := hamp.reached
      obtain ⟨hexact, hval⟩ := val_distance A hxr hc
      rw [← hval, ← A.le_iff (val_distance A (hxs x₀ hx₀) hc).1 hexact]
      exact hfar x₀ hx₀
    obtain ⟨hsub, hval⟩ := A.sub hxr hc
    rw [hmap hxr hle]
    split_ifs with hside
    · rw [A.lt_iff (A.exact_of_raw hxr) (A.exact_of_raw hc)] at hside
      rw [abs_of_neg (by linarith)] at hle hge
      exact A.div_neg_one hsub hh hpos (by linarith)
    · rw [A.lt_iff (A.exact_of_raw hxr) (A.exact_of_raw hc), not_lt] at hside
      rw [abs_of_nonneg (by linarith)] at hle hge
      exact A.div_one hsub hh hpos (by linarith)
  · intro x hx
    rw [mapAxis, scaleAxis_eq A hh hsuff]
    exact A.clamp_mem hx hc hh hpos

end Axis

/-! ### Collecting the extremes -/

/-- The position of a data frame on one axis. -/
def HidFrame.sample (axis : HidReport F → F) : HidFrame F → Option F
  | .data _ rep => some (axis rep)
  | .conn => none

/-- The positions of an attempt on one axis, from the center that `calStart` captures. -/
def collected (s : Input F) (axis : HidReport F → F) (frames : List (HidFrame F)) : List F :=
  axis s.raw :: frames.filterMap (HidFrame.sample axis)

/-- The extremes of what has been collected. -/
structure Extremes (A : StickArith F) (xs : List F) (lo hi : F) : Prop where
  raw : ∀ x ∈ xs, A.Raw x
  lo_mem : lo ∈ xs
  hi_mem : hi ∈ xs
  bounds : ∀ x ∈ xs, A.val lo ≤ A.val x ∧ A.val x ≤ A.val hi

section Extremes

variable {A : StickArith F} {c lo hi x : F} {xs : List F}

theorem Extremes.single (hx : A.Raw x) : Extremes A [x] x x where
  raw y hy := by rwa [List.mem_singleton.mp hy]
  lo_mem := List.mem_singleton_self x
  hi_mem := List.mem_singleton_self x
  bounds y hy := by
    rw [List.mem_singleton.mp hy]
    exact ⟨le_refl _, le_refl _⟩

/-- One report moves the extremes as far as it lies beyond them. -/
theorem Extremes.add (h : Extremes A xs lo hi) (hx : A.Raw x) :
    Extremes A (xs ++ [x]) (if x < lo then x else lo) (if x > hi then x else hi) := by
  have hexact := A.exact_of_raw hx
  have hlow : A.val (if x < lo then x else lo) ≤ A.val lo ∧
      A.val (if x < lo then x else lo) ≤ A.val x := by
    have hiff := A.lt_iff hexact (A.exact_of_raw (h.raw lo h.lo_mem))
    split_ifs with hlt
    · exact ⟨(hiff.mp hlt).le, le_refl _⟩
    · exact ⟨le_refl _, not_lt.mp fun hval => hlt (hiff.mpr hval)⟩
  have hhigh : A.val hi ≤ A.val (if x > hi then x else hi) ∧
      A.val x ≤ A.val (if x > hi then x else hi) := by
    have hiff := A.lt_iff (A.exact_of_raw (h.raw hi h.hi_mem)) hexact
    split_ifs with hgt
    · exact ⟨(hiff.mp hgt).le, le_refl _⟩
    · exact ⟨le_refl _, not_lt.mp fun hval => hgt (hiff.mpr hval)⟩
  have hold : ∀ {y}, y ∈ xs → y ∈ xs ++ [x] := fun hy => List.mem_append_left [x] hy
  have hnew : x ∈ xs ++ [x] := List.mem_append_right xs (List.mem_singleton_self x)
  refine ⟨?_, ?_, ?_, ?_⟩
  · intro y hy
    rcases List.mem_append.mp hy with hy | hy
    · exact h.raw y hy
    · rwa [List.mem_singleton.mp hy]
  · split_ifs
    · exact hnew
    · exact hold h.lo_mem
  · split_ifs
    · exact hnew
    · exact hold h.hi_mem
  · intro y hy
    rcases List.mem_append.mp hy with hy | hy
    · obtain ⟨hlo, hhi⟩ := h.bounds y hy
      exact ⟨hlow.1.trans hlo, hhi.trans hhigh.1⟩
    · rw [List.mem_singleton.mp hy]
      exact ⟨hlow.2, hhigh.2⟩

/-- The amplitude of the extremes is that of all positions: `std::max` picks the longer
side. -/
theorem Extremes.isAmplitude (h : Extremes A xs lo hi) (hc : c ∈ xs) :
    IsAmplitude c xs (stdMax (c - lo) (hi - c)) := by
  have hcr := h.raw c hc
  have hlor := h.raw lo h.lo_mem
  have hhir := h.raw hi h.hi_mem
  obtain ⟨hlosub, hloval⟩ := A.sub hcr hlor
  obtain ⟨hhisub, hhival⟩ := A.sub hhir hcr
  obtain ⟨hclo, hchi⟩ := h.bounds c hc
  have hmax : A.Exact (stdMax (c - lo) (hi - c)) ∧
      A.val (stdMax (c - lo) (hi - c)) = max (A.val c - A.val lo) (A.val hi - A.val c) := by
    have hiff := A.lt_iff hlosub hhisub
    rw [hloval, hhival] at hiff
    unfold stdMax
    split_ifs with hlt
    · exact ⟨hhisub, by rw [hhival, max_eq_right (hiff.mp hlt).le]⟩
    · have hle := not_lt.mp fun hval => hlt (hiff.mpr hval)
      exact ⟨hlosub, by rw [hloval, max_eq_left hle]⟩
  refine ⟨?_, ?_⟩
  · -- the end of the longer side
    rcases le_total (A.val c - A.val lo) (A.val hi - A.val c) with hle | hle
    · obtain ⟨hexact, hval⟩ := val_distance A hhir hcr
      refine ⟨hi, h.hi_mem, A.ext hmax.1 hexact ?_⟩
      rw [hmax.2, hval, max_eq_right hle, abs_of_nonneg (by linarith)]
    · obtain ⟨hexact, hval⟩ := val_distance A hlor hcr
      refine ⟨lo, h.lo_mem, A.ext hmax.1 hexact ?_⟩
      rw [hmax.2, hval, max_eq_left hle, abs_of_nonpos (by linarith), neg_sub]
  · intro x hx
    obtain ⟨hexact, hval⟩ := val_distance A (h.raw x hx) hcr
    obtain ⟨hlox, hxhi⟩ := h.bounds x hx
    rw [A.le_iff hexact hmax.1, hval, hmax.2]
    have hleft := le_max_left (A.val c - A.val lo) (A.val hi - A.val c)
    have hright := le_max_right (A.val c - A.val lo) (A.val hi - A.val c)
    exact abs_le.mpr ⟨by linarith, by linarith⟩

end Extremes

/-- A collection under way, with the positions so far. -/
structure Collecting (A : StickArith F) (xs ys : List F) (s : Input F) : Prop where
  state : s.calState = 1
  connected : s.connected = true
  extremesX : Extremes A xs s.minX s.maxX
  extremesY : Extremes A ys s.minY s.maxY

section Collecting

variable {A : StickArith F} {s : Input F} {xs ys : List F}

theorem Collecting.start {now : Int} (haccepted : s.padDataFresh now = true)
    (hx : A.Raw s.raw.x) (hy : A.Raw s.raw.y) :
    Collecting A [s.raw.x] [s.raw.y] (s.calStart false now) := by
  have hconnected : s.connected = true := (Bool.and_eq_true_iff.mp haccepted).1
  rw [calStart_accepted haccepted]
  exact ⟨rfl, hconnected, Extremes.single hx, Extremes.single hy⟩

theorem Collecting.frame (h : Collecting A xs ys s) (frame : HidFrame F)
    (hx : ∀ x ∈ frame.sample (·.x), A.Raw x) (hy : ∀ y ∈ frame.sample (·.y), A.Raw y) :
    Collecting A (xs ++ (frame.sample (·.x)).toList) (ys ++ (frame.sample (·.y)).toList)
      (s.onFrame frame) := by
  cases frame with
  | data now rep =>
    have hmoved : s.onFrame (.data now rep) =
        { s with
          lastReportUs := now
          raw := rep
          minX := if rep.x < s.minX then rep.x else s.minX
          maxX := if rep.x > s.maxX then rep.x else s.maxX
          minY := if rep.y < s.minY then rep.y else s.minY
          maxY := if rep.y > s.maxY then rep.y else s.maxY } := if_pos h.state
    rw [hmoved]
    exact ⟨h.state, h.connected, h.extremesX.add (hx _ rfl), h.extremesY.add (hy _ rfl)⟩
  | conn =>
    have hnone : ∀ zs : List F, zs ++ (none : Option F).toList = zs := List.append_nil
    have hkept : s.onFrame .conn = { s with connected := true, pairing := false } := rfl
    rw [hkept]
    exact ⟨h.state, rfl, (hnone xs).symm ▸ h.extremesX, (hnone ys).symm ▸ h.extremesY⟩

/-- By induction over the frames. -/
theorem Collecting.run (h : Collecting A xs ys s) (frames : List (HidFrame F))
    (hx : ∀ x ∈ frames.filterMap (HidFrame.sample (·.x)), A.Raw x)
    (hy : ∀ y ∈ frames.filterMap (HidFrame.sample (·.y)), A.Raw y) :
    Collecting A (xs ++ frames.filterMap (HidFrame.sample (·.x)))
      (ys ++ frames.filterMap (HidFrame.sample (·.y))) (frames.foldl onFrame s) := by
  induction frames generalizing s xs ys with
  | nil =>
    rw [List.filterMap_nil, List.filterMap_nil, List.append_nil, List.append_nil]
    exact h
  | cons frame frames ih =>
    have hcons : ∀ axis : HidReport F → F, (frame :: frames).filterMap (HidFrame.sample axis) =
        (frame.sample axis).toList ++ frames.filterMap (HidFrame.sample axis) := by
      intro axis
      cases hsample : frame.sample axis with
      | none => rw [List.filterMap_cons_none hsample]; rfl
      | some x => rw [List.filterMap_cons_some hsample]; rfl
    rw [hcons] at hx hy
    rw [hcons, hcons, ← List.append_assoc, ← List.append_assoc]
    have hfirst : ∀ {axis : HidReport F → F} {x}, x ∈ frame.sample axis →
        x ∈ (frame.sample axis).toList ++ frames.filterMap (HidFrame.sample axis) :=
      fun hmem => List.mem_append_left _ (Option.mem_toList.mpr hmem)
    refine ih (h.frame frame (fun x hmem => hx x (hfirst hmem))
      (fun y hmem => hy y (hfirst hmem))) ?_ ?_
    · exact fun x hmem => hx x (List.mem_append_right _ hmem)
    · exact fun y hmem => hy y (List.mem_append_right _ hmem)

end Collecting

/-! ### The outcome of an attempt -/

/-- The calibration that `calFinish` has taken over: the scale, what `get` makes of any
later report, and the stored copy. -/
structure TakenOver [CSqrt F] (Raw Number : F → Prop) (s : Input F)
    (frames : List (HidFrame F)) (r : PadNvsResults) (s' : Input F) : Prop where
  calibrated : s'.cal.calibrated = true
  center : s'.cal.cx = s.raw.x ∧ s'.cal.cy = s.raw.y
  amplitudeX : IsAmplitude s.raw.x (s.collected (·.x) frames) s'.cal.hx
  amplitudeY : IsAmplitude s.raw.y (s.collected (·.y) frames) s'.cal.hy
  scaledX : AxisScaled Raw Number s.raw.x s'.cal.hx (s.collected (·.x) frames)
  scaledY : AxisScaled Raw Number s.raw.y s'.cal.hy (s.collected (·.y) frames)
  map : ∀ now rep, ((s'.onData now rep).get.x, (s'.onData now rep).get.y) =
    ctl.squareMap (mapAxis s.raw.x s'.cal.hx rep.x) (mapAxis s.raw.y s'.cal.hy rep.y)
  stored : r.opens = true → r.setsBlob = true → r.setsOk = true →
    ∀ t : Input F, t.nvs = s'.nvs → (t.calLoad true).cal = s'.cal

/-- What an accepted `calStart`, frames and a `calFinish` come to. -/
structure Guarantee [CSqrt F] (Raw Number : F → Prop) (s : Input F) (now : Int)
    (frames : List (HidFrame F)) (now' : Int) (r : PadNvsResults) : Prop where
  taken : (frames.foldl onFrame (s.calStart false now)).padDataFresh now' = true →
    Sufficient s.raw.x (s.collected (·.x) frames) →
    Sufficient s.raw.y (s.collected (·.y) frames) →
    TakenOver Raw Number s frames r (s.attempt now frames (.finish now' r))
  kept : ¬ ((frames.foldl onFrame (s.calStart false now)).padDataFresh now' = true ∧
      Sufficient s.raw.x (s.collected (·.x) frames) ∧
      Sufficient s.raw.y (s.collected (·.y) frames)) →
    (s.attempt now frames (.finish now' r)).cal = { s.cal with cx := s.raw.x, cy := s.raw.y } ∧
      (s.attempt now frames (.finish now' r)).nvs = s.nvs

theorem calSave_frame (s : Input F) (r : PadNvsResults) :
    (s.calSave r).cal = s.cal ∧ (s.calSave r).connected = s.connected ∧
      (s.calSave r).calState = s.calState := by
  unfold calSave
  split_ifs <;> exact ⟨rfl, rfl, rfl⟩

/-- What has been saved is loaded again, into whatever state. -/
theorem calLoad_calSave {s t : Input F} {r : PadNvsResults} (hopens : r.opens = true)
    (hblob : r.setsBlob = true) (hok : r.setsOk = true) (ht : t.nvs = (s.calSave r).nvs) :
    (t.calLoad true).cal = s.cal := by
  have hsaved : (s.calSave r).nvs =
      { cal := some (s.cal.cx, s.cal.cy, s.cal.hx, s.cal.hy)
        ok := some (if s.cal.calibrated then 1 else 0) } := by
    rw [calSave, if_pos hopens, if_pos hblob, if_pos hok]
  rw [hsaved] at ht
  rw [calLoad, if_pos rfl, ht]
  cases hcal : s.cal with
  | mk calibrated cx cy hx hy => cases calibrated <;> rfl

theorem calFinish_of_accepts {s : Input F} {now : Int} {r : PadNvsResults}
    (hstate : s.calState = 1) (haccepts : s.finishAccepts now = true) :
    s.calFinish now r =
      calSave { s with
        calState := 0
        cal := { s.cal with hx := s.amplitudeX, hy := s.amplitudeY, calibrated := true } } r := by
  rw [finishAccepts, Bool.and_eq_true_iff, Bool.and_eq_true_iff, decide_eq_true_iff,
    decide_eq_true_iff] at haccepts
  obtain ⟨⟨hfresh, hampx⟩, hampy⟩ := haccepts
  have hstale : ¬ (!s.padDataFresh now) = true := by rw [hfresh]; exact Bool.noConfusion
  rw [calFinish, if_neg (not_not.mpr hstate)]
  exact (if_neg hstale).trans (if_pos ⟨hampx, hampy⟩)

/-- `get`, after a further report, for a calibrated gamepad at rest. -/
theorem get_onData [CSqrt F] {s : Input F} (hconnected : s.connected = true)
    (hcalibrated : s.cal.calibrated = true) (hstate : s.calState = 0) (now : Int)
    (rep : HidReport F) :
    ((s.onData now rep).get.x, (s.onData now rep).get.y) = mapStick s.cal rep.x rep.y := by
  have hdata : s.onData now rep = { s with lastReportUs := now, raw := rep } :=
    if_neg (by rw [hstate]; exact zero_ne_one)
  rw [hdata]
  simp only [get, hconnected, hcalibrated, hstate]
  rfl

section Outcome

variable (A : StickArith F) {s : Input F} {now : Int} {frames : List (HidFrame F)}

/-- The state in which `calFinish` finds a collection. -/
theorem collecting_frames (haccepted : s.padDataFresh now = true)
    (hx : ∀ x ∈ s.collected (·.x) frames, A.Raw x)
    (hy : ∀ y ∈ s.collected (·.y) frames, A.Raw y) :
    Collecting A (s.collected (·.x) frames) (s.collected (·.y) frames)
      (frames.foldl onFrame (s.calStart false now)) := by
  have hstart := Collecting.start haccepted (hx _ (List.mem_cons_self ..))
    (hy _ (List.mem_cons_self ..))
  exact hstart.run frames (fun x hmem => hx x (List.mem_cons_of_mem _ hmem))
    (fun y hmem => hy y (List.mem_cons_of_mem _ hmem))

theorem cal_frames (haccepted : s.padDataFresh now = true) :
    (frames.foldl onFrame (s.calStart false now)).cal =
      { s.cal with cx := s.raw.x, cy := s.raw.y } := by
  rw [(foldl_onFrame frames _).1, calStart_accepted haccepted]

theorem amplitude_frames (haccepted : s.padDataFresh now = true)
    (hx : ∀ x ∈ s.collected (·.x) frames, A.Raw x)
    (hy : ∀ y ∈ s.collected (·.y) frames, A.Raw y) :
    IsAmplitude s.raw.x (s.collected (·.x) frames)
        (frames.foldl onFrame (s.calStart false now)).amplitudeX ∧
      IsAmplitude s.raw.y (s.collected (·.y) frames)
        (frames.foldl onFrame (s.calStart false now)).amplitudeY := by
  have hcollecting := collecting_frames A haccepted hx hy
  rw [amplitudeX, amplitudeY, cal_frames haccepted]
  exact ⟨hcollecting.extremesX.isAmplitude (List.mem_cons_self ..),
    hcollecting.extremesY.isAmplitude (List.mem_cons_self ..)⟩

theorem finishAccepts_iff (haccepted : s.padDataFresh now = true)
    (hx : ∀ x ∈ s.collected (·.x) frames, A.Raw x)
    (hy : ∀ y ∈ s.collected (·.y) frames, A.Raw y) (now' : Int) :
    (frames.foldl onFrame (s.calStart false now)).finishAccepts now' = true ↔
      (frames.foldl onFrame (s.calStart false now)).padDataFresh now' = true ∧
        Sufficient s.raw.x (s.collected (·.x) frames) ∧
        Sufficient s.raw.y (s.collected (·.y) frames) := by
  obtain ⟨hampx, hampy⟩ := amplitude_frames A haccepted hx hy
  rw [finishAccepts, Bool.and_eq_true_iff, Bool.and_eq_true_iff, decide_eq_true_iff,
    decide_eq_true_iff, hampx.sufficient_iff A (hx _ (List.mem_cons_self ..)) hx,
    hampy.sufficient_iff A (hy _ (List.mem_cons_self ..)) hy, and_assoc]

/-- The end that succeeds. -/
theorem takenOver_of_accepts [CSqrt F] (haccepted : s.padDataFresh now = true)
    (hx : ∀ x ∈ s.collected (·.x) frames, A.Raw x)
    (hy : ∀ y ∈ s.collected (·.y) frames, A.Raw y) {now' : Int} {r : PadNvsResults}
    (haccepts : (frames.foldl onFrame (s.calStart false now)).finishAccepts now' = true) :
    TakenOver A.Raw A.Number s frames r (s.attempt now frames (.finish now' r)) := by
  have hcollecting := collecting_frames A haccepted hx hy
  obtain ⟨hampx, hampy⟩ := amplitude_frames A haccepted hx hy
  have hxr := hx s.raw.x (List.mem_cons_self ..)
  have hyr := hy s.raw.y (List.mem_cons_self ..)
  obtain ⟨-, hsuffx, hsuffy⟩ := (finishAccepts_iff A haccepted hx hy now').mp haccepts
  have hcal : (frames.foldl onFrame (s.calStart false now)).cal = _ := cal_frames haccepted
  have hattempt : s.attempt now frames (.finish now' r) =
      (frames.foldl onFrame (s.calStart false now)).calFinish now' r := rfl
  rw [hattempt, calFinish_of_accepts hcollecting.state haccepts]
  generalize frames.foldl onFrame (s.calStart false now) = u at *
  obtain ⟨u', hu'⟩ : ∃ u' : Input F, u' = { u with
      calState := 0
      cal := { u.cal with hx := u.amplitudeX, hy := u.amplitudeY, calibrated := true } } :=
    ⟨_, rfl⟩
  rw [← hu']
  have hnew : u'.cal = ⟨true, s.raw.x, s.raw.y, u.amplitudeX, u.amplitudeY⟩ := by
    rw [hu', hcal]
  obtain ⟨hcal', hconnected', hstate'⟩ := calSave_frame u' r
  have hhx : (u'.calSave r).cal.hx = u.amplitudeX := by rw [hcal', hnew]
  have hhy : (u'.calSave r).cal.hy = u.amplitudeY := by rw [hcal', hnew]
  refine ⟨?_, ?_, ?_, ?_, ?_, ?_, ?_, ?_⟩
  · rw [hcal', hnew]
  · rw [hcal', hnew]
    exact ⟨rfl, rfl⟩
  · rwa [hhx]
  · rwa [hhy]
  · rw [hhx]
    exact hampx.scaled A hxr hx ((hampx.sufficient_iff A hxr hx).mpr hsuffx)
  · rw [hhy]
    exact hampy.scaled A hyr hy ((hampy.sufficient_iff A hyr hy).mpr hsuffy)
  · intro now rep
    have hconnected : (u'.calSave r).connected = true := by
      rw [hconnected', hu']
      exact hcollecting.connected
    have hget := get_onData hconnected (by rw [hcal', hnew]) (by rw [hstate', hu']) now rep
    rw [hget, mapStick_eq, hcal', hnew]
  · intro hopens hblob hok t ht
    rw [calLoad_calSave hopens hblob hok ht, hcal']

/-- **What a calibration guarantees**, in any arithmetic that will do. -/
theorem attempt_guarantee [CSqrt F] (haccepted : s.padDataFresh now = true)
    (hx : ∀ x ∈ s.collected (·.x) frames, A.Raw x)
    (hy : ∀ y ∈ s.collected (·.y) frames, A.Raw y) (now' : Int) (r : PadNvsResults) :
    Guarantee A.Raw A.Number s now frames now' r := by
  have hiff := finishAccepts_iff A haccepted hx hy now'
  constructor
  · intro hfresh hsuffx hsuffy
    exact takenOver_of_accepts A haccepted hx hy (hiff.mpr ⟨hfresh, hsuffx, hsuffy⟩)
  · intro hnot
    rw [← hiff, Bool.not_eq_true] at hnot
    exact attempt_of_fails haccepted (e := .finish now' r) hnot

end Outcome

/-- **What a successful calibration guarantees.**  In exact arithmetic for all raw values,
and in binary32 for those that the Bluetooth backend reports. -/
theorem calibration_guarantee :
    (∀ [CSqrt ℚ] (s : Input ℚ) (now : Int) (frames : List (HidFrame ℚ)) (now' : Int)
      (r : PadNvsResults), s.padDataFresh now = true →
        Guarantee (fun _ => True) (fun _ => True) s now frames now' r) ∧
    (∀ (s : Input Float32) (now : Int) (frames : List (HidFrame Float32)) (now' : Int)
      (r : PadNvsResults), s.padDataFresh now = true →
        (∀ x ∈ s.collected (·.x) frames, BackendAxis x) →
        (∀ y ∈ s.collected (·.y) frames, BackendAxis y) →
        Guarantee BackendAxis (fun x => ¬ x.isNaN) s now frames now' r) := by
  constructor
  · intro _ s now frames now' r haccepted
    exact attempt_guarantee StickArith.exact haccepted (fun _ _ => trivial) (fun _ _ => trivial)
      now' r
  · intro s now frames now' r haccepted hx hy
    exact attempt_guarantee StickArith.binary32 haccepted hx hy now' r

end Input

/-- Both axes of the bench gamepad to their ends: the center has been captured half right,
so the left side of the stick has three times the travel of the right. -/
def benchSweep : List (Input.HidFrame Float32) :=
  [.data 2100 { (Input.noReport : HidReport Float32) with x := axisValue 511, y := axisValue 512 },
    .data 2200 { (Input.noReport : HidReport Float32) with
      x := axisValue (-512), y := axisValue (-511) }]

theorem calibration_guarantee_bench :
    Input.TakenOver BackendAxis (fun x => ¬ x.isNaN) benchInput benchSweep ⟨true, true, true⟩
      (benchInput.attempt 2000 benchSweep (.finish 2300 ⟨true, true, true⟩)) := by
  have hcenter : benchInput.raw.x = axisValue 256 ∧ benchInput.raw.y = axisValue 0 := by
    decide +kernel
  have hx : benchInput.collected (·.x) benchSweep =
      [benchInput.raw.x, axisValue 511, axisValue (-512)] := rfl
  have hy : benchInput.collected (·.y) benchSweep =
      [benchInput.raw.y, axisValue 512, axisValue (-511)] := rfl
  have haxis : ∀ {n : Int}, n.natAbs ≤ 512 → BackendAxis (axisValue n) :=
    fun hn => ⟨_, by omega, rfl⟩
  refine (Input.calibration_guarantee.2 benchInput 2000 benchSweep 2300 ⟨true, true, true⟩
    (by decide +kernel) ?_ ?_).taken (by decide +kernel) ?_ ?_
  · rw [hx, hcenter.1]
    simp only [List.forall_mem_cons, List.not_mem_nil, false_implies, implies_true, and_true]
    exact ⟨haxis (by decide), haxis (by decide), haxis (by decide)⟩
  · rw [hy, hcenter.2]
    simp only [List.forall_mem_cons, List.not_mem_nil, false_implies, implies_true, and_true]
    exact ⟨haxis (by decide), haxis (by decide), haxis (by decide)⟩
  · rw [hx]
    exact ⟨axisValue (-512), by simp, by decide +kernel⟩
  · rw [hy]
    exact ⟨axisValue 512, by simp, by decide +kernel⟩

end KartFirmware
