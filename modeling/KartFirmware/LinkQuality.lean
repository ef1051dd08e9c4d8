import KartFirmware.Mealy
import Mathlib.Data.Int.Order.Basic
import Mathlib.Data.List.GetD
import Mathlib.Order.MinMax
import Mathlib.Tactic.IntervalCases
import Mathlib.Tactic.SplitIfs

/-!
# The quality of the gamepad link

The part of the hooks in `input.cpp` that times the reports: a histogram of the gaps between
two reports, which only counts up, and the worst gap of the last complete window of a second.
A call of a hook is one step.  The Bluetooth task makes them all but one: a request to unpair
ends with a disconnection of its own, which is taken not to fall into the middle of a report.

A gap is between two reports with no disconnection in between (`gapAt`).  The histogram counts
the gaps bucket by bucket, modulo `2^32`, so the difference of two reads of a bucket is what
came in between (`link_quality`); the two reads of different buckets need not be at one time.
The windows are closed by the first report that comes a second after the last closing
(`closings`), and they follow each other without a break, so that every gap is seen in one.
-/

namespace KartFirmware

namespace input

/-! ### The module -/

def GAP_BUCKETS : Nat := 6

def GAP_EDGES_US : List Int := [15000, 30000, 60000, 120000, 250000]

structure GapStats where
  hist : Nat → UInt32
  max1sMs : UInt32
  /-- 0: no previous report on this connection. -/
  prevReportUs : Int
  winStartUs : Int
  winMaxUs : UInt32

def GapStats.init : GapStats where
  hist _ := 0
  max1sMs := 0
  prevReportUs := 0
  winStartUs := 0
  winMaxUs := 0

/-- The loop over the edges. -/
def gapBucketFrom (gap : Int) : List Int → Nat
  | [] => 0
  | edge :: edges => if gap > edge then gapBucketFrom gap edges + 1 else 0

def gapBucket (gap : Int) : Nat := gapBucketFrom gap GAP_EDGES_US

namespace GapStats

/-- One more gap, whose low 32 bits are kept as the worst of the window. -/
def gap (s : GapStats) (gap : Int) : GapStats :=
  { s with
    hist := Function.update s.hist (gapBucket gap) (s.hist (gapBucket gap) + 1)
    winMaxUs := if gap > s.winMaxUs.toNat then UInt32.ofInt gap else s.winMaxUs }

/-- `inputbp_on_data`, as far as the statistics go. -/
def onData (s : GapStats) (now : Int) : GapStats :=
  let s := if s.prevReportUs ≠ 0 then s.gap (now - s.prevReportUs) else s
  let s := { s with prevReportUs := now }
  if now - s.winStartUs ≥ 1000000 then
    { s with max1sMs := s.winMaxUs / 1000, winMaxUs := 0, winStartUs := now }
  else s

/-- `inputbp_on_conn`: the gap of a reconnection is no sample. -/
def onConn (s : GapStats) (connected : Bool) : GapStats :=
  if connected then s else { s with prevReportUs := 0 }

end GapStats

inductive LinkEvent where
  | report (now : Int)
  | conn (connected : Bool)

def linkMachine : Mealy.Machine GapStats LinkEvent Unit where
  init := .init
  step s e :=
    (match e with
    | .report now => s.onData now
    | .conn connected => s.onConn connected, ())

/-! ### What happened on the link -/

section History

variable (w : Nat → LinkEvent)

/-- The last report before step `n` on the connection of step `n`. -/
def lastReport : Nat → Option Int
  | 0 => none
  | n + 1 =>
    match w n with
    | .report now => some now
    | .conn true => lastReport n
    | .conn false => none

/-- The gap that the report of step `n` ends. -/
def gapAt (n : Nat) : Option Int :=
  match w n with
  | .report now => (lastReport w n).map (now - ·)
  | .conn _ => none

/-- The time at which step `n` closes a window that began at `start`. -/
def closesAt (start : Int) (n : Nat) : Option Int :=
  match w n with
  | .report now => if now - start ≥ 1000000 then some now else none
  | .conn _ => none

/-- The time at which the window after some closed ones began: the first one at the boot. -/
def windowStart : List (Nat × Int) → Int
  | [] => 0
  | c :: _ => c.2

/-- The windows closed by the first `n` steps, the last one first: each with its last step and
the time of that step. -/
def closings : Nat → List (Nat × Int)
  | 0 => []
  | n + 1 =>
    match closesAt w (windowStart (closings n)) n with
    | some now => (n, now) :: closings n
    | none => closings n

/-- The gaps of the steps from `m` on and before `n`. -/
def gapsIn (m n : Nat) : List Int := ((List.range n).drop m).filterMap (gapAt w)

/-- The worst of some gaps. -/
def worst (gaps : List Int) : Int := gaps.foldr max 0

/-- The step after the last closing. -/
def opened : List (Nat × Int) → Nat
  | [] => 0
  | c :: _ => c.1 + 1

/-- The worst gap of the last complete window. -/
def worstClosed : List (Nat × Int) → Int
  | [] => 0
  | c :: cs => worst (gapsIn w (opened cs) (c.1 + 1))

/-- The gaps of the closed windows, one window after the other. -/
def closedGaps : List (Nat × Int) → List Int
  | [] => []
  | c :: cs => closedGaps cs ++ gapsIn w (opened cs) (c.1 + 1)

/-- How many gaps of the bucket `b` the steps before `n` have ended. -/
def gapCount (b n : Nat) : Nat := (gapsIn w 0 n).countP fun gap => gapBucket gap = b

end History

/-! ### The buckets -/

/-- The bucket `b`: beyond the edges before it, and up to its own. -/
def InBucket (b : Nat) (gap : Int) : Prop :=
  (∀ edge ∈ GAP_EDGES_US.take b, edge < gap) ∧ ∀ edge ∈ GAP_EDGES_US[b]?, gap ≤ edge

instance (b : Nat) (gap : Int) : Decidable (InBucket b gap) :=
  inferInstanceAs (Decidable (_ ∧ _))

theorem gapBucketFrom_spec (gap : Int) (edges : List Int) :
    gapBucketFrom gap edges ≤ edges.length ∧
      (∀ edge ∈ edges.take (gapBucketFrom gap edges), edge < gap) ∧
      ∀ edge ∈ edges[gapBucketFrom gap edges]?, gap ≤ edge := by
  induction edges with
  | nil => exact ⟨le_rfl, by simp [gapBucketFrom], by simp⟩
  | cons first edges ih =>
    obtain ⟨hlen, hbeyond, hupto⟩ := ih
    rw [gapBucketFrom]
    split_ifs with hgap
    · refine ⟨Nat.succ_le_succ hlen, ?_, hupto⟩
      rw [List.take_succ_cons, List.forall_mem_cons]
      exact ⟨hgap, hbeyond⟩
    · refine ⟨Nat.zero_le _, by simp, ?_⟩
      rintro _ ⟨⟩
      exact not_lt.mp hgap

/-- A gap has one bucket, and the table has a place for it. -/
theorem gapBucket_spec (gap : Int) : gapBucket gap < GAP_BUCKETS ∧ InBucket (gapBucket gap) gap :=
  ⟨Nat.lt_succ_of_le (gapBucketFrom_spec gap GAP_EDGES_US).1,
    (gapBucketFrom_spec gap GAP_EDGES_US).2⟩

/-- Of two buckets that a gap is in the first is not before the second. -/
theorem InBucket.not_lt {b c : Nat} {gap : Int} (hb : InBucket b gap) (hc : InBucket c gap)
    (hplace : c < GAP_BUCKETS) : ¬ b < c := by
  intro hbc
  have hlen : b < GAP_EDGES_US.length := Nat.lt_of_lt_of_le hbc (Nat.le_of_lt_succ hplace)
  have hedge : GAP_EDGES_US[b] ∈ GAP_EDGES_US.take c :=
    List.mem_take_iff_getElem.mpr ⟨b, lt_min hbc hlen, rfl⟩
  have hupto := hb.2 _ (List.getElem?_eq_getElem hlen)
  exact absurd (hc.1 _ hedge) (Int.not_lt.mpr hupto)

theorem inBucket_iff {b : Nat} (hplace : b < GAP_BUCKETS) (gap : Int) :
    InBucket b gap ↔ gapBucket gap = b := by
  obtain ⟨hlt, hin⟩ := gapBucket_spec gap
  constructor
  · intro hb
    exact le_antisymm (Nat.le_of_not_lt (hb.not_lt hin hlt)) (Nat.le_of_not_lt (hin.not_lt hb hplace))
  · rintro rfl
    exact hin

/-! ### One step of the history -/

section Steps

variable (w : Nat → LinkEvent)

theorem gapsIn_succ {m n : Nat} (h : m ≤ n) :
    gapsIn w m (n + 1) = gapsIn w m n ++ (gapAt w n).toList := by
  have hlen : m ≤ (List.range n).length := by rwa [List.length_range]
  rw [gapsIn, gapsIn, List.range_succ, List.drop_append_of_le_length hlen, List.filterMap_append]
  cases hgap : gapAt w n <;> simp [hgap]

theorem gapsIn_self (n : Nat) : gapsIn w n n = [] := by
  rw [gapsIn, List.drop_of_length_le (by rw [List.length_range])]
  rfl

theorem gapsIn_append {m n k : Nat} (hmn : m ≤ n) (hnk : n ≤ k) :
    gapsIn w m n ++ gapsIn w n k = gapsIn w m k := by
  induction k, hnk using Nat.le_induction with
  | base => rw [gapsIn_self, List.append_nil]
  | succ k hnk ih => rw [gapsIn_succ w hnk, ← List.append_assoc, ih, gapsIn_succ w (hmn.trans hnk)]

theorem worst_concat (gaps : List Int) (gap : Int) :
    worst (gaps ++ [gap]) = max (worst gaps) gap := by
  induction gaps with
  | nil => exact max_comm gap 0
  | cons first gaps ih =>
    calc worst (first :: gaps ++ [gap]) = max first (worst (gaps ++ [gap])) := rfl
      _ = max first (max (worst gaps) gap) := by rw [ih]
      _ = max (worst (first :: gaps)) gap := (max_assoc ..).symm

/-- A window is open behind the last closing. -/
theorem opened_le (n : Nat) : opened (closings w n) ≤ n := by
  induction n with
  | zero => exact le_rfl
  | succ n ih =>
    rw [closings]
    cases closesAt w (windowStart (closings w n)) n with
    | none => exact Nat.le_succ_of_le ih
    | some now => exact le_rfl

/-- The closed windows and the open one hold the gaps, each of them once and in order. -/
theorem closed_open (n : Nat) :
    closedGaps w (closings w n) ++ gapsIn w (opened (closings w n)) n = gapsIn w 0 n := by
  induction n with
  | zero => rfl
  | succ n ih =>
    have hopen := gapsIn_succ w (opened_le w n)
    rw [closings]
    cases closesAt w (windowStart (closings w n)) n with
    | none => rw [hopen, ← List.append_assoc, ih, gapsIn_succ w (Nat.zero_le n)]
    | some now =>
      rw [closedGaps, opened, gapsIn_self, List.append_nil, hopen, ← List.append_assoc, ih,
        gapsIn_succ w (Nat.zero_le n)]

/-- A window is at least a second long. -/
theorem closings_apart (n : Nat) :
    (closings w n).IsChain fun c c' => c.2 - c'.2 ≥ 1000000 := by
  induction n with
  | zero => exact .nil
  | succ n ih =>
    rw [closings]
    cases hclose : closesAt w (windowStart (closings w n)) n with
    | none => exact ih
    | some now =>
      have hlong : now - windowStart (closings w n) ≥ 1000000 := by
        unfold closesAt at hclose
        cases hw : w n with
        | conn connected => simp [hw] at hclose
        | report t =>
          rw [hw] at hclose
          dsimp only at hclose
          split_ifs at hclose with hlate
          exact Option.some.inj hclose ▸ hlate
      cases hcs : closings w n with
      | nil => exact .singleton _
      | cons c cs =>
        rw [hcs] at ih hlong
        exact List.isChain_cons_cons.mpr ⟨hlong, ih⟩

/-! ### The module tells the history -/

def statsAt (n : Nat) : GapStats := linkMachine.stateAt w n

/-- What the module knows after `n` steps, the windows apart. -/
structure Tells (n : Nat) (s : GapStats) : Prop where
  prev : s.prevReportUs = (lastReport w n).getD 0
  hist : ∀ b, s.hist b = UInt32.ofNat (gapCount w b n)
  start : s.winStartUs = windowStart (closings w n)

/-- What it knows of the windows. -/
structure TellsWorst (n : Nat) (s : GapStats) : Prop where
  openWindow : (s.winMaxUs.toNat : Int) = worst (gapsIn w (opened (closings w n)) n)
  lastWindow : (s.max1sMs.toNat : Int) = worstClosed w (closings w n) / 1000

variable {w}

theorem gapCount_succ (b n : Nat) :
    gapCount w b (n + 1) =
      gapCount w b n + (gapAt w n).toList.countP fun gap => gapBucket gap = b := by
  rw [gapCount, gapsIn_succ w (Nat.zero_le n), List.countP_append, gapCount]

/-- A report is at a positive time, so a zero says that there is none. -/
theorem lastReport_pos (hpos : ∀ n now, w n = .report now → 0 < now) (n : Nat) {prev : Int}
    (h : lastReport w n = some prev) : 0 < prev := by
  induction n with
  | zero => simp [lastReport] at h
  | succ n ih =>
    rw [lastReport] at h
    cases hw : w n with
    | report now =>
      rw [hw] at h
      obtain rfl : now = prev := Option.some.inj h
      exact hpos n now hw
    | conn connected =>
      rw [hw] at h
      cases connected with
      | true => exact ih h
      | false => simp at h

/-! ### One step of the module -/

/-- The statistics after the gap of a step, if it ends one. -/
def GapStats.gapOf (s : GapStats) (gap : Option Int) : GapStats := gap.elim s s.gap

@[simp] theorem gapOf_winStartUs (s : GapStats) (gap : Option Int) :
    (s.gapOf gap).winStartUs = s.winStartUs := by
  cases gap <;> rfl

@[simp] theorem gapOf_max1sMs (s : GapStats) (gap : Option Int) :
    (s.gapOf gap).max1sMs = s.max1sMs := by
  cases gap <;> rfl

theorem gapOf_hist (s : GapStats) (gap : Option Int) (b : Nat) :
    (s.gapOf gap).hist b =
      s.hist b + UInt32.ofNat (gap.toList.countP fun gap => gapBucket gap = b) := by
  cases gap with
  | none => exact (UInt32.add_zero _).symm
  | some gap =>
    change Function.update s.hist (gapBucket gap) (s.hist (gapBucket gap) + 1) b = _
    by_cases hb : gapBucket gap = b
    · subst hb
      simp
    · rw [Function.update_of_ne (Ne.symm hb)]
      simp [hb]

/-- The worst gap fits its variable, if every gap does. -/
theorem gapOf_winMaxUs {s : GapStats} {gaps : List Int} {gap : Option Int}
    (hs : (s.winMaxUs.toNat : Int) = worst gaps) (hgap : ∀ g ∈ gap, g < 2 ^ 32) :
    ((s.gapOf gap).winMaxUs.toNat : Int) = worst (gaps ++ gap.toList) := by
  cases gap with
  | none => rwa [Option.toList_none, List.append_nil]
  | some gap =>
    have hlt : gap < 2 ^ 32 := hgap gap rfl
    have hval : ((s.gapOf (some gap)).winMaxUs.toNat : Int) =
        max (s.winMaxUs.toNat : Int) gap := by
      change (((if gap > s.winMaxUs.toNat then UInt32.ofInt gap else s.winMaxUs).toNat : Nat)
        : Int) = _
      split_ifs with hworse
      · rw [max_eq_right hworse.le, UInt32.ofInt, UInt32.toNat_ofNat']
        omega
      · exact (max_eq_left (not_lt.mp hworse)).symm
    rw [hval, hs, Option.toList_some, worst_concat]

/-- The module takes the gap of the history. -/
theorem onData_eq (hpos : ∀ n now, w n = .report now → 0 < now) {n : Nat} {now : Int}
    (hw : w n = .report now) {s : GapStats} (hs : Tells w n s) :
    s.onData now =
      let s := { s.gapOf (gapAt w n) with prevReportUs := now }
      if closesAt w (windowStart (closings w n)) n = some now then
        { s with max1sMs := s.winMaxUs / 1000, winMaxUs := 0, winStartUs := now }
      else s := by
  have hgap : (if s.prevReportUs ≠ 0 then s.gap (now - s.prevReportUs) else s) =
      s.gapOf (gapAt w n) := by
    rw [hs.prev, gapAt, hw]
    dsimp only
    cases hlast : lastReport w n with
    | none => rfl
    | some prev =>
      have hne : prev ≠ 0 := (lastReport_pos hpos n hlast).ne'
      rw [Option.getD_some, if_pos hne]
      rfl
  have hclose : closesAt w (windowStart (closings w n)) n = some now ↔
      now - s.winStartUs ≥ 1000000 := by
    rw [hs.start, closesAt, hw]
    dsimp only
    split_ifs with hlate
    · exact iff_of_true rfl hlate
    · exact iff_of_false nofun hlate
  rw [GapStats.onData]
  simp only [hgap, hclose, gapOf_winStartUs]

theorem tells_onData (hpos : ∀ n now, w n = .report now → 0 < now) {n : Nat} {now : Int}
    (hw : w n = .report now) {s : GapStats} (hs : Tells w n s) :
    Tells w (n + 1) (s.onData now) := by
  have hhist : ∀ b, (s.gapOf (gapAt w n)).hist b = UInt32.ofNat (gapCount w b (n + 1)) := by
    intro b
    rw [gapOf_hist, hs.hist, gapCount_succ, UInt32.ofNat_add]
  have hlast : (lastReport w (n + 1)).getD 0 = now := by
    rw [lastReport, hw]
    rfl
  rw [onData_eq hpos hw hs]
  dsimp only
  split_ifs with hclose
  · refine ⟨hlast.symm, hhist, ?_⟩
    rw [closings, hclose]
    rfl
  · have hopen : closesAt w (windowStart (closings w n)) n = none := by
      rw [closesAt, hw] at hclose ⊢
      dsimp only at hclose ⊢
      split_ifs at hclose ⊢
      · exact absurd rfl hclose
      · rfl
    refine ⟨hlast.symm, hhist, ?_⟩
    rw [closings, hopen]
    exact (gapOf_winStartUs s _).trans hs.start

theorem tells_onConn {n : Nat} {connected : Bool} (hw : w n = .conn connected) {s : GapStats}
    (hs : Tells w n s) : Tells w (n + 1) (s.onConn connected) := by
  have hgap : gapAt w n = none := by
    rw [gapAt, hw]
  have hhist : ∀ b, s.hist b = UInt32.ofNat (gapCount w b (n + 1)) := by
    intro b
    rw [gapCount_succ, hgap]
    exact hs.hist b
  have hstart : s.winStartUs = windowStart (closings w (n + 1)) := by
    rw [closings, closesAt, hw]
    exact hs.start
  cases connected with
  | true =>
    refine ⟨?_, hhist, hstart⟩
    rw [lastReport, hw]
    exact hs.prev
  | false =>
    refine ⟨?_, hhist, hstart⟩
    rw [lastReport, hw]
    rfl

/-- The module tells the history of the link. -/
theorem tells_statsAt (hpos : ∀ n now, w n = .report now → 0 < now) (n : Nat) :
    Tells w n (statsAt w n) := by
  refine Mealy.Machine.stateAt_induction linkMachine (Tells w) ?_ ?_ n
  · exact ⟨rfl, fun _ => rfl, rfl⟩
  · intro n s hs
    rw [linkMachine]
    cases hw : w n with
    | report now => exact tells_onData hpos hw hs
    | conn connected => exact tells_onConn hw hs

theorem tellsWorst_onData (hpos : ∀ n now, w n = .report now → 0 < now) {n : Nat} {now : Int}
    (hw : w n = .report now) {s : GapStats} (hs : Tells w n s) (hworst : TellsWorst w n s)
    (hgap : ∀ g ∈ gapAt w n, g < 2 ^ 32) : TellsWorst w (n + 1) (s.onData now) := by
  have hmax : ((s.gapOf (gapAt w n)).winMaxUs.toNat : Int) =
      worst (gapsIn w (opened (closings w n)) (n + 1)) := by
    rw [gapOf_winMaxUs hworst.openWindow hgap, gapsIn_succ w (opened_le w n)]
  rw [onData_eq hpos hw hs]
  dsimp only
  cases hclose : closesAt w (windowStart (closings w n)) n with
  | none =>
    rw [if_neg nofun]
    constructor
    · rw [closings, hclose]
      exact hmax
    · rw [closings, hclose]
      exact (congrArg (fun v : UInt32 => (v.toNat : Int)) (gapOf_max1sMs s _)).trans
        hworst.lastWindow
  | some t =>
    have ht : t = now := by
      rw [closesAt, hw] at hclose
      dsimp only at hclose
      split_ifs at hclose
      exact (Option.some.inj hclose).symm
    subst ht
    rw [if_pos rfl]
    constructor
    · rw [closings, hclose, opened, gapsIn_self]
      rfl
    · rw [closings, hclose, worstClosed, ← hmax, UInt32.toNat_div]
      rfl

theorem tellsWorst_onConn {n : Nat} {connected : Bool} (hw : w n = .conn connected)
    {s : GapStats} (hworst : TellsWorst w n s) : TellsWorst w (n + 1) (s.onConn connected) := by
  have hgap : gapAt w n = none := by
    rw [gapAt, hw]
  have hcs : closings w (n + 1) = closings w n := by
    rw [closings, closesAt, hw]
  have hgaps : gapsIn w (opened (closings w n)) (n + 1) =
      gapsIn w (opened (closings w n)) n := by
    rw [gapsIn_succ w (opened_le w n), hgap, Option.toList_none, List.append_nil]
  constructor
  · rw [hcs, hgaps, ← hworst.openWindow]
    cases connected <;> rfl
  · rw [hcs, ← hworst.lastWindow]
    cases connected <;> rfl

/-- And of its windows, if every gap fits the variable of the worst one. -/
theorem tellsWorst_statsAt (hpos : ∀ n now, w n = .report now → 0 < now) {n : Nat}
    (hgap : ∀ i < n, ∀ g ∈ gapAt w i, g < 2 ^ 32) : TellsWorst w n (statsAt w n) := by
  induction n with
  | zero => exact ⟨rfl, rfl⟩
  | succ n ih =>
    have hs := tells_statsAt hpos n
    have hworst := ih fun i hi => hgap i (Nat.lt_succ_of_lt hi)
    rw [statsAt, Mealy.Machine.stateAt_succ]
    change TellsWorst w (n + 1) (linkMachine.step (statsAt w n) (w n)).1
    rw [linkMachine]
    cases hw : w n with
    | report now => exact tellsWorst_onData hpos hw hs hworst (hgap n (Nat.lt_succ_self n))
    | conn connected => exact tellsWorst_onConn hw hworst

/-- Whatever reports come and whatever connections break, two reads of a bucket differ by the
number of its gaps in between, and the worst gap that is read is the one of the last complete
window, in milliseconds.  The windows are a second or more, and they lose no gap between them. -/
theorem link_quality (hpos : ∀ n now, w n = .report now → 0 < now) (n : Nat) :
    (∀ b < GAP_BUCKETS, ∀ m ≤ n, (gapsIn w m n).length < 2 ^ 32 →
      ((statsAt w n).hist b - (statsAt w m).hist b).toNat =
        (gapsIn w m n).countP fun gap => InBucket b gap) ∧
    ((∀ i < n, ∀ gap ∈ gapAt w i, gap < 2 ^ 32) →
      ((statsAt w n).max1sMs.toNat : Int) = worstClosed w (closings w n) / 1000) ∧
    (closings w n).IsChain (fun c c' => c.2 - c'.2 ≥ 1000000) ∧
    closedGaps w (closings w n) ++ gapsIn w (opened (closings w n)) n = gapsIn w 0 n := by
  refine ⟨?_, fun hgap => (tellsWorst_statsAt hpos hgap).lastWindow, closings_apart w n,
    closed_open w n⟩
  intro b hplace m hmn hfew
  simp only [inBucket_iff hplace]
  have hcount : gapCount w b n =
      gapCount w b m + (gapsIn w m n).countP fun gap => gapBucket gap = b := by
    rw [gapCount, ← gapsIn_append w (Nat.zero_le m) hmn, List.countP_append, gapCount]
  have hlt : ((gapsIn w m n).countP fun gap => gapBucket gap = b) < 2 ^ 32 :=
    List.countP_le_length.trans_lt hfew
  rw [(tells_statsAt hpos n).hist, (tells_statsAt hpos m).hist, hcount, UInt32.ofNat_add,
    UInt32.add_comm, UInt32.add_sub_cancel, UInt32.toNat_ofNat_of_lt' hlt]

end Steps

/-! ### A lost connection -/

/-- Three reports, a break of ten seconds, and three more. -/
def brokenLink : Nat → LinkEvent := fun n =>
  [.report 900000, .report 920000, .report 1500000, .conn false, .conn true, .report 11500000,
    .report 11540000, .report 12700000].getD n (.conn true)

theorem brokenLink_pos (n : Nat) (now : Int) (h : brokenLink n = .report now) : 0 < now := by
  by_cases hn : n < 8
  · interval_cases n <;> simp [brokenLink] at h <;> omega
  · have hpast : brokenLink n = .conn true := List.getD_eq_default _ _ (not_lt.mp hn)
    rw [hpast] at h
    cases h

/-- The break is no gap, and its window has none. -/
theorem link_quality_brokenLink :
    (∀ b < GAP_BUCKETS, ((statsAt brokenLink 8).hist b - (statsAt brokenLink 3).hist b).toNat =
      [40000, 1160000].countP fun gap => InBucket b gap) ∧
    (statsAt brokenLink 6).max1sMs.toNat = 0 ∧ (statsAt brokenLink 8).max1sMs.toNat = 1160 := by
  obtain ⟨hhist, hworst, -, -⟩ := link_quality brokenLink_pos 8
  obtain ⟨-, hempty, -, -⟩ := link_quality brokenLink_pos 6
  have hsmall : ∀ i < 8, ∀ gap ∈ gapAt brokenLink i, gap < 2 ^ 32 := by decide
  refine ⟨fun b hb => hhist b hb 3 (by decide) (by decide), ?_, ?_⟩
  · exact Int.ofNat.inj ((hempty fun i hi => hsmall i (hi.trans (by decide))).trans (by decide))
  · exact Int.ofNat.inj ((hworst hsmall).trans (by decide))

end input

end KartFirmware
