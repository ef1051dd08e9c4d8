import KartFirmware.EventRing

/-!
# The statistics, step by step

`evlog::stats`, on the web task, beside `push` and `drainLocked`: it loads the two indices
one after the other, in an order that C++ leaves to the compiler, and takes the mutex for
the number of records.  The ring steps as in the model of the event ring, here with any
driver and any partition, so flash writes may fail.

The difference of the two indices mixes two moments.  It is at most `RING_N` in every run in
which, between the two loads, the drain does not release what was pushed after the first one,
or `push` does not reuse what was released after it (`StatsSystem.stats_pending`); and, unless
an index goes round in between, only then (`StatsSystem.loadsMeet_iff`).  With nothing in
between it is what `Log.stats` says (`StatsSystem.stats_alone`).
-/

set_option linter.unusedSectionVars false

namespace KartFirmware

namespace evlog

open RingIndex

/-! ### The indices, whatever the flash does -/

section Indices

variable (total n : Nat)

/-- The consumer has copied `k` events from the count `n` on, and `head` is the index of a
count that it may go up to. -/
structure CopyIdx (tail head : UInt32) (k m : Nat) : Prop where
  tail_eq : tail = UInt32.ofNat (n + k)
  head_eq : head = UInt32.ofNat m
  upTo : n + k ≤ m
  known : m ≤ total

/-- What the consumer knows of the indices. -/
def DrainIdx : DrainPc → Prop
  | .idle => True
  | .top => True
  | .tail tail => tail = UInt32.ofNat n
  | .loop tail head batch => ∃ m, CopyIdx total n tail head batch.length m
  | .time tail head batch _ => ∃ m, CopyIdx total n tail head batch.length m ∧ n + batch.length < m
  | .data tail head batch _ _ =>
    ∃ m, CopyIdx total n tail head batch.length m ∧ n + batch.length < m
  | .append tail batch => tail = UInt32.ofNat (n + batch.length) ∧ n + batch.length ≤ total
  | .release tail k => tail = UInt32.ofNat (n + k) ∧ n + k ≤ total

/-- What the producer knows of the indices. -/
def PushIdx : PushPc → Prop
  | .idle => True
  | .entered _ _ => True
  | .loaded _ _ head => head = UInt32.ofNat total
  | .code _ _ head => head = UInt32.ofNat total ∧ total < n + RING_N
  | .time _ _ head => head = UInt32.ofNat total ∧ total < n + RING_N
  | .data _ _ head _ => head = UInt32.ofNat total ∧ total < n + RING_N
  | .publish _ head => head = UInt32.ofNat total ∧ total < n + RING_N

end Indices

variable {δ : Type} {drv : FlashDriver δ}

/-- The indices are the counts of the accepted and of the released events. -/
structure IndexInv (s : RingSystem δ) : Prop where
  head : s.log.head = UInt32.ofNat s.accepted.length
  tail : s.log.tail = UInt32.ofNat s.released
  order : s.released ≤ s.accepted.length
  room : s.accepted.length ≤ s.released + RING_N
  push : PushIdx s.accepted.length s.released s.push
  drain : DrainIdx s.accepted.length s.released s.drain

theorem IndexInv.start (log : Log δ) : IndexInv (RingSystem.start log) where
  head := rfl
  tail := rfl
  order := le_refl _
  room := Nat.zero_le _
  push := trivial
  drain := trivial

theorem CopyIdx.mono {total total' n : Nat} (hle : total ≤ total') {tail head : UInt32} {k m : Nat}
    (h : CopyIdx total n tail head k m) : CopyIdx total' n tail head k m :=
  ⟨h.tail_eq, h.head_eq, h.upTo, h.known.trans hle⟩

/-- New events do not disturb the consumer. -/
theorem DrainIdx.mono {total total' n : Nat} (hle : total ≤ total') {pc : DrainPc}
    (h : DrainIdx total n pc) : DrainIdx total' n pc := by
  cases pc with
  | idle => trivial
  | top => trivial
  | tail tail => exact h
  | loop tail head batch =>
    obtain ⟨m, hcopy⟩ := h
    exact ⟨m, hcopy.mono hle⟩
  | time tail head batch r =>
    obtain ⟨m, hcopy, hlt⟩ := h
    exact ⟨m, hcopy.mono hle, hlt⟩
  | data tail head batch r tMs =>
    obtain ⟨m, hcopy, hlt⟩ := h
    exact ⟨m, hcopy.mono hle, hlt⟩
  | append tail batch => exact ⟨h.1, h.2.trans hle⟩
  | release tail k => exact ⟨h.1, h.2.trans hle⟩

/-- Released events only make room. -/
theorem PushIdx.mono {total n n' : Nat} (hle : n ≤ n') {pc : PushPc} (h : PushIdx total n pc) :
    PushIdx total n' pc := by
  cases pc with
  | idle => trivial
  | entered ev data => trivial
  | loaded ev data head => exact h
  | code ev data head => exact ⟨h.1, h.2.trans_le (Nat.add_le_add_right hle _)⟩
  | time ev data head => exact ⟨h.1, h.2.trans_le (Nat.add_le_add_right hle _)⟩
  | data ev data head tMs => exact ⟨h.1, h.2.trans_le (Nat.add_le_add_right hle _)⟩
  | publish p head => exact ⟨h.1, h.2.trans_le (Nat.add_le_add_right hle _)⟩

variable {s : RingSystem δ}

theorem IndexInv.count (h : IndexInv s) :
    (s.log.head - s.log.tail).toNat = s.accepted.length - s.released := by
  rw [h.head, h.tail, toNat_sub_of_room h.order h.room]

/-- A step that leaves the log and the counts alone. -/
theorem IndexInv.move (h : IndexInv s) {push : PushPc} {drain : DrainPc}
    (hpush : PushIdx s.accepted.length s.released push)
    (hdrain : DrainIdx s.accepted.length s.released drain) :
    IndexInv { s with push := push, drain := drain } :=
  ⟨h.head, h.tail, h.order, h.room, hpush, hdrain⟩

/-- Writing a slot leaves the indices alone. -/
theorem IndexInv.setSlot (h : IndexInv s) (i : UInt32) (p : PendingRec) {push : PushPc}
    (hpush : PushIdx s.accepted.length s.released push) :
    IndexInv { s with log := s.log.setSlot i p, push := push } :=
  ⟨h.head, h.tail, h.order, h.room, hpush, h.drain⟩

theorem IndexInv.pushStep (h : IndexInv s) (nowUs : Int) : IndexInv (s.pushStep nowUs) := by
  have hpush := h.push
  unfold RingSystem.pushStep
  cases hpc : s.push with
  | idle => exact h
  | entered ev data =>
    dsimp only
    split_ifs
    · exact h.move trivial h.drain
    · exact h.move h.head h.drain
  | loaded ev data head =>
    rw [hpc] at hpush
    obtain rfl : head = s.log.head := hpush.trans h.head.symm
    dsimp only
    split_ifs with hfull
    · exact h.move trivial h.drain
    · rw [h.count] at hfull
      exact h.move ⟨h.head, by omega⟩ h.drain
  | code ev data head =>
    rw [hpc] at hpush
    exact h.setSlot head _ hpush
  | time ev data head =>
    rw [hpc] at hpush
    exact h.setSlot head _ hpush
  | data ev data head tMs =>
    rw [hpc] at hpush
    exact h.setSlot head _ hpush
  | publish p head =>
    rw [hpc] at hpush
    obtain ⟨rfl, hroom⟩ := hpush
    have hlen : (s.accepted ++ [p]).length = s.accepted.length + 1 := by simp
    have horder := h.order
    refine ⟨?_, h.tail, ?_, ?_, trivial, ?_⟩
    · change UInt32.ofNat s.accepted.length + 1 = UInt32.ofNat (s.accepted ++ [p]).length
      rw [hlen, ofNat_succ]
    · change s.released ≤ (s.accepted ++ [p]).length
      omega
    · change (s.accepted ++ [p]).length ≤ s.released + RING_N
      omega
    · exact h.drain.mono (hlen ▸ Nat.le_succ _)

theorem IndexInv.drainStep (h : IndexInv s) (drv : FlashDriver δ) :
    IndexInv (s.drainStep drv) := by
  have hdrain := h.drain
  unfold RingSystem.drainStep
  cases hpc : s.drain with
  | idle => exact h.move h.push trivial
  | top => exact h.move h.push h.tail
  | tail tail =>
    rw [hpc] at hdrain
    exact h.move h.push ⟨s.accepted.length, hdrain, h.head, h.order, le_refl _⟩
  | loop tail head batch =>
    rw [hpc] at hdrain
    obtain ⟨m, hcopy⟩ := hdrain
    dsimp only
    split_ifs with hmore hempty
    · refine h.move h.push ⟨m, hcopy, lt_of_le_of_ne hcopy.upTo ?_⟩
      -- equal counts would have equal indices
      rintro rfl
      exact hmore.1 (hcopy.tail_eq.trans hcopy.head_eq.symm)
    · exact h.move h.push trivial
    · exact h.move h.push ⟨hcopy.tail_eq, hcopy.upTo.trans hcopy.known⟩
  | time tail head batch r =>
    rw [hpc] at hdrain
    exact h.move h.push hdrain
  | data tail head batch r tMs =>
    rw [hpc] at hdrain
    obtain ⟨m, hcopy, hlt⟩ := hdrain
    refine h.move h.push ⟨m, ?_, hcopy.head_eq, ?_, hcopy.known⟩
    · rw [hcopy.tail_eq, ofNat_succ, List.length_append, List.length_singleton, Nat.add_assoc]
    · rw [List.length_append, List.length_singleton]
      omega
  | append tail batch =>
    rw [hpc] at hdrain
    have hsame := Log.flashAppend_sameRam drv s.log batch
    exact ⟨hsame.head.trans h.head, hsame.tail.trans h.tail, h.order, h.room, h.push, hdrain⟩
  | release tail k =>
    rw [hpc] at hdrain
    have hroom := h.room.trans (Nat.add_le_add_right (Nat.le_add_right s.released k) RING_N)
    exact ⟨h.head, hdrain.1, hdrain.2, hroom, h.push.mono (Nat.le_add_right _ _), trivial⟩

theorem IndexInv.step (h : IndexInv s) (drv : FlashDriver δ) (act : RingAct) :
    IndexInv (s.step drv act) := by
  cases act with
  | call ev data =>
    unfold RingSystem.step
    cases s.push with
    | idle => exact h.move trivial h.drain
    | _ => exact h
  | push nowUs => exact h.pushStep nowUs
  | drain => exact h.drainStep drv

/-- The counts only grow. -/
theorem step_counts (drv : FlashDriver δ) (s : RingSystem δ) (act : RingAct) :
    s.accepted.length ≤ (s.step drv act).accepted.length ∧
      s.released ≤ (s.step drv act).released := by
  cases act with
  | call ev data =>
    unfold RingSystem.step
    cases s.push <;> exact ⟨le_refl _, le_refl _⟩
  | push nowUs =>
    simp only [RingSystem.step, RingSystem.pushStep]
    cases s.push with
    | entered ev data => dsimp only; split_ifs <;> exact ⟨le_refl _, le_refl _⟩
    | loaded ev data head => dsimp only; split_ifs <;> exact ⟨le_refl _, le_refl _⟩
    | publish p head =>
      refine ⟨?_, le_refl _⟩
      dsimp only
      rw [List.length_append]
      exact Nat.le_add_right _ _
    | _ => exact ⟨le_refl _, le_refl _⟩
  | drain =>
    simp only [RingSystem.step, RingSystem.drainStep]
    cases s.drain with
    | loop tail head batch => dsimp only; split_ifs <;> exact ⟨le_refl _, le_refl _⟩
    | release tail k => exact ⟨le_refl _, Nat.le_add_right _ _⟩
    | _ => exact ⟨le_refl _, le_refl _⟩

/-! ### The third task -/

/-- Which index `m_head.load() - m_tail.load()` loads first. -/
inductive LoadOrder where
  | headFirst
  | tailFirst
deriving DecidableEq, Repr

/-- Where `stats` stands, with what it has loaded.  `seen` is a history variable: the count
that the first index stood for when it was loaded. -/
inductive StatsPc where
  | idle
  | entered
  | loaded (first : UInt32) (seen : Nat)
  | check (pending : UInt32)
  | take (pending : UInt32)
  | locked (pending : UInt32)
  | give (pending : UInt32) (total : Nat)
deriving DecidableEq

/-- The ring with the three tasks; `answers` are the pairs that `stats` has returned. -/
structure StatsSystem (δ : Type) where
  ring : RingSystem δ
  stats : StatsPc
  answers : List (Nat × UInt32)

inductive StatsAct where
  | ring (act : RingAct)
  | call
  | stats

namespace LoadOrder

/-- The first load, and the count behind it. -/
def first (o : LoadOrder) (s : RingSystem δ) : UInt32 × Nat :=
  match o with
  | .headFirst => (s.log.head, s.accepted.length)
  | .tailFirst => (s.log.tail, s.released)

/-- The second load, and the subtraction. -/
def difference (o : LoadOrder) (s : RingSystem δ) (first : UInt32) : UInt32 :=
  match o with
  | .headFirst => first - s.log.tail
  | .tailFirst => s.log.head - first

end LoadOrder

def DrainPc.isIdle : DrainPc → Bool
  | .idle => true
  | _ => false

/-- `stats` holds the mutex. -/
def StatsPc.holds : StatsPc → Bool
  | .locked _ => true
  | .give _ _ => true
  | _ => false

namespace StatsSystem

/-- The next step of `stats`.  The drain holds the mutex unless it is idle. -/
def statsStep (o : LoadOrder) (s : StatsSystem δ) : StatsSystem δ :=
  match s.stats with
  | .idle => s
  | .entered => { s with stats := .loaded (o.first s.ring).1 (o.first s.ring).2 }
  | .loaded first _ => { s with stats := .check (o.difference s.ring first) }
  | .check pending =>
    if s.ring.log.part = none then
      { s with stats := .idle, answers := s.answers ++ [(0, pending)] }
    else { s with stats := .take pending }
  | .take pending => if s.ring.drain.isIdle then { s with stats := .locked pending } else s
  | .locked pending => { s with stats := .give pending (s.ring.log.writeOff / REC_BYTES) }
  | .give pending total =>
    { s with stats := .idle, answers := s.answers ++ [(total, pending)] }

/-- A step of the ring.  A drain does not begin while `stats` holds the mutex. -/
def ringStep (drv : FlashDriver δ) (s : StatsSystem δ) (act : RingAct) : StatsSystem δ :=
  match act with
  | .drain =>
    if s.stats.holds && s.ring.drain.isIdle then s
    else { s with ring := s.ring.step drv .drain }
  | act => { s with ring := s.ring.step drv act }

def step (drv : FlashDriver δ) (o : LoadOrder) (s : StatsSystem δ) : StatsAct → StatsSystem δ
  | .ring act => s.ringStep drv act
  | .call =>
    match s.stats with
    | .idle => { s with stats := .entered }
    | _ => s
  | .stats => s.statsStep o

/-- All three tasks, from an empty ring on. -/
def machine (drv : FlashDriver δ) (o : LoadOrder) (log : Log δ) :
    Mealy.Machine (StatsSystem δ) StatsAct Unit where
  init := { ring := .start log, stats := .idle, answers := [] }
  step s act := (s.step drv o act, ())

end StatsSystem

/-! ### What the first load says -/

namespace LoadOrder

variable (o : LoadOrder)

/-- The value that was loaded first is the index of `seen`, which the count has reached. -/
structure Loaded (s : RingSystem δ) (first : UInt32) (seen : Nat) : Prop where
  first_eq : first = UInt32.ofNat seen
  reached : seen ≤ (o.first s).2

/-- The other tasks are not ahead of the first load: no event accepted after it has been
released, or none has been put into a slot that was released after it. -/
def Meets (s : RingSystem δ) (seen : Nat) : Prop :=
  match o with
  | .headFirst => s.released ≤ seen
  | .tailFirst => s.accepted.length ≤ seen + RING_N

instance (s : RingSystem δ) (seen : Nat) : Decidable (o.Meets s seen) := by
  cases o <;> exact Nat.decLe _ _

theorem Loaded.step {s : RingSystem δ} {first : UInt32} {seen : Nat} (h : o.Loaded s first seen)
    (drv : FlashDriver δ) (act : RingAct) : o.Loaded (s.step drv act) first seen := by
  refine ⟨h.first_eq, h.reached.trans ?_⟩
  obtain ⟨haccepted, hreleased⟩ := step_counts drv s act
  cases o with
  | headFirst => exact haccepted
  | tailFirst => exact hreleased

theorem first_loaded {s : RingSystem δ} (h : IndexInv s) :
    o.Loaded s (o.first s).1 (o.first s).2 := by
  cases o with
  | headFirst => exact ⟨h.head, le_refl _⟩
  | tailFirst => exact ⟨h.tail, le_refl _⟩

/-- The difference is at most `RING_N` if the other tasks are not ahead. -/
theorem difference_le {s : RingSystem δ} (h : IndexInv s) {first : UInt32} {seen : Nat}
    (hloaded : o.Loaded s first seen) (hmeets : o.Meets s seen) :
    (o.difference s first).toNat ≤ RING_N := by
  have hreached := hloaded.reached
  rw [hloaded.first_eq]
  cases o with
  | headFirst =>
    -- at most `RING_N` of the events accepted by the first load are still unreleased
    have hroom : seen ≤ s.released + RING_N := hreached.trans h.room
    rw [difference, h.tail, toNat_sub_of_room hmeets hroom]
    exact Nat.sub_le_iff_le_add'.mpr hroom
  | tailFirst =>
    have horder : seen ≤ s.accepted.length := hreached.trans h.order
    rw [difference, h.head, toNat_sub_of_room horder hmeets]
    exact Nat.sub_le_iff_le_add'.mpr hmeets

/-- As long as no index goes round between the loads, the difference is at most `RING_N` only
if the other tasks are not ahead. -/
theorem difference_le_iff {s : RingSystem δ} (h : IndexInv s) {first : UInt32} {seen : Nat}
    (hloaded : o.Loaded s first seen) (hgap : s.accepted.length < seen + (4294967296 - RING_N)) :
    (o.difference s first).toNat ≤ RING_N ↔ o.Meets s seen := by
  refine ⟨fun hle => ?_, o.difference_le h hloaded⟩
  have hreached := hloaded.reached
  have horder := h.order
  rw [hloaded.first_eq] at hle
  cases o with
  | headFirst =>
    simp only [Meets, difference, RING_N] at hgap hle ⊢
    rw [h.tail, UInt32.toNat_sub, UInt32.toNat_ofNat', UInt32.toNat_ofNat'] at hle
    omega
  | tailFirst =>
    simp only [Meets, difference, LoadOrder.first, RING_N] at hgap hle hreached ⊢
    rw [h.head, toNat_sub_ofNat (by omega) (by omega)] at hle
    omega

end LoadOrder

/-! ### Runs -/

namespace StatsPc

/-- Between the loads, the first one is behind. -/
def Loaded (o : LoadOrder) (ring : RingSystem δ) : StatsPc → Prop
  | .loaded first seen => o.Loaded ring first seen
  | _ => True

/-- At the second load, the other tasks are not ahead. -/
def Meets (o : LoadOrder) (ring : RingSystem δ) : StatsPc → Prop
  | .loaded _ seen => o.Meets ring seen
  | _ => True

instance (o : LoadOrder) (ring : RingSystem δ) (pc : StatsPc) : Decidable (pc.Meets o ring) := by
  cases pc <;> unfold Meets <;> infer_instance

/-- A difference that has been computed is at most `RING_N`. -/
def Bounded : StatsPc → Prop
  | .check pending => pending.toNat ≤ RING_N
  | .take pending => pending.toNat ≤ RING_N
  | .locked pending => pending.toNat ≤ RING_N
  | .give pending _ => pending.toNat ≤ RING_N
  | _ => True

end StatsPc

namespace StatsSystem

variable {o : LoadOrder} {s : StatsSystem δ}

/-- The condition on the state before a step. -/
def LoadsMeet (o : LoadOrder) (s : StatsSystem δ) : StatsAct → Prop
  | .stats => s.stats.Meets o s.ring
  | _ => True

instance (act : StatsAct) : Decidable (s.LoadsMeet o act) := by
  cases act <;> unfold LoadsMeet <;> infer_instance

/-- What holds in every run: the indices are the counts, and the first load is behind. -/
structure StatsInv (o : LoadOrder) (s : StatsSystem δ) : Prop where
  index : IndexInv s.ring
  loaded : s.stats.Loaded o s.ring

structure Bounded (s : StatsSystem δ) : Prop where
  pc : s.stats.Bounded
  answers : ∀ a ∈ s.answers, a.2.toNat ≤ RING_N

theorem StatsInv.ring (h : StatsInv o s) (drv : FlashDriver δ) (act : RingAct) :
    StatsInv o { s with ring := s.ring.step drv act } := by
  refine ⟨h.index.step drv act, ?_⟩
  have hloaded := h.loaded
  cases hpc : s.stats with
  | loaded first seen =>
    rw [hpc] at hloaded
    exact hloaded.step o drv act
  | _ => trivial

theorem ringStep_cases (drv : FlashDriver δ) (s : StatsSystem δ) (act : RingAct) :
    s.ringStep drv act = s ∨ s.ringStep drv act = { s with ring := s.ring.step drv act } := by
  cases act with
  | drain =>
    unfold ringStep
    dsimp only
    split_ifs
    · exact .inl rfl
    · exact .inr rfl
  | _ => exact .inr rfl

theorem StatsInv.step (h : StatsInv o s) (drv : FlashDriver δ) (act : StatsAct) :
    StatsInv o (s.step drv o act) := by
  cases act with
  | ring act =>
    change StatsInv o (s.ringStep drv act)
    rcases ringStep_cases drv s act with hsame | hring
    · rwa [hsame]
    · rw [hring]
      exact h.ring drv act
  | call =>
    unfold StatsSystem.step
    cases hpc : s.stats with
    | idle => exact ⟨h.index, trivial⟩
    | _ => exact h
  | stats =>
    unfold StatsSystem.step statsStep
    cases hpc : s.stats with
    | idle => exact h
    | entered => exact ⟨h.index, o.first_loaded h.index⟩
    | loaded first seen => exact ⟨h.index, trivial⟩
    | check pending =>
      dsimp only
      split_ifs <;> exact ⟨h.index, trivial⟩
    | take pending =>
      dsimp only
      split_ifs
      · exact ⟨h.index, trivial⟩
      · exact h
    | locked pending => exact ⟨h.index, trivial⟩
    | give pending total => exact ⟨h.index, trivial⟩

/-- One more answer. -/
theorem Bounded.answer (h : s.Bounded) {pending : UInt32} (hle : pending.toNat ≤ RING_N)
    (total : Nat) : ∀ a ∈ s.answers ++ [(total, pending)], a.2.toNat ≤ RING_N := by
  intro a ha
  rcases List.mem_append.mp ha with hold | hnew
  · exact h.answers a hold
  · rw [List.mem_singleton.mp hnew]
    exact hle

theorem Bounded.step (h : s.Bounded) (hinv : StatsInv o s) (drv : FlashDriver δ) {act : StatsAct}
    (hmeets : s.LoadsMeet o act) : (s.step drv o act).Bounded := by
  have hpc' := h.pc
  cases act with
  | ring act =>
    change (s.ringStep drv act).Bounded
    rcases ringStep_cases drv s act with hsame | hring
    · rwa [hsame]
    · rw [hring]
      exact ⟨h.pc, h.answers⟩
  | call =>
    unfold StatsSystem.step
    cases hpc : s.stats with
    | idle => exact ⟨trivial, h.answers⟩
    | _ => exact h
  | stats =>
    have hloaded := hinv.loaded
    unfold LoadsMeet at hmeets
    unfold StatsSystem.step statsStep
    cases hpc : s.stats with
    | idle => exact h
    | entered => exact ⟨trivial, h.answers⟩
    | loaded first seen =>
      rw [hpc] at hloaded hmeets
      exact ⟨o.difference_le hinv.index hloaded hmeets, h.answers⟩
    | check pending =>
      rw [hpc] at hpc'
      dsimp only
      split_ifs
      · exact ⟨trivial, h.answer hpc' 0⟩
      · exact ⟨hpc', h.answers⟩
    | take pending =>
      rw [hpc] at hpc'
      dsimp only
      split_ifs
      · exact ⟨hpc', h.answers⟩
      · exact h
    | locked pending =>
      rw [hpc] at hpc'
      exact ⟨hpc', h.answers⟩
    | give pending total =>
      rw [hpc] at hpc'
      exact ⟨trivial, h.answer hpc' total⟩

section Runs

variable (drv : FlashDriver δ) (o : LoadOrder) (log : Log δ) {w : Nat → StatsAct}

def runAt (w : Nat → StatsAct) (n : Nat) : StatsSystem δ := (machine drv o log).stateAt w n

theorem statsInv_runAt (n : Nat) : StatsInv o (runAt drv o log w n) :=
  (machine drv o log).stateAt_induction (fun _ s => StatsInv o s) ⟨.start log, trivial⟩
    (fun n _ h => h.step drv (w n)) n

/-- Between the two loads of a run, as long as no index goes round, the difference will be at
most `RING_N` exactly when the other tasks are not ahead. -/
theorem loadsMeet_iff {n : Nat} {first : UInt32} {seen : Nat}
    (hpc : (runAt drv o log w n).stats = .loaded first seen)
    (hgap : (runAt drv o log w n).ring.accepted.length < seen + (4294967296 - RING_N)) :
    (o.difference (runAt drv o log w n).ring first).toNat ≤ RING_N ↔
      (runAt drv o log w n).LoadsMeet o .stats := by
  have hinv := statsInv_runAt drv o log (w := w) n
  have hloaded := hinv.loaded
  rw [hpc] at hloaded
  rw [o.difference_le_iff hinv.index hloaded hgap, LoadsMeet, hpc]
  rfl

/-- **The pending count is possible** in every run in which the other tasks are not ahead at
any second load. -/
theorem stats_pending (n : Nat) (hmeets : ∀ k < n, (runAt drv o log w k).LoadsMeet o (w k)) :
    ∀ a ∈ (runAt drv o log w n).answers, a.2.toNat ≤ RING_N := by
  have hbounded : (runAt drv o log w n).Bounded := by
    induction n with
    | zero => exact ⟨trivial, fun a ha => absurd ha List.not_mem_nil⟩
    | succ n ih =>
      have hbefore := ih fun k hk => hmeets k (Nat.lt_succ_of_lt hk)
      exact hbefore.step (statsInv_runAt drv o log n) drv (hmeets n (Nat.lt_succ_self n))
  exact hbounded.answers

end Runs

/-- With nothing in between, `stats` answers what `Log.stats` does. -/
theorem stats_alone (drv : FlashDriver δ) (o : LoadOrder) (hpc : s.stats = .idle)
    (hdrain : s.ring.drain.isIdle = true) :
    ∃ pending, (StatsAct.call :: List.replicate 6 .stats).foldl (StatsSystem.step drv o) s =
        { s with answers := s.answers ++ [(s.ring.log.stats.1, pending)] } ∧
      pending.toNat = s.ring.log.stats.2 := by
  obtain ⟨ring, stats, answers⟩ := s
  obtain rfl : stats = .idle := hpc
  have hdifference : ∀ o : LoadOrder, o.difference ring (o.first ring).1 =
      ring.log.head - ring.log.tail := by
    intro o
    cases o <;> rfl
  refine ⟨ring.log.head - ring.log.tail, ?_, rfl⟩
  by_cases hpart : ring.log.part = none
  · simp [StatsSystem.step, statsStep, hdifference, Log.stats, hpart]
  · simp [StatsSystem.step, statsStep, hdifference, Log.stats, hpart, show _ = true from hdrain]

/-! ### On the bench -/

/-- An `Arm` is pushed. -/
def pushed : List StatsAct := .ring (.call .arm 0) :: List.replicate 6 (.ring (.push 0))

def drained (n : Nat) : List StatsAct := List.replicate n (.ring .drain)

/-- The acts one after the other. -/
def listRun (acts : List StatsAct) (n : Nat) : StatsAct := acts.getD n .call

/-- An event is pushed before `stats` and one between its loads. -/
def undrained : List StatsAct :=
  pushed ++ [.call, .stats] ++ pushed ++ List.replicate 5 .stats ++ drained 3

theorem stats_pending_bench :
    (∀ a ∈ (runAt blankDriver .headFirst ringLog (listRun undrained) 24).answers,
        a.2.toNat ≤ RING_N) ∧
      ∀ a ∈ (runAt blankDriver .tailFirst ringLog (listRun undrained) 24).answers,
        a.2.toNat ≤ RING_N :=
  ⟨stats_pending blankDriver .headFirst ringLog 24 (by decide +kernel),
    stats_pending blankDriver .tailFirst ringLog 24 (by decide +kernel)⟩

/-- An event is pushed and released between the loads. -/
def overtaken : List StatsAct :=
  [.call, .stats] ++ pushed ++ drained 12 ++ List.replicate 5 .stats

/-- The ring is filled between the loads, half of it is released, and one more event is
pushed. -/
def flooded : List StatsAct :=
  [.call, .stats] ++ (List.replicate 32 pushed).flatten ++ drained 54 ++ pushed ++ drained 64 ++
    List.replicate 5 .stats

/-- Neither order of the loads keeps the count within the ring: with the head first it can
wrap below 0, with the tail first it can pass `RING_N`. -/
theorem pending_impossible :
    ((2, 4294967295) ∈ (runAt blankDriver .headFirst ringLog (listRun overtaken) 26).answers ∧
        ¬ ∀ a ∈ (runAt blankDriver .headFirst ringLog (listRun overtaken) 26).answers,
          a.2.toNat ≤ RING_N) ∧
      (34, 33) ∈ (runAt blankDriver .tailFirst ringLog (listRun flooded) 356).answers ∧
        ¬ ∀ a ∈ (runAt blankDriver .tailFirst ringLog (listRun flooded) 356).answers,
          a.2.toNat ≤ RING_N := by
  have hovertaken : (runAt blankDriver .headFirst ringLog (listRun overtaken) 26).answers =
      [(2, 4294967295)] := by
    decide +kernel
  have hflooded : (runAt blankDriver .tailFirst ringLog (listRun flooded) 356).answers =
      [(34, 33)] := by
    decide +kernel
  rw [hovertaken, hflooded]
  decide

end StatsSystem

end evlog

end KartFirmware
