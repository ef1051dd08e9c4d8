import KartFirmware.ArmedDevice
import KartFirmware.FlashFaults

/-!
# The log of a whole device

What the event log of a running device says of it.  Its history is what the published status
has shown: when the armed flag changed, and for which cause.  On a partition whose operations
succeed a prefix of the history is written, in order, and the rest of it waits in the ring
(`Log.Follows`); ticks, requests, `evlogclear` among them, and the turns of the log's task may
come in any order.

An event that finds the ring full is dropped.  With 32 places and a turn of the log every
50 ms this takes a long drive, and it is excluded for a history that is told as a whole
(`log_tells_history`).
-/

set_option linter.unusedSectionVars false

namespace KartFirmware

namespace evlog

open NorFlash RingIndex

/-! ### What the log holds -/

/-- The events of `l` came to the log: the first `n` of them are written, and the others wait
in the ring. -/
structure Log.Follows (P : Partition) (log : Log Nor) (l : List PendingRec) (n : Nat) : Prop where
  part : log.part = some P.size
  head : log.head = UInt32.ofNat l.length
  tail : log.tail = UInt32.ofNat n
  order : n ≤ l.length
  room : l.length ≤ n + RING_N
  holds : Holds RING_N log.ring l n
  live : log.flash.Live
  steady : log.flash.Steady
  sound : log.Sound P.size
  stored : ((l.take n).map (PendingRec.record log.bootSeq)).Sublist log.flash.stored

namespace Log.Follows

variable {P : Partition} {log : Log Nor} {l : List PendingRec} {n : Nat}

theorem pending_eq (h : log.Follows P l n) : log.pending = l.length - n := by
  rw [Log.pending, h.head, h.tail, toNat_sub_of_room h.order h.room]

/-- An event that finds room is the next one. -/
theorem push (h : log.Follows P l n) (hroom : log.pending < RING_N) (ev : Ev) (data : UInt32)
    (nowUs : Int) :
    (log.push ev data nowUs).Follows P
      (l ++ [{ code := ev.code, tMs := UInt32.ofInt (nowUs / 1000), data := data }]) n := by
  have hpending := h.pending_eq
  have horder := h.order
  have hup : log.part ≠ none := by
    rw [h.part]
    exact Option.some_ne_none _
  have hslot : Log.slot log.head = l.length % RING_N := by rw [h.head, slot_count]
  rw [Log.push, if_neg hup, if_neg (Nat.not_le.mpr hroom), hslot]
  refine ⟨h.part, ?_, h.tail, ?_, ?_, ?_, h.live, h.steady, h.sound, ?_⟩
  · rw [List.length_append, List.length_singleton, ← ofNat_succ, ← h.head]
  · rw [List.length_append]
    exact h.order.trans (Nat.le_add_right _ _)
  · rw [List.length_append, List.length_singleton]
    omega
  · exact (h.holds.update (by omega) _).push (Function.update_self ..)
  · rw [List.take_append_of_le_length h.order]
    exact h.stored

/-- The batch that is collected from the count `m` on. -/
theorem collect_eq (h : log.Follows P l n) (k : Nat) {m : Nat} (hnm : n ≤ m) (hml : m ≤ l.length) :
    log.collect k (UInt32.ofNat m) =
      (((l.drop m).take k).map (PendingRec.record log.bootSeq),
        UInt32.ofNat (min (m + k) l.length)) := by
  induction k generalizing m with
  | zero => rw [Log.collect, List.take_zero, List.map_nil, Nat.add_zero, Nat.min_eq_left hml]
  | succ k ih =>
    rw [Log.collect, h.head]
    rcases Nat.eq_or_lt_of_le hml with hend | hmore
    · rw [if_pos (by rw [hend]), hend, List.drop_length, List.take_nil, List.map_nil,
        Nat.min_eq_right (Nat.le_add_right _ _)]
    · have hne : UInt32.ofNat m ≠ UInt32.ofNat l.length := by
        intro hsame
        have hapart := toNat_sub_of_room hml (by have := h.room; omega : l.length ≤ m + RING_N)
        rw [hsame, UInt32.sub_self, UInt32.toNat_zero] at hapart
        omega
      have hslot : log.ring (Log.slot (UInt32.ofNat m)) = l[m] := by
        rw [slot_count]
        exact h.holds m hnm _ (List.getElem?_eq_getElem hmore)
      rw [if_neg hne, ofNat_succ, ih (Nat.le_succ_of_le hnm) hmore, hslot,
        List.drop_eq_getElem_cons hmore, List.take_succ_cons, List.map_cons,
        Nat.add_right_comm m 1 k]
      rfl

/-- A batch is written. -/
theorem batch (h : log.Follows P l n) :
    Follows P
      { log.flashAppend (norDriver P.size) (log.collect 16 log.tail).1 with
        tail := (log.collect 16 log.tail).2 }
      l (min (n + 16) l.length) := by
  have hcollect : log.collect 16 log.tail =
      (((l.drop n).take 16).map (PendingRec.record log.bootSeq),
        UInt32.ofNat (min (n + 16) l.length)) := by
    rw [h.tail]
    exact h.collect_eq 16 le_rfl h.order
  have hvalid := Log.collect_valid (s := log) 16 log.tail
  rw [hcollect] at hvalid ⊢
  have hram := Log.flashAppend_sameRam (norDriver P.size) log
    (((l.drop n).take 16).map (PendingRec.record log.bootSeq))
  have hlive := Log.flashAppend_keeps (norDriver P.size) Nor.live_write Nor.live_erase h.live
    (((l.drop n).take 16).map (PendingRec.record log.bootSeq))
  have hsteady := Log.flashAppend_keeps (norDriver P.size) Nor.steady_write Nor.steady_erase
    h.steady (((l.drop n).take 16).map (PendingRec.record log.bootSeq))
  have hsector := Nat.le_of_dvd P.pos P.aligned
  have hlen : 16 * (((l.drop n).take 16).map (PendingRec.record log.bootSeq)).length ≤ P.size := by
    rw [List.length_map, List.length_take]
    simp only [SECTOR] at hsector
    omega
  have hdone := (Log.flashAppend_done h.part h.live hlen hsteady.failed).2
  refine ⟨hram.part.trans h.part, hram.head.trans h.head, rfl, min_le_right _ _, ?_, ?_, hlive,
    hsteady, ?_, ?_⟩
  · have horder := h.order
    have hroom := h.room
    omega
  · have hring : Holds RING_N log.ring l (min (n + 16) l.length) :=
      h.holds.mono (le_min (Nat.le_add_right _ _) h.order)
    rw [← hram.ring] at hring
    exact hring
  · exact Log.flashAppend_sound P.aligned h.part h.sound hvalid
  · change ((l.take (min (n + 16) l.length)).map (PendingRec.record
      (log.flashAppend (norDriver P.size) _).bootSeq)).Sublist _
    have htake : l.take (min (n + 16) l.length) = l.take n ++ (l.drop n).take 16 := by
      rw [← List.take_add, List.take_eq_take_iff]
      omega
    rw [hram.bootSeq, htake, List.map_append]
    have hmore := h.stored.append
      (List.Sublist.refl (((l.drop n).take 16).map (PendingRec.record log.bootSeq)))
    rw [← hdone] at hmore
    exact hmore

/-- A drain writes all that waits. -/
theorem drain (h : log.Follows P l n) :
    (log.drainLocked (norDriver P.size)).Follows P l l.length := by
  have hrun : ∃ m, (log.drainLocked (norDriver P.size)).Follows P l m := by
    apply Log.drainTurns_induction (norDriver P.size) log (P := fun t => ∃ m, t.Follows P l m)
    · rintro t ⟨m, hm⟩ -
      exact ⟨_, hm.batch⟩
    · exact ⟨n, h⟩
  obtain ⟨m, hm⟩ := hrun
  have hempty := Log.drainLocked_tail (norDriver P.size) log
  have hhead : (log.drainLocked (norDriver P.size)).head = log.head := by
    apply Log.drainTurns_induction (norDriver P.size) log (P := fun t => t.head = log.head)
    · intro t ht _
      exact (Log.flashAppend_sameRam (norDriver P.size) t _).head.trans ht
    · rfl
  have hpending := hm.pending_eq
  rw [Log.pending, hempty, hhead, UInt32.sub_self, UInt32.toNat_zero] at hpending
  have horder := hm.order
  obtain rfl : m = l.length := by omega
  exact hm

variable {F : Type} [CFloat F]

theorem maintain (h : log.Follows P l n) (st : KartStatus F) (busy : Bool) :
    ∃ m, (log.maintain (norDriver P.size) st busy).Follows P l m ∧
      (seenArmed st busy = false → m = l.length) := by
  have hup : log.part ≠ none := by
    rw [h.part]
    exact Option.some_ne_none _
  unfold Log.maintain
  rw [if_neg hup]
  split_ifs with hring hseen
  · refine ⟨n, h, fun _ => ?_⟩
    have hpending := h.pending_eq
    rw [Log.pending, hring, UInt32.sub_self, UInt32.toNat_zero] at hpending
    have horder := h.order
    omega
  · exact ⟨n, h, fun hfree => absurd (hseen.symm.trans hfree) (by simp)⟩
  · exact ⟨l.length, h.drain, fun _ => rfl⟩

/-- Clearing gives up the written records and leaves the waiting ones. -/
theorem clear (h : log.Follows P l n) (st : KartStatus F) (busy : Bool) (nowUs : Int)
    (reset : UInt32) : (log.clear (norDriver P.size) st busy nowUs reset).1.Follows P l n := by
  have hram := Log.clear_sameRam (norDriver P.size) log st busy nowUs reset
  have hgrown := Log.clear_keeps (P := fun d => log.flash.stored <+: d.stored) (norDriver P.size)
    Nor.stored_write Nor.stored_erase (s := log) (List.prefix_refl _) st busy nowUs reset
  refine ⟨hram.part.trans h.part, hram.head.trans h.head, hram.tail.trans h.tail, h.order, h.room,
    ?_, ?_, ?_, ?_, ?_⟩
  · rw [hram.ring]
    exact h.holds
  · exact Log.clear_keeps (norDriver P.size) Nor.live_write Nor.live_erase h.live st busy nowUs reset
  · exact Log.clear_keeps (norDriver P.size) Nor.steady_write Nor.steady_erase h.steady st busy
      nowUs reset
  · exact Log.clear_sound P.aligned (.inr h.part) h.sound st busy nowUs reset
  · rw [hram.bootSeq]
    exact h.stored.trans hgrown.sublist

/-- A log that has just booted on a journal. -/
theorem boot (flash : JournalFlash P) (nowUs : Int) (reset : UInt32) :
    (flash.boot nowUs reset).Follows P [] 0 := by
  have hsteady := Log.init_keeps (norDriver P.size) Nor.steady_write Nor.steady_erase
    (s := Log.boot { Nor.fresh with mem := flash.mem }) ⟨rfl, fun _ => List.not_mem_nil⟩
    (some P.size) nowUs reset
  refine ⟨(Log.flashAppend_sameRam _ _ _).part, (Log.flashAppend_sameRam _ _ _).head,
    (Log.flashAppend_sameRam _ _ _).tail, le_rfl, Nat.zero_le _, ?_, live_boot flash nowUs reset,
    hsteady, sound_boot flash nowUs reset, List.nil_sublist _⟩
  intro i _ p hp
  exact absurd hp (by simp)

end Log.Follows

/-- What the log tells of the history `l`: its first `n` events are written, in order, and the
others wait, in their places.  Of the written ones the first `e` went with an erased journal, and
all that have been written since are read back. -/
structure Told (P : Partition) (log : Log Nor) (l : List PendingRec) (n : Nat) : Prop where
  pending : log.stats.2 = l.length - n
  waits : ∀ i, n ≤ i → ∀ p, l[i]? = some p → log.ring (i % RING_N) = p
  stored : ((l.take n).map (PendingRec.record log.bootSeq)).Sublist log.flash.stored
  read : ∃ e ≤ n,
    ((l.take e).map (PendingRec.record log.bootSeq)).Sublist log.flash.erased ∧
      ∀ cap, log.stats.1 ≤ cap →
        (((l.take n).drop e).map (PendingRec.record log.bootSeq)).Sublist
          (log.readAt (norDriver P.size) 0 cap)

theorem Log.Follows.told {P : Partition} {log : Log Nor} {l : List PendingRec} {n : Nat}
    (h : log.Follows P l n) : Told P log l n := by
  have hup : log.part ≠ none := by
    rw [h.part]
    exact Option.some_ne_none _
  have hkept := (h.sound.recovered P ⟨h.live.halfErased, h.steady.failed⟩ h.live.dead hup).kept
  obtain ⟨gone, left, hsplit, hgone, hleft⟩ := List.sublist_append_iff.mp h.stored
  obtain ⟨lost, since, hevents, rfl, rfl⟩ := List.map_eq_append_iff.mp hsplit
  have hle : lost.length ≤ n := by
    have hlen := congrArg List.length hevents
    rw [List.length_take, List.length_append] at hlen
    omega
  have hfirst : l.take lost.length = lost := by
    rw [← Nat.min_eq_left hle, ← List.take_take, hevents, List.take_left]
  refine ⟨h.pending_eq, h.holds, h.stored, lost.length, hle, ?_, fun cap hcap => ?_⟩
  · rw [hfirst]
    exact hgone
  · rw [hevents, List.drop_left]
    exact hleft.trans (hkept cap hcap)

end evlog

/-! ### The history of a device -/

namespace web

open evlog

/-- The change to a published status, with the cause of a disarming. -/
def change (st : KartStatus Float32) (pushUs : Int) : PendingRec where
  code := (if st.arming then Ev.arm else Ev.disarm).code
  tMs := UInt32.ofInt (pushUs / 1000)
  data := if st.arming then 0 else st.stop.code

/-- What a step of the device shows: the armed flag that is published changes, or not. -/
def noted {δ : Type} (d d' : Device δ) : Event → List PendingRec
  | .tick _ pushUs =>
    if d'.status.arming = d.status.arming then [] else [change d'.status pushUs]
  | _ => []

section Runs

variable {P : Partition} (unspecified : Float32 → Int) (pbDecode : List UInt8 → Decoded)
  (uninit : KartConfig Float32) (start : Device Nor) (w : Nat → Event)

/-- The history of the first `n` steps. -/
def history (n : Nat) : List PendingRec :=
  (List.range n).flatMap fun k =>
    noted (deviceAt (norDriver P.size) unspecified pbDecode uninit start w k)
      (deviceAt (norDriver P.size) unspecified pbDecode uninit start w (k + 1)) (w k)

/-- What holds of a device and its history. -/
structure Device.Logged (P : Partition) (d : Device Nor) (l : List PendingRec) : Prop where
  published : d.esp.evArmed = d.status.arming
  log : ∃ n, d.log.Follows P l n

variable {unspecified pbDecode uninit start w} {d : Device Nor} {l : List PendingRec}

/-- The event of a tick is the change of the published flag. -/
theorem tick_log (hpublished : d.esp.evArmed = d.status.arming) (nowUs pushUs : Int) :
    (d.tick nowUs pushUs).log =
      if (d.tick nowUs pushUs).status.arming = d.status.arming then d.log
      else
        d.log.push (if (d.tick nowUs pushUs).status.arming then .arm else .disarm)
          (if (d.tick nowUs pushUs).status.arming then 0 else (d.tick nowUs pushUs).status.stop.code) pushUs := by
  have hevent : (d.tick nowUs pushUs).log =
      (armedEdge d.esp.evArmed (d.tick nowUs pushUs).esp.ctrl.tel).elim d.log
        fun e => d.log.push e.1 e.2 pushUs := by
    change _ = (d.esp.tickOnce
      { input := d.input, cfg := d.store.cfg, nowUs := nowUs }).2.event.elim _ _
    unfold Device.tick
    dsimp only
    cases (d.esp.tickOnce
      { input := d.input, cfg := d.store.cfg, nowUs := nowUs }).2.event <;> rfl
  have harming : (d.tick nowUs pushUs).esp.ctrl.tel.armed = (d.tick nowUs pushUs).status.arming := rfl
  have hstop : (d.tick nowUs pushUs).esp.ctrl.tel.stop = (d.tick nowUs pushUs).status.stop := rfl
  rw [hevent, hpublished, armedEdge, harming, hstop]
  cases (d.tick nowUs pushUs).status.arming <;> cases d.status.arming <;> rfl

theorem Device.Logged.tick (h : d.Logged P l) {nowUs pushUs : Int}
    (hroom : noted d (d.tick nowUs pushUs) (.tick nowUs pushUs) ≠ [] → d.log.pending < RING_N) :
    (d.tick nowUs pushUs).Logged P (l ++ noted d (d.tick nowUs pushUs) (.tick nowUs pushUs)) := by
  obtain ⟨hpublished, n, hlog⟩ := h
  refine ⟨rfl, n, ?_⟩
  rw [tick_log hpublished]
  by_cases hsame : (d.tick nowUs pushUs).status.arming = d.status.arming
  · have hnothing : noted d (d.tick nowUs pushUs) (.tick nowUs pushUs) = [] := if_pos hsame
    rw [if_pos hsame, hnothing, List.append_nil]
    exact hlog
  · have hchange : noted d (d.tick nowUs pushUs) (.tick nowUs pushUs) = [change (d.tick nowUs pushUs).status pushUs] :=
      if_neg hsame
    rw [hchange] at hroom ⊢
    rw [if_neg hsame]
    exact hlog.push (hroom (List.cons_ne_nil _ _)) _ _ pushUs

theorem dispatch_esp {δ : Type} (drv : FlashDriver δ) (unspecified : Float32 → Int) (d : Device δ)
    (draft : SetCtx) (rq : Req) (a : Answers) :
    (dispatch drv unspecified d draft rq a).1.esp = d.esp := by
  unfold dispatch
  cases hv : Verb.of rq.type with
  | wifiset =>
    dsimp only
    cases wifiError d.status.arming rq <;> rfl
  | set =>
    dsimp only
    split_ifs <;> rfl
  | _ => rfl

theorem wsHandler_frame {δ : Type} (drv : FlashDriver δ) (unspecified : Float32 → Int)
    (pbDecode : List UInt8 → Decoded) (uninit : KartConfig Float32) (d : Device δ)
    (req : WsRequest) (a : Answers) :
    (wsHandler drv unspecified pbDecode uninit d req a).1.esp = d.esp ∧
      (wsHandler drv unspecified pbDecode uninit d req a).1.status = d.status := by
  have heq := wsHandler_eq drv unspecified pbDecode uninit d req a
  cases hreceived : req.received pbDecode with
  | none =>
    simp only [hreceived] at heq
    rw [heq.1]
    exact ⟨rfl, rfl⟩
  | some decoded =>
    simp only [hreceived] at heq
    rw [heq]
    cases decoded.req with
    | none => exact ⟨rfl, rfl⟩
    | some rq => exact ⟨dispatch_esp .., dispatch_status ..⟩

/-- A request clears the log, or leaves it alone. -/
theorem Device.Logged.request (h : d.Logged P l) (req : WsRequest) (a : Answers) :
    (wsHandler (norDriver P.size) unspecified pbDecode uninit d req a).1.Logged P l := by
  obtain ⟨hpublished, n, hlog⟩ := h
  obtain ⟨hesp, hstatus⟩ := wsHandler_frame (norDriver P.size) unspecified pbDecode uninit d req a
  refine ⟨?_, n, ?_⟩
  · rw [hesp, hstatus, hpublished]
  · rcases wsHandler_log (norDriver P.size) unspecified pbDecode uninit d req a with hsame | hclear
    · rw [hsame]
      exact hlog
    · rw [hclear]
      exact hlog.clear d.status a.busy a.nowUs a.reset

theorem Device.Logged.step (h : d.Logged P l) (e : Event)
    (hroom : noted d (d.step (norDriver P.size) unspecified pbDecode uninit e) e ≠ [] →
      d.log.pending < RING_N) :
    (d.step (norDriver P.size) unspecified pbDecode uninit e).Logged P
      (l ++ noted d (d.step (norDriver P.size) unspecified pbDecode uninit e) e) := by
  unfold Device.step at hroom ⊢
  split_ifs at hroom ⊢ with hrestarted
  · -- the device is restarting and publishes nothing any more
    have hnothing : noted d d e = [] := by
      cases e with
      | tick nowUs pushUs => exact if_pos rfl
      | _ => rfl
    rw [hnothing, List.append_nil]
    exact h
  · cases e with
    | tick nowUs pushUs => exact h.tick hroom
    | data nowUs rep =>
      change Device.Logged P _ (l ++ [])
      rw [List.append_nil]
      exact ⟨h.published, h.log⟩
    | conn connected =>
      change Device.Logged P _ (l ++ [])
      rw [List.append_nil]
      exact ⟨h.published, h.log⟩
    | maintain busy =>
      obtain ⟨n, hlog⟩ := h.log
      obtain ⟨m, hkept, -⟩ := hlog.maintain d.status busy
      change Device.Logged P _ (l ++ [])
      rw [List.append_nil]
      exact ⟨h.published, m, hkept⟩
    | request req a =>
      change Device.Logged P _ (l ++ [])
      rw [List.append_nil]
      exact h.request req a

/-- A run step for step: the history grows by what the step shows. -/
theorem logged_deviceAt (hstart : start.Logged P []) (n : Nat)
    (hroom : ∀ k < n,
      noted (deviceAt (norDriver P.size) unspecified pbDecode uninit start w k)
          (deviceAt (norDriver P.size) unspecified pbDecode uninit start w (k + 1)) (w k) ≠ [] →
        (deviceAt (norDriver P.size) unspecified pbDecode uninit start w k).log.pending < RING_N) :
    (deviceAt (norDriver P.size) unspecified pbDecode uninit start w n).Logged P
      (history (P := P) unspecified pbDecode uninit start w n) := by
  induction n with
  | zero => exact hstart
  | succ n ih =>
    have hbefore := ih fun k hk => hroom k (Nat.lt_succ_of_lt hk)
    have hstep := hbefore.step (w n) (hroom n (Nat.lt_succ_self n))
    rw [history, List.range_succ, List.flatMap_append, List.flatMap_singleton]
    exact hstep

/-- **The log tells the history of the device.**  In every run on a partition that held a
journal, in which no change of the armed flag finds the ring full, the changes that the status
has shown are told by the log, each with its time and the cause; and with the mutex free and
the kart disarmed a turn of the log leaves none of them waiting. -/
theorem log_tells_history (flash : JournalFlash P) (nowUs : Int) (reset : UInt32)
    (store : ConfigStore) (wifi : WifiNvs) (pad : PadNvs Float32) (load save : NvsResults)
    (padOpens : Bool)
    (hstart : start = Device.boot unspecified uninit store wifi pad load save padOpens
      (flash.boot nowUs reset))
    (n : Nat)
    (hroom : ∀ k < n,
      noted (deviceAt (norDriver P.size) unspecified pbDecode uninit start w k)
          (deviceAt (norDriver P.size) unspecified pbDecode uninit start w (k + 1)) (w k) ≠ [] →
        (deviceAt (norDriver P.size) unspecified pbDecode uninit start w k).log.pending < RING_N) :
    (∃ m ≤ (history (P := P) unspecified pbDecode uninit start w n).length,
        Told P (deviceAt (norDriver P.size) unspecified pbDecode uninit start w n).log
          (history (P := P) unspecified pbDecode uninit start w n) m) ∧
      ∀ busy, Log.seenArmed (deviceAt (norDriver P.size) unspecified pbDecode uninit start w n).status
          busy = false →
        Told P
          ((deviceAt (norDriver P.size) unspecified pbDecode uninit start w n).log.maintain
            (norDriver P.size)
            (deviceAt (norDriver P.size) unspecified pbDecode uninit start w n).status busy)
          (history (P := P) unspecified pbDecode uninit start w n)
          (history (P := P) unspecified pbDecode uninit start w n).length := by
  have hboot : start.Logged P [] := by
    rw [hstart]
    exact ⟨rfl, 0, .boot flash nowUs reset⟩
  obtain ⟨-, m, hlog⟩ := logged_deviceAt hboot n hroom
  refine ⟨⟨m, hlog.order, hlog.told⟩, fun busy hfree => ?_⟩
  obtain ⟨k, hkept, hall⟩ := hlog.maintain
    (deviceAt (norDriver P.size) unspecified pbDecode uninit start w n).status busy
  rw [hall hfree] at hkept
  exact hkept.told

end Runs

/-! ### A drive on the bench -/

/-- START is held until the kart arms, and B is pressed. -/
def stoppedBench : Nat → Event
  | 0 => .conn true
  | 1 => .data 1 startHeld
  | 2 => .tick 1 2
  | 3 => .data 1500001 startHeld
  | 4 => .tick 1500002 1500003
  | 5 => .data 1600000 { Input.noReport with estop := true }
  | _ => .tick 1600001 1600002

def loggedDevice : Device Nor :=
  Device.boot (fun _ => 0) factoryCfg { cfg := factoryCfg, nvs := fun _ => none }
    { ssid := none, pass := none, en := none } { cal := some (0, 0, 1, 1), ok := some 1 } flashOk
    flashOk true (blankFlash.boot 1000 1)

theorem log_tells_history_bench :
    history (P := twoSectors) (fun _ => 0) negZeroDecode factoryCfg loggedDevice stoppedBench 7 =
        [{ code := Ev.arm.code, tMs := 1500, data := 0 },
          { code := Ev.disarm.code, tMs := 1600, data := Stop.eStop.code }] ∧
      Told twoSectors
        ((deviceAt (norDriver twoSectors.size) (fun _ => 0) negZeroDecode factoryCfg loggedDevice
          stoppedBench 7).log.maintain (norDriver twoSectors.size)
          (deviceAt (norDriver twoSectors.size) (fun _ => 0) negZeroDecode factoryCfg loggedDevice
            stoppedBench 7).status false)
        (history (P := twoSectors) (fun _ => 0) negZeroDecode factoryCfg loggedDevice stoppedBench 7)
        (history (P := twoSectors) (fun _ => 0) negZeroDecode factoryCfg loggedDevice stoppedBench
          7).length := by
  have hpending : ∀ k < 7, (deviceAt (norDriver twoSectors.size) (fun _ => 0) negZeroDecode
      factoryCfg loggedDevice stoppedBench k).log.pending < RING_N := by
    decide +kernel
  have htold := @log_tells_history twoSectors (fun _ => 0) negZeroDecode factoryCfg loggedDevice
    stoppedBench blankFlash 1000 1 { cfg := factoryCfg, nvs := fun _ => none }
    { ssid := none, pass := none, en := none } { cal := some (0, 0, 1, 1), ok := some 1 } flashOk
    flashOk true rfl 7 (fun k hk _ => hpending k hk)
  exact ⟨by decide +kernel, htold.2 false (by decide +kernel)⟩

end web

end KartFirmware
