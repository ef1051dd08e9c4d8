import Mathlib.Data.List.Basic
import Mathlib.Data.List.Infix
import Mathlib.Tactic.SplitIfs

/-!
# Readers of a byte stream

A `Reader` takes bytes from the front of a stream, or fails.  It looks at nothing but the
bytes it takes: after a success the same bytes are read in the same way whatever follows
them (`Reader.reads`).  So a reader never leaves its stream, and where it succeeds on some
bytes it fails on each beginning of them that is cut short (`Reads.cut`).

`Reads x bytes a` says that `x` takes these bytes and gives `a`.  Its rules follow the
combinators.  `runAll` repeats a step until the stream is empty, `forBytes` until it has taken
so many bytes.
-/

variable {ε ε' α β σ κ : Type}

/-- What is left of the stream and a value, unless the reader fails. -/
structure Reader (ε α : Type) where
  run : List UInt8 → Except ε (α × List UInt8)
  reads : ∀ {s a r}, run s = .ok (a, r) →
    ∃ used, s = used ++ r ∧ ∀ q, run (used ++ q) = .ok (a, q)

namespace Reader

/-! ### Combinators -/

def fail (e : ε) : Reader ε α where
  run _ := .error e
  reads h := by simp at h

instance : Monad (Reader ε) where
  pure a :=
    { run := fun s => .ok (a, s)
      reads := by
        rintro s a r ⟨⟩
        exact ⟨[], rfl, fun q => rfl⟩ }
  bind x f :=
    { run := fun s =>
        match x.run s with
        | .error e => .error e
        | .ok (a, r) => (f a).run r
      reads := by
        intro s b r h
        cases hx : x.run s with
        | error e => simp [hx] at h
        | ok p =>
          obtain ⟨a, r₁⟩ := p
          simp only [hx] at h
          obtain ⟨used₁, rfl, hused₁⟩ := x.reads hx
          obtain ⟨used₂, rfl, hused₂⟩ := (f a).reads h
          refine ⟨used₁ ++ used₂, by simp, fun q => ?_⟩
          simp only [List.append_assoc, hused₁, hused₂] }

/-- One byte. -/
def byte (e : ε) : Reader ε UInt8 where
  run
    | [] => .error e
    | b :: r => .ok (b, r)
  reads := by
    intro s a r h
    cases s with
    | nil => simp at h
    | cons b s =>
      obtain ⟨rfl, rfl⟩ : b = a ∧ s = r := by simpa using h
      exact ⟨[b], rfl, fun q => rfl⟩

/-- A block of `n` bytes. -/
def take (e : ε) (n : Nat) : Reader ε (List UInt8) where
  run s := if s.length < n then .error e else .ok (s.take n, s.drop n)
  reads := by
    intro s a r h
    split_ifs at h with hshort
    obtain ⟨rfl, rfl⟩ : s.take n = a ∧ s.drop n = r := by simpa using h
    refine ⟨s.take n, (List.take_append_drop n s).symm, fun q => ?_⟩
    have hlen : (s.take n).length = n := by simp; omega
    rw [if_neg (by simp; omega), List.take_left' hlen, List.drop_left' hlen]

/-- A block of `n` bytes, handed as a whole to a function that reads it. -/
def block (e : ε) (n : Nat) (f : List UInt8 → Except ε α) : Reader ε α where
  run s := if s.length < n then .error e else (f (s.take n)).map fun a => (a, s.drop n)
  reads := by
    intro s a r h
    split_ifs at h with hshort
    cases hf : f (s.take n) with
    | error e' => simp [hf, Except.map] at h
    | ok b =>
      obtain ⟨rfl, rfl⟩ : b = a ∧ s.drop n = r := by simpa [hf, Except.map] using h
      refine ⟨s.take n, (List.take_append_drop n s).symm, fun q => ?_⟩
      have hlen : (s.take n).length = n := by simp; omega
      rw [if_neg (by simp; omega), List.take_left' hlen, List.drop_left' hlen, hf]
      rfl

/-- The bytes up to the first one without `p`, with it. -/
def through (e : ε) (p : UInt8 → Bool) : List UInt8 → Except ε (List UInt8 × List UInt8)
  | [] => .error e
  | b :: s =>
    if p b then (through e p s).map fun r => (b :: r.1, r.2) else .ok ([b], s)

theorem through_reads {e : ε} {p : UInt8 → Bool} {s a r : List UInt8}
    (h : through e p s = .ok (a, r)) :
    s = a ++ r ∧ ∀ q, through e p (a ++ q) = .ok (a, q) := by
  induction s generalizing a with
  | nil => simp [through] at h
  | cons b s ih =>
    cases hb : p b with
    | false =>
      obtain ⟨rfl, rfl⟩ : [b] = a ∧ s = r := by simpa [through, hb] using h
      exact ⟨rfl, fun q => by simp [through, hb]⟩
    | true =>
      cases hs : through e p s with
      | error e' => simp [through, hb, hs, Except.map] at h
      | ok c =>
        obtain ⟨rfl, rfl⟩ : b :: c.1 = a ∧ c.2 = r := by
          simpa [through, hb, hs, Except.map] using h
        obtain ⟨hsplit, hagain⟩ := ih hs
        refine ⟨by rw [hsplit]; rfl, fun q => ?_⟩
        simp [through, hb, hagain q, Except.map]

def skipThrough (e : ε) (p : UInt8 → Bool) : Reader ε (List UInt8) where
  run := through e p
  reads h := ⟨_, through_reads h⟩

/-! ### How they run -/

@[simp] theorem run_pure (a : α) (s : List UInt8) : (pure a : Reader ε α).run s = .ok (a, s) :=
  rfl

@[simp] theorem run_fail (e : ε) (s : List UInt8) : (fail e : Reader ε α).run s = .error e := rfl

theorem run_bind (x : Reader ε α) (f : α → Reader ε β) (s : List UInt8) :
    (x >>= f).run s =
      match x.run s with
      | .error e => .error e
      | .ok (a, r) => (f a).run r := rfl

/-- A reader in sequence succeeds when both parts do. -/
theorem run_bind_eq_ok {x : Reader ε α} {f : α → Reader ε β} {s r : List UInt8} {b : β} :
    (x >>= f).run s = .ok (b, r) ↔ ∃ a t, x.run s = .ok (a, t) ∧ (f a).run t = .ok (b, r) := by
  rw [run_bind]
  cases hx : x.run s with
  | error e => simp
  | ok p =>
    constructor
    · intro h
      exact ⟨p.1, p.2, rfl, h⟩
    · rintro ⟨a, t, ⟨⟩, h⟩
      exact h

theorem run_bind_ok {x : Reader ε α} {s r : List UInt8} {a : α} (h : x.run s = .ok (a, r))
    (f : α → Reader ε β) : (x >>= f).run s = (f a).run r := by
  rw [run_bind, h]

/-! ### What a reader takes -/

def Reads (x : Reader ε α) (bytes : List UInt8) (a : α) : Prop :=
  ∀ rest, x.run (bytes ++ rest) = .ok (a, rest)

section Rules

variable {x : Reader ε α} {f : α → Reader ε β} {bytes bytes' s r : List UInt8} {a : α} {b : β}

theorem Reads.bind (hx : x.Reads bytes a) (hf : (f a).Reads bytes' b) :
    (x >>= f).Reads (bytes ++ bytes') b := by
  intro rest
  rw [List.append_assoc, run_bind_ok (hx _), hf]

theorem Reads.bind_pure {g : α → β} (hx : x.Reads bytes a) :
    (x >>= fun a => pure (g a)).Reads bytes (g a) := by
  intro rest
  rw [run_bind_ok (hx _), run_pure]

theorem reads_take (e : ε) (bytes : List UInt8) :
    (take e bytes.length).Reads bytes bytes := by
  intro rest
  simp [take]

theorem reads_block {e : ε} {g : List UInt8 → Except ε α} (h : g bytes = .ok a) :
    (block e bytes.length g).Reads bytes a := by
  intro rest
  simp [block, h, Except.map]

/-- The bytes with `p`, and one without. -/
theorem reads_skipThrough (e : ε) {p : UInt8 → Bool} {last : UInt8} (hmore : ∀ c ∈ bytes, p c = true)
    (hlast : p last = false) : (skipThrough e p).Reads (bytes ++ [last]) (bytes ++ [last]) := by
  intro rest
  change through e p _ = _
  induction bytes with
  | nil => simp [through, hlast]
  | cons c bytes ih =>
    have htail := ih fun d hd => hmore d (List.mem_cons_of_mem c hd)
    simp only [List.cons_append, through, hmore c List.mem_cons_self, if_true, htail, Except.map]

/-- Nothing is read from a beginning that is cut short. -/
theorem Reads.cut (h : x.Reads bytes a) {start : List UInt8} (hstart : start <+: bytes)
    (hne : start ≠ bytes) : ∃ e, x.run start = .error e := by
  cases hx : x.run start with
  | error e => exact ⟨e, rfl⟩
  | ok p =>
    obtain ⟨a', r⟩ := p
    obtain ⟨used, rfl, hused⟩ := x.reads hx
    obtain ⟨rest, rfl⟩ := hstart
    have hall := h []
    rw [List.append_nil, List.append_assoc, hused] at hall
    obtain ⟨-, hnil⟩ : a' = a ∧ r ++ rest = [] := by simpa using hall
    obtain ⟨rfl, rfl⟩ := List.append_eq_nil_iff.mp hnil
    exact absurd (List.append_nil _).symm hne

end Rules

/-! ### Repeating -/

/-- Every success takes at least one byte. -/
def Consumes (x : Reader ε α) : Prop := ∀ s a r, x.run s = .ok (a, r) → r.length < s.length

theorem length_le (x : Reader ε α) {s r : List UInt8} {a : α} (h : x.run s = .ok (a, r)) :
    r.length ≤ s.length := by
  obtain ⟨used, rfl, -⟩ := x.reads h
  simp

theorem consumes_byte (e : ε) : (byte e).Consumes := by
  intro s a r h
  cases s with
  | nil => simp [byte] at h
  | cons b s =>
    obtain ⟨rfl, rfl⟩ : b = a ∧ s = r := by simpa [byte] using h
    simp

theorem Consumes.bind {x : Reader ε α} (hx : x.Consumes) (f : α → Reader ε β) :
    (x >>= f).Consumes := by
  intro s b r h
  obtain ⟨a, t, hfirst, hrest⟩ := run_bind_eq_ok.mp h
  exact Nat.lt_of_le_of_lt ((f a).length_le hrest) (hx s a t hfirst)

theorem Reads.ne_nil {x : Reader ε α} {bytes : List UInt8} {a : α} (h : x.Reads bytes a)
    (hx : x.Consumes) : bytes ≠ [] := by
  rintro rfl
  exact absurd (hx _ _ _ (h [])) (Nat.lt_irrefl _)

/-- The step until the stream is empty. -/
def runAll (step : σ → Reader ε σ) (hstep : ∀ x, (step x).Consumes) (x : σ) (s : List UInt8) :
    Except ε σ :=
  if s = [] then .ok x
  else
    match _hrun : (step x).run s with
    | .error e => .error e
    | .ok (y, r) => runAll step hstep y r
termination_by s.length
decreasing_by exact hstep x _ _ _ _hrun

section RunAll

variable {step : σ → Reader ε σ} {hstep : ∀ x, (step x).Consumes}

theorem runAll_nil (x : σ) : runAll step hstep x [] = .ok x := by
  rw [runAll]
  simp

theorem runAll_append {x y : σ} {bytes : List UInt8} (h : (step x).Reads bytes y)
    (rest : List UInt8) :
    runAll step hstep x (bytes ++ rest) = runAll step hstep y rest := by
  have hne : bytes ++ rest ≠ [] := by simp [h.ne_nil (hstep x)]
  rw [runAll, if_neg hne]
  split
  · next e he =>
    rw [h rest] at he
    exact nomatch he
  · next z r hr =>
    rw [h rest] at hr
    obtain ⟨rfl, rfl⟩ : y = z ∧ rest = r := by simpa using hr
    rfl

theorem runAll_error {x : σ} {s : List UInt8} {e : ε} (hs : s ≠ [])
    (h : (step x).run s = .error e) : runAll step hstep x s = .error e := by
  rw [runAll, if_neg hs]
  split
  · next e' he =>
    rw [h] at he
    cases he
    rfl
  · next y r hr =>
    rw [h] at hr
    exact nomatch hr

section Chunks

variable {chunk : κ → List UInt8} {f : σ → κ → Option σ} {l : List κ} {x y : σ}

/-- A list of chunks is read one after the other, where they mean something. -/
theorem runAll_flatMap (h : ∀ k ∈ l, ∀ x y, f x k = some y → (step x).Reads (chunk k) y)
    (hy : l.foldlM f x = some y) : runAll step hstep x (l.flatMap chunk) = .ok y := by
  induction l generalizing x with
  | nil =>
    obtain rfl : x = y := by simpa using hy
    exact runAll_nil x
  | cons k l ih =>
    obtain ⟨z, hz, hrest⟩ : ∃ z, f x k = some z ∧ l.foldlM f z = some y := by
      simpa [List.foldlM_cons, Option.bind_eq_some_iff] using hy
    rw [List.flatMap_cons, runAll_append (h k List.mem_cons_self x z hz)]
    exact ih (fun k' hk' => h k' (List.mem_cons_of_mem k hk')) hrest

/-- What is cut off in the middle of a chunk is not read; cut off between two chunks, the
chunks in front are. -/
theorem runAll_cut (h : ∀ k ∈ l, ∀ x y, f x k = some y → (step x).Reads (chunk k) y)
    (hy : l.foldlM f x = some y) {start : List UInt8} (hstart : start <+: l.flatMap chunk) :
    (∃ n, start = (l.take n).flatMap chunk) ∨ ∃ e, runAll step hstep x start = .error e := by
  induction l generalizing x start with
  | nil => exact Or.inl ⟨0, by simpa using hstart⟩
  | cons k l ih =>
    obtain ⟨z, hz, hrest⟩ : ∃ z, f x k = some z ∧ l.foldlM f z = some y := by
      simpa [List.foldlM_cons, Option.bind_eq_some_iff] using hy
    have hk := h k List.mem_cons_self x z hz
    obtain ⟨q, hq⟩ := hstart
    rw [List.flatMap_cons] at hq
    rcases List.append_eq_append_iff.mp hq with ⟨more, hchunk, -⟩ | ⟨tail, rfl, htail⟩
    · by_cases hnil : start = []
      · exact Or.inl ⟨0, by simpa using hnil⟩
      by_cases hall : start = chunk k
      · exact Or.inl ⟨1, by simpa using hall⟩
      · obtain ⟨e, he⟩ := hk.cut ⟨more, hchunk.symm⟩ hall
        exact Or.inr ⟨e, runAll_error hnil he⟩
    · rcases ih (fun k' hk' => h k' (List.mem_cons_of_mem k hk')) hrest ⟨q, htail.symm⟩ with
        ⟨n, rfl⟩ | ⟨e, he⟩
      · exact Or.inl ⟨n + 1, by simp⟩
      · exact Or.inr ⟨e, by rw [runAll_append hk, he]⟩

end Chunks

/-- What every step keeps is kept. -/
theorem runAll_invariant {P : σ → Prop}
    (hkeeps : ∀ x s y r, P x → (step x).run s = .ok (y, r) → P y) {x y : σ} {s : List UInt8}
    (hx : P x) (h : runAll step hstep x s = .ok y) : P y := by
  induction hlen : s.length using Nat.strongRecOn generalizing x s with
  | ind n ih =>
    by_cases hs : s = []
    · subst hs
      rw [runAll_nil] at h
      cases h
      exact hx
    · cases hrun : (step x).run s with
      | error e =>
        rw [runAll_error hs hrun] at h
        exact nomatch h
      | ok p =>
        obtain ⟨z, r⟩ := p
        obtain ⟨used, rfl, hused⟩ := (step x).reads hrun
        rw [runAll_append hused] at h
        exact ih r.length (hlen ▸ hstep x _ _ _ hrun) (hkeeps x _ z r hx hrun) h rfl

end RunAll

/-! ### Repeating for a length -/

/-- The step until it has taken `n` bytes, or more. -/
def loopFor (step : σ → Reader ε σ) (hstep : ∀ x, (step x).Consumes) (n : Nat) (x : σ)
    (s : List UInt8) : Except ε (σ × List UInt8) :=
  if n = 0 then .ok (x, s)
  else
    match _hrun : (step x).run s with
    | .error e => .error e
    | .ok (y, r) => loopFor step hstep (n - (s.length - r.length)) y r
termination_by n
decreasing_by
  have hless := hstep x _ _ _ _hrun
  omega

section LoopFor

variable {step : σ → Reader ε σ} {hstep : ∀ x, (step x).Consumes}

theorem loopFor_zero (x : σ) (s : List UInt8) : loopFor step hstep 0 x s = .ok (x, s) := by
  rw [loopFor, if_pos rfl]

theorem loopFor_append {n : Nat} {x y : σ} {bytes : List UInt8} (hn : n ≠ 0)
    (h : (step x).Reads bytes y) (rest : List UInt8) :
    loopFor step hstep n x (bytes ++ rest) = loopFor step hstep (n - bytes.length) y rest := by
  rw [loopFor, if_neg hn]
  split
  · next e he =>
    rw [h rest] at he
    exact nomatch he
  · next z r hr =>
    rw [h rest] at hr
    obtain ⟨rfl, rfl⟩ : y = z ∧ rest = r := by simpa using hr
    rw [List.length_append, Nat.add_sub_cancel]

theorem loopFor_error {n : Nat} {x : σ} {s : List UInt8} {e : ε} (hn : n ≠ 0)
    (h : (step x).run s = .error e) : loopFor step hstep n x s = .error e := by
  rw [loopFor, if_neg hn]
  split
  · next e' he =>
    rw [h] at he
    cases he
    rfl
  · next y r hr =>
    rw [h] at hr
    exact nomatch hr

theorem loopFor_reads {n : Nat} {x y : σ} {s r : List UInt8}
    (h : loopFor step hstep n x s = .ok (y, r)) :
    ∃ used, s = used ++ r ∧ ∀ q, loopFor step hstep n x (used ++ q) = .ok (y, q) := by
  induction n using Nat.strongRecOn generalizing x s with
  | ind n ih =>
    by_cases hn : n = 0
    · subst hn
      rw [loopFor_zero] at h
      cases h
      exact ⟨[], rfl, fun q => loopFor_zero _ q⟩
    · cases hrun : (step x).run s with
      | error e =>
        rw [loopFor_error hn hrun] at h
        exact nomatch h
      | ok p =>
        obtain ⟨z, t⟩ := p
        have hless := hstep x _ _ _ hrun
        obtain ⟨used, rfl, hused⟩ := (step x).reads hrun
        rw [List.length_append] at hless
        rw [loopFor_append hn hused] at h
        obtain ⟨used', rfl, hrest⟩ := ih (n - used.length) (by omega) h
        refine ⟨used ++ used', (List.append_assoc ..).symm, fun q => ?_⟩
        rw [List.append_assoc, loopFor_append hn hused, hrest]

/-- The step for `n` bytes.  The last one may take more. -/
def forBytes (step : σ → Reader ε σ) (hstep : ∀ x, (step x).Consumes) (n : Nat) (x : σ) :
    Reader ε σ where
  run := loopFor step hstep n x
  reads := loopFor_reads

/-- Chunks that are always read are read one after the other. -/
theorem reads_forBytes {chunk : κ → List UInt8} {f : σ → κ → σ} {l : List κ}
    (h : ∀ k ∈ l, ∀ z, (step z).Reads (chunk k) (f z k)) (x : σ) :
    (forBytes step hstep (l.flatMap chunk).length x).Reads (l.flatMap chunk) (l.foldl f x) := by
  intro rest
  change loopFor step hstep _ x _ = _
  induction l generalizing x with
  | nil => exact loopFor_zero x rest
  | cons k l ih =>
    have hk := h k List.mem_cons_self x
    have hne : (chunk k ++ l.flatMap chunk).length ≠ 0 := by
      simp [hk.ne_nil (hstep x)]
    rw [List.flatMap_cons, List.append_assoc, loopFor_append hne hk, List.length_append,
      Nat.add_sub_cancel_left, List.foldl_cons]
    exact ih (fun k' hk' => h k' (List.mem_cons_of_mem k hk')) (f x k)

end LoopFor

end Reader
