import Mathlib.Logic.Function.Basic
import Mathlib.Tactic.SplitIfs

/-!
# Ports behind a write-avoidance cache

A `CachedPort` keeps the last value written to it and skips a write of that same
value.  The cache is only right if it agrees with the wire (`Coherent`); it need
not at first, when the cache holds a sentinel.  Every write that the cache lets
through makes the port coherent, and on a coherent port every write is seen on
the wire, skipped or not.
-/

/-- What the cache remembers, and what is really present. -/
@[ext] structure CachedPort (α : Type*) where
  last : α
  wire : α

namespace CachedPort

variable {α : Type*}

def Coherent (p : CachedPort α) : Prop := p.last = p.wire

/-- Skips a write of the remembered value. -/
def write [DecidableEq α] (p : CachedPort α) (v : α) : CachedPort α :=
  if p.last = v then p else { last := v, wire := v }

variable [DecidableEq α] {p : CachedPort α}

/-- On a coherent port a skipped write and a real one cannot be told apart. -/
theorem write_of_coherent (h : p.Coherent) (v : α) : p.write v = { last := v, wire := v } := by
  unfold write
  split_ifs with hsame
  · exact CachedPort.ext hsame (h.symm.trans hsame)
  · rfl

theorem Coherent.write (h : p.Coherent) (v : α) : (p.write v).Coherent := by
  rw [write_of_coherent h]
  rfl

theorem write_wire (h : p.Coherent) (v : α) : (p.write v).wire = v := by
  rw [write_of_coherent h]

end CachedPort
