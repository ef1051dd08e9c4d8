import Mathlib.Data.List.Basic
import Mathlib.Tactic.SplitIfs

/-!
# The WS2812B strip

The pixel buffer of `ws2812.cpp`: three bytes for each LED, in the order green, red, blue,
scaled by the brightness.  The number of LEDs is the one `init` was called with, and the
buffer keeps its size.  What `show` sends is the buffer.
-/

structure Rgb where
  r : UInt8
  g : UInt8
  b : UInt8
deriving DecidableEq

def Rgb.black : Rgb := ⟨0, 0, 0⟩

structure Ws2812 where
  count : Nat
  brightness : UInt8
  buf : List UInt8
  size : buf.length = 3 * count

namespace Ws2812

/-- A channel at a brightness. -/
def scale (v brightness : UInt8) : UInt8 := (v.toNat * brightness.toNat / 255).toUInt8

/-- `init`, without the peripheral. -/
def init (count : Nat) (brightness : UInt8) : Ws2812 where
  count := count
  brightness := brightness
  buf := List.replicate (3 * count) 0
  size := List.length_replicate

def setBrightness (s : Ws2812) (b : UInt8) : Ws2812 := { s with brightness := b }

/-- `setPixel`, for an index that is not negative. -/
def setPixel (s : Ws2812) (i : Nat) (c : Rgb) : Ws2812 :=
  if i ≥ s.count then s
  else
    { s with
      buf := ((s.buf.set (3 * i) (scale c.g s.brightness)).set (3 * i + 1)
        (scale c.r s.brightness)).set (3 * i + 2) (scale c.b s.brightness)
      size := by rw [List.length_set, List.length_set, List.length_set, s.size] }

/-- The first pixels, in a loop. -/
def paint (s : Ws2812) (n : Nat) (color : Nat → Rgb) : Ws2812 :=
  (List.range n).foldl (fun s i => s.setPixel i (color i)) s

def setAll (s : Ws2812) (c : Rgb) : Ws2812 := s.paint s.count fun _ => c

/-- The three bytes of an LED, as the colour it shows. -/
def pixel (s : Ws2812) (i : Nat) : Rgb where
  g := s.buf.getD (3 * i) 0
  r := s.buf.getD (3 * i + 1) 0
  b := s.buf.getD (3 * i + 2) 0

def scaled (c : Rgb) (brightness : UInt8) : Rgb where
  r := scale c.r brightness
  g := scale c.g brightness
  b := scale c.b brightness

/-! ### What the buffer holds -/

variable (s : Ws2812) (i j n : Nat) (c : Rgb) (color : Nat → Rgb)

@[simp] theorem setBrightness_pixel (b : UInt8) : (s.setBrightness b).pixel i = s.pixel i := rfl

end Ws2812
