/-
Identifiers before they are text: a 32-bit number and a positive 24-bit number. Written out they
are eight hexadecimal digits, a point and six hexadecimal digits that are not all zero.
-/
import SlideFlow.Ident.Twister
import SlideFlow.Text.Hex

namespace SlideFlow.Ident

open SlideFlow.Text

structure RawId where
  high : UInt32
  low : Nat
  low_pos : 0 < low
  low_lt : low < 0x1000000

/-- The written form of an identifier. -/
def RawId.text (r : RawId) : String :=
  String.ofList (hexPadded 8 r.high.toNat ++ '.' :: hexPadded 6 r.low)

/-- A source of raw identifiers. A draw may fail to return one. -/
class Source (σ : Type) where
  draw : σ → Option (RawId × σ)

/-- The low part from the top 24 bits of a word; the one value that does not fit is drawn again. -/
def Twister.drawLow (high : UInt32) : Nat → Twister → Option (RawId × Twister)
  | 0, _ => none
  | fuel + 1, t =>
    let (w, t) := t.next
    let r := (w >>> 8).toNat
    if h : r < 0xffffff then
      some ({ high, low := 1 + r, low_pos := by omega, low_lt := by omega }, t)
    else drawLow high fuel t

/-- Redraws that are made before a twister gives up. -/
def Twister.redraws : Nat := 1000

instance : Source Twister where
  draw t :=
    let (high, t) := t.next
    Twister.drawLow high Twister.redraws t

end SlideFlow.Ident
