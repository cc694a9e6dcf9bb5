/-
The Mersenne twister: a stream of 32-bit words that a whole number seeds. The number enters by its
magnitude, as 32-bit words with the least significant first.
-/

namespace SlideFlow.Ident

/-- The state of a twister: a block of words and how many of them have been given out. -/
structure Twister where
  block : Array UInt32
  used : Nat
  deriving Repr

namespace Twister

/-- Words in a block. -/
def size : Nat := 624

/-- Distance of the word that is mixed into a new one. -/
def middle : Nat := 397

/-! ## Seeding -/

/-- The block that a single word seeds. -/
def ofWord (seed : UInt32) : Array UInt32 :=
  let grow (block : Array UInt32) (i : Nat) : Array UInt32 :=
    let w := block.getD i 0
    block.push ((w ^^^ (w >>> 30)) * 1812433253 + UInt32.ofNat (i + 1))
  (List.range (size - 1)).foldl grow #[seed]

/-- The 32-bit words of a number, least significant first; zero has one word. -/
def keyOf (n : Nat) : List UInt32 :=
  if n < 0x100000000 then [UInt32.ofNat n]
  else UInt32.ofNat (n % 0x100000000) :: keyOf (n / 0x100000000)
termination_by n
decreasing_by omega

/-- A block and the position of the word that is mixed next. -/
abbrev Cursor := Array UInt32 × Nat

/-- Mixes one word with its neighbour and an addend that may depend on the position. Past the end
the last word is copied to the front and the walk goes on at the second. -/
def stir (factor : UInt32) (addend : Nat → UInt32) (cursor : Cursor) : Cursor :=
  let (block, i) := cursor
  let p := block.getD (i - 1) 0
  let w := (block.getD i 0 ^^^ ((p ^^^ (p >>> 30)) * factor)) + addend i
  let block := block.setIfInBounds i w
  if i + 1 ≥ size then (block.setIfInBounds 0 w, 1) else (block, i + 1)

/-- The twister of a key: the key is stirred into the block over and over, then the positions. -/
def ofKey (key : Array UInt32) : Twister :=
  let stirKey (cursor : Cursor) (k : Nat) : Cursor :=
    let j := k % key.size
    stir 1664525 (fun _ => key.getD j 0 + UInt32.ofNat j) cursor
  let keyed := (List.range (max size key.size)).foldl stirKey (ofWord 19650218, 1)
  let stirPlace (cursor : Cursor) (_ : Nat) : Cursor :=
    stir 1566083941 (fun i => 0 - UInt32.ofNat i) cursor
  let placed := (List.range (size - 1)).foldl stirPlace keyed
  { block := placed.1.setIfInBounds 0 0x80000000, used := size }

/-- The twister of a whole number; the sign does not matter. -/
def ofSeed (seed : Int) : Twister := ofKey (keyOf seed.natAbs).toArray

/-! ## Drawing words -/

/-- The top bit of one word with the other bits of its neighbour, shifted by one place; a bit that
falls out is fed back. -/
def twist (word neighbour : UInt32) : UInt32 :=
  let w := (word &&& 0x80000000) ||| (neighbour &&& 0x7fffffff)
  let odd : UInt32 := if w &&& 1 = 1 then 0x9908b0df else 0
  (w >>> 1) ^^^ odd

/-- Makes one word of the block anew, in its place. -/
def renew (block : Array UInt32) (i : Nat) : Array UInt32 :=
  block.setIfInBounds i (block.getD ((i + middle) % size) 0 ^^^
    twist (block.getD i 0) (block.getD ((i + 1) % size) 0))

/-- The block after a block, its words made one after the other. -/
def nextBlock (block : Array UInt32) : Array UInt32 :=
  (List.range size).foldl renew block

/-- The last scrambling of a word before it is given out. -/
def temper (w : UInt32) : UInt32 :=
  let w := w ^^^ (w >>> 11)
  let w := w ^^^ ((w <<< 7) &&& 0x9d2c5680)
  let w := w ^^^ ((w <<< 15) &&& 0xefc60000)
  w ^^^ (w >>> 18)

/-- The next word of the stream. -/
def next (t : Twister) : UInt32 × Twister :=
  let t := if t.used ≥ size then { block := nextBlock t.block, used := 0 } else t
  (temper (t.block.getD t.used 0), { t with used := t.used + 1 })

end Twister

end SlideFlow.Ident
