/-
The words of a twister and the identifiers that are drawn from them. A word that does not fit is
drawn again, up to a limit, but the limit is never reached. The words obey a relation between single
bits: one bit of a word is the sum of three bits each of the words 396 and 623 places behind it
(`bit_word_one`). Words that do not fit have all these bits set, and one is not the sum of six ones.
So a word that fits comes in time (`exists_word_fits`), every draw returns (`isSome_draw`), and what
a twister draws is an endless stream (`stream`).
-/
import SlideFlow.Ident.Raw
import Mathlib.Data.BitVec

namespace SlideFlow.Ident.Twister

/-! ## Bits -/

/-- A bit of a word, counted from the lowest. -/
def bit (w : UInt32) (i : Nat) : Bool := w.toBitVec.getLsbD i

theorem bit_xor (v w : UInt32) (i : Nat) : bit (v ^^^ w) i = (bit v i ^^ bit w i) :=
  BitVec.getLsbD_xor

theorem xor_and_distrib (v w mask : UInt32) :
    (v ^^^ w) &&& mask = (v &&& mask) ^^^ (w &&& mask) := by
  rw [← UInt32.toBitVec_inj]
  refine BitVec.eq_of_getLsbD_eq fun i _ => ?_
  simp only [UInt32.toBitVec_and, UInt32.toBitVec_xor, BitVec.getLsbD_and, BitVec.getLsbD_xor,
    Bool.and_xor_distrib_right]

theorem and_one_eq_one_iff (w : UInt32) : w &&& 1 = 1 ↔ bit w 0 = true := by
  unfold bit
  rw [← UInt32.toBitVec_inj]
  constructor
  · intro h
    simpa using congrArg (BitVec.getLsbD · 0) h
  · intro h
    refine BitVec.eq_of_getLsbD_eq fun i _ => ?_
    cases i <;> simp_all

/-- Scrambling is linear: each of its steps adds a linear image of the word to the word. -/
theorem temper_xor (v w : UInt32) : temper (v ^^^ w) = temper v ^^^ temper w := by
  have hsteps {f : UInt32 → UInt32} (hf : ∀ v w, f (v ^^^ w) = f v ^^^ f w) (v w : UInt32) :
      (v ^^^ w) ^^^ f (v ^^^ w) = (v ^^^ f v) ^^^ (w ^^^ f w) := by
    rw [hf]
    ac_rfl
  have hright (k : UInt32) := hsteps (f := (· >>> k)) fun _ _ => UInt32.shiftRight_xor
  have hleft (k mask : UInt32) := hsteps (f := fun v => (v <<< k) &&& mask) fun v w => by
    rw [UInt32.shiftLeft_xor, xor_and_distrib]
  unfold temper
  simp only [hright, hleft]

/-- The sum of three bits of a word. -/
def checkBit (w : UInt32) : Bool := bit w 12 ^^ bit w 27 ^^ bit w 30

theorem checkBit_xor (v w : UInt32) : checkBit (v ^^^ w) = (checkBit v ^^ checkBit w) := by
  unfold checkBit
  simp only [bit_xor, Bool.xor_assoc, Bool.xor_left_comm]

theorem bit_temper (w : UInt32) : bit (temper w) 28 = (bit w 28 ^^ bit w 21) := by
  simp [bit, temper]

theorem checkBit_temper (w : UInt32) :
    checkBit (temper w) = (bit w 27 ^^ bit w 20 ^^ bit w 31) := by
  have h₁₂ : bit (temper w) 12 =
      ((bit w 12 ^^ bit w 23 ^^ bit w 5 ^^ bit w 16) ^^ (bit w 30 ^^ bit w 15 ^^ bit w 26)) := by
    simp [bit, temper]
  have h₂₇ : bit (temper w) 27 =
      ((bit w 27 ^^ bit w 20 ^^ bit w 31) ^^ (bit w 12 ^^ bit w 23 ^^ bit w 5 ^^ bit w 16)) := by
    simp [bit, temper]
  have h₃₀ : bit (temper w) 30 = (bit w 30 ^^ bit w 15 ^^ bit w 26) := by
    simp [bit, temper]
  -- what the three bits have in common with each other cancels out
  have hcancel : ∀ p q r : Bool, ((p ^^ q) ^^ (r ^^ p) ^^ q) = r := by decide
  rw [checkBit, h₁₂, h₂₇, h₃₀, hcancel]

/-- Three bits of a twist, of which the word itself gives none. -/
theorem bit_twist (word neighbour : UInt32) :
    bit (twist word neighbour) 20 = bit neighbour 21 ∧
      bit (twist word neighbour) 27 = (bit neighbour 28 ^^ bit neighbour 0) ∧
      bit (twist word neighbour) 31 = bit neighbour 0 := by
  simp only [twist, and_one_eq_one_iff]
  unfold bit
  split <;> simp_all

/-- A bit of a scrambled word can be told from what the word adds to a later one. -/
theorem bit_temper_eq_checkBit (word neighbour : UInt32) :
    bit (temper neighbour) 28 = checkBit (temper (twist word neighbour)) := by
  obtain ⟨h₂₀, h₂₇, h₃₁⟩ := bit_twist word neighbour
  have hcancel : ∀ p q r : Bool, (p ^^ q) = ((p ^^ r) ^^ q ^^ r) := by decide
  rw [bit_temper, checkBit_temper, h₂₀, h₂₇, h₃₁]
  exact hcancel _ _ _

/-! ## Blocks -/

theorem size_renew (block : Array UInt32) (i : Nat) : (renew block i).size = block.size :=
  Array.size_setIfInBounds

theorem getD_renew_self {block : Array UInt32} {i : Nat} (h : i < block.size) :
    (renew block i).getD i 0 = block.getD ((i + middle) % size) 0 ^^^
      twist (block.getD i 0) (block.getD ((i + 1) % size) 0) := by
  simp [renew, Array.getD_eq_getD_getElem?, h]

theorem getD_renew_of_ne {block : Array UInt32} {i j : Nat} (h : i ≠ j) :
    (renew block i).getD j 0 = block.getD j 0 := by
  simp [renew, Array.getD_eq_getD_getElem?, h]

/-- The block with its first words made anew. -/
def renewed (block : Array UInt32) : Nat → Array UInt32
  | 0 => block
  | n + 1 => renew (renewed block n) n

theorem foldl_renew_eq (block : Array UInt32) :
    ∀ n, (List.range n).foldl renew block = renewed block n
  | 0 => rfl
  | n + 1 => by
    rw [List.range_succ, List.foldl_append, foldl_renew_eq block n]
    rfl

theorem nextBlock_eq (block : Array UInt32) : nextBlock block = renewed block size :=
  foldl_renew_eq block size

theorem size_renewed (block : Array UInt32) : ∀ n, (renewed block n).size = block.size
  | 0 => rfl
  | n + 1 => (size_renew _ n).trans (size_renewed block n)

theorem getD_renewed_of_le (block : Array UInt32) {i : Nat} :
    ∀ {n : Nat}, n ≤ i → (renewed block n).getD i 0 = block.getD i 0
  | 0, _ => rfl
  | n + 1, h => (getD_renew_of_ne (by omega)).trans (getD_renewed_of_le block (by omega))

/-- A word that was made anew stays as it is while the words behind it are made. -/
theorem getD_renewed_of_lt (block : Array UInt32) {i n : Nat} (h : i < n) :
    (renewed block n).getD i 0 = (renewed block (i + 1)).getD i 0 := by
  induction n, h using Nat.le_induction with
  | base => rfl
  | succ n hn ih => exact (getD_renew_of_ne (by omega)).trans ih

/-- The words of a block and of the block after it in one row. -/
def cell (block : Array UInt32) (i : Nat) : UInt32 :=
  if i < size then block.getD i 0 else (nextBlock block).getD (i - size) 0

/-- While words are made, the ones in front are those of the next block and the others still those
of the block; in the row they all stand behind the word that is being made. -/
theorem getD_renewed_mod (block : Array UInt32) {i d : Nat} (hi : i < size) (hd : d < size) :
    (renewed block i).getD ((i + d) % size) 0 = cell block (i + d) := by
  unfold cell
  by_cases h : i + d < size
  · rw [if_pos h, Nat.mod_eq_of_lt h, getD_renewed_of_le block (by omega)]
  · have hmod : (i + d) % size = i + d - size := by
      rw [Nat.mod_eq_sub_mod (by omega), Nat.mod_eq_of_lt (by omega)]
    rw [if_neg h, hmod, nextBlock_eq, getD_renewed_of_lt block (by omega : i + d - size < i),
      getD_renewed_of_lt block (by omega : i + d - size < size)]

/-- The recurrence of the words. -/
theorem cell_add_size {block : Array UInt32} (hblock : size ≤ block.size) {i : Nat} (hi : i < size) :
    cell block (i + size) =
      cell block (i + middle) ^^^ twist (cell block i) (cell block (i + 1)) := by
  have hnew : cell block (i + size) = (renewed block (i + 1)).getD i 0 := by
    unfold cell
    rw [if_neg (by omega), Nat.add_sub_cancel, nextBlock_eq, getD_renewed_of_lt block hi]
  have hself : (renewed block i).getD i 0 = cell block i := by
    rw [getD_renewed_of_le block (Nat.le_refl i), cell, if_pos hi]
  have hsize : i < (renewed block i).size := by
    rw [size_renewed]
    omega
  rw [hnew, renewed, getD_renew_self hsize, hself, getD_renewed_mod block hi (by decide),
    getD_renewed_mod block hi (by decide)]

/-! ## Words -/

/-- The words of a twister, in order. -/
def word : Nat → Twister → UInt32
  | 0, t => t.next.1
  | n + 1, t => word n t.next.2

theorem next_of_lt {block : Array UInt32} {used : Nat} (h : used < size) :
    next { block, used } = (temper (block.getD used 0), { block, used := used + 1 }) := by
  simp only [next, ge_iff_le, if_neg (Nat.not_le.2 h)]

/-- A block that is used up makes room for the next one. -/
theorem next_of_le {block : Array UInt32} {used : Nat} (h : size ≤ used) :
    next { block, used } = next { block := nextBlock block, used := 0 } := by
  have hzero : 0 < size := by decide
  rw [next_of_lt hzero]
  simp only [next, ge_iff_le, if_pos h]

theorem word_congr {s t : Twister} (h : s.next = t.next) : ∀ n, word n s = word n t
  | 0 => by rw [word, word, h]
  | n + 1 => by rw [word, word, h]

theorem word_eq_temper_cell : ∀ {n : Nat} {block : Array UInt32} {used : Nat},
    used < size → used + n < size + size → word n { block, used } = temper (cell block (used + n))
  | 0, block, used, hused, _ => by
    rw [word, next_of_lt hused]
    exact congrArg temper (if_pos hused).symm
  | n + 1, block, used, hused, h => by
    rw [word, next_of_lt hused]
    by_cases hlast : used + 1 < size
    · rw [word_eq_temper_cell hlast (by omega), Nat.add_right_comm, Nat.add_assoc]
    · -- the next word is the first one of the next block
      have hroom : next { block, used := used + 1 } =
          next { block := nextBlock block, used := 0 } := next_of_le (Nat.le_of_not_lt hlast)
      have hplace : used + (n + 1) - size = 0 + n := by omega
      rw [word_congr hroom, word_eq_temper_cell (by decide) (by omega), cell, if_pos (by omega),
        cell, if_neg (by omega), hplace]

/-- Every twister gives the words of one that has not used up its block. -/
theorem exists_word_eq (t : Twister) : ∃ block used, used < size ∧
    block.size = t.block.size ∧ ∀ n, word n t = word n { block, used } := by
  obtain ⟨block, used⟩ := t
  by_cases h : used < size
  · exact ⟨block, used, h, rfl, fun _ => rfl⟩
  · refine ⟨nextBlock block, 0, by decide, ?_, word_congr (next_of_le (by omega))⟩
    rw [nextBlock_eq, size_renewed]

/-- The relation between the words of a twister. -/
theorem bit_word_one {t : Twister} (h : size ≤ t.block.size) :
    bit (word 1 t) 28 = (checkBit (word middle t) ^^ checkBit (word size t)) := by
  obtain ⟨block, used, hused, hblock, hword⟩ := exists_word_eq t
  have hone : 1 < size := by decide
  have hmiddle : middle < size := by decide
  have hlater : word size t =
      word middle t ^^^ temper (twist (cell block used) (cell block (used + 1))) := by
    rw [hword, hword, word_eq_temper_cell hused (by omega), word_eq_temper_cell hused (by omega),
      cell_add_size (hblock ▸ h) hused, temper_xor]
  rw [hlater, checkBit_xor, ← Bool.xor_assoc, Bool.xor_self, Bool.false_xor, hword 1,
    word_eq_temper_cell hused (by omega), bit_temper_eq_checkBit (cell block used)]

/-! ## Drawing -/

/-- The word does not fit: its upper 24 bits are all set. -/
def Redrawn (w : UInt32) : Prop := 0xffffff ≤ (w >>> 8).toNat

theorem Redrawn.bit_eq_true {w : UInt32} (h : Redrawn w) {i : Nat} (hlow : 8 ≤ i) (hhigh : i < 32) :
    bit w i = true := by
  have hupper : w.toNat >>> 8 = 0xffffff := by
    have hshift : (w >>> 8).toNat = w.toNat >>> 8 := by simp
    have hword := w.toNat_lt
    unfold Redrawn at h
    rw [hshift] at h
    omega
  have hones : ∀ j < 24, Nat.testBit 0xffffff j = true := by decide
  calc bit w i = w.toNat.testBit i := rfl
    _ = (w.toNat >>> 8).testBit (i - 8) := by rw [Nat.testBit_shiftRight, Nat.add_sub_cancel' hlow]
    _ = true := by rw [hupper, hones (i - 8) (by omega)]

/-- Three words that do not fit would break the relation. -/
theorem not_redrawn {t : Twister} (h : size ≤ t.block.size) (hone : Redrawn (word 1 t))
    (hmiddle : Redrawn (word middle t)) : ¬ Redrawn (word size t) := by
  intro hsize
  have hcheck {w : UInt32} (hw : Redrawn w) : checkBit w = true := by
    unfold checkBit
    rw [hw.bit_eq_true (by decide) (by decide), hw.bit_eq_true (by decide) (by decide),
      hw.bit_eq_true (by decide) (by decide)]
    rfl
  have hrelation := bit_word_one h
  rw [hone.bit_eq_true (by decide) (by decide), hcheck hmiddle, hcheck hsize] at hrelation
  exact absurd hrelation (by decide)

/-- Among the words of a twister one comes in time that fits. -/
theorem exists_word_fits (t : Twister) : ∃ n < redraws, ¬ Redrawn (word n t) := by
  by_cases h : size ≤ t.block.size
  · by_contra hall
    have hbad : ∀ n < redraws, Redrawn (word n t) := by
      intro n hn
      by_contra hfit
      exact hall ⟨n, hn, hfit⟩
    exact not_redrawn h (hbad 1 (by decide)) (hbad middle (by decide)) (hbad size (by decide))
  · -- past the end of a short block the words are zero
    obtain ⟨block, used, hused, hblock, hword⟩ := exists_word_eq t
    refine ⟨size - 1 - used, by unfold size redraws; omega, ?_⟩
    have hlast : used + (size - 1 - used) = size - 1 := by omega
    have hzero : block.getD (size - 1) 0 = 0 := by
      rw [Array.getD_eq_getD_getElem?, Array.getElem?_eq_none (by omega), Option.getD_none]
    rw [hword, word_eq_temper_cell hused (by omega), hlast, cell, if_pos (by decide), hzero]
    unfold Redrawn
    decide

theorem isSome_drawLow (high : UInt32) : ∀ {fuel : Nat} {t : Twister},
    (∃ n < fuel, ¬ Redrawn (word n t)) → (drawLow high fuel t).isSome
  | 0, t, h => by
    obtain ⟨n, hn, -⟩ := h
    omega
  | fuel + 1, t, h => by
    obtain ⟨n, hn, hfit⟩ := h
    unfold drawLow
    dsimp only
    split
    · rfl
    · rename_i hfirst
      cases n with
      | zero => exact absurd (Nat.le_of_not_lt hfirst) hfit
      | succ n => exact isSome_drawLow high ⟨n, by omega, hfit⟩

/-- Every draw of a twister returns: the limit on redraws is never reached. -/
theorem isSome_draw (t : Twister) : (Source.draw t).isSome :=
  isSome_drawLow t.next.1 (exists_word_fits t.next.2)

/-! ## The stream -/

/-- An identifier and the twister that is left. -/
def draw (t : Twister) : RawId × Twister := (Source.draw t).get (isSome_draw t)

/-- The twister after some draws. -/
def after (t : Twister) : Nat → Twister
  | 0 => t
  | n + 1 => (t.after n).draw.2

/-- The identifiers that a twister draws, in order. -/
def stream (t : Twister) (n : Nat) : RawId := (t.after n).draw.1

theorem draw_after (t : Twister) (n : Nat) :
    Source.draw (t.after n) = some (t.stream n, t.after (n + 1)) :=
  (Option.some_get (isSome_draw (t.after n))).symm

end SlideFlow.Ident.Twister
