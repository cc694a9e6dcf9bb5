/-
Positions in a list as whole numbers: zero is the first item, and negative numbers count from the
end.
-/

namespace SlideFlow

/-- The position of the item that a number names among so many. -/
def position? (size : Nat) (i : Int) : Option Nat :=
  if i < 0 then
    if 0 ≤ size + i then some (size + i).toNat else none
  else if i < size then some i.toNat else none

/-- The position in front of which a new item is put; beyond either end a number means that end. -/
def gap (size : Nat) (i : Int) : Nat :=
  if i < 0 then (size + i).toNat else min i.toNat size

theorem lt_of_position? {size : Nat} {i : Int} {k : Nat} (h : position? size i = some k) :
    k < size := by
  unfold position? at h
  split at h <;> split at h <;> simp only [Option.some.injEq, reduceCtorEq] at h <;> omega

theorem gap_le (size : Nat) (i : Int) : gap size i ≤ size := by
  unfold gap
  split <;> omega

end SlideFlow
