/-
Associations in insertion order: each key stands once, where it was first put, with the value that
was put last.
-/

namespace SlideFlow

/-- Pairs of a key and a value in the order of insertion. -/
abbrev Ordered (κ β : Type) := List (κ × β)

namespace Ordered

variable {κ β : Type} [DecidableEq κ]

/-- The value of a key. -/
def get? (k : κ) : Ordered κ β → Option β
  | [] => none
  | (j, v) :: rest => if j = k then some v else get? k rest

/-- Gives a key a value: in its old place, or at the end if it is new. -/
def put (k : κ) (v : β) : Ordered κ β → Ordered κ β
  | [] => [(k, v)]
  | (j, w) :: rest => if j = k then (k, v) :: rest else (j, w) :: put k v rest

/-- Takes a key out. -/
def erase (k : κ) (m : Ordered κ β) : Ordered κ β := m.filter fun p => decide (p.1 ≠ k)

/-- The associations of a list of pairs that are put one after the other. -/
def ofList (ps : List (κ × β)) : Ordered κ β := ps.foldl (fun m p => put p.1 p.2 m) []

/-- The keys in order. -/
def keys (m : Ordered κ β) : List κ := m.map (·.1)

@[simp] theorem get?_put (k j : κ) (v : β) (m : Ordered κ β) :
    get? j (put k v m) = if k = j then some v else get? j m := by
  induction m with
  | nil => rfl
  | cons p rest ih =>
    obtain ⟨i, w⟩ := p
    by_cases h : i = k
    · subst h; by_cases hj : i = j <;> simp [put, get?, hj]
    · by_cases hj : i = j
      · subst hj; simp [put, get?, h, Ne.symm h]
      · simp [put, get?, h, hj, ih]

@[simp] theorem get?_erase (k j : κ) (m : Ordered κ β) :
    get? j (erase k m) = if k = j then none else get? j m := by
  induction m with
  | nil => simp [erase, get?]
  | cons p rest ih =>
    obtain ⟨i, w⟩ := p
    by_cases h : i = k
    · have herase : erase k ((i, w) :: rest) = erase k rest := by simp [erase, h]
      rw [herase, ih]
      by_cases hj : k = j <;> simp [get?, h, hj]
    · have herase : erase k ((i, w) :: rest) = (i, w) :: erase k rest := by simp [erase, h]
      rw [herase, get?, get?, ih]
      by_cases hj : i = j
      · subst hj; simp [Ne.symm h]
      · simp [hj]

/-- Of two values for one key the second counts. -/
theorem put_put (k : κ) (v w : β) (m : Ordered κ β) : put k w (put k v m) = put k w m := by
  induction m with
  | nil => simp [put]
  | cons p rest ih =>
    obtain ⟨j, u⟩ := p
    by_cases h : j = k <;> simp [put, h, ih]

theorem keys_put (k : κ) (v : β) (m : Ordered κ β) :
    keys (put k v m) = if k ∈ keys m then keys m else keys m ++ [k] := by
  induction m with
  | nil => simp [keys, put]
  | cons p rest ih =>
    obtain ⟨i, w⟩ := p
    by_cases h : i = k
    · subst h; simp [put, keys]
    · simp only [keys] at ih
      by_cases hk : k ∈ rest.map (·.1) <;> simp [put, h, keys, Ne.symm h, ih, hk]

/-- Putting keeps each key in one place. -/
theorem nodup_keys_put (k : κ) (v : β) {m : Ordered κ β} (h : (keys m).Nodup) :
    (keys (put k v m)).Nodup := by
  rw [keys_put]
  split
  · exact h
  · rename_i hk
    rw [List.nodup_append]
    refine ⟨h, by simp, ?_⟩
    intro a ha b hb
    simp only [List.mem_singleton] at hb
    subst hb
    rintro rfl
    exact hk ha

theorem mem_keys_iff {k : κ} {m : Ordered κ β} : k ∈ keys m ↔ (get? k m).isSome = true := by
  induction m with
  | nil => simp [keys, get?]
  | cons p rest ih =>
    obtain ⟨i, w⟩ := p
    simp only [keys, List.map_cons, List.mem_cons, get?]
    by_cases h : i = k
    · simp [h]
    · simpa [h, Ne.symm h, keys] using ih

end Ordered

end SlideFlow
