/-
What reading gives. A whole number that is read has no more digits than the reader takes, and an object
that is read names each member once (`tidy_of_read`). A tidy value without numbers that are not whole
is faithful: it stands for the same value when it is written and read again.
-/
import SlideFlow.Json.Reader
import SlideFlow.Proofs.Number.Decimal

namespace SlideFlow.Ordered

variable {κ β : Type} [DecidableEq κ]

theorem mem_of_get? {k : κ} {v : β} {m : Ordered κ β} (h : get? k m = some v) : (k, v) ∈ m := by
  induction m with
  | nil => cases h
  | cons p rest ih =>
    obtain ⟨j, w⟩ := p
    unfold get? at h
    split at h
    · rename_i hj
      cases h
      rw [hj]
      exact List.mem_cons_self ..
    · exact List.mem_cons_of_mem _ (ih h)

theorem put_of_not_mem {k : κ} {m : Ordered κ β} (h : k ∉ keys m) (v : β) :
    put k v m = m ++ [(k, v)] := by
  induction m with
  | nil => rfl
  | cons p rest ih =>
    obtain ⟨j, w⟩ := p
    simp only [keys, List.map_cons, List.mem_cons, not_or] at h
    rw [put, if_neg (Ne.symm h.1), ih h.2]
    rfl

/-- Pairs with different keys stay as they are. -/
theorem ofList_eq_self {ps : List (κ × β)} (h : (keys ps).Nodup) : ofList ps = ps := by
  have hput : ∀ (ps m : List (κ × β)), (keys (m ++ ps)).Nodup →
      ps.foldl (fun m p => put p.1 p.2 m) m = m ++ ps := by
    intro ps
    induction ps with
    | nil => intro m _; simp
    | cons p ps ih =>
      intro m hm
      have hp : p.1 ∉ keys m := by
        simp only [keys, List.map_append, List.map_cons, List.nodup_append, List.mem_cons] at hm ⊢
        exact fun hmem => hm.2.2 p.1 hmem p.1 (.inl rfl) rfl
      rw [List.foldl_cons, put_of_not_mem hp, ih _ (by simpa using hm), List.append_assoc]
      rfl
  exact hput ps [] h

theorem nodup_keys_ofList (ps : List (κ × β)) : (keys (ofList ps)).Nodup := by
  have hput : ∀ (ps m : List (κ × β)), (keys m).Nodup →
      (keys (ps.foldl (fun m p => put p.1 p.2 m) m)).Nodup := by
    intro ps
    induction ps with
    | nil => exact fun m hm => hm
    | cons p ps ih => exact fun m hm => ih _ (nodup_keys_put p.1 p.2 hm)
  exact hput ps [] List.nodup_nil

theorem forall_mem_put {P : κ × β → Prop} {k : κ} {v : β} {m : Ordered κ β} (hm : ∀ p ∈ m, P p)
    (hv : P (k, v)) : ∀ p ∈ put k v m, P p := by
  induction m with
  | nil =>
    intro p hp
    rw [List.mem_singleton.1 hp]
    exact hv
  | cons q rest ih =>
    obtain ⟨j, w⟩ := q
    intro p hp
    unfold put at hp
    split at hp
    · rcases List.mem_cons.1 hp with rfl | hp
      · exact hv
      · exact hm p (List.mem_cons_of_mem _ hp)
    · rcases List.mem_cons.1 hp with rfl | hp
      · exact hm _ (List.mem_cons_self ..)
      · exact ih (fun q hq => hm q (List.mem_cons_of_mem _ hq)) p hp

/-- What holds of every pair that is put holds of every pair that is kept. -/
theorem forall_mem_ofList {P : κ × β → Prop} {ps : List (κ × β)} (h : ∀ p ∈ ps, P p) :
    ∀ p ∈ ofList ps, P p := by
  have hput : ∀ (ps m : List (κ × β)), (∀ p ∈ ps, P p) → (∀ p ∈ m, P p) →
      ∀ p ∈ ps.foldl (fun m p => put p.1 p.2 m) m, P p := by
    intro ps
    induction ps with
    | nil => exact fun m _ hm => hm
    | cons q ps ih =>
      intro m hps hm
      exact ih _ (fun p hp => hps p (List.mem_cons_of_mem _ hp))
        (forall_mem_put hm (hps q (List.mem_cons_self ..)))
  exact hput ps [] h nofun

end SlideFlow.Ordered

namespace SlideFlow.Json

open SlideFlow.Number SlideFlow.Text

/-! ## Tidy values -/

mutual

/-- No number with a fraction or an exponent, and none that is not finite. -/
def floatFree : Json → Bool
  | .float _ => false
  | .arr items => itemsFloatFree items
  | .obj members => membersFloatFree members
  | _ => true

def itemsFloatFree : List Json → Bool
  | [] => true
  | v :: items => v.floatFree && itemsFloatFree items

def membersFloatFree : List (RawText × Json) → Bool
  | [] => true
  | (_, v) :: members => v.floatFree && membersFloatFree members

end

theorem itemsFloatFree_iff {items : List Json} :
    itemsFloatFree items = true ↔ ∀ v ∈ items, v.floatFree = true := by
  induction items with
  | nil => simp [itemsFloatFree]
  | cons v items ih => simp [itemsFloatFree, ih]

theorem membersFloatFree_iff {members : List (RawText × Json)} :
    membersFloatFree members = true ↔ ∀ m ∈ members, m.2.floatFree = true := by
  induction members with
  | nil => simp [membersFloatFree]
  | cons m members ih => simp [membersFloatFree, ih]

/-- Every whole number is short enough to be read, every other number is allowed, and the members of
an object have different names. -/
inductive Tidy (allowed : Binary64 → Prop) : Json → Prop
  | null : Tidy allowed .null
  | bool (b : Bool) : Tidy allowed (.bool b)
  | int {n : Int} (h : Readable n) : Tidy allowed (.int n)
  | float {x : Binary64} (h : allowed x) : Tidy allowed (.float x)
  | str (s : RawText) : Tidy allowed (.str s)
  | arr {items : List Json} (h : ∀ v ∈ items, Tidy allowed v) : Tidy allowed (.arr items)
  | obj {members : List (RawText × Json)} (hkeys : (Ordered.keys members).Nodup)
    (h : ∀ m ∈ members, Tidy allowed m.2) : Tidy allowed (.obj members)

/-- A value that its text stands for exactly. -/
abbrev Faithful (v : Json) : Prop := Tidy (fun _ => False) v

theorem Tidy.faithful {allowed : Binary64 → Prop} {v : Json} (h : Tidy allowed v)
    (hfree : v.floatFree = true) : Faithful v := by
  induction h with
  | null => exact .null
  | bool b => exact .bool b
  | int h => exact .int h
  | float h => cases hfree
  | str s => exact .str s
  | arr h ih => exact .arr fun v hv => ih v hv (itemsFloatFree_iff.1 hfree v hv)
  | obj hkeys h ih => exact .obj hkeys fun m hm => ih m hm (membersFloatFree_iff.1 hfree m hm)

/-! ## Numbers that are read -/

theorem decimalValue_lt (cs : List Char) : decimalValue cs < Nat.pow 10 cs.length := by
  have hfold : ∀ (cs : List Char) (sofar : Nat),
      cs.foldl (fun m c => 10 * m + (digitValue? c).getD 0) sofar <
        (sofar + 1) * Nat.pow 10 cs.length := by
    intro cs
    induction cs with
    | nil => intro sofar; simp
    | cons c cs ih =>
      intro sofar
      have hdigit : (digitValue? c).getD 0 < 10 := by
        cases hc : digitValue? c with
        | none => decide
        | some d => exact digitValue?_lt hc
      calc
        _ < (10 * sofar + (digitValue? c).getD 0 + 1) * Nat.pow 10 cs.length := ih _
        _ ≤ ((sofar + 1) * 10) * Nat.pow 10 cs.length := Nat.mul_le_mul_right _ (by omega)
        _ = (sofar + 1) * Nat.pow 10 (cs.length + 1) := by
          rw [Nat.mul_assoc, Nat.mul_comm 10]
          rfl
  have hzero := hfold cs 0
  rwa [Nat.zero_add, Nat.one_mul] at hzero

theorem readable_decimalValue {cs : List Char} (h : cs.length ≤ maxDigits) :
    Readable (decimalValue cs : Nat) := by
  rw [readable_natCast_iff]
  have hpow : ∀ k, cs.length ≤ k → Nat.pow 10 cs.length ≤ Nat.pow 10 k :=
    fun k hk => Nat.pow_le_pow_right (by decide) hk
  exact Nat.lt_of_lt_of_le (decimalValue_lt cs) (hpow maxDigits h)

theorem readable_neg {n : Int} (h : Readable n) : Readable (-n) := by
  unfold Readable at h ⊢
  rwa [Int.natAbs_neg]

theorem tidy_of_readNumber {cs rest : List Char} {v : Json} (h : readNumber cs = .ok (v, rest)) :
    Tidy (fun _ => True) v := by
  unfold readNumber at h
  split at h
  split at h
  · cases h
  · rename_i whole rest' hwhole
    split at h
    split at h
    split at h
    · split at h
      · cases h
      · rename_i hlength
        have hreadable := readable_decimalValue (Nat.not_lt.1 hlength)
        cases h
        split
        · exact .int (readable_neg hreadable)
        · exact .int hreadable
    · cases h
      exact .float trivial

theorem tidy_of_readScalar {cs rest : List Char} {v : Json} (h : readScalar cs = .ok (v, rest)) :
    Tidy (fun _ => True) v := by
  unfold readScalar at h
  split at h
  · rename_i w u hfind
    cases h
    have hmem := List.mem_of_find?_eq_some hfind
    simp only [words, List.mem_cons, Prod.mk.injEq, List.not_mem_nil, or_false] at hmem
    rcases hmem with ⟨-, rfl⟩ | ⟨-, rfl⟩ | ⟨-, rfl⟩ | ⟨-, rfl⟩ | ⟨-, rfl⟩ | ⟨-, rfl⟩
    · exact .null
    · exact .bool true
    · exact .bool false
    all_goals exact .float trivial
  · exact tidy_of_readNumber h

/-! ## Values that are read -/

/-- Everything that is read in so many steps is tidy, if the items and members so far are. -/
structure ReadsTidy (fuel : Nat) : Prop where
  value : ∀ {cs rest : List Char} {v : Json}, readValue fuel cs = .ok (v, rest) →
    Tidy (fun _ => True) v
  items : ∀ {acc : List Json} {cs rest : List Char} {v : Json},
    readItems fuel acc cs = .ok (v, rest) → (∀ w ∈ acc, Tidy (fun _ => True) w) →
      Tidy (fun _ => True) v
  members : ∀ {acc : List (RawText × Json)} {cs rest : List Char} {v : Json},
    readMembers fuel acc cs = .ok (v, rest) → (∀ m ∈ acc, Tidy (fun _ => True) m.2) →
      Tidy (fun _ => True) v

theorem ReadsTidy.value_succ {fuel : Nat} (h : ReadsTidy fuel) {cs rest : List Char} {v : Json}
    (hread : readValue (fuel + 1) cs = .ok (v, rest)) : Tidy (fun _ => True) v := by
  unfold readValue at hread
  split at hread
  · split at hread
    · cases hread
    · cases hread
      exact .str _
  · split at hread
    · cases hread
      exact .arr nofun
    · exact h.items hread nofun
  · split at hread
    · cases hread
      exact .obj List.nodup_nil nofun
    · exact h.members hread nofun
  · exact tidy_of_readScalar hread

theorem ReadsTidy.items_succ {fuel : Nat} (h : ReadsTidy fuel) {acc : List Json}
    {cs rest : List Char} {v : Json} (hread : readItems (fuel + 1) acc cs = .ok (v, rest))
    (hacc : ∀ w ∈ acc, Tidy (fun _ => True) w) : Tidy (fun _ => True) v := by
  unfold readItems at hread
  split at hread
  · cases hread
  · rename_i w after hvalue
    have hnext : ∀ u ∈ w :: acc, Tidy (fun _ => True) u := by
      intro u hu
      rcases List.mem_cons.1 hu with rfl | hu
      · exact h.value hvalue
      · exact hacc u hu
    split at hread
    · cases hread
      exact .arr fun u hu => hnext u (List.mem_reverse.1 hu)
    · exact h.items hread hnext
    · cases hread

theorem ReadsTidy.members_succ {fuel : Nat} (h : ReadsTidy fuel) {acc : List (RawText × Json)}
    {cs rest : List Char} {v : Json} (hread : readMembers (fuel + 1) acc cs = .ok (v, rest))
    (hacc : ∀ m ∈ acc, Tidy (fun _ => True) m.2) : Tidy (fun _ => True) v := by
  unfold readMembers at hread
  split at hread
  · split at hread
    · cases hread
    · rename_i name afterName hname
      split at hread
      · split at hread
        · cases hread
        · rename_i w after hvalue
          have hnext : ∀ m ∈ (name, w) :: acc, Tidy (fun _ => True) m.2 := by
            intro m hm
            rcases List.mem_cons.1 hm with rfl | hm
            · exact h.value hvalue
            · exact hacc m hm
          split at hread
          · cases hread
            refine .obj (Ordered.nodup_keys_ofList _) (Ordered.forall_mem_ofList fun m hm => ?_)
            exact hnext m (List.mem_reverse.1 hm)
          · exact h.members hread hnext
          · cases hread
      · cases hread
  · cases hread

theorem readsTidy (fuel : Nat) : ReadsTidy fuel := by
  induction fuel with
  | zero =>
    refine ⟨fun h => ?_, fun h => ?_, fun h => ?_⟩
    · cases h
    · cases h
    · cases h
  | succ fuel ih => exact ⟨ih.value_succ, ih.items_succ, ih.members_succ⟩

theorem tidy_of_read {text : String} {v : Json} (h : read text = .ok v) :
    Tidy (fun _ => True) v := by
  unfold read readChars at h
  split at h
  · cases h
  · split at h
    · cases h
    · rename_i w rest hvalue
      split at h
      · cases h
        exact (readsTidy _).value hvalue
      · cases h

end SlideFlow.Json
