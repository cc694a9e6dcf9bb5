/-
The written form of identifiers: eight hexadecimal digits in lower case, a point, and six such
digits that are not all zero (`WellFormed`). Everything that a pool gives out is written so, whatever
source it draws from (`nexts_wellFormed`).
-/
import SlideFlow.Proofs.Ident.Fresh
import SlideFlow.Proofs.Number.Decimal

namespace SlideFlow.Text

/-! ## Hexadecimal digits -/

/-- A hexadecimal digit in lower case. -/
def isLowerHex (c : Char) : Bool := c.isDigit || (decide ('a' ≤ c) && decide (c ≤ 'f'))

theorem toNat_of_isLowerHex {c : Char} (h : isLowerHex c = true) :
    48 ≤ c.toNat ∧ c.toNat ≤ 102 := by
  simp only [isLowerHex, Char.isDigit, Bool.or_eq_true, Bool.and_eq_true, decide_eq_true_eq] at h
  rcases h with ⟨hlow, hhigh⟩ | ⟨hlow, hhigh⟩
  · exact ⟨hlow, Nat.le_trans hhigh (by decide)⟩
  · exact ⟨Nat.le_trans (by decide) hlow, hhigh⟩

theorem isLowerHex_digitChar : ∀ n < 16, isLowerHex n.digitChar = true := by decide

theorem isLowerHex_of_mem_toDigits (n : Nat) : ∀ c ∈ Nat.toDigits 16 n, isLowerHex c = true := by
  intro c hc
  obtain ⟨d, hd, rfl⟩ := Number.exists_digitChar_of_mem_toDigits (by decide) n c hc
  exact isLowerHex_digitChar d hd

/-- The digits of a positive number are not all zero. -/
theorem exists_mem_toDigits_ne_zero {n : Nat} (h : 0 < n) : ∃ c ∈ Nat.toDigits 16 n, c ≠ '0' := by
  induction n using Nat.strongRecOn with
  | ind n ih =>
    rw [Nat.toDigits_eq_if (by decide)]
    split
    · refine ⟨_, List.mem_singleton_self _, fun hzero => ?_⟩
      have := Nat.digitChar_eq_zero.1 hzero
      omega
    · obtain ⟨c, hc, hne⟩ := ih (n / 16) (by omega) (by omega)
      exact ⟨c, List.mem_append_left _ hc, hne⟩

theorem isLowerHex_of_mem_hexPadded {width n : Nat} {c : Char} (h : c ∈ hexPadded width n) :
    isLowerHex c = true := by
  rcases List.mem_append.1 h with h | h
  · rw [(List.mem_replicate.1 h).2]
    rfl
  · exact isLowerHex_of_mem_toDigits n c h

theorem exists_mem_hexPadded_ne_zero (width : Nat) {n : Nat} (h : 0 < n) :
    ∃ c ∈ hexPadded width n, c ≠ '0' := by
  obtain ⟨c, hc, hne⟩ := exists_mem_toDigits_ne_zero h
  exact ⟨c, List.mem_append_right _ hc, hne⟩

/-- A number that fits is padded to the width exactly. -/
theorem length_hexPadded {width n : Nat} (h : (Nat.toDigits 16 n).length ≤ width) :
    (hexPadded width n).length = width := by
  unfold hexPadded
  rw [List.length_append, List.length_replicate]
  omega

end SlideFlow.Text

namespace SlideFlow.Ident

open SlideFlow.Text

/-! ## Identifiers -/

/-- The form of identifiers. -/
def WellFormed (id : String) : Prop :=
  ∃ high low : List Char, id.toList = high ++ '.' :: low ∧
    high.length = 8 ∧ (∀ c ∈ high, isLowerHex c = true) ∧
    low.length = 6 ∧ (∀ c ∈ low, isLowerHex c = true) ∧ ∃ c ∈ low, c ≠ '0'

theorem RawId.wellFormed_text (r : RawId) : WellFormed r.text := by
  have hhigh : (Nat.toDigits 16 r.high.toNat).length ≤ 8 :=
    (Nat.length_toDigits_le_iff (by decide) (by decide)).2 r.high.toNat_lt
  have hlow : (Nat.toDigits 16 r.low).length ≤ 6 :=
    (Nat.length_toDigits_le_iff (by decide) (by decide)).2 r.low_lt
  exact ⟨_, _, String.toList_ofList, length_hexPadded hhigh,
    fun c hc => isLowerHex_of_mem_hexPadded hc, length_hexPadded hlow,
    fun c hc => isLowerHex_of_mem_hexPadded hc, exists_mem_hexPadded_ne_zero 6 r.low_pos⟩

namespace Pool

variable {σ : Type} [Source σ]

theorem next_wellFormed {p p' : Pool σ} {id : String} (h : p.next = some (id, p')) :
    WellFormed id := by
  unfold next nextWithin at h
  obtain ⟨⟨found, source⟩, hs, h⟩ := Option.bind_eq_some_iff.1 h
  cases h
  obtain ⟨-, raw, rfl⟩ := search_spec hs
  exact raw.wellFormed_text

/-- All identifiers that are given out together have the form. -/
theorem nexts_wellFormed : ∀ {n : Nat} {p p' : Pool σ} {ids : List String},
    p.nexts n = some (ids, p') → ∀ id ∈ ids, WellFormed id
  | 0, p, p', ids, h => by
    cases h
    simp
  | n + 1, p, p', ids, h => by
    unfold nexts at h
    obtain ⟨⟨first, p₁⟩, h₁, h⟩ := Option.bind_eq_some_iff.1 h
    obtain ⟨⟨rest, p₂⟩, h₂, h⟩ := Option.bind_eq_some_iff.1 h
    cases h
    intro id hid
    rcases List.mem_cons.1 hid with rfl | hid
    · exact next_wellFormed h₁
    · exact nexts_wellFormed h₂ id hid

end Pool

end SlideFlow.Ident
