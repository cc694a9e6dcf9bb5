/-
Whole numbers and their decimal text. A whole number that is written in decimal is read back as
itself, unless it has more digits than a number may have; then it is refused for its length
(`readInteger_toString`). A text whose characters all show digits is read exactly if they are decimal
digits and not too many (`readInteger_eq_ok_iff`).
-/
import SlideFlow.Number.Integer
import Mathlib.Data.List.TakeDrop
import Mathlib.Data.List.TakeWhile

namespace SlideFlow.Text

/-- A run of characters of a class ends where a character of another class stands. -/
theorem span_append {p : Char → Bool} {run rest : List Char} (hrun : ∀ c ∈ run, p c = true)
    (hrest : ∀ c, rest.head? = some c → p c = false) : (run ++ rest).span p = (run, rest) := by
  have htake : (run ++ rest).takeWhile p = run := by
    rw [List.takeWhile_append_of_pos hrun]
    cases rest with
    | nil => simp
    | cons c cs => simp [hrest c rfl]
  have hdrop : (run ++ rest).dropWhile p = rest := by
    rw [List.dropWhile_append_of_pos hrun]
    cases rest with
    | nil => rfl
    | cons c cs => simp [hrest c rfl]
  rw [List.span_eq_takeWhile_dropWhile, htake, hdrop]

end SlideFlow.Text

namespace SlideFlow.Number

open SlideFlow.Text

/-! ## Digits -/

/-- What stands in the digits of a number are digits of the base. -/
theorem exists_digitChar_of_mem_toDigits {base : Nat} (hbase : 1 < base) (n : Nat) :
    ∀ c ∈ Nat.toDigits base n, ∃ d < base, c = d.digitChar := by
  induction n using Nat.strongRecOn with
  | ind n ih =>
    intro c hc
    rw [Nat.toDigits_eq_if hbase] at hc
    split at hc
    · exact ⟨n, ‹_›, List.mem_singleton.1 hc⟩
    · rename_i hle
      rcases List.mem_append.1 hc with hc | hc
      · exact ih (n / base) (Nat.div_lt_self (by omega) hbase) c hc
      · exact ⟨n % base, Nat.mod_lt _ (by omega), List.mem_singleton.1 hc⟩

theorem digitValue?_digitChar : ∀ d < 10, digitValue? d.digitChar = some d := by decide

theorem isDecimal_of_mem_toDigits (n : Nat) : ∀ c ∈ Nat.toDigits 10 n, isDecimal c = true := by
  intro c hc
  obtain ⟨d, hd, rfl⟩ := exists_digitChar_of_mem_toDigits (by decide : 1 < 10) n c hc
  rw [isDecimal, digitValue?_digitChar d hd]
  rfl

/-- Decimal digits without underscores are grouped well. -/
theorem groupedDigits_of_digits : ∀ {cs : List Char}, cs ≠ [] →
    (∀ c ∈ cs, isDecimal c = true) → groupedDigits cs = true := by
  intro cs hne hdigits
  fun_induction groupedDigits cs with
  | case1 => exact absurd rfl hne
  | case2 c => exact hdigits c (by simp)
  | case3 c d rest ih => exact absurd (hdigits '_' (by simp)) (by decide)
  | case4 c rest hone hgroup ih =>
    rw [hdigits c (by simp), Bool.true_and]
    refine ih ?_ fun x hx => hdigits x (List.mem_cons_of_mem _ hx)
    rintro rfl
    exact hone rfl

theorem decimalValue_toDigits (n : Nat) : decimalValue (Nat.toDigits 10 n) = n := by
  have hfold : ∀ (cs : List Char), (∀ c ∈ cs, ∃ d < 10, c = Nat.digitChar d) → ∀ sofar,
      cs.foldl (fun m c => 10 * m + (digitValue? c).getD 0) sofar = Nat.ofDigitChars 10 cs sofar := by
    intro cs hdigits
    induction cs with
    | nil => intro sofar; rfl
    | cons c cs ih =>
      intro sofar
      obtain ⟨d, hd, rfl⟩ := hdigits c (by simp)
      rw [List.foldl_cons, ih fun x hx => hdigits x (List.mem_cons_of_mem _ hx),
        digitValue?_digitChar d hd, Nat.ofDigitChars_cons, Nat.toNat_digitChar_of_lt_ten hd]
      simp
  rw [decimalValue, hfold _ (exists_digitChar_of_mem_toDigits (by decide) n),
    Nat.ofDigitChars_ten_toDigits]

/-! ## Reading -/

theorem trimBoth_eq_self {drop : Char → Bool} {cs : List Char} (h : ∀ c ∈ cs, drop c = false) :
    trimBoth drop cs = cs := by
  have hkeep : ∀ cs : List Char, (∀ c ∈ cs, drop c = false) → cs.dropWhile drop = cs := by
    intro cs hcs
    rw [List.dropWhile_eq_self_iff]
    intro hpos
    rw [hcs _ (List.getElem_mem hpos)]
    exact Bool.false_ne_true
  rw [trimBoth, hkeep cs h, hkeep _ fun c hc => h c (List.mem_reverse.1 hc), List.reverse_reverse]

/-! ### Characters that show a digit

They are neither white space nor signs nor underscores, so reading finds them as they stand. -/

theorem showsDigit_of_isDecimal {c : Char} (h : isDecimal c = true) : showsDigit c = true := by
  rw [showsDigit, h, Bool.true_or]

theorem isMargin_of_showsDigit {c : Char} (h : showsDigit c = true) : isMargin c = false := by
  have hzeros : ∀ z ∈ zeros, ∀ p ∈ blanks, z + 10 ≤ p.1 ∨ p.2 < z := by decide
  have hsigns : ∀ q ∈ digitSigns, ∀ p ∈ blanks, q.2 < p.1 ∨ p.2 < q.1 := by decide
  have hblank : isBlank c = false := by
    rw [← Bool.not_eq_true]
    intro hblank
    obtain ⟨p, hp, hlo, hhi⟩ := within_iff.1 hblank
    rw [showsDigit, Bool.or_eq_true, isDecimal, Option.isSome_iff_exists] at h
    rcases h with ⟨d, hd⟩ | hsign
    · obtain ⟨z, hz, -⟩ := Option.map_eq_some_iff.1 hd
      have hrange := List.find?_some hz
      simp only [Bool.and_eq_true, decide_eq_true_eq] at hrange
      have := hzeros z (List.mem_of_find?_eq_some hz) p hp
      omega
    · obtain ⟨q, hq, hlo', hhi'⟩ := within_iff.1 hsign
      have := hsigns q hq p hp
      omega
  rw [isMargin, hblank, Bool.false_and]

theorem ne_underscore_of_showsDigit {c : Char} (h : showsDigit c = true) : c ≠ '_' := by
  rintro rfl
  exact absurd h (by decide)

/-- There is no sign in front of digits. -/
theorem signed_of_showsDigit {c : Char} {rest : List Char} (h : showsDigit c = true) :
    signed (c :: rest) = (false, c :: rest) := by
  unfold signed
  split
  · rename_i heq
    cases heq
    exact absurd h (by decide)
  · rename_i heq
    cases heq
    exact absurd h (by decide)
  · rfl

theorem trimBoth_of_showsDigit {cs : List Char} (h : ∀ c ∈ cs, showsDigit c = true) :
    trimBoth isMargin cs = cs :=
  trimBoth_eq_self fun c hc => isMargin_of_showsDigit (h c hc)

theorem signed_of_showDigits {cs : List Char} (hne : cs ≠ []) (h : ∀ c ∈ cs, showsDigit c = true) :
    signed cs = (false, cs) := by
  cases cs with
  | nil => exact absurd rfl hne
  | cons c rest => exact signed_of_showsDigit (h c (List.mem_cons_self ..))

/-! ### Decimal texts -/

/-- Reading a sign and decimal digits. -/
theorem readInteger_decimal {s : String} {negative : Bool} {cs : List Char}
    (hs : s.toList = (if negative then ['-'] else []) ++ cs) (hne : cs ≠ [])
    (hcs : ∀ c ∈ cs, isDecimal c = true) :
    readInteger s =
      if cs.length ≤ maxDigits then
        .ok (if negative then -(decimalValue cs : Int) else decimalValue cs)
      else .error (.tooLong cs.length) := by
  have hshow : ∀ c ∈ cs, showsDigit c = true := fun c hc => showsDigit_of_isDecimal (hcs c hc)
  have htrim : trimBoth isMargin s.toList = s.toList := by
    refine trimBoth_eq_self fun c hc => ?_
    rw [hs] at hc
    rcases List.mem_append.1 hc with hc | hc
    · cases negative with
      | false => cases hc
      | true => rw [List.mem_singleton.1 hc]; decide
    · exact isMargin_of_showsDigit (hshow c hc)
  have hsigned : signed s.toList = (negative, cs) := by
    rw [hs]
    cases negative with
    | true => rfl
    | false => exact signed_of_showDigits hne hshow
  have hspan : cs.span (fun c => isDecimal c || c == '_') = (cs, []) := by
    have hrun : ∀ c ∈ cs, (isDecimal c || c == '_') = true := fun c hc => by
      rw [hcs c hc, Bool.true_or]
    rw [List.span_eq_takeWhile_dropWhile, List.takeWhile_eq_self_iff.2 hrun,
      List.dropWhile_eq_nil_iff.2 hrun]
  have hfilter : cs.filter (· != '_') = cs := by
    rw [List.filter_eq_self]
    exact fun c hc => bne_iff_ne.2 (ne_underscore_of_showsDigit (hshow c hc))
  have hgrouped := groupedDigits_of_digits hne hcs
  unfold readInteger
  rw [htrim, hsigned]
  simp only [hspan, hfilter, hgrouped, Bool.not_true, Bool.false_eq_true, List.isEmpty_nil,
    ↓reduceIte]
  by_cases hlength : cs.length ≤ maxDigits
  · rw [if_pos hlength, if_neg (Nat.not_lt.2 hlength)]
  · rw [if_neg hlength, if_pos (Nat.not_le.1 hlength)]

/-- A text that shows digits of which one is no decimal digit is not read. -/
theorem readInteger_of_not_decimal {s : String} (hshow : ∀ c ∈ s.toList, showsDigit c = true)
    {c : Char} (hc : c ∈ s.toList) (hdecimal : isDecimal c = false) :
    ∃ e, readInteger s = .error e := by
  have htrim := trimBoth_of_showsDigit hshow
  have hsigned := signed_of_showDigits (List.ne_nil_of_mem hc) hshow
  -- the run of digits ends at that character at the latest
  have hrest : s.toList.dropWhile (fun c => isDecimal c || c == '_') ≠ [] := by
    intro hnil
    have := List.dropWhile_eq_nil_iff.1 hnil c hc
    rw [hdecimal, Bool.false_or, beq_iff_eq] at this
    exact ne_underscore_of_showsDigit (hshow c hc) this
  unfold readInteger
  rw [htrim, hsigned]
  simp only [List.span_eq_takeWhile_dropWhile, List.isEmpty_eq_false_iff.2 hrest, Bool.not_false,
    ↓reduceIte]
  split
  · exact ⟨_, rfl⟩
  · split
    · exact ⟨_, rfl⟩
    · exact ⟨_, rfl⟩

/-- A text of decimal digits that are not too many. -/
def Numeral (s : String) : Prop :=
  (∀ c ∈ s.toList, isDecimal c = true) ∧ s.toList.length ≤ maxDigits

/-- A text whose characters all show digits is read exactly if it is a numeral. -/
theorem readInteger_eq_ok_iff {s : String} (h : allShowDigits s = true) :
    (∃ n, readInteger s = .ok n) ↔ Numeral s := by
  rw [allShowDigits, Bool.and_eq_true, List.all_eq_true] at h
  obtain ⟨hne, hshow⟩ := h
  have hne : s.toList ≠ [] := by
    rintro hnil
    rw [String.toList_eq_nil_iff] at hnil
    subst hnil
    cases hne
  by_cases hdecimal : ∀ c ∈ s.toList, isDecimal c = true
  · have hs : s.toList = (if false then ['-'] else []) ++ s.toList := rfl
    rw [readInteger_decimal hs hne hdecimal, Numeral, and_iff_right hdecimal]
    split
    · rename_i hlength
      exact ⟨fun _ => hlength, fun _ => ⟨_, rfl⟩⟩
    · rename_i hlength
      refine ⟨?_, fun h => absurd h hlength⟩
      rintro ⟨n, hn⟩
      cases hn
  · constructor
    · rintro ⟨n, hn⟩
      push Not at hdecimal
      obtain ⟨c, hc, hno⟩ := hdecimal
      obtain ⟨e, he⟩ := readInteger_of_not_decimal hshow hc (Bool.eq_false_iff.2 hno)
      rw [hn] at he
      cases he
    · exact fun hnumeral => absurd hnumeral.1 hdecimal

/-- Reading a sign and the digits of a number. -/
theorem readInteger_digits {s : String} {negative : Bool} (n : Nat)
    (hs : s.toList = (if negative then ['-'] else []) ++ Nat.toDigits 10 n) :
    readInteger s =
      if (Nat.toDigits 10 n).length ≤ maxDigits then .ok (if negative then -(n : Int) else n)
      else .error (.tooLong (Nat.toDigits 10 n).length) := by
  rw [readInteger_decimal hs Nat.toDigits_ne_nil (isDecimal_of_mem_toDigits n),
    decimalValue_toDigits]

/-- A whole number has so many digits at most that its decimal text is read. -/
def Readable (n : Int) : Prop := (Nat.toDigits 10 n.natAbs).length ≤ maxDigits

instance (n : Int) : Decidable (Readable n) :=
  inferInstanceAs (Decidable ((Nat.toDigits 10 n.natAbs).length ≤ maxDigits))

theorem readable_natCast_iff (n : Nat) : Readable n ↔ n < Nat.pow 10 maxDigits := by
  have hlength {k : Nat} (hk : 0 < k) : (Nat.toDigits 10 n).length ≤ k ↔ n < Nat.pow 10 k :=
    Nat.length_toDigits_le_iff (by decide) hk
  exact hlength (by decide)

/-- What reading the decimal text of a whole number gives. -/
theorem readInteger_toString (n : Int) :
    readInteger (toString n) =
      if Readable n then .ok n else .error (.tooLong (Nat.toDigits 10 n.natAbs).length) := by
  cases n with
  | ofNat m =>
    have hs : (toString (Int.ofNat m)).toList =
        (if false then ['-'] else []) ++ Nat.toDigits 10 m := by
      rw [Int.toString_eq_repr]
      exact Nat.toList_repr
    rw [readInteger_digits m hs]
    rfl
  | negSucc m =>
    have hs : (toString (Int.negSucc m)).toList =
        (if true then ['-'] else []) ++ Nat.toDigits 10 (m + 1) := by
      rw [Int.toString_eq_repr, Int.repr, String.toList_append, Nat.toList_repr]
      rfl
    rw [readInteger_digits (m + 1) hs]
    rfl

end SlideFlow.Number
