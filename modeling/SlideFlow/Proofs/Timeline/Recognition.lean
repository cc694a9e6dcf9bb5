/-
Which offset is read from a text. A unit that stands directly behind a decimal digit makes an offset
(`UnitBehind`). The first such place decides: the offset that is read is the longest number that ends
there, with the unit behind it, and nothing else in the text counts (`offset_recognised`).

A place has to offer what is written there, a number with a unit (`spells_of_offsetHere?`,
`offsetHere?_of_spells`). The reader goes through the places from the left. It cannot stop before the
longest number: a number that starts further left and ends at the same digit would be longer, and one
that ends further right would run across the first unit, whose characters are not those of numbers
(`offsetHere?_eq_none_of_lt`).
-/
import SlideFlow.Timeline.Offset
import SlideFlow.Proofs.Number.Decimal

namespace SlideFlow.Timeline

open SlideFlow.Text

/-! ## Units -/

namespace TimeUnit

theorem eq_of_prefix_spelling :
    ∀ p ∈ spellings, ∀ q ∈ spellings, p.1 <+: q.1 → p = q := by decide

/-- At most one unit starts at a place. -/
theorem spelling_unique {p q : List Char × TimeUnit} (hp : p ∈ spellings) (hq : q ∈ spellings)
    {cs : List Char} (hpcs : p.1 <+: cs) (hqcs : q.1 <+: cs) : p = q := by
  rcases List.prefix_or_prefix_of_prefix hpcs hqcs with h | h
  · exact eq_of_prefix_spelling p hp q hq h
  · exact (eq_of_prefix_spelling q hq p hp h).symm

theorem ofStart?_eq (cs : List Char) :
    ofStart? cs = (spellings.find? fun p => p.1.isPrefixOf cs).map (·.2) := rfl

theorem ofStart?_eq_some_iff {cs : List Char} {unit : TimeUnit} :
    ofStart? cs = some unit ↔ ∃ w, (w, unit) ∈ spellings ∧ w <+: cs := by
  have hfound {p : List Char × TimeUnit}
      (h : (spellings.find? fun p => p.1.isPrefixOf cs) = some p) : p ∈ spellings ∧ p.1 <+: cs := by
    have hstart := List.find?_some h
    exact ⟨List.mem_of_find?_eq_some h, List.isPrefixOf_iff_prefix.1 hstart⟩
  rw [ofStart?_eq, Option.map_eq_some_iff]
  constructor
  · rintro ⟨p, hfind, rfl⟩
    exact ⟨p.1, hfound hfind⟩
  · rintro ⟨w, hw, hstart⟩
    cases hfind : spellings.find? fun p => p.1.isPrefixOf cs with
    | none => exact absurd (List.isPrefixOf_iff_prefix.2 hstart) (List.find?_eq_none.1 hfind _ hw)
    | some p =>
      obtain ⟨hp, hother⟩ := hfound hfind
      exact ⟨p, rfl, by rw [spelling_unique hp hw hother hstart]⟩

/-- No unit starts with a character that stands in numbers. -/
theorem exists_head_spelling {w : List Char} {unit : TimeUnit} (h : (w, unit) ∈ spellings) :
    ∃ c rest, w = c :: rest ∧ isDecimal c = false ∧ c ≠ '.' := by
  have hheads : ∀ p ∈ spellings, p.1.head?.any (fun c => !isDecimal c && c != '.') = true := by
    decide
  have hhead := hheads _ h
  cases w with
  | nil => cases hhead
  | cons c rest =>
    simp only [List.head?_cons, Option.any_some, Bool.and_eq_true, Bool.not_eq_true',
      bne_iff_ne] at hhead
    exact ⟨c, rest, rfl, hhead⟩

end TimeUnit

/-! ## Numbers -/

/-- One or more decimal digits. -/
def Digits (cs : List Char) : Prop := cs ≠ [] ∧ ∀ c ∈ cs, isDecimal c = true

/-- Digits, or digits on both sides of a point. -/
def IsNumber (x : List Char) : Prop :=
  Digits x ∨ ∃ whole frac, Digits whole ∧ Digits frac ∧ x = whole ++ '.' :: frac

theorem isNumber_singleton {d : Char} (h : isDecimal d = true) : IsNumber [d] :=
  .inl ⟨List.cons_ne_nil _ _, fun _ hc => List.mem_singleton.1 hc ▸ h⟩

theorem IsNumber.chars {x : List Char} (h : IsNumber x) :
    ∀ c ∈ x, isDecimal c = true ∨ c = '.' := by
  rcases h with h | ⟨whole, frac, hwhole, hfrac, rfl⟩
  · exact fun c hc => .inl (h.2 c hc)
  · intro c hc
    rcases List.mem_append.1 hc with hc | hc
    · exact .inl (hwhole.2 c hc)
    · rcases List.mem_cons.1 hc with rfl | hc
      · exact .inr rfl
      · exact .inl (hfrac.2 c hc)

theorem Digits.exists_last {cs : List Char} (h : Digits cs) :
    ∃ rest d, cs = rest ++ [d] ∧ isDecimal d = true :=
  ⟨cs.dropLast, cs.getLast h.1, (List.dropLast_concat_getLast h.1).symm,
    h.2 _ (List.getLast_mem h.1)⟩

/-- A number ends with a digit. -/
theorem IsNumber.exists_last {x : List Char} (h : IsNumber x) :
    ∃ rest d, x = rest ++ [d] ∧ isDecimal d = true := by
  rcases h with h | ⟨whole, frac, -, hfrac, rfl⟩
  · exact h.exists_last
  · obtain ⟨rest, d, rfl, hd⟩ := hfrac.exists_last
    exact ⟨whole ++ '.' :: rest, d, by simp, hd⟩

/-- The number and the unit of an offset as they are written. -/
inductive Spells : List Char → List Char → Offset → Prop
  | whole {whole w : List Char} {unit : TimeUnit} (hwhole : Digits whole)
    (hunit : (w, unit) ∈ TimeUnit.spellings) : Spells whole w { whole, frac := [], unit }
  | point {whole frac w : List Char} {unit : TimeUnit} (hwhole : Digits whole) (hfrac : Digits frac)
    (hunit : (w, unit) ∈ TimeUnit.spellings) :
    Spells (whole ++ '.' :: frac) w { whole, frac, unit }

theorem Spells.isNumber {x w : List Char} {o : Offset} (h : Spells x w o) : IsNumber x := by
  cases h with
  | whole hwhole => exact .inl hwhole
  | point hwhole hfrac => exact .inr ⟨_, _, hwhole, hfrac, rfl⟩

theorem Spells.unit {x w : List Char} {o : Offset} (h : Spells x w o) :
    (w, o.unit) ∈ TimeUnit.spellings := by
  cases h with
  | whole _ hunit => exact hunit
  | point _ _ hunit => exact hunit

theorem IsNumber.exists_spells {x w : List Char} {unit : TimeUnit} (h : IsNumber x)
    (hunit : (w, unit) ∈ TimeUnit.spellings) : ∃ o, Spells x w o := by
  rcases h with h | ⟨whole, frac, hwhole, hfrac, rfl⟩
  · exact ⟨_, .whole h hunit⟩
  · exact ⟨_, .point hwhole hfrac hunit⟩

/-! ## One place -/

theorem of_span_eq {cs run rest : List Char} (h : cs.span isDecimal = (run, rest)) :
    cs = run ++ rest ∧ ∀ c ∈ run, isDecimal c = true := by
  rw [List.span_eq_takeWhile_dropWhile, Prod.mk.injEq] at h
  obtain ⟨rfl, rfl⟩ := h
  exact ⟨List.takeWhile_append_dropWhile.symm, fun c hc => List.mem_takeWhile_imp hc⟩

theorem span_append_spelling {run w rest : List Char} {unit : TimeUnit} (hrun : Digits run)
    (hunit : (w, unit) ∈ TimeUnit.spellings) :
    (run ++ (w ++ rest)).span isDecimal = (run, w ++ rest) := by
  refine span_append hrun.2 fun c hc => ?_
  obtain ⟨d, tail, rfl, hd, -⟩ := TimeUnit.exists_head_spelling hunit
  cases hc
  exact hd

/-- What is read at a place stands there. -/
theorem spells_of_offsetHere? {cs : List Char} {o : Offset} (h : offsetHere? cs = some o) :
    ∃ x w rest, Spells x w o ∧ cs = x ++ (w ++ rest) := by
  unfold offsetHere? at h
  split at h
  · cases h
  · rename_i whole rest hne hspan
    obtain ⟨rfl, hwhole⟩ := of_span_eq hspan
    have hdigits : Digits whole := ⟨hne, hwhole⟩
    split at h
    · rename_i unit hunit
      cases h
      obtain ⟨w, hw, last, rfl⟩ := TimeUnit.ofStart?_eq_some_iff.1 hunit
      exact ⟨whole, w, last, .whole hdigits hw, rfl⟩
    · split at h
      · split at h
        · cases h
        · rename_i more frac last hfrac hmore
          obtain ⟨rfl, hdecimal⟩ := of_span_eq hmore
          obtain ⟨unit, hunit, rfl⟩ := Option.map_eq_some_iff.1 h
          obtain ⟨w, hw, rest, rfl⟩ := TimeUnit.ofStart?_eq_some_iff.1 hunit
          exact ⟨_, w, rest, .point hdigits ⟨hfrac, hdecimal⟩ hw, by simp⟩
      · cases h

/-- What stands at a place is read: the runs of digits cannot be cut short, since neither a point nor
a unit continues them. -/
theorem offsetHere?_of_spells {x w : List Char} {o : Offset} (h : Spells x w o) (rest : List Char) :
    offsetHere? (x ++ (w ++ rest)) = some o := by
  cases h with
  | whole hwhole hunit =>
    have hstart := TimeUnit.ofStart?_eq_some_iff.2 ⟨w, hunit, List.prefix_append w rest⟩
    unfold offsetHere?
    rw [span_append_spelling hwhole hunit]
    cases x with
    | nil => exact absurd rfl hwhole.1
    | cons d ds => simp only [hstart]
  | @point whole frac _ unit hwhole hfrac hunit =>
    have hstart := TimeUnit.ofStart?_eq_some_iff.2 ⟨w, hunit, List.prefix_append w rest⟩
    have hpoint : (whole ++ '.' :: frac ++ (w ++ rest)).span isDecimal =
        (whole, '.' :: (frac ++ (w ++ rest))) := by
      rw [List.append_assoc]
      refine span_append hwhole.2 fun c hc => ?_
      cases hc
      decide
    -- behind the first run comes no unit, so the reader looks for the other digits
    have hnone : TimeUnit.ofStart? ('.' :: (frac ++ (w ++ rest))) = none := by
      rw [Option.eq_none_iff_forall_ne_some]
      intro other hother
      obtain ⟨v, hv, hpre⟩ := TimeUnit.ofStart?_eq_some_iff.1 hother
      obtain ⟨c, tail, rfl, -, hc⟩ := TimeUnit.exists_head_spelling hv
      exact hc (List.cons_prefix_cons.1 hpre).1
    unfold offsetHere?
    rw [hpoint]
    cases whole with
    | nil => exact absurd rfl hwhole.1
    | cons d ds =>
      simp only [hnone, span_append_spelling hfrac hunit]
      cases frac with
      | nil => exact absurd rfl hfrac.1
      | cons e es => simp only [hstart, Option.map_some]

/-! ## The first place -/

theorem findOffset?_eq_none_iff : ∀ {cs : List Char},
    findOffset? cs = none ↔ ∀ q, offsetHere? (cs.drop q) = none
  | [] => iff_of_true rfl fun q => by rw [List.drop_nil]; rfl
  | c :: cs => by
    cases hhere : offsetHere? (c :: cs) with
    | some o =>
      simp only [findOffset?, hhere, reduceCtorEq, false_iff]
      exact fun h => Option.some_ne_none o (hhere.symm.trans (h 0))
    | none =>
      simp only [findOffset?, hhere]
      rw [findOffset?_eq_none_iff]
      constructor
      · intro h q
        cases q with
        | zero => exact hhere
        | succ q => exact h q
      · exact fun h q => h (q + 1)

/-- The first place from the left that has something to offer decides. -/
theorem findOffset?_eq_some {o : Offset} : ∀ {cs : List Char} {p : Nat},
    offsetHere? (cs.drop p) = some o → (∀ q < p, offsetHere? (cs.drop q) = none) →
      findOffset? cs = some o
  | [], p, h, _ => by
    rw [List.drop_nil] at h
    cases h
  | c :: cs, 0, h, _ => by
    rw [List.drop_zero] at h
    simp only [findOffset?, h]
  | c :: cs, p + 1, h, hnone => by
    have hhere := hnone 0 (by omega)
    rw [List.drop_zero] at hhere
    simp only [findOffset?, hhere]
    exact findOffset?_eq_some h fun q hq => hnone (q + 1) (by omega)

/-! ## Units behind digits -/

/-- The units as they are written. -/
def units : List String := ["h", "min", "ms", "µs", "us", "ns", "s"]

theorem map_toList_units : units.map String.toList = TimeUnit.spellings.map (·.1) := by decide

theorem exists_spelling {w : String} (h : w ∈ units) :
    ∃ unit, (w.toList, unit) ∈ TimeUnit.spellings := by
  have hw := List.mem_map_of_mem (f := String.toList) h
  rw [map_toList_units] at hw
  obtain ⟨p, hp, hpw⟩ := List.mem_map.1 hw
  exact ⟨p.2, hpw ▸ hp⟩

theorem exists_mem_units {w : List Char} {unit : TimeUnit} (h : (w, unit) ∈ TimeUnit.spellings) :
    ∃ u ∈ units, u.toList = w := by
  have hw := List.mem_map_of_mem (f := (·.1)) h
  rw [← map_toList_units] at hw
  exact List.mem_map.1 hw

/-- A decimal digit stands at the place, and a unit directly behind it. -/
structure UnitBehind (s : List Char) (i : Nat) (unit : String) : Prop where
  mem : unit ∈ units
  digit : ∃ d, s[i]? = some d ∧ isDecimal d = true
  behind : unit.toList <+: s.drop (i + 1)

/-- The longest number that ends at the place. -/
structure LongestNumber (s : List Char) (i : Nat) (x : List Char) : Prop where
  ends : x <:+ s.take (i + 1)
  number : IsNumber x
  longest : ∀ y, y <:+ s.take (i + 1) → IsNumber y → y.length ≤ x.length

theorem unitBehind_of_eq {s before rest : List Char} {d : Char} {unit : String}
    (h : s = before ++ d :: (unit.toList ++ rest)) (hd : isDecimal d = true) (hunit : unit ∈ units) :
    UnitBehind s before.length unit := by
  subst h
  refine ⟨hunit, ⟨d, by simp, hd⟩, rest, ?_⟩
  rw [List.drop_append]
  simp

theorem UnitBehind.exists_eq {s : List Char} {i : Nat} {unit : String} (h : UnitBehind s i unit) :
    ∃ before d rest, s = before ++ d :: (unit.toList ++ rest) ∧ before.length = i ∧
      isDecimal d = true := by
  obtain ⟨d, hd, hdecimal⟩ := h.digit
  obtain ⟨hi, rfl⟩ := List.getElem?_eq_some_iff.1 hd
  obtain ⟨rest, hrest⟩ := h.behind
  refine ⟨s.take i, s[i], rest, ?_, List.length_take_of_le (by omega), hdecimal⟩
  rw [hrest, ← List.drop_eq_getElem_cons hi, List.take_append_drop]

/-- What is read at a place ends at a digit with a unit behind it. -/
theorem unitBehind_of_offsetHere? {s : List Char} {q : Nat} {o : Offset}
    (h : offsetHere? (s.drop q) = some o) : ∃ x rest i unit, IsNumber x ∧
      s.drop q = x ++ rest ∧ q + x.length = i + 1 ∧ UnitBehind s i unit := by
  obtain ⟨x, w, rest, hspells, hdrop⟩ := spells_of_offsetHere? h
  obtain ⟨unit, hunit, rfl⟩ := exists_mem_units hspells.unit
  obtain ⟨start, d, rfl, hd⟩ := hspells.isNumber.exists_last
  have hs : s = (s.take q ++ start) ++ d :: (unit.toList ++ rest) := by
    calc s = s.take q ++ s.drop q := (List.take_append_drop q s).symm
      _ = (s.take q ++ start) ++ d :: (unit.toList ++ rest) := by rw [hdrop]; simp
  have hq : q < s.length := by
    have hlength := congrArg List.length hdrop
    simp only [List.length_drop, List.length_append, List.length_singleton] at hlength
    omega
  refine ⟨_, _, _, unit, hspells.isNumber, hdrop, ?_, unitBehind_of_eq hs hd hunit⟩
  simp only [List.length_append, List.length_take, List.length_singleton]
  omega

/-- Places to the left of the longest number that ends at the first unit have nothing to offer. -/
theorem offsetHere?_eq_none_of_lt {s x : List Char} {i q : Nat} {unit : String}
    (hunit : UnitBehind s i unit) (hfirst : ∀ j < i, ∀ other, ¬ UnitBehind s j other)
    (hx : LongestNumber s i x) (hq : q + x.length < i + 1) : offsetHere? (s.drop q) = none := by
  rw [Option.eq_none_iff_forall_ne_some]
  intro o ho
  obtain ⟨y, rest, j, other, hy, hdrop, hj, hother⟩ := unitBehind_of_offsetHere? ho
  have hend : i + 1 ≤ q + y.length := by
    by_contra hlt
    exact hfirst j (by omega) other hother
  rcases Nat.eq_or_lt_of_le hend with heq | hlt
  · -- a number that ends here as well would be longer than the longest
    have hends : y <:+ s.take (i + 1) := by
      rw [heq, List.take_add, hdrop, List.take_left]
      exact List.suffix_append _ _
    have := hx.longest y hends hy
    omega
  · -- a number that ends further right would run across the unit
    obtain ⟨before, d, tail, hs, rfl, -⟩ := hunit.exists_eq
    obtain ⟨c, more, hc, hdecimal, hpoint⟩ : ∃ c more, unit.toList = c :: more ∧
        isDecimal c = false ∧ c ≠ '.' :=
      (exists_spelling hunit.mem).elim fun _ => TimeUnit.exists_head_spelling
    have hplace : (s.drop q)[before.length + 1 - q]? = some c := by
      rw [List.getElem?_drop, Nat.add_sub_cancel' (by omega), hs, hc]
      simp
    rw [hdrop, List.getElem?_append_left (by omega)] at hplace
    rcases hy.chars c (List.mem_of_getElem? hplace) with h | h
    · rw [hdecimal] at h
      cases h
    · exact hpoint h

/-- Of the endings of a text with some property one is the longest. -/
theorem exists_longest_suffix {S : List Char → Prop} : ∀ {cs : List Char}, (∃ x, x <:+ cs ∧ S x) →
    ∃ x, x <:+ cs ∧ S x ∧ ∀ y, y <:+ cs → S y → y.length ≤ x.length
  | [], h => by
    obtain ⟨x, hx, hS⟩ := h
    exact ⟨x, hx, hS, fun y hy _ => by rw [List.suffix_nil.1 hy]; exact Nat.zero_le _⟩
  | c :: cs, h => by
    by_cases hall : S (c :: cs)
    · exact ⟨c :: cs, List.suffix_refl _, hall, fun y hy _ => hy.length_le⟩
    · have hless {y : List Char} (hy : y <:+ c :: cs) (hS : S y) : y <:+ cs :=
        (List.suffix_cons_iff.1 hy).resolve_left fun heq => hall (heq ▸ hS)
      obtain ⟨x, hx, hS⟩ := h
      obtain ⟨x, hx, hS, hlongest⟩ := exists_longest_suffix ⟨x, hless hx hS, hS⟩
      exact ⟨x, hx.trans (List.suffix_cons c cs), hS, fun y hy hyS => hlongest y (hless hy hyS) hyS⟩

theorem UnitBehind.exists_longestNumber {s : List Char} {i : Nat} {unit : String}
    (h : UnitBehind s i unit) : ∃ x, LongestNumber s i x := by
  obtain ⟨before, d, rest, rfl, rfl, hd⟩ := h.exists_eq
  have hends : [d] <:+ (before ++ d :: (unit.toList ++ rest)).take (before.length + 1) := by
    rw [List.take_append]
    simp
  obtain ⟨x, hx, hnumber, hlongest⟩ := exists_longest_suffix ⟨[d], hends, isNumber_singleton hd⟩
  exact ⟨x, hx, hnumber, hlongest⟩

/-- The offset of a text is the longest number that ends at the first unit, with that unit. -/
theorem findOffset?_of_first {s x : List Char} {i : Nat} {unit : String}
    (hunit : UnitBehind s i unit) (hfirst : ∀ j < i, ∀ other, ¬ UnitBehind s j other)
    (hx : LongestNumber s i x) : findOffset? s = findOffset? (x ++ unit.toList) := by
  obtain ⟨_, hspelling⟩ := exists_spelling hunit.mem
  obtain ⟨o, ho⟩ := hx.number.exists_spells hspelling
  have halone : findOffset? (x ++ unit.toList) = some o := by
    have hhere := offsetHere?_of_spells ho []
    rw [List.append_nil] at hhere
    exact findOffset?_eq_some (p := 0) hhere fun q hq => absurd hq (Nat.not_lt_zero q)
  obtain ⟨front, hfront⟩ := hx.ends
  obtain ⟨rest, hrest⟩ := hunit.behind
  have hs : s = front ++ (x ++ (unit.toList ++ rest)) := by
    rw [hrest, ← List.append_assoc, hfront, List.take_append_drop]
  have hlength : front.length + x.length = i + 1 := by
    obtain ⟨d, hd, -⟩ := hunit.digit
    obtain ⟨hi, -⟩ := List.getElem?_eq_some_iff.1 hd
    rw [← List.length_append, hfront, List.length_take_of_le hi]
  rw [halone]
  refine findOffset?_eq_some (p := front.length) ?_ fun q hq => ?_
  · rw [hs, List.drop_left]
    exact offsetHere?_of_spells ho rest
  · exact offsetHere?_eq_none_of_lt hunit hfirst hx (by omega)

theorem findOffset?_eq_none_iff_unitBehind {s : List Char} :
    findOffset? s = none ↔ ∀ i unit, ¬ UnitBehind s i unit := by
  constructor
  · intro h i unit hunit
    obtain ⟨before, d, rest, rfl, rfl, hd⟩ := hunit.exists_eq
    obtain ⟨_, hspelling⟩ := exists_spelling hunit.mem
    -- the digit alone is a number that has the unit behind it
    obtain ⟨o, ho⟩ := (isNumber_singleton hd).exists_spells hspelling
    have hnone := findOffset?_eq_none_iff.1 h before.length
    rw [List.drop_left] at hnone
    exact Option.some_ne_none o ((offsetHere?_of_spells ho rest).symm.trans hnone)
  · intro h
    rw [findOffset?_eq_none_iff]
    intro q
    rw [Option.eq_none_iff_forall_ne_some]
    intro o ho
    obtain ⟨_, _, i, unit, -, -, -, hunit⟩ := unitBehind_of_offsetHere? ho
    exact h i unit hunit

theorem readOffset_eq_ok_none_iff {text : String} :
    readOffset text = .ok none ↔ findOffset? (compact text.toList) = none := by
  unfold readOffset
  cases findOffset? (compact text.toList) with
  | none => simp
  | some o => cases hmillis : o.millis? <;> simp [hmillis]

/-- A text holds no offset exactly if no unit stands directly behind a digit. Else the first such
place decides: the text is read as the longest number that ends there, with the unit behind it, is
read by itself. -/
theorem offset_recognised (text : String) :
    (readOffset text = .ok none ↔ ∀ i unit, ¬ UnitBehind (compact text.toList) i unit) ∧
    ∀ i unit, UnitBehind (compact text.toList) i unit →
      (∀ j < i, ∀ other, ¬ UnitBehind (compact text.toList) j other) →
        ∃ x, LongestNumber (compact text.toList) i x ∧
          readOffset text = readOffset (String.ofList x ++ unit) := by
  refine ⟨readOffset_eq_ok_none_iff.trans findOffset?_eq_none_iff_unitBehind, ?_⟩
  intro i unit hunit hfirst
  obtain ⟨x, hx⟩ := hunit.exists_longestNumber
  have hcompact : compact (String.ofList x ++ unit).toList = x ++ unit.toList := by
    rw [String.toList_append, String.toList_ofList, compact, List.filter_eq_self]
    intro c hc
    have hmem : c ∈ compact text.toList := by
      rcases List.mem_append.1 hc with hc | hc
      · exact List.mem_of_mem_take (hx.ends.subset hc)
      · exact List.mem_of_mem_drop (hunit.behind.subset hc)
    exact (List.mem_filter.1 hmem).2
  refine ⟨x, hx, ?_⟩
  unfold readOffset
  rw [hcompact, findOffset?_of_first hunit hfirst hx]

example : findOffset? "12x1.2.5min3s".toList = findOffset? "2.5min".toList := by decide

end SlideFlow.Timeline
