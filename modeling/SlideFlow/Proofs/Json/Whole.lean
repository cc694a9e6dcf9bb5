/-
Values that can be written out. Halves of characters are written as they are, so the text of a value can
be encoded exactly if none of its texts and keys holds one (`encode?_page_iff`).
-/
import SlideFlow.Proofs.Json.RoundTrip

namespace SlideFlow.Text.RawText

theorem isWhole_iff_encode? {s : RawText} : IsWhole s ↔ s.encode? ≠ none := by
  constructor
  · intro h
    have hencode := encode?_eq_some_iff.2 (h.map_plain.symm.trans
      (congrArg (List.map Letter.char) String.toList_ofList.symm))
    simp [hencode]
  · intro h
    obtain ⟨t, ht⟩ := Option.ne_none_iff_exists'.1 h
    exact (plain_of_encode? ht).1

end SlideFlow.Text.RawText

namespace SlideFlow.Json

open SlideFlow.Number SlideFlow.Text SlideFlow.Text.RawText

/-- A value without halves of characters. -/
inductive Whole : Json → Prop
  | null : Whole .null
  | bool (b : Bool) : Whole (.bool b)
  | int (n : Int) : Whole (.int n)
  | float (x : Binary64) : Whole (.float x)
  | str {s : RawText} (h : IsWhole s) : Whole (.str s)
  | arr {items : List Json} (h : ∀ v ∈ items, Whole v) : Whole (.arr items)
  | obj {members : List (RawText × Json)} (hkeys : ∀ m ∈ members, IsWhole m.1)
      (h : ∀ m ∈ members, Whole m.2) : Whole (.obj members)

theorem isWhole_rawLiteral_iff {s : RawText} : IsWhole (rawLiteral s) ↔ IsWhole s := by
  refine ⟨isWhole_of_rawLiteral, fun h => ?_⟩
  have hletters : IsWhole (s.flatMap escapedLetter) := by
    intro l hl
    obtain ⟨x, hx, hl⟩ := List.mem_flatMap.1 hl
    obtain ⟨c, rfl⟩ := h x hx
    exact isWhole_chars _ l hl
  rw [rawLiteral, isWhole_append, isWhole_append]
  exact ⟨⟨isWhole_ofString _, hletters⟩, isWhole_ofString _⟩

theorem isWhole_lineBreak (depth : Nat) : IsWhole (lineBreak depth) := by
  rw [lineBreak, isWhole_append, ← List.map_replicate]
  exact ⟨isWhole_ofString _, isWhole_chars _⟩

mutual

theorem isWhole_indented_iff (depth : Nat) : ∀ v : Json, IsWhole (indented depth v) ↔ Whole v
  | .null => iff_of_true (isWhole_ofString _) .null
  | .bool b => by
    cases b
    · exact iff_of_true (isWhole_ofString _) (.bool false)
    · exact iff_of_true (isWhole_ofString _) (.bool true)
  | .int n => iff_of_true (isWhole_chars _) (.int n)
  | .float x => iff_of_true (isWhole_ofString _) (.float x)
  | .str s => by
    show IsWhole (rawLiteral s) ↔ _
    rw [isWhole_rawLiteral_iff]
    exact ⟨.str, fun h => by cases h; assumption⟩
  | .arr [] => iff_of_true (isWhole_ofString _) (.arr (by simp))
  | .arr (v :: items) => by
    rw [indented, isWhole_append, isWhole_indentedItems_iff depth (v :: items)]
    constructor
    · exact fun h => .arr h.2
    · rintro (_ | _ | _ | _ | _ | h)
      exact ⟨isWhole_ofString _, h⟩
  | .obj [] => iff_of_true (isWhole_ofString _) (.obj (by simp) (by simp))
  | .obj (m :: members) => by
    rw [indented, isWhole_append, isWhole_indentedMembers_iff depth (m :: members)]
    constructor
    · exact fun h => .obj (fun m hm => (h.2 m hm).1) fun m hm => (h.2 m hm).2
    · rintro (_ | _ | _ | _ | _ | _ | ⟨hkeys, h⟩)
      exact ⟨isWhole_ofString _, fun m hm => ⟨hkeys m hm, h m hm⟩⟩

theorem isWhole_indentedItems_iff (depth : Nat) : ∀ items : List Json,
    IsWhole (indentedItems depth items) ↔ ∀ v ∈ items, Whole v
  | [] => by simp [indentedItems, isWhole_lineBreak, isWhole_ofString]
  | [v] => by
    have ih := isWhole_indented_iff (depth + 1) v
    simp [indentedItems, isWhole_lineBreak, isWhole_ofString, ih]
  | v :: w :: items => by
    have ih := isWhole_indented_iff (depth + 1) v
    have ihs := isWhole_indentedItems_iff depth (w :: items)
    rw [List.forall_mem_cons, ← ih, ← ihs]
    simp [indentedItems, isWhole_lineBreak, isWhole_ofString]

theorem isWhole_indentedMembers_iff (depth : Nat) : ∀ members : List (RawText × Json),
    IsWhole (indentedMembers depth members) ↔ ∀ m ∈ members, IsWhole m.1 ∧ Whole m.2
  | [] => by simp [indentedMembers, isWhole_lineBreak, isWhole_ofString]
  | [(k, v)] => by
    have ih := isWhole_indented_iff (depth + 1) v
    simp [indentedMembers, isWhole_lineBreak, isWhole_ofString, isWhole_rawLiteral_iff, ih]
  | (k, v) :: m :: members => by
    have ih := isWhole_indented_iff (depth + 1) v
    have ihs := isWhole_indentedMembers_iff depth (m :: members)
    rw [List.forall_mem_cons, ← ih, ← ihs]
    simp [indentedMembers, isWhole_lineBreak, isWhole_ofString, isWhole_rawLiteral_iff, and_assoc]

end

/-- The text of a value can be encoded exactly if the value holds no half of a character. -/
theorem encode?_page_iff (v : Json) : (v.page ++ "\n").encode? ≠ none ↔ Whole v := by
  rw [← isWhole_iff_encode?, isWhole_append, page, isWhole_indented_iff]
  exact and_iff_left (isWhole_ofString _)

end SlideFlow.Json
