/-
Values on one line. A list is written item by item between its brackets, set apart by commas
(`line_arr`), and a whole number as its digits (`line_int`).
-/
import SlideFlow.Json.Writer

namespace SlideFlow.Text.RawText

theorem shown_append (s t : RawText) : (s ++ t).shown = s.shown ++ t.shown := by
  simp [shown]

theorem shown_chars (cs : List Char) : shown (cs.map .char) = String.ofList cs := by
  have hshown := shown_ofString (String.ofList cs)
  rwa [ofString, String.toList_ofList] at hshown

end SlideFlow.Text.RawText

namespace SlideFlow.Json

open SlideFlow.Text.RawText

theorem shown_inlineItems : ∀ items : List Json,
    (inlineItems asText items).shown = ", ".intercalate (items.map line) ++ "]"
  | [] => by
    rw [inlineItems, shown_ofString]
    rfl
  | [v] => by
    rw [inlineItems, shown_append, shown_ofString]
    rfl
  | v :: w :: items => by
    have ih := shown_inlineItems (w :: items)
    rw [inlineItems, shown_append, shown_append, shown_ofString, ih, List.map_cons, List.map_cons,
      List.map_cons, String.intercalate_cons_cons]
    · simp only [line, String.append_assoc]
    · intro h
      cases h

/-- A list on one line: its items, set apart by commas. -/
theorem line_arr (items : List Json) :
    (Json.arr items).line = "[" ++ ", ".intercalate (items.map line) ++ "]" := by
  rw [line, inline, shown_append, shown_ofString, shown_inlineItems, String.append_assoc]

theorem line_bool (b : Bool) : (Json.bool b).line = toString b := by
  cases b
  · exact shown_ofString "false"
  · exact shown_ofString "true"

theorem line_int (n : Int) : (Json.int n).line = toString n := by
  rw [line, inline, shown_chars, intChars]
  cases n with
  | ofNat m => rfl
  | negSucc m =>
    rw [if_pos (Int.negSucc_lt_zero m)]
    show String.ofList ('-' :: Nat.toDigits 10 (m + 1)) = "-" ++ Nat.repr (m + 1)
    apply String.toList_injective
    simp [Nat.repr]

end SlideFlow.Json
