/-
Splicing. A fragment that was accepted can be copied into every open arena, and its copy is the
fragment again under other names (`splice_isomorphic`). All names are replaced at once: an identifier
that is drawn for one node may well be the name that another node had in the fragment.
-/
import SlideFlow.Proofs.Compile.Outcome
import SlideFlow.Proofs.Fragment.Shape

namespace SlideFlow.Fragment

open SlideFlow.Flow SlideFlow.Text

/-! ## Values under new names -/

def isText : Json → Bool
  | .str _ => true
  | _ => false

/-- A text that is one of the names, under its new name. -/
def renameText (known : List RawText) (rename : RawText → String) : Json → Json
  | .str s => .str (if s ∈ known then rename s else s)
  | v => v

/-- A value in which names are replaced: in a text, and in a list of nothing but texts. -/
def renameValue (known : List RawText) (rename : RawText → String) : Json → Json
  | .arr items =>
    if items.all isText then .arr (items.map (renameText known rename)) else .arr items
  | v => renameText known rename v

theorem allTexts?_eq_some_iff {items : List Json} {texts : List RawText} :
    allTexts? items = some texts ↔ items = texts.map .str := by
  induction items generalizing texts with
  | nil => cases texts <;> simp [allTexts?]
  | cons x items ih =>
    cases x with
    | str s => cases texts <;> simp [allTexts?, ih, and_comm]
    | _ => cases texts <;> simp [allTexts?]

theorem all_isText_iff {items : List Json} :
    items.all isText = true ↔ ∃ texts, allTexts? items = some texts := by
  induction items with
  | nil => simp [allTexts?]
  | cons x items ih =>
    cases x with
    | str s => simp [isText, allTexts?, ← ih]
    | _ => simp [isText, allTexts?]

theorem toText_refAs (known : List RawText) (rename : RawText → String) (s : RawText) :
    (refAs known rename s).toText = if s ∈ known then (rename s : RawText) else s := by
  unfold refAs
  split <;> rfl

/-- The property of a copy is written as the value under new names. -/
theorem toJson_propertyAs (known : List RawText) (rename : RawText → String) (v : Json) :
    (propertyAs known rename v).toJson = renameValue known rename v := by
  cases v with
  | str s => simp only [propertyAs, Property.toJson, toText_refAs, renameValue, renameText]
  | arr items =>
    cases htexts : allTexts? items with
    | none =>
      have hno : ¬ items.all isText = true := by
        rw [all_isText_iff, htexts]
        simp
      rw [renameValue, if_neg hno, propertyAs, htexts]
      rfl
    | some texts =>
      rw [renameValue, if_pos (all_isText_iff.2 ⟨texts, htexts⟩), propertyAs, htexts,
        allTexts?_eq_some_iff.1 htexts]
      simp only [Property.toJson, List.map_map]
      congr 1
      apply List.map_congr_left
      intro s _
      exact congrArg Json.str (toText_refAs known rename s)
  | _ => rfl

/-! ## Copies -/

/-- A node of a flow is the copy of a node of a fragment: under its new name and with its type; with
wires that lead, port by port, to the new names of their targets; and with every member that is
neither name, type, wires nor tab, in order and under new names. -/
structure IsCopy (known : List RawText) (rename : RawText → String) (p : Part) (n : Node String) :
    Prop where
  id : n.id = rename p.id
  type : n.type = p.type
  wires : n.wires = p.wires.map (List.map rename)
  properties : ∃ properties, n.kind = .copy properties ∧
    properties.map (fun m => (m.1, m.2.toJson)) =
      (p.members.filter fun m => m.1 ∉ (["id", "type", "wires", "z"] : List RawText)).map fun m =>
        (m.1, renameValue known rename m.2)

theorem isCopy_copyAs (known : List RawText) (rename : RawText → String) (p : Part) :
    IsCopy known rename p (copyAs known rename p) := by
  refine ⟨rfl, rfl, rfl, _, rfl, ?_⟩
  have hkeys : p.properties =
      p.members.filter fun m => m.1 ∉ (["id", "type", "wires", "z"] : List RawText) := by
    apply List.filter_congr
    intro m _
    simp [Part.ownKeys]
  rw [hkeys, List.map_map]
  apply List.map_congr_left
  intro m _
  exact congrArg (Prod.mk m.1) (toJson_propertyAs known rename m.2)

end SlideFlow.Fragment

namespace SlideFlow.Flow.Arena

open SlideFlow.Fragment SlideFlow.Ident

variable {σ : Type} [Source σ]

/-- Splicing copies an accepted fragment isomorphically into every open arena, whatever was done with
the arena before, as long as there is an identifier for each node. It does not fail; the nodes that
were there stay as they are; behind them stands one copy of each node, in order, under a renaming that
keeps different names apart and whose identifiers are new to the arena. -/
theorem splice_isomorphic {source : String} {v : Json} {f : Fragment}
    (hvalid : Fragment.validate source v = .ok f) (start : Pool σ) (actions : List Action)
    (hopen : ((ofPool start).after actions).flushed = false)
    (hids : ((ofPool start).after actions).pool.nexts f.size ≠ none) :
    Fragment.Describes v f ∧
    ∃ (rename : Text.RawText → String) (copies : List (Node String)) (spliced : Spliced)
      (arena : Arena σ),
      (splice f).exec ((ofPool start).after actions) = (.ok spliced, arena) ∧
      arena.flushed = false ∧
      arena.nodes = ((ofPool start).after actions).nodes ++ copies ∧
      List.Forall₂ (IsCopy (names f.parts) rename) f.parts copies ∧
      spliced.ids = copies.map (·.id) ∧
      (∀ s ∈ names f.parts, ∀ t ∈ names f.parts, rename s = rename t → s = t) ∧
      (∀ s ∈ names f.parts, rename s ∉ ((ofPool start).after actions).ids) ∧
      spliced.entry = rename f.entry ∧ spliced.exit = rename f.exit := by
  refine ⟨describes_of_ofJson (ofJson_of_validate hvalid), ?_⟩
  have hsound := (sound_ofPool start).after actions
  obtain ⟨⟨ids, pool⟩, hdrawn⟩ := Option.ne_none_iff_exists'.1 hids
  have hfresh := Pool.nexts_fresh hdrawn
  refine ⟨f.newName ids, _, _, _, splice_exec hsound hopen hdrawn, hopen, rfl, ?_, ?_, ?_, ?_, rfl, rfl⟩
  · rw [List.forall₂_map_right_iff, List.forall₂_same]
    exact fun p _ => isCopy_copyAs (names f.parts) (f.newName ids) p
  · rw [List.map_map]
    exact (map_newName hfresh.length).symm.trans List.map_map
  · exact fun s hs t ht => newName_injective hfresh.length hfresh.nodup hs ht
  · intro s hs hmem
    exact hfresh.new _ (newName_mem hfresh.length hs) (hsound.taken _ hmem)

/-! ### Two nodes that swap their names

The nodes of the fragment are wired to each other, and each has the name under which the other one is
copied. -/

def swapFragment : Json := .obj [
  ("meta", .obj [("in", .str "01020246.014203"), ("out", .str "01020244.014203")]),
  ("flow", .arr [
    .obj [("id", .str "01020246.014203"), ("type", .str "t"), ("z", .str "tab"),
      ("link", .str "01020244.014203"), ("wires", .arr [.arr [], .arr [.str "01020244.014203"]])],
    .obj [("type", .str "t"), ("id", .str "01020244.014203"),
      ("links", .arr [.str "01020246.014203", .str "elsewhere"]),
      ("mixed", .arr [.str "01020246.014203", .int 1]),
      ("wires", .arr [.arr [.str "01020246.014203"]])]])]

def swapActions : List Action := [.create fun id => .httpResponse id, .create fun id => .httpResponse id]

theorem swapFragment_valid : ∃ f, Fragment.validate "fragment" swapFragment = .ok f ∧ f.size = 2 := by
  have hsize : (Fragment.validate "fragment" swapFragment).toOption.map Fragment.size = some 2 := by
    decide +kernel
  cases hvalid : Fragment.validate "fragment" swapFragment with
  | error e => rw [hvalid] at hsize; cases hsize
  | ok f => rw [hvalid] at hsize; exact ⟨f, rfl, Option.some.inj hsize⟩

/-- The two nodes are copied behind two others, the first under the name of the second and the second
under the name of the first. -/
theorem splice_isomorphic_swap : ∃ f rename copies spliced arena,
    Fragment.validate "fragment" swapFragment = .ok f ∧
    (splice f).exec ((ofPool Compile.lampPool).after swapActions) = (.ok spliced, arena) ∧
    arena.nodes.length = 4 ∧
    List.Forall₂ (IsCopy (names f.parts) rename) f.parts copies ∧
    spliced = ⟨"01020244.014203", "01020246.014203", ["01020244.014203", "01020246.014203"]⟩ := by
  obtain ⟨f, hvalid, hsize⟩ := swapFragment_valid
  have hids : ((ofPool Compile.lampPool).after swapActions).pool.nexts f.size ≠ none := by
    rw [hsize]
    decide +kernel
  obtain ⟨-, rename, copies, spliced, arena, hexec, -, hnodes, hcopies, -, -, -, -, -⟩ :=
    splice_isomorphic hvalid Compile.lampPool swapActions (by decide +kernel) hids
  refine ⟨f, rename, copies, spliced, arena, hvalid, hexec, ?_, hcopies, ?_⟩
  · have hbefore : ((ofPool Compile.lampPool).after swapActions).nodes.length = 2 := by decide +kernel
    have hlength : copies.length = 2 := hcopies.length_eq.symm.trans hsize
    rw [hnodes, List.length_append, hbefore, hlength]
  · have hspliced : ((Fragment.validate "fragment" swapFragment).toOption.bind fun f =>
        ((splice f).exec ((ofPool Compile.lampPool).after swapActions)).1.toOption) =
          some ⟨"01020244.014203", "01020246.014203", ["01020244.014203", "01020246.014203"]⟩ := by
      decide +kernel
    rw [hvalid] at hspliced
    simp only [Except.toOption, Option.bind_some, hexec] at hspliced
    exact Option.some.inj hspliced

end SlideFlow.Flow.Arena
