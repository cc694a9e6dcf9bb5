/-
What reading a file depends on. Two trees that agree at a path give the same answer when it is read
(`readText_congr`). They agree if the path leads to the same file in both, or to no file in both. A
name that is longer than any name may be needs one thing more: such a path leads to no file, but it is
refused for its length only if the walk gets as far as that name, and this depends on the directories
in front of it.

A file that is written elsewhere changes nothing at a path (`agree_put_file`).
-/
import SlideFlow.Proofs.Files.Write

namespace SlideFlow.Files

/-! ## Paths and their written form -/

namespace Path

/-- A path as it is read from a text: an anchor, and names that a slash would separate. -/
structure Clean (p : Path) : Prop where
  anchor : p.anchor ∈ ["", "/", "//"]
  names : ∀ name ∈ p.parts, '/' ∉ name.toList ∧ name ≠ "" ∧ name ≠ "."

theorem clean_ofString (s : String) : (ofString s).Clean := by
  constructor
  · unfold ofString anchorOf
    simp only
    split <;> simp
  · intro name hname
    obtain ⟨hmem, hkept⟩ := List.mem_filter.1 hname
    obtain ⟨w, hw, rfl⟩ := List.mem_map.1 hmem
    simp only [ne_eq, Bool.and_eq_true, decide_eq_true_eq] at hkept
    exact ⟨by simpa using slash_not_mem_split _ w hw, hkept⟩

theorem Clean.join {base p : Path} (hbase : base.Clean) (hp : p.Clean) : (base.join p).Clean := by
  unfold Path.join
  split
  · refine ⟨hbase.anchor, fun name hname => ?_⟩
    rcases List.mem_append.1 hname with h | h
    · exact hbase.names name h
    · exact hp.names name h
  · exact hp

theorem split_slash (cs : List Char) : split ('/' :: cs) = [] :: split cs := rfl

theorem split_of_slash_not_mem : ∀ {w : List Char}, '/' ∉ w → split w = [w]
  | [], _ => rfl
  | c :: w, h => by
    rw [List.mem_cons, not_or] at h
    rw [split.eq_3 c w (fun hc => h.1 hc.symm), split_of_slash_not_mem h.2]

theorem split_append_slash : ∀ {w : List Char} (cs : List Char), '/' ∉ w →
    split (w ++ '/' :: cs) = w :: split cs
  | [], _, _ => rfl
  | c :: w, cs, h => by
    rw [List.mem_cons, not_or] at h
    rw [List.cons_append, split.eq_3 c _ (fun hc => h.1 hc.symm), split_append_slash cs h.2]

theorem split_intercalate : ∀ {ws : List (List Char)}, ws ≠ [] → (∀ w ∈ ws, '/' ∉ w) →
    split (List.intercalate ['/'] ws) = ws
  | [w], _, h => by
    rw [List.intercalate_singleton]
    exact split_of_slash_not_mem (h w (List.mem_singleton_self w))
  | w :: v :: ws, _, h => by
    rw [List.forall_mem_cons] at h
    rw [List.intercalate_cons_cons, List.append_assoc, List.singleton_append,
      split_append_slash _ h.1, split_intercalate (List.cons_ne_nil v ws) h.2]

/-- The first character of a joined row of names is the first one of the first name. -/
theorem head?_intercalate {w : List Char} (hw : w ≠ []) (ws : List (List Char)) :
    (List.intercalate ['/'] (w :: ws)).head? = w.head? := by
  cases ws with
  | nil => rw [List.intercalate_singleton]
  | cons v ws =>
    rw [List.intercalate_cons_cons, List.append_assoc]
    exact List.head?_append_of_ne_nil w hw

/-- An anchor is told apart from names, which do not start with a slash. -/
theorem anchorOf_append {anchor : String} (hanchor : anchor ∈ ["", "/", "//"]) {cs : List Char}
    (hcs : cs.head? ≠ some '/') : anchorOf (anchor.toList ++ cs) = anchor := by
  have hnames : cs = [] ∨ ∃ c rest, cs = c :: rest ∧ c ≠ '/' := by
    cases cs with
    | nil => exact Or.inl rfl
    | cons c rest => exact Or.inr ⟨c, rest, rfl, fun hc => hcs (hc ▸ rfl)⟩
  simp only [List.mem_cons, List.not_mem_nil, or_false] at hanchor
  rcases hnames with rfl | ⟨c, rest, rfl, hc⟩
  · rcases hanchor with rfl | rfl | rfl <;> rfl
  · rcases hanchor with rfl | rfl | rfl <;> simp [anchorOf, hc]

/-- The names of a path in its written form, with empty ones where its anchor stands. -/
theorem filter_split_append {anchor : String} (hanchor : anchor ∈ ["", "/", "//"])
    (cs : List Char) {keep : String → Bool} (hkeep : keep "" = false) :
    ((split (anchor.toList ++ cs)).map String.ofList).filter keep =
      ((split cs).map String.ofList).filter keep := by
  have hempty : keep (String.ofList []) = false := hkeep
  simp only [List.mem_cons, List.not_mem_nil, or_false] at hanchor
  rcases hanchor with rfl | rfl | rfl
  · rfl
  · show ((split ('/' :: cs)).map String.ofList).filter keep = _
    rw [split_slash, List.map_cons, List.filter_cons_of_neg (by simp [hempty])]
  · show ((split ('/' :: '/' :: cs)).map String.ofList).filter keep = _
    rw [split_slash, split_slash, List.map_cons, List.map_cons,
      List.filter_cons_of_neg (by simp [hempty]), List.filter_cons_of_neg (by simp [hempty])]

/-- A path is what its written form reads as. -/
theorem ofString_toString {p : Path} (h : p.Clean) : ofString p.toString = p := by
  obtain ⟨anchor, parts⟩ := p
  obtain ⟨hanchor, hnames⟩ := h
  simp only at hanchor hnames
  cases parts with
  | nil =>
    simp only [List.mem_cons, List.not_mem_nil, or_false] at hanchor
    rcases hanchor with rfl | rfl | rfl <;> rfl
  | cons first rest =>
    have hwritten : (toString ⟨anchor, first :: rest⟩).toList =
        anchor.toList ++ List.intercalate ['/'] ((first :: rest).map String.toList) := by
      simp [toString, String.toList_intercalate]
    have hslash : ∀ w ∈ (first :: rest).map String.toList, '/' ∉ w := by
      intro w hw
      obtain ⟨name, hname, rfl⟩ := List.mem_map.1 hw
      exact (hnames name hname).1
    have hfirst : first.toList ≠ [] := by
      simpa using (hnames first (List.mem_cons_self ..)).2.1
    have hhead : (List.intercalate ['/'] ((first :: rest).map String.toList)).head? ≠ some '/' := by
      rw [List.map_cons, head?_intercalate hfirst]
      intro hc
      exact (hnames first (List.mem_cons_self ..)).1 (List.mem_of_head? hc)
    -- no name is empty or a point, so none of them is dropped
    have hkept : (((first :: rest).map String.toList).map String.ofList).filter
        (fun name => name ≠ "" && name ≠ ".") = first :: rest := by
      have hid : String.ofList ∘ String.toList = id := funext fun _ => String.ofList_toList
      rw [List.map_map, hid, List.map_id, List.filter_eq_self]
      intro name hname
      simpa using (hnames name hname).2
    unfold ofString
    rw [hwritten, anchorOf_append hanchor hhead, filter_split_append hanchor _ (by decide),
      split_intercalate (by simp) hslash, hkept]

/-- A name by itself is a path. -/
theorem ofString_name {name : String} (hslash : '/' ∉ name.toList) (hempty : name ≠ "")
    (hpoint : name ≠ ".") : ofString name = ⟨"", [name]⟩ := by
  have hclean : Clean ⟨"", [name]⟩ := by
    refine ⟨by simp, fun n hn => ?_⟩
    obtain rfl := List.mem_singleton.1 hn
    exact ⟨hslash, hempty, hpoint⟩
  have hshown : toString ⟨"", [name]⟩ = name := by simp [toString]
  have hread := ofString_toString hclean
  rwa [hshown] at hread

/-- A name of the path is longer than any name of a file. -/
def HasLongName (p : Path) : Prop := ∃ name ∈ p.parts, Tree.maxNameBytes < name.utf8ByteSize

end Path

/-! ## Trees that agree at a path -/

namespace Tree

variable {t t' : Tree} {p : Path}

/-- A path is refused because it is too long, or a name on the way. -/
def Refuses (t : Tree) (p : Path) : Prop := t.locate p = .error .nameTooLong

/-- Two trees agree at a path: it leads to a file in both or in none, the files hold the same, and if
the path has a name that no file can have, both refuse it or none does. -/
structure Agree (t t' : Tree) (p : Path) : Prop where
  file : t.file? p = t'.file? p
  refused : p.HasLongName → (t.Refuses p ↔ t'.Refuses p)

/-- A walk is not refused if its names are short. -/
theorem follow_ne_nameTooLong (t : Tree) : ∀ {names : List String} (place : Place),
    (∀ name ∈ names, name.utf8ByteSize ≤ maxNameBytes) →
      t.follow place names ≠ .error .nameTooLong
  | [], _, _ => by simp [follow]
  | name :: names, place, h => by
    rw [List.forall_mem_cons] at h
    unfold follow
    cases t.get? place with
    | none => simp
    | some e =>
      cases e with
      | file content => simp
      | directory =>
        simp only [Nat.not_lt.2 h.1, ↓reduceIte]
        exact follow_ne_nameTooLong t _ h.2

/-- Without long names it is the path as a whole that is too long, in whatever tree. -/
theorem refuses_iff_of_short (t : Tree) (h : ¬ p.HasLongName) :
    t.Refuses p ↔ (p.parts.any (·.toList.contains '\x00')) = false ∧
      maxPathBytes < p.toString.utf8ByteSize := by
  have hshort : ∀ name ∈ p.parts, name.utf8ByteSize ≤ maxNameBytes := by
    intro name hname
    by_contra hlong
    exact h ⟨name, hname, Nat.not_le.1 hlong⟩
  unfold Refuses locate
  generalize p.parts.any (·.toList.contains '\x00') = null
  cases null with
  | true => simp
  | false =>
    by_cases hsize : p.toString.utf8ByteSize > maxPathBytes
    · simp [hsize]
    · simp [hsize, t.follow_ne_nameTooLong p.start hshort]

theorem Agree.refuses_iff (h : t.Agree t' p) : t.Refuses p ↔ t'.Refuses p := by
  by_cases hlong : p.HasLongName
  · exact h.refused hlong
  · rw [t.refuses_iff_of_short hlong, t'.refuses_iff_of_short hlong]

/-- A long name in a directory is reached, and refused, only if the directory is there. -/
theorem locate_long (t : Tree) {directory name : String}
    (hdirectory : directory.utf8ByteSize ≤ maxNameBytes) (hup : directory ≠ "..")
    (hnull : '\x00' ∉ directory.toList ∧ '\x00' ∉ name.toList)
    (hlong : maxNameBytes < name.utf8ByteSize)
    (hfits : directory.utf8ByteSize + name.utf8ByteSize < maxPathBytes) :
    t.locate ⟨"", [directory, name]⟩ =
      match t.get? [directory] with
      | none => .error .missing
      | some (.file _) => .error .notDirectory
      | some .directory => .error .nameTooLong := by
  have hshown : (Path.toString ⟨"", [directory, name]⟩).utf8ByteSize ≤ maxPathBytes := by
    have hslash : "/".utf8ByteSize = 1 := rfl
    simp only [Path.toString, List.isEmpty_cons, Bool.and_false, Bool.false_eq_true, ↓reduceIte,
      String.intercalate_cons_cons, String.intercalate_singleton, String.utf8ByteSize_append,
      String.utf8ByteSize_empty]
    omega
  have hnone : ([directory, name].any (·.toList.contains '\x00')) = false := by
    simp [hnull]
  have hstart : t.get? (Path.start ⟨"", [directory, name]⟩) = some .directory := rfl
  have hstep : Place.step (Path.start ⟨"", [directory, name]⟩) directory = [directory] := if_neg hup
  unfold locate
  rw [hnone, if_neg Bool.false_ne_true, if_neg (Nat.not_lt.2 hshown)]
  simp only [follow, hstart, Nat.not_lt.2 hdirectory, ↓reduceIte]
  rw [hstep]
  cases t.get? [directory] with
  | none => rfl
  | some e =>
    cases e with
    | file content => rfl
    | directory => simp [hlong]

/-! ## Reading -/

theorem readText_of_refuses {path : String} (h : t.Refuses (Path.ofString path)) :
    t.readText path = .error (.nameTooLong (Path.ofString path).toString) := by
  have hlocate : t.locate (Path.ofString path) = .error .nameTooLong := h
  unfold readText
  simp only [hlocate]

/-- If a path is not refused, reading looks at the file that it leads to. -/
theorem readText_of_not_refuses {path : String} (h : ¬ t.Refuses (Path.ofString path)) :
    t.readText path =
      match t.file? (Path.ofString path) with
      | none => .error (.missing path)
      | some content =>
        match content.decode? with
        | none => .error (.undecodable (Path.ofString path).name)
        | some s => .ok (String.ofList (unifyLines s.toList)) := by
  unfold readText file? at?
  simp only
  cases hlocate : t.locate (Path.ofString path) with
  | error dead =>
    cases dead with
    | nameTooLong => exact absurd hlocate h
    | _ => rfl
  | ok place =>
    simp only
    cases t.get? place with
    | none => rfl
    | some e => cases e <;> rfl

/-- Trees that agree at a path give the same answer when it is read. -/
theorem readText_congr {path : String} (h : t.Agree t' (Path.ofString path)) :
    t.readText path = t'.readText path := by
  by_cases hrefused : t.Refuses (Path.ofString path)
  · rw [readText_of_refuses hrefused, readText_of_refuses (h.refuses_iff.1 hrefused)]
  · rw [readText_of_not_refuses hrefused, h.file,
      readText_of_not_refuses fun h' => hrefused (h.refuses_iff.2 h')]

theorem readJson_congr {path : String} (h : t.Agree t' (Path.ofString path)) :
    t.readJson path = t'.readJson path := by
  unfold readJson
  rw [readText_congr h]

/-! ## Files elsewhere -/

theorem not_isBase_of_isDirectory {place : Place} (h : t.isDirectory place = false) :
    place.isBase = false := by
  rw [← Bool.not_eq_true]
  intro hbase
  rw [isDirectory, t.get?_of_isBase hbase] at h
  cases h

/-- A file in place of no directory leaves a walk as it is, unless the walk stopped there anyway. -/
theorem follow_put_file {place : Place} (hplace : t.isDirectory place = false) (content : Content) :
    ∀ (names : List String) (start : Place),
      (t.put place (.file content)).follow start names = t.follow start names ∨
        (t.follow start names = .error .missing ∨ t.follow start names = .error .notDirectory) ∧
          (t.put place (.file content)).follow start names = .error .notDirectory
  | [], _ => Or.inl rfl
  | name :: names, start => by
    unfold follow
    rw [get?_put (not_isBase_of_isDirectory hplace)]
    by_cases hstart : place = start
    · subst hstart
      right
      unfold isDirectory at hplace
      cases hentry : t.get? place with
      | none => simp
      | some e =>
        cases e with
        | file old => simp
        | directory => rw [hentry] at hplace; cases hplace
    · rw [if_neg hstart]
      cases t.get? start with
      | none => exact Or.inl rfl
      | some e =>
        cases e with
        | file old => exact Or.inl rfl
        | directory =>
          simp only
          split
          · exact Or.inl rfl
          · exact follow_put_file hplace content names _

/-- A file that is written where there is no directory changes nothing at a path that does not lead
there. -/
theorem agree_put_file {place : Place} (hplace : t.isDirectory place = false)
    (hp : t.locate p ≠ .ok place) (content : Content) : (t.put place (.file content)).Agree t p := by
  have hlocate : (t.put place (.file content)).locate p = t.locate p ∨
      (t.locate p = .error .missing ∨ t.locate p = .error .notDirectory) ∧
        (t.put place (.file content)).locate p = .error .notDirectory := by
    unfold locate
    split
    · exact Or.inl rfl
    · split
      · exact Or.inl rfl
      · exact follow_put_file hplace content p.parts p.start
  constructor
  · unfold file? at?
    rcases hlocate with h | ⟨h | h, h'⟩
    · rw [h]
      cases hq : t.locate p with
      | error dead => rfl
      | ok q =>
        have hne : place ≠ q := fun heq => hp (heq ▸ hq)
        simp only [get?_put (not_isBase_of_isDirectory hplace), hne, ↓reduceIte]
    · rw [h, h']
    · rw [h, h']
  · intro _
    unfold Refuses
    rcases hlocate with h | ⟨h | h, h'⟩
    · rw [h]
    · rw [h, h']
      simp
    · rw [h, h']

end Tree

end SlideFlow.Files
