/-
What writing a text file does to a tree. Directories may be added on the way to the file, whether or
not the write succeeds. Apart from that a write that fails changes nothing, and one that succeeds
changes what is at its target and nothing else (`writeVia_cases`, `writeText_spec`). The spare file
under which the text is put first takes a name that was free, so taking it away again restores the
tree.
-/
import SlideFlow.Files.Read
import SlideFlow.Files.Write
import Mathlib.Data.List.Nodup
import Mathlib.Data.List.Perm.Subperm

namespace SlideFlow.Files

open SlideFlow.Text

/-! ## Entries of a tree -/

/-- The places that a path leads through: where it starts, and where its first names lead. -/
def Path.Passes (p : Path) (place : Place) : Prop :=
  ∃ names, names <+: p.parts ∧ names.foldl Place.step p.start = place

namespace Tree

variable {t t' t'' : Tree} {place : Place} {p : Path}

theorem get?_of_isBase (t : Tree) (h : place.isBase = true) : t.get? place = some .directory :=
  if_pos h

theorem not_isBase_of_get? (h : t.get? place = none) : place.isBase = false := by
  rw [← Bool.not_eq_true]
  intro hbase
  rw [t.get?_of_isBase hbase] at h
  cases h

theorem get?_put (h : place.isBase = false) (e : Entry) (q : Place) :
    (t.put place e).get? q = if place = q then some e else t.get? q := by
  unfold get? put
  by_cases hq : q.isBase = true
  · have hne : place ≠ q := by
      rintro rfl
      rw [h] at hq
      cases hq
    rw [if_pos hq, if_neg hne, if_pos hq]
  · rw [if_neg hq, if_neg hq, Ordered.get?_put]

theorem get?_erase (h : place.isBase = false) (q : Place) :
    (t.erase place).get? q = if place = q then none else t.get? q := by
  unfold get? erase
  by_cases hq : q.isBase = true
  · have hne : place ≠ q := by
      rintro rfl
      rw [h] at hq
      cases hq
    rw [if_pos hq, if_neg hne, if_pos hq]
  · rw [if_neg hq, if_neg hq, Ordered.get?_erase]

/-! ## Following paths in a changed tree -/

/-- Every directory is still there. -/
def KeepsDirectories (t t' : Tree) : Prop :=
  ∀ place, t.get? place = some .directory → t'.get? place = some .directory

theorem KeepsDirectories.follow (h : t.KeepsDirectories t') :
    ∀ {names : List String} {place q : Place}, t.follow place names = .ok q →
      t'.follow place names = .ok q
  | [], _, _, hq => hq
  | name :: names, place, q, hq => by
    unfold Tree.follow at hq ⊢
    cases hplace : t.get? place with
    | none => rw [hplace] at hq; cases hq
    | some e =>
      cases e with
      | file content => rw [hplace] at hq; cases hq
      | directory =>
        rw [hplace] at hq
        rw [h place hplace]
        simp only at hq ⊢
        by_cases hsize : name.utf8ByteSize > maxNameBytes
        · rw [if_pos hsize] at hq
          cases hq
        · rw [if_neg hsize] at hq ⊢
          exact KeepsDirectories.follow h hq

theorem locate_eq_ok_iff : t.locate p = .ok place ↔
    (p.parts.any (·.toList.contains '\x00')) = false ∧ p.toString.utf8ByteSize ≤ maxPathBytes ∧
      t.follow p.start p.parts = .ok place := by
  unfold locate
  generalize p.parts.any (·.toList.contains '\x00') = null
  cases null with
  | true => simp
  | false =>
    by_cases hsize : p.toString.utf8ByteSize > maxPathBytes
    · simp [hsize, Nat.not_le.2 hsize]
    · simp [hsize, Nat.not_lt.1 hsize]

/-- One more name is followed from a directory. -/
theorem follow_concat {name : String} : ∀ {names : List String} {place q : Place},
    t.follow place names = .ok q → t.get? q = some .directory →
      name.utf8ByteSize ≤ maxNameBytes → t.follow place (names ++ [name]) = .ok (q.step name)
  | [], place, q, hq, hdir, hsize => by
    cases hq
    simp [follow, hdir, Nat.not_lt.2 hsize]
  | first :: names, place, q, hq, hdir, hsize => by
    rw [List.cons_append]
    unfold follow at hq ⊢
    cases hplace : t.get? place with
    | none => rw [hplace] at hq; cases hq
    | some e =>
      cases e with
      | file content => rw [hplace] at hq; cases hq
      | directory =>
        rw [hplace] at hq
        simp only at hq ⊢
        split at hq
        · cases hq
        · rename_i hfirst
          rw [if_neg hfirst]
          exact follow_concat hq hdir hsize

/-- A path leads to the same place as before. -/
theorem KeepsDirectories.locate (h : t.KeepsDirectories t') (hplace : t.locate p = .ok place) :
    t'.locate p = .ok place := by
  obtain ⟨hnull, hsize, hplace⟩ := locate_eq_ok_iff.1 hplace
  exact locate_eq_ok_iff.2 ⟨hnull, hsize, h.follow hplace⟩

/-- A path that leads to a place has that place as its end. -/
theorem foldl_step_of_follow : ∀ {names : List String} {place q : Place},
    t.follow place names = .ok q → names.foldl Place.step place = q
  | [], place, q, hq => by
    cases hq
    rfl
  | name :: names, place, q, hq => by
    unfold follow at hq
    split at hq
    · cases hq
    · cases hq
    · split at hq
      · cases hq
      · rw [List.foldl_cons]
        exact foldl_step_of_follow hq

theorem place_of_locate (h : t.locate p = .ok place) : p.place = place := by
  obtain ⟨-, -, hfollow⟩ := locate_eq_ok_iff.1 h
  exact foldl_step_of_follow hfollow

/-- A tree with nothing but directories added. -/
structure Grown (t t' : Tree) : Prop where
  keeps : ∀ place e, t.get? place = some e → t'.get? place = some e
  adds : ∀ place content, t'.get? place = some (.file content) → t.get? place = some (.file content)

theorem Grown.refl (t : Tree) : t.Grown t := ⟨fun _ _ h => h, fun _ _ h => h⟩

theorem Grown.trans (h : t.Grown t') (h' : t'.Grown t'') : t.Grown t'' :=
  ⟨fun place e he => h'.keeps place e (h.keeps place e he),
    fun place c hc => h.adds place c (h'.adds place c hc)⟩

theorem Grown.keepsDirectories (h : t.Grown t') : t.KeepsDirectories t' :=
  fun place => h.keeps place .directory

/-- The files are the same. -/
theorem Grown.file_iff (h : t.Grown t') (place : Place) (content : Content) :
    t'.get? place = some (.file content) ↔ t.get? place = some (.file content) :=
  ⟨h.adds place content, h.keeps place _⟩

/-- A tree with nothing but directories added, all of them where a path leads. -/
structure GrownAlong (p : Path) (t t' : Tree) : Prop extends Grown t t' where
  along : ∀ place, t.get? place = none → t'.get? place ≠ none → p.Passes place

theorem GrownAlong.refl (p : Path) (t : Tree) : GrownAlong p t t :=
  ⟨.refl t, fun _ hnone hsome => absurd hnone hsome⟩

theorem GrownAlong.trans (h : GrownAlong p t t') (h' : GrownAlong p t' t'') : GrownAlong p t t'' := by
  refine ⟨h.toGrown.trans h'.toGrown, fun place hnone hsome => ?_⟩
  by_cases hplace : t'.get? place = none
  · exact h'.along place hplace hsome
  · exact h.along place hnone hplace

/-- What lies on the way to a directory lies on the way to what is below it. -/
theorem GrownAlong.below {anchor : String} {parts : List String} (h : GrownAlong ⟨anchor, parts⟩ t t')
    (more : List String) : GrownAlong ⟨anchor, parts ++ more⟩ t t' := by
  refine ⟨h.toGrown, fun place hnone hsome => ?_⟩
  obtain ⟨names, hnames, hplace⟩ := h.along place hnone hsome
  exact ⟨names, hnames.trans (List.prefix_append _ _), hplace⟩

theorem grownAlong_put_directory (hlocate : t.locate p = .ok place) (h : t.get? place = none) :
    GrownAlong p t (t.put place .directory) := by
  have hbase := not_isBase_of_get? h
  refine ⟨⟨?_, ?_⟩, ?_⟩
  · intro q e he
    rw [get?_put hbase]
    split
    · rename_i heq
      rw [← heq, h] at he
      cases he
    · exact he
  · intro q content hq
    rw [get?_put hbase] at hq
    split at hq
    · cases hq
    · exact hq
  · intro q hnone hsome
    rw [get?_put hbase] at hsome
    by_cases heq : place = q
    · exact ⟨p.parts, List.prefix_rfl, (place_of_locate hlocate).trans heq⟩
    · rw [if_neg heq] at hsome
      exact absurd hnone hsome

/-! ## Directories -/

theorem leadsToDirectory_iff : t.leadsToDirectory p = true ↔
    ∃ place, t.locate p = .ok place ∧ t.get? place = some .directory := by
  unfold leadsToDirectory at?
  cases t.locate p with
  | error dead => simp
  | ok place =>
    cases h : t.get? place with
    | none => simp [h]
    | some e => cases e <;> simp [h]

theorem makeDirectory_eq_ok (h : t.makeDirectory p = .ok t') :
    GrownAlong p t t' ∧ t'.leadsToDirectory p = true := by
  unfold makeDirectory at h
  cases hlocate : t.locate p with
  | error dead => rw [hlocate] at h; cases h
  | ok place =>
    rw [hlocate] at h
    cases hplace : t.get? place with
    | some e => simp only [hplace] at h; cases h
    | none =>
      simp only [hplace] at h
      cases h
      have hgrown := grownAlong_put_directory hlocate hplace
      refine ⟨hgrown, leadsToDirectory_iff.2 ⟨place, ?_, ?_⟩⟩
      · exact hgrown.keepsDirectories.locate hlocate
      · rw [get?_put (not_isBase_of_get? hplace), if_pos rfl]

theorem leadsToDirectory_of_forgive {fault : WriteFault} (h : t.forgive p fault = .ok ()) :
    t.leadsToDirectory p = true := by
  unfold forgive at h
  split at h
  · assumption
  · cases h

/-- Making directories adds directories on the way and nothing else. If it succeeds, the path leads to
one; a path without components leads to where it starts. -/
theorem ensureParts_spec (anchor : String) (t : Tree) (names : List String) :
    GrownAlong ⟨anchor, names.reverse⟩ t (ensureParts anchor t names).1 ∧
      ((ensureParts anchor t names).2 = .ok () → names ≠ [] →
        (ensureParts anchor t names).1.leadsToDirectory ⟨anchor, names.reverse⟩ = true) := by
  induction names with
  | nil => exact ⟨.refl _ t, fun _ h => absurd rfl h⟩
  | cons name above ih =>
    have hgrown : GrownAlong ⟨anchor, (name :: above).reverse⟩ t (ensureParts anchor t above).1 := by
      rw [List.reverse_cons]
      exact ih.1.below [name]
    unfold ensureParts
    simp only
    split
    · rename_i t' hmake
      obtain ⟨hgrown', hleads⟩ := makeDirectory_eq_ok hmake
      exact ⟨hgrown', fun _ _ => hleads⟩
    · split
      · rename_i t' fault heq
        rw [heq] at hgrown
        exact ⟨hgrown, nofun⟩
      · rename_i t' heq
        rw [heq] at hgrown
        split
        · rename_i t'' hmake
          obtain ⟨hgrown', hleads⟩ := makeDirectory_eq_ok hmake
          exact ⟨hgrown.trans hgrown', fun _ _ => hleads⟩
        · exact ⟨hgrown, fun h _ => leadsToDirectory_of_forgive h⟩
    · exact ⟨.refl _ t, fun h _ => leadsToDirectory_of_forgive h⟩

theorem ensureDirectory_spec (t : Tree) (p : Path) :
    GrownAlong p t (t.ensureDirectory p).1 ∧
      ((t.ensureDirectory p).2 = .ok () → p.parts ≠ [] →
        (t.ensureDirectory p).1.leadsToDirectory p = true) := by
  have h := ensureParts_spec p.anchor t p.parts.reverse
  simpa [ensureDirectory] using h

end Tree

/-! ## Names -/

theorem Place.isBase_concat {name : String} (directory : Place) (hup : name ≠ "..")
    (hroot : name ≠ "/" ∧ name ≠ "//") : Place.isBase (directory ++ [name]) = false := by
  have hne : ∀ anchor, name ≠ anchor → directory ++ [name] ≠ [anchor] := by
    intro anchor hanchor heq
    have hlast := congrArg List.getLast? heq
    simp only [List.getLast?_append, List.getLast?_singleton, Option.some_or,
      Option.some.injEq] at hlast
    exact hanchor hlast
  simp [isBase, isRoot, hne "/" hroot.1, hne "//" hroot.2, hup]

namespace Path

theorem slash_not_mem_split (cs : List Char) : ∀ w ∈ split cs, '/' ∉ w := by
  fun_induction split cs with
  | case1 => simp
  | case2 rest ih => simpa using ih
  | case3 c rest hc hrest ih => simpa [eq_comm] using hc
  | case4 c rest hc w ws hrest ih =>
    rw [hrest] at ih
    intro x hx
    rcases List.mem_cons.1 hx with rfl | hx
    · intro hmem
      rcases List.mem_cons.1 hmem with heq | hmem
      · exact hc heq.symm
      · exact ih w (List.mem_cons_self ..) hmem
    · exact ih x (List.mem_cons_of_mem _ hx)

theorem slash_not_mem_name (path : String) : '/' ∉ (ofString path).name.toList := by
  unfold name
  cases hlast : (ofString path).parts.getLast? with
  | none => simp
  | some part =>
    have hpart := List.mem_of_getLast? hlast
    obtain ⟨w, hw, rfl⟩ := List.mem_map.1 (List.mem_filter.1 hpart).1
    simpa using slash_not_mem_split _ w hw

theorem name_ne_root (path : String) :
    (ofString path).name ≠ "/" ∧ (ofString path).name ≠ "//" := by
  have hslash := slash_not_mem_name path
  constructor
  · intro h
    rw [h] at hslash
    exact hslash (by decide)
  · intro h
    rw [h] at hslash
    exact hslash (by decide)

/-- A path starts where there is always a directory. -/
theorem isBase_start (path : String) : (ofString path).start.isBase = true := by
  unfold start ofString anchorOf
  simp only
  split <;> rfl

end Path

/-! ## Spare names -/

/-- The number that hexadecimal digits stand for. -/
def hexNumber (cs : List Char) : Nat := cs.foldl (fun n c => 16 * n + (hexValue? c).getD 0) 0

theorem hexNumber_toDigits (n : Nat) : hexNumber (Nat.toDigits 16 n) = n := by
  have hdigit : ∀ d < 16, hexValue? d.digitChar = some d := by decide
  induction n using Nat.strongRecOn with
  | ind n ih =>
    rw [Nat.toDigits_eq_if (by decide)]
    split
    · rename_i hlt
      simp [hexNumber, hdigit n hlt]
    · have hdiv := ih (n / 16) (by omega)
      unfold hexNumber at hdiv ⊢
      rw [List.foldl_append, hdiv]
      simp only [List.foldl_cons, List.foldl_nil, hdigit _ (Nat.mod_lt n (by decide)),
        Option.getD_some]
      omega

theorem hexNumber_hexPadded (width n : Nat) : hexNumber (hexPadded width n) = n := by
  have hzeros : ∀ k, (List.replicate k '0').foldl
      (fun n c => 16 * n + (hexValue? c).getD 0) 0 = 0 := by
    intro k
    induction k with
    | zero => rfl
    | succ k ih => exact ih
  have hdigits := hexNumber_toDigits n
  unfold hexNumber at hdigits ⊢
  unfold hexPadded
  rw [List.foldl_append, hzeros, hdigits]

namespace Tree

variable {t : Tree} {directory : Place} {name : String}

/-- The names that are tried for a spare file. -/
def spare (name : String) (k : Nat) : String := "." ++ name ++ "." ++ String.ofList (hexPadded 8 k)

theorem toList_spare (name : String) (k : Nat) :
    (spare name k).toList = '.' :: (name.toList ++ '.' :: hexPadded 8 k) := by
  simp [spare]

theorem spare_injective (name : String) : Function.Injective (spare name) := by
  intro j k h
  have hlist := congrArg String.toList h
  simp only [toList_spare, List.cons.injEq, true_and, List.append_cancel_left_eq] at hlist
  rw [← hexNumber_hexPadded 8 j, hlist, hexNumber_hexPadded]

theorem spare_ne_up (name : String) (k : Nat) : spare name k ≠ ".." := by
  intro h
  have hlist := congrArg String.toList h
  rw [toList_spare] at hlist
  have hlength := congrArg List.length hlist
  have hdigits : (hexPadded 8 k).length ≠ 0 := by
    simp [hexPadded, Nat.toDigits_ne_nil]
  simp only [List.length_cons, List.length_append] at hlength
  have htwo : "..".toList.length = 2 := rfl
  omega

theorem isBase_spare (directory : Place) (name : String) (k : Nat) :
    Place.isBase (directory ++ [spare name k]) = false := by
  have hroot : ∀ anchor : String, anchor.toList.head? = some '/' → spare name k ≠ anchor := by
    intro anchor hanchor h
    rw [← h, toList_spare] at hanchor
    cases hanchor
  exact Place.isBase_concat directory (spare_ne_up name k) ⟨hroot "/" rfl, hroot "//" rfl⟩

/-- More names are tried than there are entries, so one that is free is found. -/
theorem get?_spareName (t : Tree) (directory : Place) (name : String) :
    ∃ k, t.spareName directory name = spare name k ∧
      t.get? (directory ++ [spare name k]) = none := by
  cases hfind : (List.range (t.entries.length + 1)).find? fun k =>
      (t.get? (directory ++ [spare name k])).isNone with
  | some k =>
    have hfree := List.find?_some hfind
    refine ⟨k, ?_, Option.isNone_iff_eq_none.1 hfree⟩
    have hname : t.spareName directory name = spare name
        (((List.range (t.entries.length + 1)).find? fun k =>
          (t.get? (directory ++ [spare name k])).isNone).getD 0) := rfl
    rw [hname, hfind]
    rfl
  | none =>
    -- otherwise all of them are keys of the entries, which are fewer
    have htaken : ((List.range (t.entries.length + 1)).map fun k => directory ++ [spare name k]) ⊆
        Ordered.keys t.entries := by
      intro q hq
      obtain ⟨k, hk, rfl⟩ := List.mem_map.1 hq
      have hsome := List.find?_eq_none.1 hfind k hk
      rw [get?, if_neg (by rw [isBase_spare]; exact Bool.false_ne_true)] at hsome
      rw [Ordered.mem_keys_iff]
      simpa [Option.isSome_iff_ne_none] using hsome
    have hnodup : ((List.range (t.entries.length + 1)).map fun k =>
        directory ++ [spare name k]).Nodup := by
      refine List.nodup_range.map fun j k hjk => ?_
      exact spare_injective name (List.singleton_inj.1 (List.append_cancel_left hjk))
    have hlength := (hnodup.subperm htaken).length_le
    simp only [Ordered.keys, List.length_map, List.length_range] at hlength
    omega

/-- A way of naming spare files: the name is not in use beside the file, and it starts with the name of
the file between two points. -/
structure Sparing (spareFor : Tree → Place → String → String) : Prop where
  free : ∀ (t : Tree) (directory : Place) (name : String),
    t.get? (directory ++ [spareFor t directory name]) = none
  lead : ∀ (t : Tree) (directory : Place) (name : String),
    ∃ more, spareFor t directory name = "." ++ name ++ "." ++ more

theorem sparing_spareName : Sparing spareName := by
  constructor
  · intro t directory name
    obtain ⟨k, hspare, hfree⟩ := t.get?_spareName directory name
    rw [hspare]
    exact hfree
  · intro t directory name
    obtain ⟨k, hspare, -⟩ := t.get?_spareName directory name
    exact ⟨_, hspare⟩

/-- A spare name is longer than the name it is for. -/
theorem Sparing.utf8ByteSize_lt {spareFor : Tree → Place → String → String} (h : Sparing spareFor)
    (t : Tree) (directory : Place) (name : String) :
    name.utf8ByteSize < (spareFor t directory name).utf8ByteSize := by
  obtain ⟨more, hmore⟩ := h.lead t directory name
  have hone : ".".utf8ByteSize = 1 := rfl
  rw [hmore]
  simp only [String.utf8ByteSize_append]
  omega

theorem Sparing.concat_ne {spareFor : Tree → Place → String → String} (h : Sparing spareFor) (t : Tree)
    (directory : Place) (name : String) :
    directory ++ [spareFor t directory name] ≠ directory ++ [name] := by
  intro heq
  have hlonger := h.utf8ByteSize_lt t directory name
  rw [List.singleton_inj.1 (List.append_cancel_left heq)] at hlonger
  exact Nat.lt_irrefl _ hlonger

/-! ## Writing -/

variable {t' : Tree} {p : Path} {target : Place} {content : Content}
  {spareFor : Tree → Place → String → String}

/-- Taking a spare file away again restores the tree. -/
theorem get?_put_erase {place : Place} (h : t.get? place = none) (e : Entry) (q : Place) :
    ((t.put place e).erase place).get? q = t.get? q := by
  have hbase := not_isBase_of_get? h
  rw [get?_erase hbase, get?_put hbase]
  by_cases heq : place = q
  · rw [if_pos heq, ← heq, h]
  · rw [if_neg heq, if_neg heq]

/-- A tree in which a path leads to a new content, with every other file as it was. -/
structure Written (t : Tree) (p : Path) (content : Content) (target : Place) (t' : Tree) : Prop where
  located : t'.locate p = .ok target
  holds : t'.get? target = some (.file content)
  others : ∀ q, q ≠ target → ∀ c, t'.get? q = some (.file c) ↔ t.get? q = some (.file c)

/-- A tree in which a path leads to a new content, with every other entry as it was. -/
structure Stored (t : Tree) (p : Path) (content : Content) (t' : Tree) : Prop where
  located : t'.locate p = .ok p.place
  entries : ∀ q, t'.get? q = if p.place = q then some (.file content) else t.get? q

theorem Stored.written {t₁ : Tree} (h : t₁.Stored p content t') (hgrown : t.Grown t₁) :
    t.Written p content p.place t' := by
  refine ⟨h.located, ?_, fun q hq c => ?_⟩
  · rw [h.entries, if_pos rfl]
  · rw [h.entries, if_neg hq.symm]
    exact hgrown.file_iff q c

/-- A directory that was ensured is there. -/
theorem get?_of_ensureDirectory (hstart : p.start.isBase = true)
    (hensure : t.ensureDirectory p = (t', .ok ())) (hlocate : t'.locate p = .ok directory) :
    t'.get? directory = some .directory := by
  have hleads := (t.ensureDirectory_spec p).2
  rw [hensure] at hleads
  by_cases hparts : p.parts = []
  · obtain ⟨-, -, hfollow⟩ := locate_eq_ok_iff.1 hlocate
    rw [hparts] at hfollow
    cases hfollow
    exact t'.get?_of_isBase hstart
  · obtain ⟨place, hplace, hget⟩ := leadsToDirectory_iff.1 (hleads rfl hparts)
    rw [hlocate] at hplace
    cases hplace
    exact hget

theorem parts_eq_concat (h : p.name ≠ "") : p.parts = p.parent.parts ++ [p.name] := by
  unfold Path.name at h ⊢
  cases hlast : p.parts.getLast? with
  | none => rw [hlast] at h; exact absurd rfl h
  | some last => exact (List.dropLast_append_getLast? last hlast).symm

/-- Moving a spare file over a target, which is no directory then. -/
theorem get?_replace {source : Place} {shown : String} (hfree : t.get? source = none)
    (htarget : target.isBase = false) (hother : source ≠ target)
    (hreplace : (t.put source (.file content)).replace source target shown content = .ok t') :
    t.get? target ≠ some .directory ∧
      ∀ q, t'.get? q = if target = q then some (.file content) else t.get? q := by
  have hsource := not_isBase_of_get? hfree
  unfold replace at hreplace
  rw [get?_put hsource, if_neg hother] at hreplace
  split at hreplace
  · cases hreplace
  · rename_i hne
    cases hreplace
    exact ⟨hne, fun q => by rw [get?_put htarget, get?_put_erase hfree]⟩

/-- A file that stands beside a target can be moved over it unless that is a directory. -/
theorem exists_replace {source : Place} (hfree : t.get? source = none)
    (htarget : t.get? target ≠ some .directory) (shown : String) (content : Content) :
    ∃ t', (t.put source (.file content)).replace source target shown content = .ok t' := by
  unfold replace
  rw [get?_put (not_isBase_of_get? hfree)]
  split
  · rename_i hdirectory
    split at hdirectory
    · cases hdirectory
    · exact absurd hdirectory htarget
  · exact ⟨_, rfl⟩

/-- What is written into a spare file stands in place of what was there. -/
theorem put_put (t : Tree) (place : Place) (e e' : Entry) :
    (t.put place e).put place e' = t.put place e' := by
  unfold put
  congr 1
  exact Ordered.put_put place e e' t.entries

/-- A file can be put into a directory: the directory is there, the path ends in a name that no
directory has, and neither the path nor that of the spare file is refused. -/
structure Ready (spareFor : Tree → Place → String → String) (t : Tree) (p : Path) (directory : Place) :
    Prop where
  located : t.locate p.parent = .ok directory
  isDirectory : t.get? directory = some .directory
  named : p.name ≠ "" ∧ p.name ≠ ".."
  noNull : p.name.toList.contains '\x00' = false
  short : p.toString.utf8ByteSize ≤ maxPathBytes
  shortSpare : (spareFor t directory p.name).utf8ByteSize ≤ maxNameBytes
  shortWay : t.fullPathBytes (directory ++ [spareFor t directory p.name]) ≤ maxPathBytes
  noDirectory : t.get? (directory ++ [p.name]) ≠ some .directory

/-- A path whose last name was put into a directory leads to what was put there. -/
theorem Ready.stored (h : t.Ready spareFor p directory) (hspare : Sparing spareFor)
    (hget : ∀ q, t'.get? q = if directory ++ [p.name] = q then some (.file content) else t.get? q) :
    t.Stored p content t' := by
  have hkeeps : t.KeepsDirectories t' := by
    intro q hq
    rw [hget, if_neg]
    · exact hq
    · rintro rfl
      exact h.noDirectory hq
  obtain ⟨hnulls, -, hfollow⟩ := locate_eq_ok_iff.1 h.located
  have hname : p.name.utf8ByteSize ≤ maxNameBytes :=
    Nat.le_of_lt (Nat.lt_of_lt_of_le (hspare.utf8ByteSize_lt t directory p.name) h.shortSpare)
  have hstep := follow_concat (hkeeps.follow hfollow) (hkeeps directory h.isDirectory) hname
  rw [Place.step, if_neg h.named.2] at hstep
  have hlocated : t'.locate p = .ok (directory ++ [p.name]) := by
    refine locate_eq_ok_iff.2 ⟨?_, h.short, ?_⟩
    · rw [parts_eq_concat h.named.1, List.any_append, hnulls]
      simpa using h.noNull
    · rw [parts_eq_concat h.named.1]
      exact hstep
  have hplace := place_of_locate hlocated
  rw [← hplace] at hlocated hget
  exact ⟨hlocated, hget⟩

/-- A write goes through once its directory is made and the file can be put there, if the text can be
encoded; otherwise it fails for that. -/
theorem Ready.writes {path : String} {t₁ : Tree} (h : t₁.Ready spareFor (Path.ofString path) directory)
    (hspare : Sparing spareFor)
    (hensure : t.ensureDirectory (Path.ofString path).parent = (t₁, .ok ())) (text : RawText) :
    (t.writeVia spareFor path text).2 =
      if text.encode? = none then .error .unencodable else .ok (Path.ofString path) := by
  unfold writeVia
  simp only [hensure, h.located]
  rw [if_neg (Bool.eq_false_iff.1 h.noNull), if_neg]
  · cases hencode : text.encode? with
    | none => rfl
    | some encoded =>
      obtain ⟨t₂, hreplace⟩ := exists_replace (hspare.free t₁ directory (Path.ofString path).name)
        h.noDirectory (Path.ofString path).toString (.text encoded)
      simp [put_put, hreplace, h.named, Nat.not_lt.2 h.short]
  · simp [h.shortSpare, h.shortWay]

/-- What a write does. First directories are made on the way. If it fails then, that is all; if it
succeeds, the file could be put there, the text could be encoded and is at the place to which the path
leads, and nothing else is changed. -/
theorem writeVia_cases (hspare : Sparing spareFor) (t : Tree) (path : String) (text : RawText) :
    (∃ fault, (t.writeVia spareFor path text).2 = .error fault) ∧
        (∀ q, (t.writeVia spareFor path text).1.get? q =
          (t.ensureDirectory (Path.ofString path).parent).1.get? q) ∨
      (t.writeVia spareFor path text).2 = .ok (Path.ofString path) ∧
        (∃ directory, (t.ensureDirectory (Path.ofString path).parent).1.Ready spareFor
          (Path.ofString path) directory) ∧
        ∃ encoded, text.encode? = some encoded ∧
          (t.ensureDirectory (Path.ofString path).parent).1.Stored (Path.ofString path)
            (.text encoded) (t.writeVia spareFor path text).1 := by
  unfold writeVia
  simp only [put_put]
  split
  · rename_i t₁ fault hensure
    rw [hensure]
    exact Or.inl ⟨⟨fault, rfl⟩, fun _ => rfl⟩
  · rename_i t₁ hensure
    rw [hensure]
    cases hlocate : t₁.locate (Path.ofString path).parent with
    | error dead => exact Or.inl ⟨⟨_, rfl⟩, fun _ => rfl⟩
    | ok directory =>
      have hfree := hspare.free t₁ directory (Path.ofString path).name
      simp only
      split
      · exact Or.inl ⟨⟨_, rfl⟩, fun _ => rfl⟩
      · rename_i hnull
        split
        · exact Or.inl ⟨⟨_, rfl⟩, fun _ => rfl⟩
        · -- from here on the spare file is there, and every failure takes it away
          rename_i hsizes
          cases hencode : text.encode? with
          | none => exact Or.inl ⟨⟨_, rfl⟩, get?_put_erase hfree _⟩
          | some encoded =>
            simp only
            split
            · exact Or.inl ⟨⟨_, rfl⟩, get?_put_erase hfree _⟩
            · rename_i hsize
              split
              · exact Or.inl ⟨⟨_, rfl⟩, get?_put_erase hfree _⟩
              · rename_i hname
                split
                · rename_i t₂ hreplace
                  simp only [Bool.or_eq_true, decide_eq_true_eq, not_or, Nat.not_lt] at hsizes hname
                  have hdirectory := get?_of_ensureDirectory (p := (Path.ofString path).parent)
                    (Path.isBase_start path) hensure hlocate
                  have hother := hspare.concat_ne t₁ directory (Path.ofString path).name
                  obtain ⟨hfile, hget⟩ := get?_replace hfree
                    (Place.isBase_concat directory hname.2 (Path.name_ne_root path)) hother hreplace
                  have hready : t₁.Ready spareFor (Path.ofString path) directory :=
                    ⟨hlocate, hdirectory, hname, Bool.not_eq_true _ ▸ hnull, Nat.not_lt.1 hsize,
                      hsizes.1, hsizes.2, hfile⟩
                  exact Or.inr ⟨rfl, ⟨directory, hready⟩, encoded, rfl, hready.stored hspare hget⟩
                · exact Or.inl ⟨⟨_, rfl⟩, get?_put_erase hfree _⟩

/-- If a write fails, at most directories are added. If it succeeds, the path leads to the text, and
every other file is as it was. -/
theorem writeText_spec (t : Tree) (path : String) (text : RawText) :
    (∀ fault, (t.writeText path text).2 = .error fault → t.Grown (t.writeText path text).1) ∧
      (∀ q, (t.writeText path text).2 = .ok q → ∃ encoded target, text.encode? = some encoded ∧
        t.Written (Path.ofString path) (.text encoded) target (t.writeText path text).1) := by
  have hgrown := (t.ensureDirectory_spec (Path.ofString path).parent).1
  obtain ⟨⟨fault, hfails⟩, hsame⟩ | ⟨hsucceeds, -, encoded, hencode, hstored⟩ :=
    writeVia_cases sparing_spareName t path text
  · refine ⟨fun _ _ => ⟨fun q e he => ?_, fun q c hc => ?_⟩, fun q hq => ?_⟩
    · exact (hsame q).trans (hgrown.keeps q e he)
    · exact hgrown.adds q c ((hsame q).symm.trans hc)
    · exact absurd (hfails.symm.trans hq) nofun
  · refine ⟨fun fault hfault => ?_,
      fun _ _ => ⟨encoded, _, hencode, hstored.written hgrown.toGrown⟩⟩
    exact absurd (hsucceeds.symm.trans hfault) nofun

end Tree

end SlideFlow.Files
