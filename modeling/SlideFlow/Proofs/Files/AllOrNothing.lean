/-
Writing a file is all or nothing. Whatever free name the spare file gets, in any tree, for any path and
any text: if the write succeeds, the path leads to the text, and if it fails, no file is changed and none
is left behind. Apart from the target, the only differences in the tree are directories that were
missing on the way (`write_all_or_nothing`). It succeeds exactly if the way to the file is clear and
its place is free for a file (`Writable`), and if the text can be encoded.
-/
import SlideFlow.Proofs.Files.Write

namespace SlideFlow.Files.Tree

open SlideFlow.Text

variable {t t' : Tree} {p : Path} {directory : Place} {spareFor : Tree → Place → String → String}

/-! ## What a write leaves -/

/-- A place is as it was, or it is now a directory that was missing where a path leads. -/
def KeptOrMade (p : Path) (t t' : Tree) (place : Place) : Prop :=
  t'.get? place = t.get? place ∨
    t.get? place = none ∧ t'.get? place = some .directory ∧ p.Passes place

theorem GrownAlong.keptOrMade (h : GrownAlong p t t') (place : Place) : KeptOrMade p t t' place := by
  cases hbefore : t.get? place with
  | some e => exact Or.inl ((h.keeps place e hbefore).trans hbefore.symm)
  | none =>
    cases hafter : t'.get? place with
    | none => exact Or.inl (hafter.trans hbefore.symm)
    | some e =>
      cases e with
      | directory => exact Or.inr ⟨hbefore, hafter, h.along place hbefore (by simp [hafter])⟩
      | file content =>
        -- there are no new files
        have hfile := h.adds place content hafter
        rw [hbefore] at hfile
        cases hfile

/-- A place that is the same in another tree. -/
theorem KeptOrMade.of_get?_eq {t'' : Tree} {place : Place} (h : KeptOrMade p t t' place)
    (hsame : t''.get? place = t'.get? place) : KeptOrMade p t t'' place := by
  unfold KeptOrMade at h ⊢
  rwa [hsame]

/-! ## Clear ways -/

/-- The names of a path from the first on need no more bytes than all of them. -/
theorem utf8ByteSize_intercalate_le (names more : List String) :
    ("/".intercalate names).utf8ByteSize ≤ ("/".intercalate (names ++ more)).utf8ByteSize := by
  induction names with
  | nil => simp
  | cons name names ih =>
    cases names with
    | nil =>
      cases more with
      | nil => simp
      | cons first more => simp [String.intercalate_cons_cons, Nat.add_assoc]
    | cons second names =>
      simp only [List.cons_append] at ih ⊢
      simp only [String.intercalate_cons_cons, String.utf8ByteSize_append]
      omega

/-- Nothing is in the way of making a directory: there is no file on the way, and neither the path nor
a name of it is refused. -/
structure Clear (t : Tree) (p : Path) : Prop where
  noFile : ∀ place content, p.Passes place → t.get? place ≠ some (.file content)
  noNull : p.parts.any (·.toList.contains '\x00') = false
  shortNames : ∀ name ∈ p.parts, name.utf8ByteSize ≤ maxNameBytes
  short : p.toString.utf8ByteSize ≤ maxPathBytes

theorem Clear.of_grown (h : t.Clear p) (hgrown : t.Grown t') : t'.Clear p :=
  ⟨fun place content hpasses hfile => h.noFile place content hpasses (hgrown.adds place content hfile),
    h.noNull, h.shortNames, h.short⟩

/-- The way to a directory is the first part of the way to what is below it. -/
theorem Clear.above {anchor : String} {names more : List String}
    (h : t.Clear ⟨anchor, names ++ more⟩) : t.Clear ⟨anchor, names⟩ := by
  constructor
  · rintro place content ⟨first, hfirst, hplace⟩
    exact h.noFile place content ⟨first, hfirst.trans (List.prefix_append _ _), hplace⟩
  · have hnull := h.noNull
    rw [List.any_append, Bool.or_eq_false_iff] at hnull
    exact hnull.1
  · intro name hname
    exact h.shortNames name (List.mem_append_left _ hname)
  · have hshort := h.short
    have hnames := utf8ByteSize_intercalate_le names more
    unfold Path.toString at hshort ⊢
    split
    · decide
    · rename_i hsome
      rw [if_neg] at hshort
      · simp only [String.utf8ByteSize_append] at hshort ⊢
        omega
      · simp only [Bool.and_eq_true, decide_eq_true_eq, List.isEmpty_iff, List.append_eq_nil_iff]
          at hsome ⊢
        exact fun hempty => hsome ⟨hempty.1, hempty.2.1⟩

/-- On a clear way only a directory can be missing. -/
theorem follow_of_clear {names : List String} (hnames : ∀ name ∈ names, name.utf8ByteSize ≤ maxNameBytes)
    {place : Place} (hfiles : ∀ first, first <+: names → ∀ content,
      t.get? (first.foldl Place.step place) ≠ some (.file content)) :
    t.follow place names = .ok (names.foldl Place.step place) ∨
      t.follow place names = .error .missing := by
  induction names generalizing place with
  | nil => exact Or.inl rfl
  | cons name names ih =>
    unfold follow
    cases hplace : t.get? place with
    | none => exact Or.inr rfl
    | some e =>
      cases e with
      | file content => exact absurd hplace (hfiles [] List.nil_prefix content)
      | directory =>
        have hshort := hnames name List.mem_cons_self
        simp only [if_neg (Nat.not_lt.2 hshort), List.foldl_cons]
        apply ih
        · intro other hother
          exact hnames other (List.mem_cons_of_mem _ hother)
        · intro first hfirst
          exact hfiles (name :: first) (List.cons_prefix_cons.2 ⟨rfl, hfirst⟩)

theorem Clear.locate (h : t.Clear p) : t.locate p = .ok p.place ∨ t.locate p = .error .missing := by
  unfold Tree.locate
  rw [if_neg (Bool.eq_false_iff.1 h.noNull), if_neg (Nat.not_lt.2 h.short)]
  exact follow_of_clear h.shortNames fun first hfirst content => h.noFile _ content ⟨first, hfirst, rfl⟩

/-- A clear way is followed to its end from the directory above. -/
theorem Clear.locate_below {anchor name : String} {above : List String}
    (h : t.Clear ⟨anchor, (name :: above).reverse⟩) {directory : Place}
    (hlocate : t.locate ⟨anchor, above.reverse⟩ = .ok directory)
    (hdirectory : t.get? directory = some .directory) :
    t.locate ⟨anchor, (name :: above).reverse⟩ = .ok (Path.place ⟨anchor, (name :: above).reverse⟩) := by
  rcases h.locate with hplace | hmissing
  · exact hplace
  · obtain ⟨-, -, hfollow⟩ := locate_eq_ok_iff.1 hlocate
    have hlast := follow_concat hfollow hdirectory (h.shortNames name (by simp))
    have hplace : t.locate ⟨anchor, (name :: above).reverse⟩ = .ok (directory.step name) := by
      refine locate_eq_ok_iff.2 ⟨h.noNull, h.short, ?_⟩
      rw [List.reverse_cons]
      exact hlast
    rw [hmissing] at hplace
    cases hplace

/-- A directory that was ensured on a clear way is at the end of it. -/
theorem Clear.ensured (h : t.Clear p) (hstart : p.start.isBase = true)
    (hensure : t.ensureDirectory p = (t', .ok ())) :
    t'.locate p = .ok p.place ∧ t'.get? p.place = some .directory := by
  obtain ⟨hgrown, hleads⟩ := t.ensureDirectory_spec p
  rw [hensure] at hgrown hleads
  have hlocate : t'.locate p = .ok p.place := by
    rcases (h.of_grown hgrown.toGrown).locate with hlocate | hmissing
    · exact hlocate
    · by_cases hparts : p.parts = []
      · simp [Tree.locate, Path.place, hparts, follow, Nat.not_lt.2 h.short]
      · obtain ⟨place, hplace, -⟩ := leadsToDirectory_iff.1 (hleads rfl hparts)
        rw [hmissing] at hplace
        cases hplace
  exact ⟨hlocate, get?_of_ensureDirectory hstart hensure hlocate⟩

/-- Where a clear way leads, a directory is made or stands already. -/
theorem Clear.forgive (h : t.Clear p) (hlocate : t.locate p = .ok p.place) {fault : WriteFault}
    (hmake : t.makeDirectory p = .error fault) : t.forgive p fault = .ok () := by
  unfold makeDirectory at hmake
  rw [hlocate] at hmake
  cases hplace : t.get? p.place with
  | none =>
    simp only [hplace] at hmake
    cases hmake
  | some e =>
    cases e with
    | file content => exact absurd hplace (h.noFile _ content ⟨p.parts, List.prefix_rfl, rfl⟩)
    | directory => exact if_pos (leadsToDirectory_iff.2 ⟨p.place, hlocate, hplace⟩)

/-- On a clear way a directory is made, with those above it that are missing. -/
theorem Clear.ensureParts {anchor : String} (hstart : (Path.mk anchor []).start.isBase = true)
    {names : List String} (h : t.Clear ⟨anchor, names.reverse⟩) :
    (ensureParts anchor t names).2 = .ok () := by
  induction names with
  | nil => rfl
  | cons name above ih =>
    have habove : t.Clear ⟨anchor, above.reverse⟩ := by
      rw [List.reverse_cons] at h
      exact h.above
    have hdone := ih habove
    rcases hmade : Tree.ensureParts anchor t above with ⟨t', result⟩
    rw [hmade] at hdone
    obtain rfl : result = .ok () := hdone
    -- the directory above is there now, so the last name is followed from it
    have hensure : t.ensureDirectory ⟨anchor, above.reverse⟩ = (t', .ok ()) := by
      rw [ensureDirectory, List.reverse_reverse, hmade]
    obtain ⟨hlocate, hdirectory⟩ := habove.ensured hstart hensure
    have hgrown := (t.ensureDirectory_spec ⟨anchor, above.reverse⟩).1
    rw [hensure] at hgrown
    have hclear := h.of_grown hgrown.toGrown
    have hlast := hclear.locate_below hlocate hdirectory
    unfold Tree.ensureParts
    simp only
    split
    · rfl
    · rw [hmade]
      simp only
      split
      · rfl
      · rename_i hmake
        exact hclear.forgive hlast hmake
    · rename_i fault hother hmake
      rcases h.locate with hplace | hmissing
      · exact h.forgive hplace hmake
      · rw [makeDirectory, hmissing] at hmake
        cases hmake
        exact absurd rfl (hother _)

theorem Clear.ensureDirectory (h : t.Clear p) (hstart : p.start.isBase = true) :
    (t.ensureDirectory p).2 = .ok () := by
  refine Clear.ensureParts hstart ?_
  rw [List.reverse_reverse]
  exact h

/-- A path to a directory leads through directories, by names that are short enough. -/
theorem follow_through {names : List String} {place q : Place} (hfollow : t.follow place names = .ok q)
    (hdirectory : t.get? q = some .directory) :
    (∀ first, first <+: names → t.get? (first.foldl Place.step place) = some .directory) ∧
      ∀ name ∈ names, name.utf8ByteSize ≤ maxNameBytes := by
  induction names generalizing place with
  | nil =>
    cases hfollow
    refine ⟨fun first hfirst => ?_, by simp⟩
    rw [List.prefix_nil.1 hfirst]
    exact hdirectory
  | cons name names ih =>
    unfold follow at hfollow
    split at hfollow
    · cases hfollow
    · cases hfollow
    · rename_i hplace
      split at hfollow
      · cases hfollow
      · rename_i hshort
        obtain ⟨hthrough, hnames⟩ := ih hfollow
        constructor
        · rintro (_ | ⟨other, first⟩) hfirst
          · exact hplace
          · obtain ⟨rfl, hrest⟩ := List.cons_prefix_cons.1 hfirst
            exact hthrough first hrest
        · rintro other (_ | ⟨_, hother⟩)
          · exact Nat.not_lt.1 hshort
          · exact hnames other hother

theorem directory_of_passes (hlocate : t.locate p = .ok directory)
    (hdirectory : t.get? directory = some .directory) {place : Place} (hpasses : p.Passes place) :
    t.get? place = some .directory := by
  obtain ⟨-, -, hfollow⟩ := locate_eq_ok_iff.1 hlocate
  obtain ⟨first, hfirst, rfl⟩ := hpasses
  exact (follow_through hfollow hdirectory).1 first hfirst

/-- A path that leads to a directory once directories were added is a clear way. -/
theorem clear_of_directory (hgrown : t.Grown t') (hlocate : t'.locate p = .ok directory)
    (hdirectory : t'.get? directory = some .directory) : t.Clear p := by
  obtain ⟨hnull, hshort, hfollow⟩ := locate_eq_ok_iff.1 hlocate
  refine ⟨fun place content hpasses hfile => ?_, hnull, (follow_through hfollow hdirectory).2, hshort⟩
  have hplace := directory_of_passes hlocate hdirectory hpasses
  rw [hgrown.keeps place _ hfile] at hplace
  cases hplace

/-! ## When a write succeeds -/

/-- A file can be written: its directory is there or can be made, its path ends in a name, its place is
no directory and does not become one on the way, and neither its path nor that of the spare file is
refused. -/
structure Writable (spareFor : Tree → Place → String → String) (t : Tree) (p : Path) : Prop where
  clear : t.Clear p.parent
  named : p.name ≠ "" ∧ p.name ≠ ".."
  noNull : p.name.toList.contains '\x00' = false
  short : p.toString.utf8ByteSize ≤ maxPathBytes
  shortSpare : (spareFor (t.ensureDirectory p.parent).1 p.parent.place p.name).utf8ByteSize ≤ maxNameBytes
  shortWay : (t.ensureDirectory p.parent).1.fullPathBytes (p.parent.place ++
    [spareFor (t.ensureDirectory p.parent).1 p.parent.place p.name]) ≤ maxPathBytes
  noDirectory : t.get? p.place ≠ some .directory
  notPassed : ¬p.parent.Passes p.place

theorem place_eq_concat (hempty : p.name ≠ "") (hup : p.name ≠ "..") :
    p.place = p.parent.place ++ [p.name] := by
  have hstep : p.place = p.parent.place.step p.name := by
    rw [Path.place, parts_eq_concat hempty, List.foldl_concat]
    rfl
  rw [hstep, Place.step, if_neg hup]

/-- With the directories made on the way, the file can be put into the last of them. -/
theorem Writable.ready {path : String} (h : t.Writable spareFor (Path.ofString path))
    (hensure : t.ensureDirectory (Path.ofString path).parent = (t', .ok ())) :
    t'.Ready spareFor (Path.ofString path) (Path.ofString path).parent.place := by
  have hgrown := (t.ensureDirectory_spec (Path.ofString path).parent).1
  have hshort := h.shortSpare
  have hway := h.shortWay
  rw [hensure] at hgrown hshort hway
  obtain ⟨hlocate, hdirectory⟩ := h.clear.ensured (Path.isBase_start path) hensure
  refine ⟨hlocate, hdirectory, h.named, h.noNull, h.short, hshort, hway, ?_⟩
  rw [← place_eq_concat h.named.1 h.named.2]
  rcases hgrown.keptOrMade (Path.ofString path).place with hkept | ⟨-, -, hpasses⟩
  · rw [hkept]
    exact h.noDirectory
  · exact absurd hpasses h.notPassed

/-- A file that can be put into a directory once it is made could be written before. -/
theorem Ready.writable (h : (t.ensureDirectory p.parent).1.Ready spareFor p directory) :
    t.Writable spareFor p := by
  have hgrown := (t.ensureDirectory_spec p.parent).1
  have htarget := h.noDirectory
  have hshort := h.shortSpare
  have hway := h.shortWay
  rw [← place_of_locate h.located] at htarget hshort hway
  rw [← place_eq_concat h.named.1 h.named.2] at htarget
  refine ⟨clear_of_directory hgrown.toGrown h.located h.isDirectory, h.named, h.noNull, h.short, hshort,
    hway, fun hdirectory => ?_, fun hpasses => ?_⟩
  · exact htarget (hgrown.keeps _ _ hdirectory)
  · exact htarget (directory_of_passes h.located h.isDirectory hpasses)

/-- Whether a file that can be written is written depends on its text alone. -/
theorem Writable.writes {path : String} (h : t.Writable spareFor (Path.ofString path))
    (hspare : Sparing spareFor) (text : RawText) : (t.writeVia spareFor path text).2 =
      if text.encode? = none then .error .unencodable else .ok (Path.ofString path) := by
  have hdone := h.clear.ensureDirectory (Path.isBase_start path)
  rcases hensure : t.ensureDirectory (Path.ofString path).parent with ⟨t₁, result⟩
  rw [hensure] at hdone
  obtain rfl : result = .ok () := hdone
  exact (h.ready hensure).writes hspare hensure text

/-- What can be written is written, and nothing else. -/
theorem writes_iff (hspare : Sparing spareFor) (t : Tree) (path : String) (text : RawText) :
    (t.writeVia spareFor path text).2 = .ok (Path.ofString path) ↔
      t.Writable spareFor (Path.ofString path) ∧ text.encode? ≠ none := by
  constructor
  · intro hwrites
    obtain ⟨⟨fault, hfails⟩, -⟩ | ⟨-, ⟨directory, hready⟩, encoded, hencode, -⟩ :=
      writeVia_cases hspare t path text
    · rw [hfails] at hwrites
      cases hwrites
    · refine ⟨hready.writable, ?_⟩
      rw [hencode]
      exact Option.some_ne_none encoded
  · rintro ⟨hwritable, hencode⟩
    rw [hwritable.writes hspare, if_neg hencode]

/-- A write that succeeds leaves exactly the text where its path leads, and one that fails leaves no
trace in any file. Every other place is as it was, or is a directory that was missing on the way. A
write succeeds exactly if the file can be written and the text be encoded. If only the text is at fault,
the write fails once the spare file is there, and nothing of that file is left either. -/
theorem write_all_or_nothing (hspare : Sparing spareFor) (t : Tree) (path : String) (text : RawText) :
    let p := Path.ofString path
    let t' := (t.writeVia spareFor path text).1
    (∀ q, (t.writeVia spareFor path text).2 = .ok q → q = p ∧ t'.locate p = .ok p.place ∧
      (∃ encoded, text.encode? = some encoded ∧
        t'.get? p.place = some (.file (.text encoded))) ∧
      ∀ place, place ≠ p.place → KeptOrMade p.parent t t' place) ∧
    (∀ fault, (t.writeVia spareFor path text).2 = .error fault →
      ∀ place, KeptOrMade p.parent t t' place) ∧
    ((t.writeVia spareFor path text).2 = .ok p ↔ t.Writable spareFor p ∧ text.encode? ≠ none) ∧
    (t.Writable spareFor p → text.encode? = none →
      (t.writeVia spareFor path text).2 = .error .unencodable) := by
  intro p t'
  have hgrown : GrownAlong p.parent t (t.ensureDirectory p.parent).1 :=
    (t.ensureDirectory_spec p.parent).1
  have hunencodable : t.Writable spareFor p → text.encode? = none →
      (t.writeVia spareFor path text).2 = .error .unencodable := by
    intro hwritable hencode
    rw [hwritable.writes hspare, if_pos hencode]
  obtain ⟨⟨fault, hfails⟩, hsame⟩ | ⟨hsucceeds, -, encoded, hencode, hstored⟩ :=
    writeVia_cases hspare t path text
  · refine ⟨?_, ?_, writes_iff hspare t path text, hunencodable⟩
    · intro q hq
      rw [hfails] at hq
      cases hq
    · intro fault' _ place
      exact (hgrown.keptOrMade place).of_get?_eq (hsame place)
  · refine ⟨?_, ?_, writes_iff hspare t path text, hunencodable⟩
    · intro q hq
      rw [hsucceeds] at hq
      cases hq
      refine ⟨rfl, hstored.located, ⟨encoded, hencode, ?_⟩, fun place hplace => ?_⟩
      · rw [hstored.entries, if_pos rfl]
      · have hsame := hstored.entries place
        rw [if_neg (Ne.symm hplace)] at hsame
        exact (hgrown.keptOrMade place).of_get?_eq hsame
    · intro fault hfault
      rw [hsucceeds] at hfault
      cases hfault

/-- A file in a directory and another one beside it. -/
def deskTree : Tree :=
  { workingPathBytes := 5
    entries := [(["notes"], .file (.text "kept")), (["d"], .directory),
      (["d", "log"], .file (.text "old"))] }

/-- A text that ends in half of a character. -/
def brokenText : RawText := "fresh" ++ ([.half ⟨0xd800, by decide⟩] : RawText)

/-- A file is replaced by a roundabout way, which makes a directory; a path through a file, one to a
directory and a text that cannot be encoded fail, and all files stay. -/
theorem write_all_or_nothing_deskTree :
    let replaced := deskTree.writeText "new/../d/log" "fresh"
    Sparing spareName ∧
    replaced.2 = .ok (Path.ofString "new/../d/log") ∧
    Writable spareName deskTree (Path.ofString "new/../d/log") ∧
    replaced.1.get? ["d", "log"] = some (.file (.text "fresh")) ∧
    KeptOrMade ⟨"", ["new", "..", "d"]⟩ deskTree replaced.1 ["new"] ∧
    KeptOrMade ⟨"", ["new", "..", "d"]⟩ deskTree replaced.1 ["notes"] ∧
    (deskTree.writeText "notes/log" "fresh").2 = .error (.exists "notes") ∧
    (∀ place, KeptOrMade ⟨"", ["notes"]⟩ deskTree (deskTree.writeText "notes/log" "fresh").1 place) ∧
    (deskTree.writeText "d" "fresh").2 = .error (.isDirectory "d") ∧
    (∀ place, KeptOrMade ⟨"", []⟩ deskTree (deskTree.writeText "d" "fresh").1 place) ∧
    (deskTree.writeText "new/../d/log" brokenText).2 = .error .unencodable ∧
    ∀ place, KeptOrMade ⟨"", ["new", "..", "d"]⟩ deskTree
      (deskTree.writeText "new/../d/log" brokenText).1 place := by
  intro replaced
  have hok : replaced.2 = .ok (Path.ofString "new/../d/log") := rfl
  have hthrough : (deskTree.writeText "notes/log" "fresh").2 = .error (.exists "notes") := rfl
  have hover : (deskTree.writeText "d" "fresh").2 = .error (.isDirectory "d") := rfl
  obtain ⟨hleaves, -, hwritable, -⟩ :=
    write_all_or_nothing sparing_spareName deskTree "new/../d/log" "fresh"
  obtain ⟨-, -, ⟨encoded, hencode, hholds⟩, hothers⟩ := hleaves _ hok
  rw [RawText.encode?_ofString] at hencode
  cases hencode
  obtain ⟨-, hkept, -⟩ := write_all_or_nothing sparing_spareName deskTree "notes/log" "fresh"
  obtain ⟨-, hkept', -⟩ := write_all_or_nothing sparing_spareName deskTree "d" "fresh"
  obtain ⟨-, hkept'', -, hunencodable⟩ :=
    write_all_or_nothing sparing_spareName deskTree "new/../d/log" brokenText
  have hbroken := hunencodable (hwritable.1 hok).1 rfl
  exact ⟨sparing_spareName, hok, (hwritable.1 hok).1, hholds, hothers ["new"] (by decide),
    hothers ["notes"] (by decide), hthrough, hkept _ hthrough, hover, hkept' _ hover, hbroken,
    hkept'' _ hbroken⟩

end SlideFlow.Files.Tree
