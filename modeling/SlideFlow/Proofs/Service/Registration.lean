/-
What a registry holds after any number of calls. A call only ever appends names that are new, so names
stay distinct and keep their order (`Call.appends`). A list of names is registered up to the first one
that is taken, which is its longest first part that can be registered (`longestAdmitted_addMany`). A
source that lists names is such a list; whatever else is wrong with a source leaves the registry as it
was (`registry_contents`).
-/
import SlideFlow.Service.Registry
import SlideFlow.Proofs.Fragment.Accepted
import SlideFlow.Proofs.Json.Tidy

namespace SlideFlow.Service

open SlideFlow.Files SlideFlow.Text

namespace Registry

variable {r : Registry} {name : RawText} {names added : List RawText}

/-! ## Adding names -/

/-- The registry with more names behind those that it has. -/
def extend (r : Registry) (names : List RawText) : Registry :=
  { services := r.services ++ names.map fun name => (name, { name }) }

@[simp] theorem names_extend (r : Registry) (names : List RawText) :
    (r.extend names).names = r.names ++ names := by
  simp [extend, Registry.names, Ordered.keys, Function.comp_def]

@[simp] theorem extend_nil (r : Registry) : r.extend [] = r := by
  simp [extend]

theorem extend_extend (r : Registry) (names more : List RawText) :
    (r.extend names).extend more = r.extend (names ++ more) := by
  simp [extend]

/-- Names that can all be registered: none is taken, and none comes twice. -/
structure Admits (r : Registry) (names : List RawText) : Prop where
  nodup : names.Nodup
  free : ∀ name ∈ names, name ∉ r.names

theorem admits_nil (r : Registry) : r.Admits [] := ⟨List.nodup_nil, by simp⟩

theorem Admits.cons (hname : name ∉ r.names) (h : (r.extend [name]).Admits names) :
    r.Admits (name :: names) := by
  have hfree := h.free
  simp only [names_extend, List.mem_append, List.mem_singleton, not_or] at hfree
  constructor
  · exact List.nodup_cons.2 ⟨fun hmem => (hfree name hmem).2 rfl, h.nodup⟩
  · rintro n (_ | ⟨_, hn⟩)
    · exact hname
    · exact (hfree n hn).1

theorem add?_of_mem (h : name ∈ r.names) : r.add? name = none := if_pos h

theorem add?_of_not_mem (h : name ∉ r.names) : r.add? name = some (r.extend [name]) := by
  rw [add?, if_neg h, Ordered.put_of_not_mem h]
  rfl

/-- What registering several names does: those before the first one that is taken are appended. -/
theorem addMany_spec (r : Registry) (names : List RawText) :
    ∃ added rest, names = added ++ rest ∧ r.Admits added ∧
      r.addMany names = (r.extend added, rest.head?) ∧
      ∀ name, rest.head? = some name → name ∈ r.names ++ added := by
  induction names generalizing r with
  | nil => exact ⟨[], [], rfl, r.admits_nil, by simp [addMany], by simp⟩
  | cons name names ih =>
    by_cases hname : name ∈ r.names
    · refine ⟨[], name :: names, rfl, r.admits_nil, by simp [addMany, add?_of_mem hname], ?_⟩
      rintro n hn
      cases hn
      simpa using hname
    · obtain ⟨added, rest, rfl, hadmits, heq, htaken⟩ := ih (r.extend [name])
      refine ⟨name :: added, rest, rfl, hadmits.cons hname, ?_, ?_⟩
      · simp [addMany, add?_of_not_mem hname, heq, extend_extend]
      · intro n hn
        simpa using htaken n hn

/-- The longest first part of a list of names that can be registered. -/
structure LongestAdmitted (r : Registry) (names added : List RawText) : Prop where
  first : added <+: names
  admits : r.Admits added
  longest : ∀ more, more <+: names → r.Admits more → more <+: added

theorem longestAdmitted_addMany (r : Registry) (names : List RawText) :
    ∃ added, r.LongestAdmitted names added ∧ (r.addMany names).1 = r.extend added ∧
      ((r.addMany names).2 = none ↔ added = names) := by
  obtain ⟨added, rest, rfl, hadmits, heq, htaken⟩ := r.addMany_spec names
  refine ⟨added, ⟨List.prefix_append .., hadmits, ?_⟩, by rw [heq], ?_⟩
  · intro more hmore hadmits'
    rcases List.prefix_or_prefix_of_prefix hmore (List.prefix_append added rest) with h | ⟨tail, rfl⟩
    · exact h
    · -- a longer part would hold the name that is taken
      rw [List.prefix_append_right_inj] at hmore
      cases tail with
      | nil => simp
      | cons n tail =>
        obtain ⟨rest, rfl⟩ := hmore
        have hmem := htaken n rfl
        have hfree := hadmits'.free n (by simp)
        have hnodup := List.nodup_append.1 hadmits'.nodup
        rcases List.mem_append.1 hmem with hn | hn
        · exact absurd hn hfree
        · exact absurd rfl (hnodup.2.2 n hn n (by simp))
  · rw [heq, List.head?_eq_none_iff]
    simp

/-! ## Sources -/

theorem readSource_of_read {text : String} (h : Json.read text = .ok (.arr (names.map .str))) :
    readSource text = .ok names := by
  have hcheck : sourceSchema.check (.arr (names.map .str)) = none := Fragment.check_texts names
  rw [readSource, h]
  simp [hcheck, Json.arr?, List.filterMap_map, Function.comp_def, Json.text?]

theorem loadSource_of_error {text : String} {e : RegistryError} (h : readSource text = .error e)
    (r : Registry) : r.loadSource text = (r, .throw e) := by
  rw [loadSource, h]

/-- A source that lists names registers them as a list of names. -/
theorem loadSource_of_ok {text : String} (h : readSource text = .ok names) (r : Registry) :
    (r.loadSource text).1 = (r.addMany names).1 ∧
      (r.loadSource text).2.result =
        if (r.addMany names).2 = none then .ok () else .error .repeatedInSource := by
  rcases hadd : r.addMany names with ⟨r', taken⟩
  cases taken with
  | none => simp [loadSource, h, hadd]
  | some name => simp [loadSource, h, hadd]

/-- A failure for any other reason than a name that is taken leaves the registry as it was. -/
theorem loadSource_unchanged {text : String} {e : RegistryError}
    (h : (r.loadSource text).2.result = .error e) (he : e ≠ .repeatedInSource) :
    (r.loadSource text).1 = r := by
  cases hsource : readSource text with
  | error e' => rw [loadSource_of_error hsource]
  | ok names =>
    rw [(loadSource_of_ok hsource r).2] at h
    split at h
    · cases h
    · cases h
      exact absurd rfl he

theorem loadFile_unchanged {files : Tree} {path : String} {e : RegistryError}
    (h : (r.loadFile files path).2.result = .error e) (he : e ≠ .repeatedInSource) :
    (r.loadFile files path).1 = r := by
  unfold loadFile at h ⊢
  cases hread : files.readText path with
  | error why => rfl
  | ok text =>
    rw [hread] at h
    exact loadSource_unchanged h he

end Registry

/-! ## Calls -/

/-- What can be asked of a registry. The files are those at the time of the call. -/
inductive Call where
  | add (name : RawText)
  | addMany (names : List RawText)
  | loadSource (text : String)
  | loadFile (files : Tree) (path : String)

/-- The registry that a call leaves behind, whether it succeeds or fails. -/
def Call.apply (r : Registry) : Call → Registry
  | .add name => (r.add? name).getD r
  | .addMany names => (r.addMany names).1
  | .loadSource text => (r.loadSource text).1
  | .loadFile files path => (r.loadFile files path).1

/-- The registry after some calls. -/
def Registry.after (r : Registry) (calls : List Call) : Registry := calls.foldl Call.apply r

namespace Call

variable (r : Registry)

/-- A call appends names that are new, and does nothing else. -/
def Appends (call : Call) : Prop := ∃ added, r.Admits added ∧ call.apply r = r.extend added

theorem appends_addMany (names : List RawText) : Appends r (.addMany names) := by
  obtain ⟨added, hadded, heq, -⟩ := r.longestAdmitted_addMany names
  exact ⟨added, hadded.admits, heq⟩

theorem appends_loadSource (text : String) : Appends r (.loadSource text) := by
  cases h : Registry.readSource text with
  | error e => exact ⟨[], r.admits_nil, by simp [apply, Registry.loadSource_of_error h]⟩
  | ok names =>
    obtain ⟨added, hadmits, heq⟩ := appends_addMany r names
    exact ⟨added, hadmits, (Registry.loadSource_of_ok h r).1.trans heq⟩

theorem appends (call : Call) : Appends r call := by
  cases call with
  | add name =>
    by_cases hname : name ∈ r.names
    · exact ⟨[], r.admits_nil, by simp [apply, Registry.add?_of_mem hname]⟩
    · refine ⟨[name], ⟨by simp, by simpa using hname⟩, ?_⟩
      simp [apply, Registry.add?_of_not_mem hname]
  | addMany names => exact appends_addMany r names
  | loadSource text => exact appends_loadSource r text
  | loadFile files path =>
    cases hread : files.readText path with
    | error why => exact ⟨[], r.admits_nil, by simp [apply, Registry.loadFile, hread]⟩
    | ok text =>
      obtain ⟨added, hadmits, heq⟩ := appends_loadSource r text
      refine ⟨added, hadmits, ?_⟩
      rw [← heq]
      simp [apply, Registry.loadFile, hread]

end Call

/-! ## Runs -/

namespace Registry

variable {r : Registry} {names : List RawText}

/-- Every name stands once, and for the capability of that name. -/
structure Sound (r : Registry) : Prop where
  nodup : r.names.Nodup
  named : ∀ p ∈ r.services, p.2.name = p.1

theorem sound_empty : empty.Sound := ⟨List.nodup_nil, by simp [empty]⟩

theorem Sound.extend (h : r.Sound) (hadmits : r.Admits names) : (r.extend names).Sound := by
  constructor
  · rw [names_extend, List.nodup_append]
    refine ⟨h.nodup, hadmits.nodup, ?_⟩
    rintro a ha b hb rfl
    exact hadmits.free a hb ha
  · intro p hp
    rcases List.mem_append.1 hp with hp | hp
    · exact h.named p hp
    · obtain ⟨name, -, rfl⟩ := List.mem_map.1 hp
      rfl

theorem Sound.after (h : r.Sound) (calls : List Call) : (r.after calls).Sound := by
  induction calls generalizing r with
  | nil => exact h
  | cons call calls ih =>
    obtain ⟨added, hadmits, heq⟩ := call.appends r
    have hnext : (call.apply r).Sound := by
      rw [heq]
      exact h.extend hadmits
    exact ih hnext

/-- A registered name stands for the capability of that name. -/
theorem Sound.get?_services (h : r.Sound) {name : RawText} (hname : name ∈ r.names) :
    Ordered.get? name r.services = some { name } := by
  obtain ⟨c, hc⟩ := Option.isSome_iff_exists.1 (Ordered.mem_keys_iff.1 hname)
  obtain rfl : c.name = name := h.named (name, c) (Ordered.mem_of_get? hc)
  exact hc

/-- What a registry holds after any calls, of which any may have failed. Names are distinct, and each
stands for the capability of that name. The next call keeps them, in order, in front of what it adds.
Of a list of names the longest first part without repetition and without names that are taken is
added, and no name is reported as taken exactly if that is the whole list. A source that lists names
is registered as that list, and fails for a repeated name exactly if one is taken. If loading a source
fails for another reason, the registry is as it was. -/
theorem registry_contents (calls : List Call) :
    let r := empty.after calls
    (r.names.Nodup ∧ ∀ name ∈ r.names, Ordered.get? name r.services = some { name }) ∧
    (∀ call : Call, r.names <+: (call.apply r).names) ∧
    (∀ names, ∃ added, r.LongestAdmitted names added ∧
      (r.addMany names).1.names = r.names ++ added ∧
      ((r.addMany names).2 = none ↔ added = names)) ∧
    (∀ (text : String) (names : List RawText), Json.read text = .ok (.arr (names.map .str)) →
      (r.loadSource text).1 = (r.addMany names).1 ∧
      ((r.loadSource text).2.result = .error .repeatedInSource ↔ (r.addMany names).2 ≠ none) ∧
      ((r.loadSource text).2.result = .ok () ↔ (r.addMany names).2 = none)) ∧
    (∀ text e, (r.loadSource text).2.result = .error e → e ≠ .repeatedInSource →
      (r.loadSource text).1 = r) ∧
    ∀ files path e, (r.loadFile files path).2.result = .error e → e ≠ .repeatedInSource →
      (r.loadFile files path).1 = r := by
  intro r
  have hsound : r.Sound := sound_empty.after calls
  refine ⟨⟨hsound.nodup, fun name => hsound.get?_services⟩, ?_, ?_, ?_,
    fun text e => loadSource_unchanged, fun files path e => loadFile_unchanged⟩
  · intro call
    obtain ⟨added, -, heq⟩ := call.appends r
    rw [heq, names_extend]
    exact List.prefix_append _ _
  · intro names
    obtain ⟨added, hadded, heq, hall⟩ := r.longestAdmitted_addMany names
    exact ⟨added, hadded, by rw [heq, names_extend], hall⟩
  · intro text names hread
    obtain ⟨hsame, hresult⟩ := loadSource_of_ok (readSource_of_read hread) r
    by_cases htaken : (r.addMany names).2 = none
    · simp [hsame, hresult, htaken]
    · simp [hsame, hresult, htaken]

end Registry

end SlideFlow.Service
