/-
What a flow depends on. Beside the activities, a plan depends on which branches its groups have and on
the fragments that are loaded for these branches (`Library.plan_congr`).

So of all files only the fragments of bound animations matter (`compile_reads_needed_fragments`), with
one exception: the fragment of a service whose name is too long for a file is missed in one way where
its directory is, and in another where it is not. And the two policies differ on mixed steps only,
those that hold a bound animation with another effect than their first one
(`policies_differ_on_mixed_steps`).
-/
import SlideFlow.Proofs.Compile.Outcome
import SlideFlow.Proofs.Files.Reading

namespace SlideFlow.Compile

open SlideFlow.Deck SlideFlow.Files SlideFlow.Flow SlideFlow.Fragment SlideFlow.Ident
open SlideFlow.Service SlideFlow.Timeline

/-! ## Plans of two libraries -/

namespace Library

variable {lib lib' : Library} {bindings : Bindings} {step : Step}

/-- Two libraries come to the same for a step: the groups have the same branches, and each branch gets
the same fragment or fails in the same way. -/
def SameFor (lib lib' : Library) (bindings : Bindings) (step : Step) : Prop :=
  ∀ g ∈ step,
    branches bindings (lib.policy.stepRole step) g = branches bindings (lib'.policy.stepRole step) g ∧
    ∀ b ∈ branches bindings (lib.policy.stepRole step) g, lib.branchPlan b = lib'.branchPlan b

theorem branchPlan_congr {b : Branch} (h : loadFor lib.files lib.directory b.service b.role =
    loadFor lib'.files lib'.directory b.service b.role) : lib.branchPlan b = lib'.branchPlan b := by
  unfold branchPlan
  rw [h]

theorem stepPlan_congr (h : lib.SameFor lib' bindings step) (index : Nat) :
    lib.stepPlan bindings index step = lib'.stepPlan bindings index step := by
  have hgroup : ∀ g ∈ step.reverse, lib.groupPlan bindings (lib.policy.stepRole step) g =
      lib'.groupPlan bindings (lib'.policy.stepRole step) g := by
    intro g hg
    obtain ⟨hbranches, hplans⟩ := h g (List.mem_reverse.1 hg)
    unfold groupPlan
    rw [← hbranches, mapM_congr_of_mem hplans]
  unfold stepPlan
  rw [mapM_congr_of_mem hgroup]

theorem activityPlan_congr {a : Activity}
    (h : ∀ step ∈ a.timing.walk.steps, lib.SameFor lib' a.bindings step) :
    lib.activityPlan a = lib'.activityPlan a := by
  unfold activityPlan
  cases hwalk : a.steps.result with
  | error e => rfl
  | ok walked =>
    obtain ⟨-, rfl⟩ := steps_eq_ok_iff.1 hwalk
    have hsteps : ∀ p ∈ a.timing.walk.steps.mapIdx fun i step => (i + 1, step),
        lib.stepPlan a.bindings p.1 p.2 = lib'.stepPlan a.bindings p.1 p.2 := by
      intro p hp
      obtain ⟨i, hi, rfl⟩ := List.mem_mapIdx.1 hp
      exact stepPlan_congr (h _ (List.getElem_mem hi)) _
    have hpure : Logged.ofExcept (.ok a.timing.walk.steps) =
        (pure a.timing.walk.steps : Logged Error (List Step)) := rfl
    rw [hpure, pure_bind, pure_bind]
    show ((a.timing.walk.steps.mapIdx fun i step => (i + 1, step)).mapM fun p =>
      lib.stepPlan a.bindings p.1 p.2) >>= (fun steps => pure (ActivityPlan.mk a.index steps)) = _
    rw [mapM_congr_of_mem hsteps]

/-- Libraries that come to the same for every step make the same plans, with the same events. -/
theorem plan_congr {activities : List Activity}
    (h : ∀ a ∈ activities, ∀ step ∈ a.timing.walk.steps, lib.SameFor lib' a.bindings step) :
    lib.plan activities = lib'.plan activities := by
  unfold plan
  rw [mapM_congr_of_mem fun a ha => activityPlan_congr (h a ha)]

end Library

variable {σ : Type} [Source σ]

/-- Flows are the same if their plans are and they are entered in the same way. -/
theorem compile_congr {options options' : Options} {files files' : Tree} {activities : List Activity}
    (hroute : options.route = options'.route) (hmethod : options.method = options'.method)
    (hplan : (options.library files).plan activities = (options'.library files').plan activities)
    (pool : Pool σ) :
    compile options files pool activities = compile options' files' pool activities := by
  show ((options.library files).plan activities >>= fun _ => _) =
    (options'.library files').plan activities >>= fun _ => _
  rw [hplan, hroute, hmethod]

/-! ## Files -/

/-- The path of a fragment reads as it is written. -/
theorem ofString_location (directory service : String) (role : Role) :
    Path.ofString (location directory service role).toString = location directory service role :=
  Path.ofString_toString ((Path.clean_ofString _).join (Path.clean_ofString _))

/-- A fragment is loaded alike from trees that agree at its path. -/
theorem loadFor_congr {files files' : Tree} {directory service : String} {role : Role}
    (h : files.Agree files' (location directory service role)) :
    loadFor files directory service role = loadFor files' directory service role := by
  rw [← ofString_location] at h
  unfold loadFor load
  simp only [Tree.readJson_congr h]

theorem loadFor_unreadable {files : Tree} {directory service : String} {role : Role}
    {why : ReadFault} (h : files.readText (location directory service role).toString = .error why) :
    (loadFor files directory service role).result =
      .error (.unreadable (location directory service role).toString why) := by
  have hjson : files.readJson (location directory service role).toString = .error why := by
    unfold Tree.readJson
    rw [h]
    rfl
  unfold loadFor load
  simp only [hjson]
  rfl

/-- A path at which the fragment of a bound animation is kept. -/
def Options.Needs (options : Options) (activities : List Activity) (p : Path) : Prop :=
  ∃ a ∈ activities, ∃ step ∈ a.timing.walk.steps, ∃ g ∈ step, ∃ x ∈ g, ∃ service,
    Ordered.get? x.shape a.bindings = some service ∧
      p = location options.directory service (options.policy.role step x)

theorem plan_congr_files {options : Options} {files files' : Tree} {activities : List Activity}
    (h : ∀ p, options.Needs activities p → files.Agree files' p) :
    (options.library files).plan activities = (options.library files').plan activities := by
  refine Library.plan_congr fun a ha step hstep g hg => ⟨rfl, fun b hb => ?_⟩
  obtain ⟨x, hx, hb⟩ := List.mem_filterMap.1 hb
  obtain ⟨service, hservice, rfl⟩ := Option.map_eq_some_iff.1 hb
  refine Library.branchPlan_congr (loadFor_congr (h _ ?_))
  exact ⟨a, ha, step, hstep, g, hg, x, hx, service, hservice, rfl⟩

/-- Only the fragments of bound animations are read. Compiling gives the same flow or the same error,
with the same events, for any two trees that agree at their paths. In particular a file that is
written in place of no directory has no influence, unless the path of such a fragment leads there. -/
theorem compile_reads_needed_fragments (options : Options) (files : Tree) (pool : Pool σ)
    (activities : List Activity) :
    (∀ files', (∀ p, options.Needs activities p → files.Agree files' p) →
      compile options files pool activities = compile options files' pool activities) ∧
    ∀ place content, files.isDirectory place = false →
      (∀ p, options.Needs activities p → files.locate p ≠ .ok place) →
        compile options (files.put place (.file content)) pool activities =
          compile options files pool activities := by
  constructor
  · intro files' h
    exact compile_congr rfl rfl (plan_congr_files h) pool
  · intro place content hplace hneeds
    refine compile_congr rfl rfl (plan_congr_files fun p hp => ?_) pool
    exact Tree.agree_put_file hplace (hneeds p hp) content

/-- A needed path is where a load looks. -/
theorem Options.Needs.exists_load {options : Options} {activities : List Activity} {p : Path}
    (h : options.Needs activities p) (files : Tree) :
    ∃ b ∈ (options.library files).loads activities,
      p = location options.directory b.service b.role := by
  obtain ⟨a, ha, step, hstep, g, hg, x, hx, service, hservice, rfl⟩ := h
  have hb := (options.library files).mem_stepLoads.2 ⟨g, hg, x, hx, service, hservice, rfl⟩
  exact ⟨_, Library.mem_loads.2 ⟨a, ha, step, hstep, hb⟩, rfl⟩

/-- The lamp is never switched off, so a file for that may hold anything. -/
theorem compile_reads_needed_fragments_lampDeck : ∃ nodes,
    (compile lampOptions lampFiles lampPool lampDeck).result = .ok nodes ∧
    (compile lampOptions (lampFiles.put ["services", "lamp-deactivation.json"]
      (.file (.text "no fragment"))) lampPool lampDeck).result = .ok nodes := by
  have hlocate : ∀ b ∈ (lampOptions.library lampFiles).loads lampDeck,
      lampFiles.locate (location lampOptions.directory b.service b.role) ≠
        .ok ["services", "lamp-deactivation.json"] := by decide +kernel
  have hneeds : ∀ p, lampOptions.Needs lampDeck p →
      lampFiles.locate p ≠ .ok ["services", "lamp-deactivation.json"] := by
    intro p hp
    obtain ⟨b, hb, rfl⟩ := hp.exists_load lampFiles
    exact hlocate b hb
  obtain ⟨nodes, hnodes⟩ := lampDeck_compiles
  refine ⟨nodes, hnodes, ?_⟩
  rw [(compile_reads_needed_fragments lampOptions lampFiles lampPool lampDeck).2 _ _
    (by decide +kernel) hneeds]
  exact hnodes

/-! ### A service whose name is too long for a file

Its fragment is in no file. Without the directory of the fragments it is missing; with the directory,
which holds nothing but the fragment of another service, its name is refused. -/

/-- A name of so many letters. -/
def letters (n : Nat) : String := String.ofList (List.replicate n 'a')

theorem mem_letters {n : Nat} {c : Char} (h : c ∈ (letters n).toList) : c = 'a' := by
  rw [letters, String.toList_ofList] at h
  exact List.eq_of_mem_replicate h

theorem utf8ByteSize_letters (n : Nat) : (letters n).utf8ByteSize = n := by
  induction n with
  | zero => rfl
  | succ n ih =>
    unfold letters at ih ⊢
    rw [List.replicate_succ, String.ofList_cons, String.utf8ByteSize_append, ih]
    have hone : (String.singleton 'a').utf8ByteSize = 1 := rfl
    omega

/-- One click starts a service. -/
def serviceDeck (service : String) : List Activity :=
  [{ index := 1
     timing := .given [[[⟨2, .entrance, none⟩]]]
     bindings := [(2, service)]
     transition := none
     title := "" }]

/-- The fragment of the bell alone. -/
def bellFiles : Tree where
  workingPathBytes := 16
  entries := [(["services"], .directory),
    (["services", "bell-activation.json"], .file (.text bellFragment))]

theorem needs_serviceDeck {service : String} {p : Path}
    (h : lampOptions.Needs (serviceDeck service) p) :
    p = location "services" service .activation := by
  obtain ⟨a, ha, step, hstep, g, hg, x, hx, name, hname, rfl⟩ := h
  obtain rfl := List.mem_singleton.1 ha
  obtain rfl := List.mem_singleton.1 hstep
  obtain rfl := List.mem_singleton.1 hg
  obtain rfl := List.mem_singleton.1 hx
  cases hname
  rfl

/-- Compiling fails if the one fragment cannot be read. -/
theorem compile_serviceDeck {files : Tree} {service : String} {why : ReadFault}
    (h : files.readText (location "services" service .activation).toString = .error why) :
    (compile lampOptions files lampPool (serviceDeck service)).result =
      .error (.fragment (.unreadable (location "services" service .activation).toString why)) := by
  have hload : (lampOptions.library files).load ⟨2, service, .activation⟩ =
      .error (.unreadable (location "services" service .activation).toString why) :=
    loadFor_unreadable h
  have hloads : (lampOptions.library files).loads (serviceDeck service) =
      [⟨2, service, .activation⟩] := rfl
  have hplan := (lampOptions.library files).failure?_plan (serviceDeck service)
  rw [hloads, List.findSome?_cons, Library.fault?, hload] at hplan
  rw [result_compile, failure?_eq_some_iff.1 hplan]
  rfl

/-- The fragment of a service with so many letters is looked for in vain in every tree. -/
theorem locate_letters {n : Nat} (hlong : 240 ≤ n) (hfits : n ≤ 4000) (t : Tree) :
    t.locate (location "services" (letters n) .activation) =
      match t.get? ["services"] with
      | none => .error .missing
      | some (.file _) => .error .notDirectory
      | some .directory => .error .nameTooLong := by
  have hstem : fileStem (letters n) .activation ++ ".json" = letters n ++ "-activation.json" := by
    show letters n ++ "-" ++ "activation" ++ ".json" = _
    rw [String.append_assoc, String.append_assoc]
    rfl
  have hsize : (letters n ++ "-activation.json").utf8ByteSize = n + 16 := by
    rw [String.utf8ByteSize_append, utf8ByteSize_letters]
    rfl
  have hletters : ∀ c ∉ "a-activation.json".toList, c ∉ (letters n ++ "-activation.json").toList := by
    intro c hc h
    rw [String.toList_append, List.mem_append] at h
    rcases h with h | h
    · obtain rfl := mem_letters h
      exact hc (by decide)
    · exact hc (List.mem_cons_of_mem _ h)
  have hname : Path.ofString (letters n ++ "-activation.json") =
      ⟨"", [letters n ++ "-activation.json"]⟩ := by
    refine Path.ofString_name (hletters '/' (by decide)) (fun h => ?_) (fun h => ?_)
    · rw [h, String.utf8ByteSize_empty] at hsize
      omega
    · have hone : ".".utf8ByteSize = 1 := rfl
      rw [h, hone] at hsize
      omega
  have hlocation : location "services" (letters n) .activation =
      ⟨"", ["services", letters n ++ "-activation.json"]⟩ := by
    unfold location
    rw [hstem, hname]
    rfl
  have hservices : "services".utf8ByteSize = 8 := rfl
  rw [hlocation]
  refine t.locate_long (by decide) (by decide) ⟨by decide, hletters _ (by decide)⟩ ?_ ?_
  · rw [hsize, Tree.maxNameBytes]
    omega
  · rw [hsize, hservices, Tree.maxPathBytes]
    omega

/-- The two ways in which such a fragment is missed are told apart. -/
theorem message_missing_ne (path shown : String) :
    (Error.fragment (.unreadable path (.missing path))).message ≠
      (Error.fragment (.unreadable path (.nameTooLong shown))).message := by
  have hmessage : ∀ why, (Error.fragment (.unreadable path why)).message =
      ("Cannot load flow fragment " ++ path ++ ": ") ++ why.message := fun why => rfl
  have hmissing : (ReadFault.missing path).message = "Missing file: " ++ path := rfl
  have hlong : (ReadFault.nameTooLong shown).message =
    "[Errno 36] File name too long: " ++ Text.quoted shown := rfl
  rw [hmessage, hmessage]
  intro h
  have hheads := congrArg (·.toList.head?) ((String.append_right_inj _).1 h)
  rw [hmissing, hlong] at hheads
  simp at hheads

theorem compile_letters {n : Nat} (hlong : 240 ≤ n) (hfits : n ≤ 4000) : ∃ path shown,
    (∀ p, lampOptions.Needs (serviceDeck (letters n)) p →
      Tree.empty.file? p = none ∧ bellFiles.file? p = none) ∧
    (compile lampOptions .empty lampPool (serviceDeck (letters n))).result =
      .error (.fragment (.unreadable path (.missing path))) ∧
    (compile lampOptions bellFiles lampPool (serviceDeck (letters n))).result =
      .error (.fragment (.unreadable path (.nameTooLong shown))) := by
  have hempty : Tree.empty.locate (location "services" (letters n) .activation) =
    .error .missing := locate_letters hlong hfits .empty
  have hbell : bellFiles.locate (location "services" (letters n) .activation) =
    .error .nameTooLong := locate_letters hlong hfits bellFiles
  refine ⟨_, _, fun p hp => ?_, compile_serviceDeck ?_,
    compile_serviceDeck (Tree.readText_of_refuses ?_)⟩
  · obtain rfl := needs_serviceDeck hp
    unfold Tree.file? Tree.at?
    rw [hempty, hbell]
    exact ⟨rfl, rfl⟩
  · unfold Tree.readText
    simp only [ofString_location, hempty]
  · rw [ofString_location]
    exact hbell

/-- Presence and content of the needed files are not enough: two trees that do not have the one file
that is needed lead to errors with different messages. They differ in a file that is not needed, and
in its directory. -/
theorem unused_file_changes_message : ∃ e e',
    (∀ p, lampOptions.Needs (serviceDeck (letters 240)) p → Tree.empty.file? p = bellFiles.file? p) ∧
    (compile lampOptions .empty lampPool (serviceDeck (letters 240))).result = .error e ∧
    (compile lampOptions bellFiles lampPool (serviceDeck (letters 240))).result = .error e' ∧
    e.message ≠ e'.message := by
  obtain ⟨path, shown, hfile, hempty, hbell⟩ := compile_letters (n := 240) (by decide) (by decide)
  refine ⟨_, _, fun p hp => ?_, hempty, hbell, message_missing_ne path shown⟩
  obtain ⟨hnone, hnone'⟩ := hfile p hp
  rw [hnone, hnone']

/-! ## Policies -/

/-- The options under another policy. -/
def Options.under (options : Options) (policy : Policy) : Options := { options with policy }

/-- In every step of an activity the bound animations have the effect of the first animation. -/
def Unmixed (a : Activity) : Prop :=
  ∀ step ∈ a.timing.walk.steps, ∀ g ∈ step, ∀ x ∈ g, (Ordered.get? x.shape a.bindings).isSome = true →
    step.flatten.head?.map (·.effect) = some x.effect

theorem ofEffect_injective : Function.Injective Role.ofEffect := by
  intro e e' h
  cases e <;> cases e' <;> first | rfl | cases h

/-- The two policies choose the same role for an animation exactly if the first animation of its step
has the same effect. -/
theorem role_perStep_eq_iff {step : Step} {g : Group} {x : Animation} (hg : g ∈ step) (hx : x ∈ g) :
    Policy.perStep.role step x = Policy.perBranch.role step x ↔
      step.flatten.head?.map (·.effect) = some x.effect := by
  have hmem : x ∈ step.flatten := List.mem_flatten.2 ⟨g, hg, hx⟩
  unfold Policy.role Policy.stepRole
  cases hfirst : step.flatten with
  | nil => rw [hfirst] at hmem; cases hmem
  | cons first rest =>
    simp only [List.head?_cons, Option.map_some, Option.getD_some, Option.getD_none,
      Option.some.injEq]
    exact ofEffect_injective.eq_iff

/-- The animations that a service is bound to, in the order in which their fragments are loaded, each
with its step and its service. -/
def boundAnimations (activities : List Activity) : List (Step × Animation × String) :=
  activities.flatMap fun a => a.timing.walk.steps.flatMap fun step => step.reverse.flatMap fun g =>
    g.filterMap fun x => (Ordered.get? x.shape a.bindings).map fun service => (step, x, service)

theorem Library.loads_eq_map (lib : Library) (activities : List Activity) :
    lib.loads activities = (boundAnimations activities).map fun bound =>
      { shape := bound.2.1.shape, service := bound.2.2,
        role := lib.policy.role bound.1 bound.2.1 } := by
  simp only [loads, boundAnimations, Policy.role, List.map_flatMap, List.map_filterMap,
    Option.map_map]
  rfl

theorem mem_boundAnimations {activities : List Activity} {step : Step} {x : Animation}
    {service : String} : (step, x, service) ∈ boundAnimations activities ↔
      ∃ a ∈ activities, step ∈ a.timing.walk.steps ∧ ∃ g ∈ step, x ∈ g ∧
        Ordered.get? x.shape a.bindings = some service := by
  simp only [boundAnimations, List.mem_flatMap, List.mem_filterMap, List.mem_reverse,
    Option.map_eq_some_iff, Prod.mk.injEq]
  constructor
  · rintro ⟨a, ha, step, hstep, g, hg, x, hx, service, hservice, rfl, rfl, rfl⟩
    exact ⟨a, ha, hstep, g, hg, hx, hservice⟩
  · rintro ⟨a, ha, hstep, g, hg, hx, hservice⟩
    exact ⟨a, ha, step, hstep, g, hg, x, hx, service, hservice, rfl, rfl, rfl⟩

/-- Without mixed steps the groups of a step have the same branches under both policies. -/
theorem Unmixed.branches_eq {a : Activity} (h : Unmixed a) {step : Step}
    (hstep : step ∈ a.timing.walk.steps) {g : Group} (hg : g ∈ step) :
    branches a.bindings (Policy.perStep.stepRole step) g =
      branches a.bindings (Policy.perBranch.stepRole step) g := by
  refine List.filterMap_congr fun x hx => ?_
  unfold branchOf
  cases hservice : Ordered.get? x.shape a.bindings with
  | none => rfl
  | some service =>
    have hrole := (role_perStep_eq_iff hg hx).2 (h step hstep g hg x hx (by rw [hservice]; rfl))
    unfold Policy.role at hrole
    rw [Option.map_some, Option.map_some, hrole]

/-- Without mixed steps the two policies come to the same for every step. -/
theorem Unmixed.sameFor {a : Activity} (h : Unmixed a) {step : Step}
    (hstep : step ∈ a.timing.walk.steps) (options : Options) (files : Tree) :
    ((options.under .perStep).library files).SameFor ((options.under .perBranch).library files)
      a.bindings step := by
  intro g hg
  exact ⟨h.branches_eq hstep hg, fun b _ => Library.branchPlan_congr rfl⟩

/-- The two policies differ on mixed steps only. They choose the same fragments exactly if no activity
has a mixed step, and then compiling under them gives the same flow, identifiers included, or the same
error. -/
theorem policies_differ_on_mixed_steps (options : Options) (files : Tree) (pool : Pool σ)
    (activities : List Activity) :
    (((options.under .perStep).library files).loads activities =
        ((options.under .perBranch).library files).loads activities ↔
      ∀ a ∈ activities, Unmixed a) ∧
    ((∀ a ∈ activities, Unmixed a) →
      compile (options.under .perStep) files pool activities =
        compile (options.under .perBranch) files pool activities) := by
  constructor
  · rw [Library.loads_eq_map, Library.loads_eq_map, List.map_inj_left]
    constructor
    · intro h a ha step hstep g hg x hx hbound
      obtain ⟨service, hservice⟩ := Option.isSome_iff_exists.1 hbound
      have hroles := h (step, x, service)
        (mem_boundAnimations.2 ⟨a, ha, hstep, g, hg, hx, hservice⟩)
      exact (role_perStep_eq_iff hg hx).1 (congrArg Branch.role hroles)
    · rintro h ⟨step, x, service⟩ hbound
      obtain ⟨a, ha, hstep, g, hg, hx, hservice⟩ := mem_boundAnimations.1 hbound
      have heffect := h a ha step hstep g hg x hx (by rw [hservice]; rfl)
      exact congrArg (Branch.mk x.shape service) ((role_perStep_eq_iff hg hx).2 heffect)
  · intro h
    have hplan : ((options.under .perStep).library files).plan activities =
        ((options.under .perBranch).library files).plan activities :=
      Library.plan_congr fun a ha step hstep => (h a ha).sameFor hstep options files
    have hroute : (options.under .perStep).route = (options.under .perBranch).route := rfl
    have hmethod : (options.under .perStep).method = (options.under .perBranch).method := rfl
    exact compile_congr hroute hmethod hplan pool

/-- A step that begins with an empty group and an animation without a service. One more animation has
another effect, and no service either. -/
def bellDeck : List Activity :=
  [{ index := 1
     timing := .given [[[], [⟨5, .entrance, none⟩], [⟨8, .exit, none⟩, ⟨3, .entrance, none⟩]]]
     bindings := [(3, "bell")]
     transition := none
     title := "" }]

theorem policies_differ_on_mixed_steps_bellDeck : (∀ a ∈ bellDeck, Unmixed a) ∧
    ∃ nodes, (compile (lampOptions.under .perStep) bellFiles lampPool bellDeck).result = .ok nodes ∧
      (compile (lampOptions.under .perBranch) bellFiles lampPool bellDeck).result = .ok nodes := by
  have hunmixed : ∀ a ∈ bellDeck, Unmixed a := by unfold Unmixed; decide +kernel
  have hcompiles : (compile (lampOptions.under .perBranch) bellFiles lampPool bellDeck).result.isOk =
    true := by decide +kernel
  refine ⟨hunmixed, ?_⟩
  rw [(policies_differ_on_mixed_steps lampOptions bellFiles lampPool bellDeck).2 hunmixed]
  cases hnodes : (compile (lampOptions.under .perBranch) bellFiles lampPool bellDeck).result with
  | error e => rw [hnodes] at hcompiles; cases hcompiles
  | ok nodes => exact ⟨nodes, rfl, rfl⟩

end SlideFlow.Compile
