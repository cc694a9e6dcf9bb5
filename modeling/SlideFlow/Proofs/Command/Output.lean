/-
Where the text of a compiled flow goes. A command line that fails, for whatever reason, leaves every
file as it was and adds none. One that succeeds and names an output file leaves there exactly the
text that the same command line without that argument prints, and no other file is touched
(`compile_writes_all_or_nothing`). That the output file may be one of the files that were read makes
no difference, since all reading comes before the first write.
-/
import SlideFlow.Command.Run
import SlideFlow.Proofs.Command.Arguments
import SlideFlow.Proofs.Compile.Faithful
import SlideFlow.Proofs.Deck.Agreement
import SlideFlow.Proofs.Files.AllOrNothing

namespace SlideFlow.Command

open SlideFlow.Compile SlideFlow.Deck SlideFlow.Files SlideFlow.Flow SlideFlow.Ident SlideFlow.Json
  SlideFlow.Service SlideFlow.Text

variable {settings : Settings} {files : Tree} {least : Nat} {text : Logged Error RawText}

/-! ## Ends of commands -/

theorem files_failure (files : Tree) (report : List String) (e : Error) :
    (failure files report e).files = files ∧ (failure files report e).code = 1 := by
  unfold failure
  split <;> exact ⟨rfl, rfl⟩

/-- Printing touches no file. -/
theorem files_finish (files : Tree) (least : Nat) (text : Logged Error RawText) :
    (finish files least text).files = files := by
  unfold finish
  cases text.result with
  | error e => exact (files_failure ..).1
  | ok s => cases hencode : s.encode? <;> simp [hencode]

/-- A text is printed as it is encoded. -/
theorem finish_of_encode (files : Tree) (least : Nat) {s : RawText} (h : text.result = .ok s)
    {output : String} (hencode : s.encode? = some output) :
    (finish files least text).code = 0 ∧ (finish files least text).output = output := by
  unfold finish
  simp only [h, hencode, and_self]

/-- Nothing is printed of a text that cannot be encoded. -/
theorem finish_of_unencodable (files : Tree) (least : Nat) {s : RawText} (h : text.result = .ok s)
    (hencode : s.encode? = none) :
    (finish files least text).code = 1 ∧ (finish files least text).output = "" := by
  unfold finish
  simp only [h, hencode, and_self]

/-- A text is written to a file as a whole or not at all. -/
theorem deliver_spec (files : Tree) (least : Nat) (path : String) (text : Logged Error RawText) :
    ((deliver files least path text).code ≠ 0 → files.Grown (deliver files least path text).files) ∧
      ((deliver files least path text).code = 0 → ∃ s encoded target, text.result = .ok s ∧
        s.encode? = some encoded ∧ files.Written (Path.ofString path) (.text encoded) target
          (deliver files least path text).files) := by
  unfold deliver
  cases htext : text.result with
  | error e =>
    obtain ⟨hfiles, hcode⟩ := files_failure files (logLines least text.events) e
    simp only [hfiles, hcode]
    exact ⟨fun _ => .refl files, nofun⟩
  | ok s =>
    obtain ⟨hfault, hwritten⟩ := files.writeText_spec path s
    simp only
    split
    · rename_i files' q hwrite
      rw [hwrite] at hwritten
      obtain ⟨encoded, target, hencode, htarget⟩ := hwritten q rfl
      exact ⟨fun h => absurd rfl h, fun _ => ⟨s, encoded, target, rfl, hencode, htarget⟩⟩
    · rename_i files' fault hwrite
      rw [hwrite] at hfault
      split <;> exact ⟨fun _ => hfault _ rfl, nofun⟩

/-- A text that can be encoded is written where a file can be. -/
theorem deliver_of_writable {s : RawText} (h : text.result = .ok s) (hencode : s.encode? ≠ none)
    {path : String} (hwritable : files.Writable Tree.spareName (Path.ofString path)) :
    (deliver files least path text).code = 0 := by
  have hwrites := hwritable.writes Tree.sparing_spareName s
  rw [if_neg hencode] at hwrites
  unfold deliver Tree.writeText
  simp only [h]
  split
  · rfl
  · rename_i hfails
    rw [hfails] at hwrites
    cases hwrites

/-! ## What a command compiles -/

variable {σ : Type} [Source σ]

/-- A command with these arguments compiles these activities, with these options and with the
identifiers of this pool. -/
structure Compiles (platform : Platform σ) (settings : Settings) (spare : Int) (files : Tree)
    (document : Opened) (services directory : String) (policy : Policy) (seed : Option Int)
    (options : Options) (pool : Pool σ) (activities : List Activity) : Prop where
  loaded : ∃ registry d, (Registry.ofFile files services).result = .ok registry ∧
    document = .ok d ∧ (loadActivities registry d).result = .ok activities
  options : options = wishedOptions settings (some directory) (some policy)
  pool : pool = wishedPool platform.pool settings seed spare

theorem Compiles.result_flowText {platform : Platform σ} {spare : Int} {document : Opened}
    {services directory : String} {policy : Policy} {seed : Option Int} {options : Options}
    {pool : Pool σ} {activities : List Activity} {nodes : List (Node String)}
    (h : Compiles platform settings spare files document services directory policy seed options pool
      activities)
    (hcompile : (Compile.compile options files pool activities).result = .ok nodes) :
    (flowText platform.pool settings spare files services directory policy seed document).result =
      .ok ((flowJson nodes).page ++ "\n") := by
  obtain ⟨⟨registry, d, hregistry, rfl, hload⟩, rfl, rfl⟩ := h
  have hdocument := result_compileFrom platform.pool hload settings (some directory) (some policy) seed
    spare files
  rw [hcompile] at hdocument
  unfold flowText
  rw [Logged.result_bind, Logged.result_mapError, hregistry]
  show (compileFrom platform.pool settings _ spare files registry (.ok d) >>= _).result = _
  rw [Logged.result_bind]
  show ((compileFrom platform.pool settings ⟨some directory, (some policy).map Policy.name, seed⟩ spare
    files registry (.ok d)).result >>= _) = _
  rw [hdocument]
  rfl

/-! ## Command lines -/

variable {platform : Platform σ} {spare : Int} {input : Content} {name services directory : String}
variable {policy : Policy} {seed : Option Int} {verbose : Bool}

/-- Without an output file the text is printed. -/
theorem run_compile_printed {output : Option String} (h : output ∈ [none, some standardStream]) :
    run platform settings spare files input
        (.compile name output services directory policy seed verbose) =
      finish files (leastRank settings verbose) (flowText platform.pool settings spare files services
        directory policy seed (source files input name)) := by
  simp only [List.mem_cons, List.not_mem_nil, or_false] at h
  rcases h with rfl | rfl
  · rfl
  · unfold run
    exact if_pos rfl

/-- With an output file the text is written there. -/
theorem run_compile_delivered {path : String} (h : path ≠ standardStream) :
    run platform settings spare files input
        (.compile name (some path) services directory policy seed verbose) =
      deliver files (leastRank settings verbose) path (flowText platform.pool settings spare files
        services directory policy seed (source files input name)) :=
  if_neg h

theorem runLine_of_read {args : List String} {command : Command}
    (h : read platform.integer? settings args = .ok command) :
    runLine platform settings spare files input args =
      run platform settings spare files input command := by
  unfold runLine
  rw [h]

/-- A command that fails changes no file. -/
theorem grown_run (platform : Platform σ) (settings : Settings) (spare : Int) (files : Tree)
    (input : Content) (command : Command)
    (h : (run platform settings spare files input command).code ≠ 0) :
    files.Grown (run platform settings spare files input command).files := by
  cases command with
  | compile name output services directory policy seed verbose =>
    by_cases houtput : output ∈ [none, some standardStream]
    · rw [run_compile_printed houtput, files_finish]
      exact .refl files
    · simp only [List.mem_cons, List.not_mem_nil, or_false, not_or] at houtput
      obtain ⟨path, rfl⟩ := Option.ne_none_iff_exists'.1 houtput.1
      have hpath : path ≠ standardStream := fun heq => houtput.2 (congrArg some heq)
      rw [run_compile_delivered hpath] at h ⊢
      exact (deliver_spec ..).1 h
  | inspect name services verbose =>
    unfold run
    rw [files_finish]
    exact .refl files
  | simulate name calls session =>
    unfold run
    rw [files_finish]
    exact .refl files

theorem grown_runLine {platform : Platform σ} {settings : Settings} {spare : Int} {files : Tree}
    {input : Content} {args : List String}
    (h : (runLine platform settings spare files input args).code ≠ 0) :
    files.Grown (runLine platform settings spare files input args).files := by
  unfold runLine at h ⊢
  cases hread : read platform.integer? settings args with
  | error refusal =>
    cases refusal with
    | help => exact .refl files
    | usage => exact .refl files
  | ok command =>
    rw [hread] at h
    exact grown_run platform settings spare files input command h

/-- The text of a flow does not depend on the spare seed if there is a seed. -/
theorem flowText_seed (pools : Int → Pool σ) (settings : Settings) (spare spare' : Int) (files : Tree)
    (services directory : String) (policy : Policy) (seed : Int) (document : Opened) :
    flowText pools settings spare files services directory policy (some seed) document =
      flowText pools settings spare' files services directory policy (some seed) document := rfl

/-- Compiling on the command line writes all or nothing, and the same text everywhere, however
whole-number options are read and wherever identifiers come from. If it fails, the files are the same as
before. If it succeeds with an output file, what is there is what the same command line without that
argument prints, and the other files are the same as before. -/
theorem compile_writes_all_or_nothing (platform : Platform σ) (settings : Settings) (spare : Int)
    (files : Tree) (input : Content) (args : List String) :
    let outcome := runLine platform settings spare files input args
    (outcome.code ≠ 0 → ∀ place content,
      outcome.files.get? place = some (.file content) ↔ files.get? place = some (.file content)) ∧
    ∀ (name path services directory : String) (policy : Policy) (seed : Int) (verbose : Bool),
      read platform.integer? settings args =
          .ok (.compile name (some path) services directory policy (some seed) verbose) →
        path ≠ standardStream → outcome.code = 0 →
      ∃ before after, args = before ++ path :: after ∧
        read platform.integer? settings (before ++ after) =
          .ok (.compile name none services directory policy (some seed) verbose) ∧
        ∃ text target, files.Written (Path.ofString path) (.text text) target outcome.files ∧
          ∀ spare', (runLine platform settings spare' files input (before ++ after)).code = 0 ∧
            (runLine platform settings spare' files input (before ++ after)).output = text := by
  intro outcome
  refine ⟨fun hcode place content => (grown_runLine hcode).file_iff place content, ?_⟩
  intro name path services directory policy seed verbose hread hpath hcode
  obtain ⟨before, after, hargs, hwithout⟩ := read_without_output hread
  have hrun : outcome = deliver files (leastRank settings verbose) path (flowText platform.pool
      settings spare files services directory policy (some seed) (source files input name)) :=
    (runLine_of_read hread).trans (run_compile_delivered hpath)
  rw [hrun] at hcode
  obtain ⟨text, encoded, target, htext, hencode, hwritten⟩ := (deliver_spec ..).2 hcode
  refine ⟨before, after, hargs, hwithout, encoded, target, hrun ▸ hwritten, fun spare' => ?_⟩
  rw [runLine_of_read hwithout, run_compile_printed (by simp)]
  exact finish_of_encode files _ (flowText_seed platform.pool settings spare spare' .. ▸ htext) hencode

/-- A directory with nothing but a list of services, and that is empty. -/
def bareFiles : Tree where
  workingPathBytes := 16
  entries := [(["services.json"], .file (.text "[]"))]

/-- Identifiers for the lamp, whatever the seed is. -/
def lampPlatform : Platform Twister where
  integer? := Number.readWhole?
  pool _ := lampPool

/-- A presentation without slides that comes as input is compiled. -/
theorem bareFiles_compiles :
    Compiles lampPlatform .defaults 0 bareFiles (source bareFiles (.deck (.ok [])) standardStream)
      "services.json" "services" .perBranch (some 7) lampOptions lampPool [] ∧
    ∃ nodes, (Compile.compile lampOptions bareFiles lampPool []).result = .ok nodes := by
  refine ⟨⟨⟨.empty, [], rfl, if_pos rfl, rfl⟩, rfl, rfl⟩, ?_⟩
  have hplan : ((lampOptions.library bareFiles).plan []).result = .ok [] := rfl
  obtain ⟨drawn, hdrawn⟩ := Option.isSome_iff_exists.1
    (by decide +kernel : (lampPool.nexts (activitiesSize [] + 6)).isSome = true)
  rw [result_compile, hplan]
  simp only [bind, Except.bind, hdrawn]
  exact ⟨_, rfl⟩

/-- Compiling that presentation on these files. -/
def bareRun (output : Option String) : Outcome :=
  run lampPlatform .defaults 0 bareFiles (.deck (.ok []))
    (.compile standardStream output "services.json" "services" .perBranch (some 7) false)

/-- A command line with that presentation as input. -/
def bareLine (args : List String) : Outcome :=
  runLine lampPlatform .defaults 0 bareFiles (.deck (.ok [])) args

/-- Its flow can be written to a new file. -/
theorem code_bareRun : (bareRun (some "flow.json")).code = 0 := by
  obtain ⟨hcompiles, nodes, hnodes⟩ := bareFiles_compiles
  have hwhole : Whole (flowJson nodes) := whole_flowJson hnodes fun _ hb => absurd hb List.not_mem_nil
  have hwritable : bareFiles.Writable Tree.spareName (Path.ofString "flow.json") :=
    ((Tree.writes_iff Tree.sparing_spareName bareFiles "flow.json" "").1 rfl).1
  rw [bareRun, run_compile_delivered (by decide)]
  exact deliver_of_writable (hcompiles.result_flowText hnodes) ((encode?_page_iff _).2 hwhole) hwritable

/-- The flow of a presentation without slides is written into a new file, as it is printed without that
argument. With a list of services that is not there, no file is written. -/
theorem compile_writes_all_or_nothing_bareFiles :
    ((bareLine ["compile", "-", "flow.json", "--seed", "7"]).code = 0 ∧ ∃ text target,
      bareFiles.Written (Path.ofString "flow.json") (.text text) target
        (bareLine ["compile", "-", "flow.json", "--seed", "7"]).files ∧
      ∃ before after, ["compile", "-", "flow.json", "--seed", "7"] = before ++ "flow.json" :: after ∧
        (bareLine (before ++ after)).code = 0 ∧ (bareLine (before ++ after)).output = text) ∧
    (bareLine ["compile", "-", "flow.json", "--seed", "7", "-s", "none.json"]).code = 1 ∧
    ∀ place content, bareFiles.get? place = some (.file content) ↔
      (bareLine ["compile", "-", "flow.json", "--seed", "7", "-s", "none.json"]).files.get? place =
        some (.file content) := by
  have hread : read lampPlatform.integer? .defaults ["compile", "-", "flow.json", "--seed", "7"] =
      .ok (.compile standardStream (some "flow.json") "services.json" "services" .perBranch (some 7)
        false) := rfl
  have hcode : (bareLine ["compile", "-", "flow.json", "--seed", "7"]).code = 0 := by
    rw [bareLine, runLine_of_read hread]
    exact code_bareRun
  have hfailed : (bareLine ["compile", "-", "flow.json", "--seed", "7", "-s", "none.json"]).code = 1 := by
    decide +kernel
  obtain ⟨-, hsucceeds⟩ := compile_writes_all_or_nothing lampPlatform .defaults 0 bareFiles
    (.deck (.ok [])) ["compile", "-", "flow.json", "--seed", "7"]
  obtain ⟨before, after, hargs, -, text, target, hwritten, hprinted⟩ :=
    hsucceeds _ _ _ _ _ _ _ hread (by decide) hcode
  obtain ⟨hfails, -⟩ := compile_writes_all_or_nothing lampPlatform .defaults 0 bareFiles
    (.deck (.ok [])) ["compile", "-", "flow.json", "--seed", "7", "-s", "none.json"]
  refine ⟨⟨hcode, text, target, hwritten, before, after, hargs, hprinted 0⟩, hfailed, ?_⟩
  intro place content
  exact (hfails (by rw [bareLine] at hfailed; omega) place content).symm

end SlideFlow.Command
