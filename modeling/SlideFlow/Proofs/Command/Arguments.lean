/-
Command lines with an argument taken out. What is sorted out of the arguments so far only stands in
front of what is sorted out of the rest (`sortOut_eq`), so the last positional argument can be taken
out of a command line without any change to its options (`sortOut_without_last`). For a command line
that names an output file this gives the same command without one (`read_without_output`).
-/
import SlideFlow.Command.Basic
import SlideFlow.Proofs.Traverse

namespace SlideFlow.Command

variable {specs : List OptionSpec}

/-! ## Sorting out -/

/-- Options that are put one after the other. -/
def putAll (options : Ordered String String) (found : List (String × String)) :
    Ordered String String :=
  found.foldl (fun m p => Ordered.put p.1 p.2 m) options

theorem foldl_put (found : List (String × String)) (a : Arguments) :
    found.foldl (fun a (k, v) => a.put k v) a =
      { options := putAll a.options found, positional := a.positional } := by
  induction found generalizing a with
  | nil => rfl
  | cons p found ih => exact ih (a.put p.1 p.2)

/-- What the first argument does: it ends the options, is wrong, gives options, takes the next
argument as the value of one, or is positional. -/
inductive FirstArgument (specs : List OptionSpec) (arg : String) : Prop
  | ends (h : ∀ a rest, sortOut specs a (arg :: rest) =
      some { a with positional := a.positional ++ rest })
  | wrong (h : ∀ a rest, sortOut specs a (arg :: rest) = none)
  | gives (found : List (String × String)) (h : ∀ a rest, sortOut specs a (arg :: rest) =
      sortOut specs { a with options := putAll a.options found } rest)
  | takes (found : List (String × String)) (long : String) (hnil : ∀ a, sortOut specs a [arg] = none)
      (h : ∀ a value rest, sortOut specs a (arg :: value :: rest) =
        sortOut specs { a with options := putAll a.options (found ++ [(long, value)]) } rest)
  | positional (h : ∀ a rest, sortOut specs a (arg :: rest) =
      sortOut specs { a with positional := a.positional ++ [arg] } rest)

theorem firstArgument (specs : List OptionSpec) (arg : String) : FirstArgument specs arg := by
  by_cases hend : arg = "--"
  · exact .ends fun a rest => by simp [sortOut, hend]
  · by_cases hopt : looksLikeOption arg = true
    · cases hread : readOption specs arg with
      | wrong => exact .wrong fun a rest => by simp [sortOut, hend, hopt, hread]
      | found found =>
        refine .gives found fun a rest => ?_
        rw [sortOut, if_neg hend, if_pos hopt, hread]
        simp only [foldl_put]
      | «open» found long =>
        refine .takes found long (fun a => by simp [sortOut, hend, hopt, hread]) fun a value rest => ?_
        rw [sortOut, if_neg hend, if_pos hopt, hread]
        simp only [foldl_put]
        simp only [Arguments.put, putAll, List.foldl_append, List.foldl_cons, List.foldl_nil]
    · refine .positional fun a rest => ?_
      rw [sortOut, if_neg hend, if_neg hopt]

/-- The positional arguments so far stand in front. -/
theorem sortOut_eq : ∀ (args : List String) (a : Arguments),
    sortOut specs a args = (sortOut specs { options := a.options, positional := [] } args).map
      fun b => { options := b.options, positional := a.positional ++ b.positional }
  | [], a => by simp [sortOut]
  | arg :: rest, a => by
    rcases firstArgument specs arg with h | h | ⟨found, h⟩ | ⟨found, long, hnil, h⟩ | h
    · simp [h]
    · simp [h]
    · rw [h, h]
      exact sortOut_eq rest _
    · cases rest with
      | nil => rw [hnil, hnil]; rfl
      | cons value rest =>
        rw [h, h]
        exact sortOut_eq rest _
    · rw [h, h, sortOut_eq rest, sortOut_eq rest { options := a.options, positional := [] ++ [arg] },
        Option.map_map]
      simp [Function.comp_def]
termination_by args => args.length

/-- The last positional argument can be taken out. -/
theorem sortOut_without_last : ∀ {args : List String} {options found : Ordered String String}
    {front : List String} {last : String},
    sortOut specs { options, positional := [] } args =
        some { options := found, positional := front ++ [last] } →
      ∃ before after, args = before ++ last :: after ∧
        sortOut specs { options, positional := [] } (before ++ after) =
          some { options := found, positional := front }
  | [], options, found, front, last, h => by simp [sortOut] at h
  | arg :: rest, options, found, front, last, h => by
    rcases firstArgument specs arg with hfirst | hfirst | ⟨given, hfirst⟩ |
      ⟨given, long, hnil, hfirst⟩ | hfirst
    · -- everything behind the end of the options is positional
      rw [hfirst] at h
      simp only [List.nil_append, Option.some.injEq, Arguments.mk.injEq] at h
      obtain ⟨rfl, rfl⟩ := h
      exact ⟨arg :: front, [], rfl, by simp [hfirst]⟩
    · rw [hfirst] at h
      cases h
    · rw [hfirst] at h
      obtain ⟨before, after, rfl, hwithout⟩ := sortOut_without_last h
      exact ⟨arg :: before, after, rfl, by rw [List.cons_append, hfirst]; exact hwithout⟩
    · cases rest with
      | nil => rw [hnil] at h; cases h
      | cons value rest =>
        rw [hfirst] at h
        obtain ⟨before, after, rfl, hwithout⟩ := sortOut_without_last h
        refine ⟨arg :: value :: before, after, rfl, ?_⟩
        rw [List.cons_append, List.cons_append, hfirst]
        exact hwithout
    · -- the argument itself, unless another positional one follows
      rw [hfirst, sortOut_eq] at h
      obtain ⟨⟨found', more⟩, hrest, heq⟩ := Option.map_eq_some_iff.1 h
      simp only [List.nil_append, Arguments.mk.injEq] at heq
      obtain ⟨rfl, heq⟩ := heq
      cases front with
      | nil =>
        cases heq
        exact ⟨[], rest, rfl, hrest⟩
      | cons first front =>
        cases heq
        obtain ⟨before, after, rfl, hwithout⟩ := sortOut_without_last hrest
        refine ⟨arg :: before, after, rfl, ?_⟩
        rw [List.cons_append, hfirst, sortOut_eq, hwithout]
        rfl
termination_by args => args.length

/-! ## Commands -/

variable {integer? : String → Option Int} {settings : Settings} {args rest : List String}
variable {name path services directory : String} {output : Option String} {policy : Compile.Policy}
variable {seed : Option Int} {verbose : Bool}

theorem eq_of_leadingOptions {more : List String} (h : leadingOptions args = some (false, more)) :
    args = more ∨ args = "--" :: more := by
  cases args with
  | nil =>
    cases h
    exact .inl rfl
  | cons arg rest =>
    unfold leadingOptions at h
    by_cases hend : arg = "--"
    · rw [if_pos hend] at h
      cases h
      exact .inr (by rw [hend])
    · rw [if_neg hend] at h
      split at h
      · split at h
        · simp at h
        · cases h
      · cases h
        exact .inl rfl

/-- Only the name of the command makes a command line one that compiles. -/
theorem eq_compile_of_read (h : read integer? settings args =
      .ok (.compile name output services directory policy seed verbose)) :
    ∃ lead rest, args = lead ++ "compile" :: rest ∧
      ∀ rest', read integer? settings (lead ++ "compile" :: rest') =
        readCompile integer? settings rest' := by
  unfold read at h
  split at h
  · cases h
  · cases h
  · cases h
  · rename_i command rest hleading
    split at h
    · rcases eq_of_leadingOptions hleading with rfl | rfl
      · exact ⟨[], rest, rfl, fun rest' => rfl⟩
      · exact ⟨["--"], rest, rfl, fun rest' => rfl⟩
    · obtain ⟨a, -, h⟩ := bind_eq_ok_iff.1 h
      split at h <;> cases h
    · obtain ⟨a, -, h⟩ := bind_eq_ok_iff.1 h
      obtain ⟨calls, -, h⟩ := bind_eq_ok_iff.1 h
      split at h
      · dsimp only at h
        split at h <;> cases h
      · cases h
    · cases h

theorem arguments_eq_ok_iff {a : Arguments} : arguments specs args = .ok a ↔
    sortOut specs { options := [], positional := [] } args = some a ∧ a.has "help" = false := by
  unfold arguments
  cases sortOut specs { options := [], positional := [] } args with
  | none => simp
  | some b =>
    simp only [Option.some.injEq]
    by_cases hhelp : b.has "help" = true
    · rw [if_pos hhelp]
      constructor
      · nofun
      · rintro ⟨rfl, hnot⟩
        rw [hnot] at hhelp
        cases hhelp
    · rw [if_neg hhelp]
      constructor
      · intro h
        cases h
        exact ⟨rfl, Bool.not_eq_true _ ▸ hhelp⟩
      · rintro ⟨rfl, -⟩
        rfl

/-- The files that positional arguments name. -/
def namedFiles : List String → Except Refusal (String × Option String)
  | [] => .ok (standardStream, none)
  | [input] => .ok (input, none)
  | [input, output] => .ok (input, some output)
  | _ => .error .usage

/-- The command on these files with the options of some arguments. -/
def compileCommand (integer? : String → Option Int) (settings : Settings) (a : Arguments)
    (files : String × Option String) : Except Refusal Command := do
  let seed ← integerOption integer? a "seed" settings.seed
  match Compile.Policy.ofName? ((a.value? "policy").getD settings.policy.name) with
  | none => .error .usage
  | some policy =>
    return .compile files.1 files.2 ((a.value? "services").getD settings.servicesFile)
      ((a.value? "fragments-dir").getD settings.fragmentsDirectory) policy seed (a.has "verbose")

theorem readCompile_eq (integer? : String → Option Int) (settings : Settings) (args : List String) :
    readCompile integer? settings args = arguments compileSpecs args >>= fun a =>
      namedFiles a.positional >>= compileCommand integer? settings a := by
  unfold readCompile
  congr 1
  funext a
  match a.positional with
  | [] => rfl
  | [_] => rfl
  | [_, _] => rfl
  | _ :: _ :: _ :: _ => rfl

/-- The files have no part in the rest of the command. -/
theorem compileCommand_eq_ok {a : Arguments} {files : String × Option String}
    (h : compileCommand integer? settings a files =
      .ok (.compile name output services directory policy seed verbose)) :
    files = (name, output) ∧ ∀ files', compileCommand integer? settings a files' =
      .ok (.compile files'.1 files'.2 services directory policy seed verbose) := by
  unfold compileCommand at h ⊢
  obtain ⟨seed', hseed, h⟩ := bind_eq_ok_iff.1 h
  cases hpolicy : Compile.Policy.ofName? ((a.value? "policy").getD settings.policy.name) with
  | none =>
    rw [hpolicy] at h
    cases h
  | some policy' =>
    rw [hpolicy] at h
    cases h
    refine ⟨rfl, fun files' => ?_⟩
    rw [hseed]
    rfl

theorem eq_of_namedFiles : ∀ {positional : List String},
    namedFiles positional = .ok (name, some path) → positional = [name, path]
  | [_, _], h => by cases h; rfl

/-- The command without the output file is read from the same arguments without that one. -/
theorem readCompile_without_output (h : readCompile integer? settings args =
      .ok (.compile name (some path) services directory policy seed verbose)) :
    ∃ before after, args = before ++ path :: after ∧ readCompile integer? settings (before ++ after) =
      .ok (.compile name none services directory policy seed verbose) := by
  rw [readCompile_eq] at h
  obtain ⟨⟨options, positional⟩, ha, h⟩ := bind_eq_ok_iff.1 h
  obtain ⟨files, hfiles, h⟩ := bind_eq_ok_iff.1 h
  obtain ⟨rfl, hcommand⟩ := compileCommand_eq_ok h
  obtain rfl := eq_of_namedFiles hfiles
  obtain ⟨hsort, hhelp⟩ := arguments_eq_ok_iff.1 ha
  -- the output file is the last positional argument
  have hlast : sortOut compileSpecs { options := [], positional := [] } args =
      some { options, positional := [name] ++ [path] } := hsort
  obtain ⟨before, after, rfl, hwithout⟩ := sortOut_without_last hlast
  refine ⟨before, after, rfl, ?_⟩
  rw [readCompile_eq]
  refine bind_eq_ok_iff.2 ⟨_, arguments_eq_ok_iff.2 ⟨hwithout, hhelp⟩, ?_⟩
  exact bind_eq_ok_iff.2 ⟨(name, none), rfl, hcommand (name, none)⟩

/-- A command line that names an output file, without that argument: the same command, which has no
output file. -/
theorem read_without_output (h : read integer? settings args =
      .ok (.compile name (some path) services directory policy seed verbose)) :
    ∃ before after, args = before ++ path :: after ∧ read integer? settings (before ++ after) =
      .ok (.compile name none services directory policy seed verbose) := by
  obtain ⟨lead, rest, rfl, hread⟩ := eq_compile_of_read h
  rw [hread] at h
  obtain ⟨before, after, rfl, hwithout⟩ := readCompile_without_output h
  refine ⟨lead ++ "compile" :: before, after, by simp, ?_⟩
  rw [List.append_assoc, List.cons_append, hread]
  exact hwithout

end SlideFlow.Command
