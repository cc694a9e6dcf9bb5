/-
The text of a compiled flow, read again. Whether it is printed or written to a file, it is read back as
the very nodes that were compiled, if the properties in the fragments are free of numbers with a
fraction (`emitted_flow_reads_back`). It is not emitted at all if it holds half of a character, which
only a fragment can bring in. Reading a file unifies line ends, which does no harm: the text breaks its
lines with line feeds and spells out every other control character.
-/
import SlideFlow.Proofs.Command.Output

namespace SlideFlow.Files

open SlideFlow.Json SlideFlow.Text.RawText

/-! ## Reading a page from a file -/

theorem unifyLines_eq_self : ∀ {cs : List Char}, '\r' ∉ cs → unifyLines cs = cs
  | [], _ => rfl
  | c :: cs, h => by
    rw [List.mem_cons, not_or] at h
    rw [unifyLines, unifyLines_eq_self h.2]
    · rintro rest rfl
      exact absurd rfl h.1
    · rintro rfl
      exact absurd rfl h.1

theorem Tree.readText_eq {t : Tree} {path text : String} {place : Place}
    (hlocate : t.locate (Path.ofString path) = .ok place)
    (hfile : t.get? place = some (.file (.text text))) :
    t.readText path = .ok (String.ofList (unifyLines text.toList)) := by
  unfold readText
  simp only [hlocate, hfile, Content.decode?]

/-- A file that holds a faithful value on a page is read as that value. -/
theorem Tree.readJson_page {t : Tree} {path text : String} {place : Place} {v : Json}
    (hv : Faithful v) (htext : (v.page ++ "\n").encode? = some text)
    (hlocate : t.locate (Path.ofString path) = .ok place)
    (hfile : t.get? place = some (.file (.text text))) : t.readJson path = .ok v := by
  have hclean : '\r' ∉ text.toList := by
    rw [← (plain_of_encode? htext).2, plain_append, List.mem_append]
    rintro (hc | hc)
    · exact absurd (shown_of_mem_indented hv 0 _ hc) (by decide)
    · exact absurd hc (by decide)
  have hread := readText_eq hlocate hfile
  rw [unifyLines_eq_self hclean, String.ofList_toList] at hread
  unfold readJson
  simp only [hread, bind, Except.bind, read_page hv htext]

end SlideFlow.Files

namespace SlideFlow.Command

open SlideFlow.Compile SlideFlow.Deck SlideFlow.Files SlideFlow.Flow SlideFlow.Ident SlideFlow.Json
  SlideFlow.Text.RawText

variable {σ : Type} [Source σ] {files : Tree} {options : Options} {pool : Pool σ}
variable {activities : List Activity} {nodes : List (Node String)}

/-- What compiling emits is read back as the nodes that were compiled. The value that is written lists
one object for each node, in order, with each member in its place. Its text reads back as that value;
so does what a command prints, and the file that a command writes. A command prints nothing, and writes
no file, if the value holds half of a character; that is not so if the fragments hold none. -/
theorem emitted_flow_reads_back
    (h : (Compile.compile options files pool activities).result = .ok nodes)
    (hfree : ∀ b ∈ (options.library files).loads activities, ∀ f,
      (options.library files).load b = .ok f → ∀ p ∈ f.parts, ∀ m ∈ p.properties,
        m.2.floatFree = true) :
    (∃ items, flowJson nodes = .arr items ∧ List.Forall₂ Node.Written nodes items) ∧
    (∀ text, ((flowJson nodes).page ++ "\n").encode? = some text →
      Json.read text = .ok (flowJson nodes)) ∧
    ((∀ b ∈ (options.library files).loads activities, ∀ f,
      (options.library files).load b = .ok f → ∀ p ∈ f.parts,
        p.type.IsWhole ∧ ∀ m ∈ p.properties, m.1.IsWhole ∧ Whole m.2) → Whole (flowJson nodes)) ∧
    ∀ (platform : Platform σ) (settings : Settings) (spare : Int) (input : Content)
      (name services directory : String) (policy : Policy) (seed : Option Int) (verbose : Bool),
      Compiles platform settings spare files (source files input name) services directory policy seed
          options pool activities →
        (∀ output ∈ [none, some standardStream],
          let printed := run platform settings spare files input
            (.compile name output services directory policy seed verbose)
          (printed.code = 0 ↔ Whole (flowJson nodes)) ∧
          (printed.code = 0 → Json.read printed.output = .ok (flowJson nodes)) ∧
          (printed.code ≠ 0 → printed.output = "")) ∧
        ∀ path, path ≠ standardStream →
          let written := run platform settings spare files input
            (.compile name (some path) services directory policy seed verbose)
          written.code = 0 →
            Whole (flowJson nodes) ∧ written.files.readJson path = .ok (flowJson nodes) := by
  have hfaithful := faithful_flowJson h hfree
  refine ⟨written_flowJson h, fun text => read_page hfaithful, whole_flowJson h, ?_⟩
  intro platform settings spare input name services directory policy seed verbose hcompiles
  have htext := hcompiles.result_flowText h
  constructor
  · intro output houtput printed
    have hfinish : printed = _ := run_compile_printed houtput
    rw [hfinish, ← encode?_page_iff]
    cases hencode : ((flowJson nodes).page ++ "\n").encode? with
    | none =>
      obtain ⟨hone, hempty⟩ :=
        finish_of_unencodable files (leastRank settings verbose) htext hencode
      simp [hone, hempty]
    | some text =>
      obtain ⟨hzero, hprinted⟩ := finish_of_encode files (leastRank settings verbose) htext hencode
      simp [hzero, hprinted, read_page hfaithful hencode]
  · intro path hpath written hcode
    have hdeliver : written = _ := run_compile_delivered hpath
    rw [hdeliver] at hcode ⊢
    obtain ⟨page, text, target, hpage, hencode, hwritten⟩ := (deliver_spec ..).2 hcode
    rw [htext] at hpage
    cases hpage
    refine ⟨(encode?_page_iff _).1 ?_, ?_⟩
    · rw [hencode]
      exact Option.some_ne_none text
    · exact Tree.readJson_page hfaithful hencode hwritten.located hwritten.holds

/-- A lamp of which one property is a text with characters of all sorts, one a long number, and one a
list of empty values. -/
def wordyFiles : Tree := filesWithLamp
  ("\x7b\"meta\":\x7b\"in\":\"a\",\"out\":\"a\"\x7d,\"flow\":[\x7b\"id\":\"a\",\"type\":\"t\"," ++
    "\"info\":\"\\\"\\\\é😀\\r\",\"limit\":-12345678901234567890,\"parts\":[[],\x7b\x7d]\x7d]\x7d")

/-- One click that turns on the lamp. -/
def wordyDeck : List Activity :=
  [{ index := 1
     timing := .given [[[⟨2, .entrance, none⟩]]]
     bindings := lampBindings
     transition := none
     title := "" }]

/-- The properties of that lamp hold neither numbers with a fraction nor halves of characters. -/
theorem wordyFiles_loads : ∀ b ∈ (lampOptions.library wordyFiles).loads wordyDeck, ∀ f,
    (lampOptions.library wordyFiles).load b = .ok f → ∀ p ∈ f.parts, p.type.IsWhole ∧
      ∀ m ∈ p.properties, m.2.floatFree = true ∧ m.1.IsWhole ∧ Whole m.2 := by
  have hcheck : ∀ b ∈ (lampOptions.library wordyFiles).loads wordyDeck,
      ((lampOptions.library wordyFiles).load b).toOption.all (fun f => f.parts.all fun p =>
        p.type.encode?.isSome && p.properties.all fun m =>
          m.2.floatFree && (m.1.encode?.isSome && (m.2.page ++ "\n").encode?.isSome)) = true := by
    decide +kernel
  intro b hb f hf p hp
  have hparts := hcheck b hb
  rw [hf] at hparts
  have hpart := List.all_eq_true.1 hparts p hp
  rw [Bool.and_eq_true, List.all_eq_true] at hpart
  refine ⟨isWhole_iff_encode?.2 (Option.isSome_iff_ne_none.1 hpart.1), fun m hm => ?_⟩
  have hmember := hpart.2 m hm
  simp only [Bool.and_eq_true, Option.isSome_iff_ne_none] at hmember
  exact ⟨hmember.1, isWhole_iff_encode?.2 hmember.2.1, (encode?_page_iff _).1 hmember.2.2⟩

/-- With that lamp the text of the flow is read back. The flow of a presentation without slides is read
back from what is printed and from the file that is written. -/
theorem emitted_flow_reads_back_wordy :
    (∃ nodes, (Compile.compile lampOptions wordyFiles lampPool wordyDeck).result = .ok nodes ∧
      (∃ n ∈ nodes, (n.toJson.get? "info").bind Json.str? = some "\"\\é😀\r" ∧
        (n.toJson.get? "limit").bind Json.int? = some (-12345678901234567890)) ∧
      ∃ text, ((flowJson nodes).page ++ "\n").encode? = some text ∧
        Json.read text = .ok (flowJson nodes)) ∧
    ∃ nodes, (Compile.compile lampOptions bareFiles lampPool []).result = .ok nodes ∧
      (bareRun none).code = 0 ∧ Json.read (bareRun none).output = .ok (flowJson nodes) ∧
      (bareRun (some "flow.json")).code = 0 ∧
      (bareRun (some "flow.json")).files.readJson "flow.json" = .ok (flowJson nodes) := by
  constructor
  · have hcheck : (Compile.compile lampOptions wordyFiles lampPool wordyDeck).result.toOption.any
        (fun nodes => decide (∃ n ∈ nodes,
          (n.toJson.get? "info").bind Json.str? = some "\"\\é😀\r" ∧
          (n.toJson.get? "limit").bind Json.int? = some (-12345678901234567890))) = true := by
      decide +kernel
    cases hnodes : (Compile.compile lampOptions wordyFiles lampPool wordyDeck).result with
    | error e =>
      rw [hnodes] at hcheck
      cases hcheck
    | ok nodes =>
      rw [hnodes] at hcheck
      obtain ⟨-, hread, hwhole, -⟩ := emitted_flow_reads_back hnodes fun b hb f hf p hp m hm =>
        ((wordyFiles_loads b hb f hf p hp).2 m hm).1
      have hencode := (encode?_page_iff _).2 (hwhole fun b hb f hf p hp =>
        ⟨(wordyFiles_loads b hb f hf p hp).1, fun m hm => ((wordyFiles_loads b hb f hf p hp).2 m hm).2⟩)
      obtain ⟨text, htext⟩ := Option.ne_none_iff_exists'.1 hencode
      exact ⟨nodes, rfl, of_decide_eq_true hcheck, text, htext, hread text htext⟩
  · obtain ⟨hcompiles, nodes, hnodes⟩ := bareFiles_compiles
    have hnone : ∀ b, b ∉ (lampOptions.library bareFiles).loads [] := fun b => List.not_mem_nil
    obtain ⟨-, -, hwhole, hruns⟩ :=
      emitted_flow_reads_back hnodes fun b hb => absurd hb (hnone b)
    have hflow := hwhole fun b hb => absurd hb (hnone b)
    obtain ⟨hprinted, hwritten⟩ := hruns lampPlatform .defaults 0 (.deck (.ok [])) standardStream
      "services.json" "services" .perBranch (some 7) false hcompiles
    obtain ⟨hcode, hread, -⟩ := hprinted none (by decide)
    have hdelivered := code_bareRun
    refine ⟨nodes, hnodes, ?_⟩
    rw [bareRun] at hdelivered
    rw [bareRun, bareRun]
    exact ⟨hcode.2 hflow, hread (hcode.2 hflow), hdelivered,
      (hwritten "flow.json" (by decide) hdelivered).2⟩

end SlideFlow.Command
