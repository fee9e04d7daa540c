import GrammarCompiler.CommandLine.Run
import GrammarCompiler.Proofs.Arguments
import GrammarCompiler.Proofs.Files
import GrammarCompiler.Proofs.Generation

/-!
What a run of the compiler does to its world. Every stage but the writing of
the assembly leaves the files alone and at most prints something; so a run
ends in one of three ways: the input does not compile, the assembly cannot be
written, or it is written and the assembler may be started.
-/

namespace GrammarCompiler.CommandLine

namespace World

/-- The worlds differ at most in what has been printed. -/
def SameSystem (w w' : World) : Prop := ∃ printed, w' = { w with printed := printed }

variable {w w' w'' w₁ : World} {path text name : String}

theorem SameSystem.refl (w : World) : w.SameSystem w := ⟨w.printed, rfl⟩

theorem SameSystem.trans (h : w.SameSystem w') (h' : w'.SameSystem w'') : w.SameSystem w'' := by
  obtain ⟨printed, rfl⟩ := h
  obtain ⟨printed', rfl⟩ := h'
  exact ⟨printed', rfl⟩

theorem SameSystem.files_eq (h : w.SameSystem w') : w'.files = w.files := by
  obtain ⟨printed, rfl⟩ := h
  rfl

theorem SameSystem.search_eq (h : w.SameSystem w') (name : String) (refusal : SystemError)
    (folders : List String) : w'.search name refusal folders = w.search name refusal folders := by
  obtain ⟨printed, rfl⟩ := h
  induction folders generalizing refusal with
  | nil => rfl
  | cons folder folders ih =>
      have hat : programAt { w with printed := printed } (folder ++ "/" ++ name) =
        w.programAt (folder ++ "/" ++ name) := rfl
      rw [search, search, hat, ih, ih]

theorem SameSystem.program_eq (h : w.SameSystem w') : w'.program name = w.program name := by
  have hsearch := h.search_eq name .notFound w.searchPath
  obtain ⟨printed, rfl⟩ := h
  rw [program, program]
  split
  · rfl
  · exact hsearch

/-- The results are the same error, or worlds that differ at most in what has been printed. -/
inductive SameResult : Except SystemError World → Except SystemError World → Prop where
  | error {e : SystemError} : SameResult (.error e) (.error e)
  | ok {w w' : World} : w.SameSystem w' → SameResult (.ok w) (.ok w')

theorem SameSystem.deliver (h : w.SameSystem w') (text : String) (sink : FileSystem.Sink) :
    SameResult (w.deliver text sink) (w'.deliver text sink) := by
  obtain ⟨printed, rfl⟩ := h
  cases sink with
  | file location => exact .ok ⟨printed, rfl⟩
  | device device =>
      cases device with
      | null => exact .ok ⟨printed, rfl⟩
      | full => exact .error
      | standardOutput => exact .ok ⟨_, rfl⟩
      | detached => exact .error

theorem SameSystem.write (h : w.SameSystem w') (path text : String) :
    SameResult (w.write path text) (w'.write path text) := by
  have hdeliver := h.deliver text
  obtain ⟨printed, rfl⟩ := h
  rw [World.write, World.write]
  cases w.files.sink w.working path with
  | error e => exact .error
  | ok sink => exact hdeliver sink

/-- The file under the path holds the text. -/
def HoldsText (w : World) (path source : String) : Prop :=
  ∃ bytes, w.files.read w.working path = .ok bytes ∧ String.fromUTF8? bytes = some source

theorem HoldsText.unique {source source' : String} (h : w.HoldsText path source)
    (h' : w.HoldsText path source') : source = source' := by
  obtain ⟨bytes, hread, htext⟩ := h
  obtain ⟨bytes', hread', htext'⟩ := h'
  obtain rfl := Except.ok.inj (hread.symm.trans hread')
  exact Option.some.inj (htext.symm.trans htext')

/-- The file under the path holds a text that compiles to the assembly. -/
def CompilesTo (w : World) (path code : String) : Prop :=
  ∃ source, w.HoldsText path source ∧ Naja.compile source = .ok code

theorem CompilesTo.unique {code code' : String} (h : w.CompilesTo path code)
    (h' : w.CompilesTo path code') : code = code' := by
  obtain ⟨source, hsource, hcompile⟩ := h
  obtain ⟨source', hsource', hcompile'⟩ := h'
  obtain rfl := hsource.unique hsource'
  exact Except.ok.inj (hcompile.symm.trans hcompile')

end World

/-! ### The stages -/

/-- A computation goes on with the value and the world that its first step leaves. -/
theorem bind_eq_of_eq {α β : Type} {x : StateM World α} {f : α → StateM World β} {w w' : World}
    {a : α} (h : x w = (a, w')) : (x >>= f) w = f a w' := by
  simp only [bind, StateT.bind, h]

section

variable (filter : LogFilter) (w : World)

theorem sameSystem_logLine (level : Level) (text : String) :
    w.SameSystem (logLine World.host filter level text w).2 := by
  rw [logLine]
  split
  · exact ⟨_, rfl⟩
  · exact .refl w

theorem sameSystem_logLines (level : Level) (texts : List String) :
    w.SameSystem (logLines World.host filter level texts w).2 := by
  induction texts generalizing w with
  | nil => exact .refl w
  | cons text rest ih => exact (sameSystem_logLine filter w level text).trans (ih _)

theorem readSource_cases (path : String) :
    (∃ source, readSource World.host path w = (.ok source, w) ∧ w.HoldsText path source) ∨
    (∃ e, readSource World.host path w = (.error e, w)) ∧ ∀ source, ¬ w.HoldsText path source := by
  have hhost : World.host.readFile path w = (w.files.read w.working path, w) := rfl
  rw [readSource, bind_eq_of_eq hhost]
  cases hread : w.files.read w.working path with
  | error e =>
      refine .inr ⟨⟨_, rfl⟩, ?_⟩
      rintro source ⟨bytes, hbytes, -⟩
      rw [hread] at hbytes
      cases hbytes
  | ok bytes =>
      cases htext : String.fromUTF8? bytes with
      | none =>
          refine .inr ⟨⟨_, by simp only [htext]; rfl⟩, ?_⟩
          rintro source ⟨bytes', hbytes, hsource⟩
          obtain rfl := Except.ok.inj (hread.symm.trans hbytes)
          rw [htext] at hsource
          cases hsource
      | some source => exact .inl ⟨source, by simp only [htext]; rfl, bytes, hread, htext⟩

theorem compileSource_cases (request : Request) (source : String) :
    (∃ code w', compileSource World.host request source w = (.ok code, w') ∧ w.SameSystem w' ∧
      Naja.compile source = .ok code) ∨
    (∃ e w', compileSource World.host request source w = (.error e, w') ∧ w.SameSystem w') ∧
      ∀ code, Naja.compile source ≠ .ok code := by
  rw [compileSource, Naja.compile]
  cases Naja.parse source with
  | error e =>
      refine .inr ⟨⟨_, w, rfl, .refl w⟩, fun code h => ?_⟩
      cases h
  | ok tree =>
      -- The tree is shown before the assembly is generated, also if generating then fails.
      dsimp only
      cases Naja.assemble tree with
      | error e =>
          refine .inr ⟨⟨.compile e, ?_⟩, fun code h => ?_⟩
          · cases request.printTree
            · exact ⟨w, rfl, .refl w⟩
            · exact ⟨_, rfl, _, rfl⟩
          · cases h
      | ok code =>
          refine .inl ⟨code, ?_⟩
          cases request.printTree
          · exact ⟨w, rfl, .refl w, rfl⟩
          · exact ⟨_, rfl, ⟨_, rfl⟩, rfl⟩

theorem storeAssembly_cases {w₀ : World} (h : w₀.SameSystem w) (path code : String) :
    (∃ w₁ w', w₀.write path code = .ok w₁ ∧
      storeAssembly World.host filter path code w = (.ok (), w') ∧ w₁.SameSystem w') ∨
    ∃ e e', w₀.write path code = .error e ∧
      storeAssembly World.host filter path code w = (.error e', w) := by
  have hwrite := h.write path code
  generalize w₀.write path code = before at hwrite
  generalize hnow : w.write path code = now at hwrite
  cases hwrite with
  | @error e =>
      have hhost : World.host.writeFile path code w = (.error e, w) := by
        simp only [World.host, hnow]
      refine .inr ⟨e, .write path e, rfl, ?_⟩
      rw [storeAssembly, bind_eq_of_eq hhost]
      rfl
  | @ok w₁ w₂ hsame =>
      have hhost : World.host.writeFile path code w = (.ok (), w₂) := by
        simp only [World.host, hnow]
      have hlogged := sameSystem_logLine filter w₂
      refine .inl ⟨w₁, ?_⟩
      rw [storeAssembly, bind_eq_of_eq hhost]
      exact ⟨_, rfl, rfl, hsame.trans (hlogged _ _)⟩

theorem runAssembler_cases (name path : String) :
    (∃ w', runAssembler World.host filter name path w = (.ok (), w') ∧ w.SameSystem w' ∧
      ∃ program, w.program name = .ok program) ∨
    (∃ e, runAssembler World.host filter name path w = (.error e, w)) ∧
      ∀ program, w.program name ≠ .ok program := by
  cases hprogram : w.program name with
  | error e =>
      have hhost : World.host.launch name path w = (.error e, w) := by
        simp only [World.host, hprogram]
      refine .inr ⟨⟨.launch name e, ?_⟩, nofun⟩
      rw [runAssembler, bind_eq_of_eq hhost]
      rfl
  | ok program =>
      have hhost : World.host.launch name path w =
          (.ok (program w.files w.working path).2,
            { w with printed := w.printed ++ (program w.files w.working path).1 }) := by
        simp only [World.host, hprogram]
      have hlogged := sameSystem_logLine filter
        { w with printed := w.printed ++ (program w.files w.working path).1 }
      refine .inl ?_
      rw [runAssembler, bind_eq_of_eq hhost]
      dsimp only
      split
      · exact ⟨_, rfl, .trans ⟨_, rfl⟩ (hlogged _ _), program, rfl⟩
      · exact ⟨_, rfl, .trans ⟨_, rfl⟩ (hlogged _ _), program, rfl⟩

end

/-! ### The run -/

/-- Whatever assembler is named can be started. -/
def Request.AssemblerStarts (request : Request) (w : World) : Prop :=
  ∀ name, request.assembler = some name → ∃ program, w.program name = .ok program

/-- The ways in which carrying out a request can end. -/
inductive Request.Ends (request : Request) (w : World) : Except RunError Unit → World → Prop where
  | rejected {e : RunError} {w' : World} :
    (∀ code, ¬ w.CompilesTo request.input code) → w.SameSystem w' → Ends request w (.error e) w'
  | unwritten {code : String} {refusal : SystemError} {e : RunError} {w' : World} :
    w.CompilesTo request.input code → w.write request.outputPath code = .error refusal →
      w.SameSystem w' → Ends request w (.error e) w'
  | written {code : String} {w₁ w' : World} {result : Except RunError Unit} :
    w.CompilesTo request.input code → w.write request.outputPath code = .ok w₁ →
      w₁.SameSystem w' → (result = .ok () ↔ request.AssemblerStarts w₁) → Ends request w result w'

/-- The assembler is the last stage, and starts in the world that the writing has left. -/
theorem assembler_ends (filter : LogFilter) {request : Request} {w w₁ w₂ : World} {code : String}
    (hcode : w.CompilesTo request.input code) (hwrite : w.write request.outputPath code = .ok w₁)
    (hsame : w₁.SameSystem w₂) :
    let last : Except RunError Unit × World := (match request.assembler with
      | none => pure (.ok ())
      | some name => runAssembler World.host filter name request.outputPath :
        StateM World (Except RunError Unit)) w₂
    request.Ends w last.1 last.2 := by
  cases hassembler : request.assembler with
  | none =>
      refine .written hcode hwrite hsame (iff_of_true rfl ?_)
      intro name hname
      rw [hassembler] at hname
      cases hname
  | some name =>
      dsimp only
      rcases runAssembler_cases filter w₂ name request.outputPath with
        ⟨w', hrun, hsame', hprogram⟩ | ⟨⟨e, hrun⟩, hnone⟩
      · rw [hrun]
        refine .written hcode hwrite (hsame.trans hsame') (iff_of_true rfl ?_)
        intro name' hname'
        obtain rfl := Option.some.inj (hassembler.symm.trans hname')
        rwa [hsame.program_eq] at hprogram
      · rw [hrun]
        refine .written hcode hwrite hsame (iff_of_false nofun ?_)
        intro hstarts
        obtain ⟨program, hprogram⟩ := hstarts name hassembler
        exact hnone program (hsame.program_eq.trans hprogram)

theorem execute_ends (filter : LogFilter) (request : Request) (w : World) :
    request.Ends w (execute World.host filter request w).1
      (execute World.host filter request w).2 := by
  rcases readSource_cases w request.input with ⟨source, hread, hsource⟩ | ⟨⟨e, hread⟩, hnone⟩
  · obtain ⟨w₁, hlogged, hlog⟩ : ∃ w₁, w.SameSystem w₁ ∧
        logLine World.host filter .info ("compiling input=" ++ request.input) w = ((), w₁) :=
      ⟨_, sameSystem_logLine filter w _ _, rfl⟩
    rw [execute, bind_eq_of_eq hread]
    dsimp only
    rw [bind_eq_of_eq hlog]
    rcases compileSource_cases w₁ request source with
      ⟨code, w₂, hcompile, hsame, hcode⟩ | ⟨⟨e, w₂, hcompile, hsame⟩, hnone⟩
    · rw [bind_eq_of_eq hcompile]
      have hcompiles : w.CompilesTo request.input code := ⟨source, hsource, hcode⟩
      rcases storeAssembly_cases filter w₂ (hlogged.trans hsame) request.outputPath code with
        ⟨w₃, w₄, hwrite, hstore, hsame'⟩ | ⟨e, e', hwrite, hstore⟩
      · dsimp only
        rw [bind_eq_of_eq hstore]
        exact assembler_ends filter hcompiles hwrite hsame'
      · dsimp only
        rw [bind_eq_of_eq hstore]
        exact .unwritten hcompiles hwrite (hlogged.trans hsame)
    · rw [bind_eq_of_eq hcompile]
      refine .rejected ?_ (hlogged.trans hsame)
      rintro code ⟨source', hsource', hcode⟩
      exact hnone code (hsource.unique hsource' ▸ hcode)
  · rw [execute, bind_eq_of_eq hread]
    refine .rejected ?_ (.refl w)
    rintro code ⟨source, hsource, -⟩
    exact hnone source hsource

namespace Request.Ends

variable {request : Request} {w w' w₁ : World} {result : Except RunError Unit} {code : String}

theorem entry?_eq {location : Location} (h : request.Ends w result w')
    (hne : w.files.resolve w.working request.outputPath ≠ .ok (.name location)) :
    w'.files.entry? location = w.files.entry? location := by
  cases h with
  | rejected _ hsame => rw [hsame.files_eq]
  | unwritten _ _ hsame => rw [hsame.files_eq]
  | written _ hwrite hsame _ => rw [hsame.files_eq, World.entry?_of_write hwrite hne]

theorem exists_written (h : request.Ends w result w') (hchanged : w'.files ≠ w.files) :
    ∃ code w₁, w.CompilesTo request.input code ∧ w.write request.outputPath code = .ok w₁ := by
  cases h with
  | rejected _ hsame => exact absurd hsame.files_eq hchanged
  | unwritten _ _ hsame => exact absurd hsame.files_eq hchanged
  | written hcode hwrite _ _ => exact ⟨_, _, hcode, hwrite⟩

theorem files_eq (h : request.Ends w result w') (hcode : w.CompilesTo request.input code)
    (hwrite : w.write request.outputPath code = .ok w₁) : w'.files = w₁.files := by
  cases h with
  | rejected hnone _ => exact absurd hcode (hnone code)
  | unwritten hcode' hwrite' _ =>
      rw [hcode.unique hcode', hwrite'] at hwrite
      cases hwrite
  | written hcode' hwrite' hsame _ =>
      rw [hcode.unique hcode', hwrite'] at hwrite
      cases hwrite
      exact hsame.files_eq

theorem eq_ok_iff (h : request.Ends w result w') :
    result = .ok () ↔ ∃ code w₁, w.CompilesTo request.input code ∧
      w.write request.outputPath code = .ok w₁ ∧ request.AssemblerStarts w₁ := by
  cases h with
  | rejected hnone _ =>
      refine iff_of_false nofun ?_
      rintro ⟨code, w₁, hcode, -⟩
      exact hnone code hcode
  | unwritten hcode hwrite _ =>
      refine iff_of_false nofun ?_
      rintro ⟨code', w₁, hcode', hwrite', -⟩
      rw [hcode'.unique hcode, hwrite] at hwrite'
      cases hwrite'
  | written hcode hwrite _ hresult =>
      rw [hresult]
      refine ⟨fun hstarts => ⟨_, _, hcode, hwrite, hstarts⟩, ?_⟩
      rintro ⟨code', w₁', hcode', hwrite', hstarts⟩
      rw [hcode'.unique hcode, hwrite] at hwrite'
      cases hwrite'
      exact hstarts

/-- What is printed afterwards changes nothing. -/
theorem sameSystem (h : request.Ends w result w') (hsame : w'.SameSystem w₁) :
    request.Ends w result w₁ := by
  cases h with
  | rejected hnone hsame' => exact .rejected hnone (hsame'.trans hsame)
  | unwritten hcode hwrite hsame' => exact .unwritten hcode hwrite (hsame'.trans hsame)
  | written hcode hwrite hsame' hresult =>
      exact .written hcode hwrite (hsame'.trans hsame) hresult

end Request.Ends

theorem run_ends {surroundings : Surroundings} {arguments : List String} {request : Request}
    (h : Command.parse surroundings.assembler arguments = .ok (.compile request)) (w : World) :
    ∃ result, request.Ends w result (run World.host surroundings arguments w).2 ∧
      ((run World.host surroundings arguments w).1 = 0 ↔ result = .ok ()) := by
  have hends := execute_ends surroundings.log request w
  rw [run, h]
  dsimp only [perform]
  rcases hexecute : execute World.host surroundings.log request w with ⟨result, w'⟩
  rw [hexecute] at hends
  rw [bind_eq_of_eq hexecute]
  refine ⟨result, ?_⟩
  cases result with
  | error e =>
      have hlogged := sameSystem_logLines surroundings.log w' .error e.messages
      exact ⟨hends.sameSystem hlogged, iff_of_false Nat.one_ne_zero nofun⟩
  | ok done => exact ⟨hends, iff_of_true rfl rfl⟩

section

variable {request : Request} {items : List Item} {defaultAssembler : Option String}

theorem Request.MadeBy.outputPath_eq_of_mem {path : String}
    (h : request.MadeBy items defaultAssembler) (hpath : .value .output path ∈ items) :
    request.outputPath = path := by
  rw [outputPath, (h.output path).1 hpath, Option.getD_some]

theorem Request.MadeBy.outputPath_eq_of_not_mem (h : request.MadeBy items defaultAssembler)
    (hnone : ∀ path, .value .output path ∉ items) :
    request.outputPath = Path.withExtension request.input assemblyExtension := by
  have houtput : request.output = none := by
    refine Option.eq_none_iff_forall_ne_some.2 fun path hpath => ?_
    exact hnone path ((h.output path).2 hpath)
  rw [outputPath, houtput, Option.getD_none]

end

theorem compile_eq_ok_iff {source code : String} :
    Naja.compile source = .ok code ↔ ∃ s tree, Naja.tokenize (Text.trim source) = .ok s ∧
      Naja.parseStream s = .ok tree ∧ Naja.assemble tree = .ok code := by
  rw [Naja.compile, Naja.parse]
  cases Naja.tokenize (Text.trim source) with
  | error e => simp
  | ok s => cases hparse : Naja.parseStream s <;> simp [hparse]

/-- A run changes nothing but the file that the output path means, and that one only if the input
is a text that compiles: then it holds the assembly, unless the path means a device, which keeps
nothing. The exit status is 0 exactly if every stage succeeds and the assembler can be started.
-/
theorem run_changes_only_output (surroundings : Surroundings) (arguments : List String)
    (request : Request)
    (accepted : Command.parse surroundings.assembler arguments = .ok (.compile request))
    (w : World) :
    let status := (run World.host surroundings arguments w).1
    let w' := (run World.host surroundings arguments w).2
    (∀ location, w.files.resolve w.working request.outputPath ≠ .ok (.name location) →
      w'.files.entry? location = w.files.entry? location) ∧
    (w'.files ≠ w.files → ∃ code w₁, w.CompilesTo request.input code ∧
      w.write request.outputPath code = .ok w₁) ∧
    (∀ code w₁, w.CompilesTo request.input code → w.write request.outputPath code = .ok w₁ →
      (∀ device, w.files.sink w.working request.outputPath ≠ .ok (.device device)) →
      w'.files.read w.working request.outputPath = .ok code.toUTF8) ∧
    (status = 0 ↔ ∃ bytes source s tree code w₁,
      w.files.read w.working request.input = .ok bytes ∧
      String.fromUTF8? bytes = some source ∧ Naja.tokenize (Text.trim source) = .ok s ∧
      Naja.parseStream s = .ok tree ∧ Naja.assemble tree = .ok code ∧
      w.write request.outputPath code = .ok w₁ ∧ request.AssemblerStarts w₁) ∧
    ∃ items, Spelled arguments items ∧ request.MadeBy items surroundings.assembler ∧
      (∀ path, .value .output path ∈ items → request.outputPath = path) ∧
      ((∀ path, .value .output path ∉ items) →
        request.outputPath = Path.withExtension request.input "asm") := by
  obtain ⟨result, hends, hstatus⟩ := run_ends accepted w
  obtain ⟨items, hspelled, hmade⟩ := exists_spelled_of_parse accepted
  refine ⟨fun location => hends.entry?_eq, hends.exists_written, ?_, ?_, items, hspelled, hmade,
    fun path => hmade.outputPath_eq_of_mem, hmade.outputPath_eq_of_not_mem⟩
  · intro code w₁ hcode hwrite hfile
    rw [hends.files_eq hcode hwrite]
    exact World.read_of_write hwrite hfile
  · rw [hstatus, hends.eq_ok_iff]
    constructor
    · rintro ⟨code, w₁, ⟨source, ⟨bytes, hread, htext⟩, hcompile⟩, hrest⟩
      obtain ⟨s, tree, hlexed, hparsed, hcode⟩ := compile_eq_ok_iff.1 hcompile
      exact ⟨bytes, source, s, tree, code, w₁, hread, htext, hlexed, hparsed, hcode, hrest⟩
    · rintro ⟨bytes, source, s, tree, code, w₁, hread, htext, hlexed, hparsed, hcode, hrest⟩
      have hcompile := compile_eq_ok_iff.2 ⟨s, tree, hlexed, hparsed, hcode⟩
      exact ⟨code, w₁, ⟨source, ⟨bytes, hread, htext⟩, hcompile⟩, hrest⟩

/-- A source in the root, and an assembler that always reports failure. -/
def sourceWorld : World where
  files := ⟨[(["p.naja"], .file Naja.differenceSource.toUTF8), (["bin"], .directory),
    (["bin", "fasm"], .file .empty)]⟩
  working := []
  searchPath := []
  programs := [(["bin", "fasm"], fun _ _ _ => ("no such format\n", 1))]
  printed := ""

/-- The assembly is written next to the source, and the run succeeds although the assembler that
the environment names does not. -/
theorem sourceWorld_run_succeeds :
    let w' := (run World.host { assembler := some "/bin/fasm" } ["p.naja"] sourceWorld).2
    (run World.host { assembler := some "/bin/fasm" } ["p.naja"] sourceWorld).1 = 0 ∧
    (∃ code, Naja.compile Naja.differenceSource = .ok code ∧
      w'.files.read sourceWorld.working "p.asm" = .ok code.toUTF8) ∧
    w'.files.entry? ["p.naja"] = sourceWorld.files.entry? ["p.naja"] := by
  obtain ⟨hother, -, hwritten, hstatus, -⟩ := run_changes_only_output
    { assembler := some "/bin/fasm" } ["p.naja"] { input := "p.naja", assembler := "/bin/fasm" }
    (Naja.eq_ok_of_toOption (by decide +kernel)) sourceWorld
  have houtput : Request.outputPath { input := "p.naja", assembler := "/bin/fasm" } = "p.asm" := by
    decide +kernel
  rw [houtput] at hother hwritten hstatus
  have hread : sourceWorld.files.read sourceWorld.working "p.naja" =
      .ok Naja.differenceSource.toUTF8 := Naja.eq_ok_of_toOption (by decide +kernel)
  have htext : String.fromUTF8? Naja.differenceSource.toUTF8 = some Naja.differenceSource := by
    decide +kernel
  obtain ⟨p, -, -, hcompile⟩ := Naja.exists_compiled_of_parse Naja.parse_differenceSource
  obtain ⟨s, tree, hlexed, hparsed, hcode⟩ := compile_eq_ok_iff.1 hcompile
  have hsink : sourceWorld.files.sink sourceWorld.working "p.asm" = .ok (.file ["p.asm"]) :=
    Naja.eq_ok_of_toOption (by decide +kernel)
  obtain ⟨w₁, hwrite⟩ : ∃ w₁, sourceWorld.write "p.asm" p.program.assembly = .ok w₁ := by
    rw [World.write, hsink]
    exact ⟨_, rfl⟩
  refine ⟨?_, ⟨_, hcompile, ?_⟩, ?_⟩
  · refine hstatus.2 ⟨_, _, s, tree, _, w₁, hread, htext, hlexed, hparsed, hcode, hwrite, ?_⟩
    intro name hname
    obtain rfl := Option.some.inj hname
    have hsome : (sourceWorld.programAt "/bin/fasm").toOption.isSome = true := by decide +kernel
    obtain ⟨program, hprogram⟩ := Option.isSome_iff_exists.1 hsome
    refine ⟨program, ?_⟩
    rw [World.program, if_pos (by decide +kernel)]
    exact World.programAt_of_write hwrite (Naja.eq_ok_of_toOption hprogram)
  · refine hwritten _ w₁ ⟨_, ⟨_, hread, htext⟩, hcompile⟩ hwrite ?_
    rw [hsink]
    exact nofun
  · refine hother _ fun hresolve => ?_
    rw [(FileSystem.sink_eq_file hsink).1] at hresolve
    revert hresolve
    simp

end GrammarCompiler.CommandLine
