import GrammarCompiler.Proofs.CommandRun
import GrammarCompiler.Proofs.Extensions
import GrammarCompiler.Proofs.Segmentation

/-!
The input of a run without an output option. The assembly then goes to the
input path with the extension of assembly, and nothing keeps the two paths
apart: an input that has this extension is its own output. It is the only
input that is lost. Any other path that can be read means a place with another
name than the output has, so that the output cannot be the same file.
-/

namespace GrammarCompiler

/-! ### No assembly is a source -/

namespace Naja

/-- What parses has only characters of lexemes and white space. -/
theorem isLexemeChar_of_parse {source : String} {tree : Tree} (h : parse source = .ok tree) :
    ∀ c ∈ source.toList, Text.isWhiteSpace c = false → isLexemeChar c = true := by
  intro c hc hblank
  cases hs : tokenize (Text.trim source) with
  | error e => simp [parse, hs] at h
  | ok s =>
      obtain ⟨segments, hsegments, -⟩ := tokenize_eq_ok_iff.1 hs
      refine hsegments.isLexemeChar c ?_
      rw [Text.toList_trim]
      exact Text.mem_trimChars hblank hc

/-- The frame of a program has a bracket, which no lexeme has. -/
theorem ne_of_compile {source code : String} (h : compile source = .ok code) :
    source ≠ code := by
  rintro rfl
  cases hparse : parse source with
  | error e => simp [compile, hparse] at h
  | ok tree =>
      obtain ⟨p, -, -, hcompile⟩ := exists_compiled_of_parse hparse
      obtain rfl := Except.ok.inj (h.symm.trans hcompile)
      have hbracket : '[' ∈ p.program.assembly.toList := by
        have hframe : Assembly.Stretch.fixed "        call [ExitProcess]\n\n" ∈
            Assembly.programFrame := by decide
        have hcall : '[' ∈ "        call [ExitProcess]\n\n".toList := by decide
        rw [p.program.toList_assembly, Assembly.expand]
        exact List.mem_flatMap.2 ⟨_, hframe, hcall⟩
      have hforeign := isLexemeChar_of_parse hparse '[' hbracket (by decide)
      revert hforeign
      decide

end Naja

namespace CommandLine

/-! ### The place of the output -/

namespace FileSystem

variable {fs : FileSystem} {location working : Location} {path extension : String}

/-- With another extension, the path means another place. -/
theorem resolve_withExtension_ne (hextension : '/' ∉ extension.toList)
    (hresolve : fs.resolve working path = .ok (.name location))
    (hslash : Path.endsInSlash path = false) (h : ¬ Path.HasExtension path extension) :
    fs.resolve working (Path.withExtension path extension) ≠ .ok (.name location) := by
  intro houtput
  obtain ⟨hpath, last, hlast, hlocation, hparent⟩ := exists_last_of_resolve hresolve
  obtain ⟨-, last', hlast', hlocation', -⟩ := exists_last_of_resolve houtput
  have hname := Path.getLast?_names (Path.fileName_ne_nil hpath hslash)
  have hrenamed := Path.getLast?_names_withExtension path hextension
  -- If the two places were one, their last names would be the same, and so would the file names.
  rw [hlast] at hname
  rw [hlast', ← hlocation', hlocation, hname] at hrenamed
  have hsame := String.ofList_injective (Option.some.inj hrenamed)
  obtain rfl := Option.some.inj hname
  refine Path.renameExtension_ne ?_ (fun stem hstem hdot hstems => ?_) hsame.symm
  · intro hdots
    exact hparent (by rw [hdots])
  · exact h ⟨stem, hstem, hdot, hstems⟩

end FileSystem

/-! ### Runs -/

theorem toUTF8_eq_of_fromUTF8? {bytes : ByteArray} {text : String}
    (h : String.fromUTF8? bytes = some text) : text.toUTF8 = bytes := by
  rw [String.fromUTF8?] at h
  split at h
  · rw [← Option.some.inj h]
    rfl
  · cases h

/-- An input that compiles has content, and another content than its assembly. -/
theorem World.CompilesTo.exists_content {w : World} {path code : String}
    (h : w.CompilesTo path code) :
    ∃ bytes, w.files.read w.working path = .ok bytes ∧ bytes ≠ ByteArray.empty ∧
      bytes ≠ code.toUTF8 := by
  obtain ⟨source, ⟨bytes, hread, htext⟩, hcompile⟩ := h
  obtain rfl := toUTF8_eq_of_fromUTF8? htext
  refine ⟨_, hread, fun hempty => ?_, fun hsame => ?_⟩
  · obtain rfl : source = "" := String.toByteArray_inj.1 hempty
    have hnone : (Naja.compile "").toOption = none := by decide +kernel
    rw [hcompile] at hnone
    cases hnone
  · exact Naja.ne_of_compile hcompile (String.toByteArray_inj.1 hsame)

namespace Request.Ends

variable {request : Request} {w w' : World} {result : Except RunError Unit}

theorem read_input_of_not_hasExtension (h : request.Ends w result w')
    (houtput : request.outputPath = Path.withExtension request.input assemblyExtension)
    (hname : ¬ Path.HasExtension request.input assemblyExtension) :
    w'.files.read w.working request.input = w.files.read w.working request.input := by
  cases h with
  | rejected _ hsame => rw [hsame.files_eq]
  | unwritten _ _ hsame => rw [hsame.files_eq]
  | written hcode hwrite hsame _ =>
      obtain ⟨source, ⟨bytes, hread, -⟩, -⟩ := hcode
      obtain ⟨location, hresolve, hslash, -⟩ := FileSystem.read_eq_ok hread
      have hplace := FileSystem.resolve_withExtension_ne (by decide) hresolve hslash hname
      rw [houtput] at hwrite
      rw [hsame.files_eq, World.read_of_write_elsewhere hwrite hresolve hplace]

/-- An input that is its own output is written over. -/
theorem read_input_of_outputPath_eq {code : String} (h : request.Ends w result w')
    (houtput : request.outputPath = request.input) (hcode : w.CompilesTo request.input code) :
    w'.files.read w.working request.input = .ok code.toUTF8 := by
  obtain ⟨bytes, hread, hcontent, -⟩ := hcode.exists_content
  obtain ⟨location, hsink⟩ := FileSystem.exists_sink_of_read hread hcontent
  have hwrite : w.write request.outputPath code =
      .ok { w with files := w.files.set location (.file code.toUTF8) } := by
    rw [houtput, World.write, hsink]
    rfl
  rw [h.files_eq hcode hwrite]
  exact FileSystem.read_set_of_sink hsink

end Request.Ends

/-- A run without an output option leaves what is read at the input path as it was, unless the
path has the extension of assembly and what is read there compiles: then the assembly is read
there afterwards. -/
theorem input_kept_unless_named_assembly (surroundings : Surroundings) (arguments : List String)
    (request : Request)
    (accepted : Command.parse surroundings.assembler arguments = .ok (.compile request))
    (hdefault : request.output = none) (w : World) :
    let w' := (run World.host surroundings arguments w).2
    (w'.files.read w.working request.input = w.files.read w.working request.input ↔
      ¬ (Path.HasExtension request.input "asm" ∧ ∃ code, w.CompilesTo request.input code)) ∧
    (Path.HasExtension request.input "asm" → ∀ code, w.CompilesTo request.input code →
      w'.files.read w.working request.input = .ok code.toUTF8) := by
  obtain ⟨result, hends, -⟩ := run_ends accepted w
  dsimp only
  generalize (run World.host surroundings arguments w).2 = w' at hends
  have houtput : request.outputPath = Path.withExtension request.input "asm" := by
    rw [Request.outputPath, hdefault, Option.getD_none, assemblyExtension]
  have hlost : Path.HasExtension request.input "asm" → ∀ code, w.CompilesTo request.input code →
      w'.files.read w.working request.input = .ok code.toUTF8 := by
    intro hname code hcode
    rw [Path.withExtension_eq_self (by decide) hname] at houtput
    exact hends.read_input_of_outputPath_eq houtput hcode
  refine ⟨⟨?_, fun hspared => ?_⟩, hlost⟩
  · rintro hsame ⟨hname, code, hcode⟩
    obtain ⟨bytes, hread, -, hne⟩ := hcode.exists_content
    have hassembly := hlost hname code hcode
    rw [hsame, hread] at hassembly
    exact hne (Except.ok.inj hassembly)
  · by_cases hname : Path.HasExtension request.input "asm"
    · have hfiles : w'.files = w.files := by
        refine Classical.byContradiction fun hchanged => ?_
        obtain ⟨code, -, hcode, -⟩ := hends.exists_written hchanged
        exact hspared ⟨hname, code, hcode⟩
      rw [hfiles]
    · exact hends.read_input_of_not_hasExtension houtput hname

/-- The source next to which the assembly is written is read unchanged. -/
theorem sourceWorld_keeps_source :
    Command.parse none ["p.naja"] = .ok (.compile { input := "p.naja" }) ∧
    (run World.host {} ["p.naja"] sourceWorld).2.files.read sourceWorld.working "p.naja" =
      .ok Naja.differenceSource.toUTF8 := by
  have hread : sourceWorld.files.read sourceWorld.working "p.naja" =
      .ok Naja.differenceSource.toUTF8 := Naja.eq_ok_of_toOption (by decide +kernel)
  have accepted : Command.parse none ["p.naja"] = .ok (.compile { input := "p.naja" }) :=
    Naja.eq_ok_of_toOption (by decide +kernel)
  refine ⟨accepted, ?_⟩
  rw [← hread]
  refine (input_kept_unless_named_assembly {} ["p.naja"] { input := "p.naja" } accepted rfl
    sourceWorld).1.2 ?_
  rintro ⟨⟨stem, -, -, hname⟩, -⟩
  have hlast := congrArg List.getLast? hname
  simp [Path.fileName, splitLast?] at hlast

/-- A source whose name has the extension of assembly. -/
def assemblyWorld : World where
  files := ⟨[(["p.asm"], .file Naja.differenceSource.toUTF8)]⟩
  working := []
  searchPath := []
  programs := []
  printed := ""

theorem input_not_always_spared :
    ¬ ∀ (surroundings : Surroundings) (arguments : List String) (request : Request) (w : World),
      Command.parse surroundings.assembler arguments = .ok (.compile request) →
      request.output = none → request.assembler = none →
      (run World.host surroundings arguments w).2.files.read w.working request.input =
        w.files.read w.working request.input := by
  intro hspared
  let surroundings : Surroundings := {}
  have accepted : Command.parse surroundings.assembler ["p.asm"] =
      .ok (.compile { input := "p.asm" }) := Naja.eq_ok_of_toOption (by decide +kernel)
  have hread : assemblyWorld.files.read assemblyWorld.working "p.asm" =
      .ok Naja.differenceSource.toUTF8 := Naja.eq_ok_of_toOption (by decide +kernel)
  have htext : String.fromUTF8? Naja.differenceSource.toUTF8 = some Naja.differenceSource := by
    decide +kernel
  obtain ⟨p, -, -, hcompile⟩ := Naja.exists_compiled_of_parse Naja.parse_differenceSource
  have hcode : assemblyWorld.CompilesTo "p.asm" p.program.assembly :=
    ⟨_, ⟨_, hread, htext⟩, hcompile⟩
  obtain ⟨bytes, hbytes, -, hne⟩ := hcode.exists_content
  obtain ⟨result, hends, -⟩ := run_ends accepted assemblyWorld
  have hlost := hends.read_input_of_outputPath_eq (by decide +kernel) hcode
  rw [hspared surroundings _ _ _ accepted rfl rfl, hbytes] at hlost
  exact hne (Except.ok.inj hlost)

end CommandLine

end GrammarCompiler
