import Mathlib.Tactic.Common
import Sentential.CommandLine.Program
import Sentential.Proofs.Decoding

/-!
# Formulas from a file and from standard input

A command line that names a file is answered as the same command line without the file is on
standard input, if both inputs have the same lines (`executeWith_withFile`). A file has more line
ends than a stream: what is read from a file is what is read from standard input after every further
line end was replaced by a line feed (`streamLines_lineFeeds`), and from the same text only if there
is none to replace.
-/

namespace Sentential

/-! ## Lines of files and of streams -/

namespace Text

/-- A text with a line feed for every line end of a file. -/
def lineFeeds (s : String) : String :=
  .ofList ((unifyLineEnds s.toList).map fun c => if isLineBoundary c then '\n' else c)

variable {cs : List Char}

theorem not_mem_unifyLineEnds (cs : List Char) : '\r' ∉ unifyLineEnds cs := by
  fun_induction unifyLineEnds cs with
  | case1 rest ih => simp [ih]
  | case2 rest _ ih => simp [ih]
  | case3 c rest _ hc ih =>
      rw [List.mem_cons, not_or]
      exact ⟨fun heq => hc heq.symm, ih⟩
  | case4 => exact List.not_mem_nil

theorem mem_or_eq_of_mem_unifyLineEnds {c : Char} (h : c ∈ unifyLineEnds cs) :
    c ∈ cs ∨ c = '\n' := by
  fun_induction unifyLineEnds cs <;> grind

theorem mem_unifyLineEnds {c : Char} (h : c ∈ cs) (hc : c ≠ '\r') : c ∈ unifyLineEnds cs := by
  fun_induction unifyLineEnds cs <;> grind

theorem unifyLineEnds_eq_self (h : '\r' ∉ cs) : unifyLineEnds cs = cs := by
  fun_induction unifyLineEnds cs <;> simp_all

/-- The pieces stay the same under a change of the characters between them. -/
theorem piecesFrom_map {ends ends' : Char → Bool} {g : Char → Char}
    (h : ∀ c ∈ cs, ends (g c) = ends' c ∧ (ends' c = false → g c = c)) (line : List Char) :
    piecesFrom ends line (cs.map g) = piecesFrom ends' line cs := by
  induction cs generalizing line with
  | nil => rfl
  | cons c rest ih =>
      obtain ⟨⟨hends, hkept⟩, hrest⟩ := List.forall_mem_cons.1 h
      rw [List.map_cons, piecesFrom, piecesFrom, hends]
      cases hend : ends' c with
      | true => rw [if_pos rfl, if_pos rfl, ih hrest]
      | false => rw [if_neg Bool.false_ne_true, if_neg Bool.false_ne_true, hkept hend, ih hrest]

/-- The lines of a file are the lines of a stream in which every line end of a file is a line
feed. -/
theorem streamLines_lineFeeds (s : String) : streamLines (lineFeeds s) = textLines s := by
  -- nothing is left for a stream to unify
  have hreturn :
      '\r' ∉ (unifyLineEnds s.toList).map fun c => if isLineBoundary c then '\n' else c := by
    rw [List.mem_map]
    rintro ⟨c, hmem, hc⟩
    split at hc
    · exact absurd hc (by decide)
    · exact not_mem_unifyLineEnds _ (hc ▸ hmem)
  rw [streamLines, lineFeeds, String.toList_ofList, unifyLineEnds_eq_self hreturn, textLines,
    piecesFrom_map]
  intro c _
  by_cases hc : isLineBoundary c
  · simp [hc]
  · have hfeed : c ≠ '\n' := fun heq => hc (heq ▸ rfl)
    simp [hc, hfeed]

theorem ends_eq_false_of_mem_piecesFrom {ends : Char → Bool} {line piece : List Char}
    (hline : ∀ c ∈ line, ends c = false) (h : piece ∈ piecesFrom ends line cs) :
    ∀ c ∈ piece, ends c = false := by
  induction cs generalizing line with
  | nil =>
      rw [piecesFrom] at h
      split at h
      · exact absurd h List.not_mem_nil
      · rw [List.mem_singleton.1 h]
        exact fun c hc => hline c (List.mem_reverse.1 hc)
  | cons d rest ih =>
      rw [piecesFrom] at h
      split at h
      · rcases List.mem_cons.1 h with rfl | h
        · exact fun c hc => hline c (List.mem_reverse.1 hc)
        · exact ih (fun _ hc => absurd hc List.not_mem_nil) h
      · next hd => exact ih (List.forall_mem_cons.2 ⟨Bool.eq_false_iff.2 hd, hline⟩) h

theorem exists_mem_piecesFrom {ends : Char → Bool} {c : Char} (hc : ends c = false)
    {line : List Char} (h : c ∈ line ∨ c ∈ cs) : ∃ piece ∈ piecesFrom ends line cs, c ∈ piece := by
  induction cs generalizing line with
  | nil =>
      have hline : c ∈ line := h.resolve_right List.not_mem_nil
      rw [piecesFrom, if_neg (by simpa using List.ne_nil_of_mem hline)]
      exact ⟨_, List.mem_singleton_self _, List.mem_reverse.2 hline⟩
  | cons d rest ih =>
      rw [piecesFrom]
      split
      · next hd =>
          rcases h with hline | h
          · exact ⟨_, List.mem_cons_self, List.mem_reverse.2 hline⟩
          · have hrest : c ∈ rest :=
              (List.mem_cons.1 h).resolve_left fun heq => by simp [← heq, hc] at hd
            obtain ⟨piece, hmem, hpiece⟩ := ih (.inr hrest)
            exact ⟨piece, List.mem_cons_of_mem _ hmem, hpiece⟩
      · exact ih (by simpa [or_assoc, or_comm, or_left_comm] using h)

/-- A text has the same lines in a file as in a stream exactly if a line feed is its only line
end. -/
theorem streamLines_eq_textLines_iff (s : String) :
    streamLines s = textLines s ↔ ∀ c ∈ s.toList, isLineBoundary c = true → c = '\n' := by
  constructor
  · intro h c hmem hc
    by_contra hfeed
    -- the character would stay within a line of the stream, and no line of the file contains it
    have hreturn : c ≠ '\r' := fun heq => absurd hc (heq ▸ by decide)
    have hstream : ∃ piece ∈ piecesFrom (· == '\n') [] (unifyLineEnds s.toList), c ∈ piece := by
      apply exists_mem_piecesFrom
      · exact beq_eq_false_iff_ne.2 hfeed
      · exact .inr (mem_unifyLineEnds hmem hreturn)
    obtain ⟨piece, hpiece, hpieceMem⟩ := hstream
    have hline : String.ofList piece ∈ textLines s := h ▸ List.mem_map_of_mem hpiece
    obtain ⟨other, hother, heq⟩ := List.mem_map.1 hline
    have hends := ends_eq_false_of_mem_piecesFrom (fun _ hc => absurd hc List.not_mem_nil) hother c
      (String.ofList_inj.1 heq ▸ hpieceMem)
    exact Bool.false_ne_true (hends.symm.trans hc)
  · intro h
    rw [streamLines, textLines, ← List.map_id (unifyLineEnds s.toList), piecesFrom_map, List.map_id]
    intro c hmem
    refine ⟨?_, fun _ => rfl⟩
    rw [id_eq, Bool.eq_iff_iff, beq_iff_eq]
    refine ⟨fun heq => heq ▸ rfl, fun hc => ?_⟩
    rcases mem_or_eq_of_mem_unifyLineEnds hmem with hmem | hfeed
    · exact h c hmem hc
    · exact hfeed

end Text

/-! ## Naming a file -/

namespace CommandLine

/-- The settings with a file in case that they name none. -/
def Settings.withFile (file : String) (s : Settings) : Settings :=
  { s with file? := s.file?.or (some (some file)) }

/-- The second command line asks for what the first asks for, and for a file in case that the first
names none. -/
def NamesFile (file : String) (argv argvFile : List String) : Prop :=
  readArguments argvFile = (readArguments argv).map (Settings.withFile file)

section CarryOut

variable {s : Settings} {text : String} {argument : Argument} {rest : List (String × Argument)}

theorem carryOut_of_none (h : argument.bundle? = none) :
    carryOut s ((text, argument) :: rest) = (carryOut s rest).map fun p => (p.1, text :: p.2) := by
  rw [carryOut, h]
  dsimp only
  cases carryOut s rest <;> rfl

theorem carryOut_of_some {bundle : Except UsageFault Bundle} (h : argument.bundle? = some bundle) :
    carryOut s ((text, argument) :: rest) =
      (do
        let bundle ← bundle.mapError .usage
        let p ← (valueOf bundle.valued rest).mapError .usage
        let s ← s.apply bundle.enabled p.1
        carryOut s p.2) := by
  rw [carryOut, h]
  cases bundle with
  | error fault => rfl
  | ok bundle =>
      simp only [Except.mapError, bind, Except.bind]
      split
      · next hvalue => rw [hvalue]
      · next hvalue => rw [hvalue]

end CarryOut

section WithFile

variable (file : String)

theorem enable_withFile (s : Settings) (option : Switch) :
    (s.withFile file).enable option = (s.enable option).map (Settings.withFile file) := by
  cases option <;> rfl

theorem assign_withFile (s : Settings) (option : Switch) (value : Option String) :
    (s.withFile file).assign option value =
      (s.assign option value).map (Settings.withFile file) := by
  cases option with
  | maxVariables =>
      cases value with
      | none => rfl
      | some text =>
          rw [Settings.assign, Settings.assign]
          cases Decimal.readInteger? text <;> rfl
  | _ => rfl

theorem enableAll_withFile (s : Settings) (enabled : List Switch) :
    enabled.foldlM Settings.enable (s.withFile file) =
      (enabled.foldlM Settings.enable s).map (Settings.withFile file) := by
  induction enabled generalizing s with
  | nil => rfl
  | cons option rest ih =>
      rw [List.foldlM_cons, List.foldlM_cons, enable_withFile]
      cases s.enable option with
      | error stop => rfl
      | ok next => exact ih next

theorem apply_withFile (s : Settings) (enabled : List Switch)
    (valued : Option (Switch × Option String)) :
    (s.withFile file).apply enabled valued =
      (s.apply enabled valued).map (Settings.withFile file) := by
  rw [Settings.apply, Settings.apply, enableAll_withFile]
  cases enabled.foldlM Settings.enable s with
  | error stop => rfl
  | ok next =>
      cases valued with
      | none => rfl
      | some p => exact assign_withFile file next p.1 p.2

/-- The options are carried out alike whether or not a file is supplied in case that they name
none. -/
theorem carryOut_withFile (s : Settings) (arguments : List (String × Argument)) :
    carryOut (s.withFile file) arguments =
      (carryOut s arguments).map fun p => (p.1.withFile file, p.2) := by
  induction s, arguments using carryOut.induct with
  | case1 s =>
      rw [carryOut, carryOut]
      rfl
  | case2 s text argument rest h ih =>
      rw [carryOut_of_none h, carryOut_of_none h, ih]
      cases carryOut s rest <;> rfl
  | case3 s text argument rest bundle h ih =>
      -- the value of an option is found without regard to the settings
      rw [carryOut_of_some h, carryOut_of_some h]
      cases bundle with
      | error fault => rfl
      | ok bundle =>
          cases hvalue : valueOf bundle.valued rest with
          | error fault => simp [hvalue, Except.mapError, bind, Except.bind, Except.map]
          | ok p =>
              have hrest := ih bundle p.1 p.2 hvalue
              simp only [hvalue, Except.mapError, bind, Except.bind, apply_withFile]
              cases s.apply bundle.enabled p.1 with
              | error stop => rfl
              | ok next => exact hrest next

end WithFile

/-- A file whose name is no option can be named at the beginning of every command line. -/
theorem namesFile_cons {file : String} (h : classify file = .ok .plain) (argv : List String) :
    NamesFile file argv ("-f" :: file :: argv) := by
  have hseparator : file ≠ "--" := by
    rintro rfl
    cases h
  have hkinds : classifyAll ("-f" :: file :: argv) =
      (classifyAll argv).map fun kinds => ("-f", .short .file none) :: (file, .plain) :: kinds := by
    rw [classifyAll, if_neg (by decide), classifyAll, if_neg hseparator, h]
    cases classifyAll argv <;> rfl
  rw [NamesFile, readArguments, readArguments, hkinds]
  cases classifyAll argv with
  | error fault => rfl
  | ok kinds =>
      have hcarry : carryOut .initial (("-f", .short .file none) :: (file, .plain) :: kinds) =
          carryOut (Settings.initial.withFile file) kinds := by
        have hbundle : (Argument.short .file none).bundle? = some (.ok ⟨[], some (.file, none)⟩) :=
          rfl
        rw [carryOut_of_some hbundle]
        rfl
      simp only [Except.map, Except.mapError, bind, Except.bind]
      rw [hcarry, carryOut_withFile]
      cases carryOut .initial kinds with
      | error stop => rfl
      | ok p =>
          obtain ⟨s, extras⟩ := p
          cases extras <;> rfl

/-! ## What the program does -/

variable {file : String} {env env' : Environment} {s : Settings}

theorem Settings.input_eq_stdin_iff : s.input = .stdin ↔ s.formulas = [] ∧ s.file? = none := by
  rw [Settings.input]
  cases s.formulas <;> cases s.file? <;> simp

theorem formulaLines_utf8Bytes (text : String) :
    formulaLines (.ok (Text.Utf8.utf8Bytes text)) = .ok (Text.textLines text) := by
  simp only [formulaLines, Except.mapError, bind, Except.bind, Text.Utf8.decode_utf8Bytes]
  rfl

/-- A file is processed as standard input with the same lines is. -/
theorem executeWith_withFile {text : String} (h : s.input = .stdin)
    (hfile : env.readBytes (.ofString file) = .ok (Text.Utf8.utf8Bytes text))
    (hstdin : Text.streamLines env'.stdin = Text.textLines text)
    (hcomplete : env'.interrupted = false) :
    executeWith env (s.withFile file) = executeWith env' s := by
  obtain ⟨hformulas, hnone⟩ := Settings.input_eq_stdin_iff.1 h
  have hinput : (s.withFile file).input = .file (some (.ofString file)) := by
    simp [Settings.input, Settings.withFile, hformulas, hnone]
  have hwithin (registry : Registry) (limit : Int) :
      executeWithin env registry (s.withFile file) limit = executeWithin env' registry s limit := by
    rw [executeWithin, executeWithin, hinput, h]
    dsimp only
    rw [hfile, formulaLines_utf8Bytes, hstdin, hcomplete]
    rfl
  rw [executeWith, executeWith]
  simp only [hwithin]
  rfl

/-- Formulas are read alike from a file and from standard input, except that a line of a file ends
at more characters. -/
theorem execute_namesFile {file text : String} {argv : List String} {env env' : Environment}
    (hargv : ∀ s, readArguments argv = .ok s → s.input = .stdin)
    (hfile : env.readBytes (.ofString file) = .ok (Text.Utf8.utf8Bytes text))
    (hcomplete : env'.interrupted = false) :
    (classify file = .ok .plain → NamesFile file argv ("-f" :: file :: argv)) ∧
      ∀ argvFile, NamesFile file argv argvFile →
        (env'.stdin = Text.lineFeeds text → execute env argvFile = execute env' argv) ∧
          ((∀ c ∈ text.toList, Text.isLineBoundary c = true → c = '\n') → env'.stdin = text →
            execute env argvFile = execute env' argv) := by
  refine ⟨fun h => namesFile_cons h argv, fun argvFile hnames => ?_⟩
  have hexecute (hstdin : Text.streamLines env'.stdin = Text.textLines text) :
      execute env argvFile = execute env' argv := by
    rw [execute, execute, hnames]
    cases hread : readArguments argv with
    | error stop =>
        -- the program ends before it looks at its environment
        cases stop <;> rfl
    | ok s => exact executeWith_withFile (hargv s hread) hfile hstdin hcomplete
  refine ⟨fun hfeeds => hexecute ?_, fun hends hsame => hexecute ?_⟩
  · rw [hfeeds, Text.streamLines_lineFeeds]
  · rw [hsame, (Text.streamLines_eq_textLines_iff text).2 hends]

/-- Two formulas and a comment, with the line ends of another system. -/
theorem execute_namesFile_notes :
    let text := "p and q\r\n# note\r\nnot r"
    let files : Store := ⟨[("f.txt", .file (Text.Utf8.utf8Bytes text))]⟩
    execute ⟨"", false, files.read⟩ ["-f", "f.txt", "--no-color", "-v"] =
      execute ⟨text, false, fun _ => .error .notFound⟩ ["--no-color", "-v"] := by
  intro text files
  have hread : readArguments ["--no-color", "-v"] =
      .ok { Settings.initial with noColor := true, verbose := true } := by
    decide +kernel
  have hargv : ∀ s, readArguments ["--no-color", "-v"] = .ok s → s.input = .stdin := by
    intro s hs
    cases hread.symm.trans hs
    rfl
  have hfile : files.read (.ofString "f.txt") = .ok (Text.Utf8.utf8Bytes text) := rfl
  have hall : (text.toList.all fun c => !Text.isLineBoundary c || c == '\n') = true := by
    decide +kernel
  have hends : ∀ c ∈ text.toList, Text.isLineBoundary c = true → c = '\n' := by
    intro c hmem hc
    simpa [hc] using List.all_eq_true.1 hall c hmem
  obtain ⟨hfront, hsame⟩ :=
    @execute_namesFile "f.txt" text ["--no-color", "-v"] ⟨"", false, files.read⟩
    ⟨text, false, fun _ => .error .notFound⟩ hargv hfile rfl
  exact (hsame _ (hfront rfl)).2 hends rfl

/-- A form feed within a comment ends a line of a file, and not of standard input. -/
theorem execute_formFeed :
    let text := "# a\x0cp and"
    let files : Store := ⟨[("f.txt", .file (Text.Utf8.utf8Bytes text))]⟩
    execute ⟨"", false, files.read⟩ ["-f", "f.txt", "--no-color"] =
        ⟨.exit 1, "", "❌ line 2: p and: '∧' is missing its right operand: 'p ∧'\n" ++
          "⚠️  1 of 1 formula(s) failed\n"⟩ ∧
      execute ⟨text, false, files.read⟩ ["--no-color"] = ⟨.exit 0, "", ""⟩ := by
  decide +kernel

end CommandLine

end Sentential
