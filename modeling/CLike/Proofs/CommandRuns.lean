/-
Module: CLike.Proofs.CommandRuns
Layer: Proofs
Purpose: What a run prints and how it exits, for one source file and all choices of what is to be
  printed: tokens and trees are printed independently of each other, and each as a whole or not at
  all.
Main exports: LexesTo, Request.report_of_lexesTo, Request.report_of_refused, lines_treeListing,
  Command.run, FourWays, PrintsIndependently, runs_print_independently
-/
import CLike.Proofs.DumpReading

namespace CLike

/-!
### How far a source file gets

A file is refused before anything is printed, or its tokens are there and may be no program, or its
trees are there as well.
-/

theorem bind_decodeSource_eq_ok_iff {content : Except ReadFailure ByteArray} {source : String} :
    content.bind decodeSource = .ok source ↔
      ∃ bytes, content = .ok bytes ∧ String.fromUTF8? bytes = some source := by
  cases content with
  | error failure => simp [Except.bind]
  | ok bytes =>
      cases decoded : String.fromUTF8? bytes with
      | none => simp [Except.bind, decodeSource, decoded]
      | some text => simp [Except.bind, decodeSource, decoded]

/-- The file could be read, it is text, and the text has these tokens. -/
def LexesTo (content : Except ReadFailure ByteArray) (tokens : List Token) : Prop :=
  ∃ bytes source, content = .ok bytes ∧ String.fromUTF8? bytes = some source ∧
    lex source = .ok tokens

theorem lexesTo_iff {content : Except ReadFailure ByteArray} {tokens : List Token} :
    LexesTo content tokens ↔
      ∃ source, content.bind decodeSource = .ok source ∧ lex source = .ok tokens := by
  simp only [bind_decodeSource_eq_ok_iff]
  constructor
  · rintro ⟨bytes, source, read, decoded, lexed⟩
    exact ⟨source, ⟨bytes, read, decoded⟩, lexed⟩
  · rintro ⟨source, ⟨bytes, read, decoded⟩, lexed⟩
    exact ⟨bytes, source, read, decoded, lexed⟩

/-- A file has the tokens of one text. -/
theorem LexesTo.unique {content : Except ReadFailure ByteArray} {tokens others : List Token}
    (lexes : LexesTo content tokens) (lexesToo : LexesTo content others) : tokens = others := by
  obtain ⟨source, decoded, lexed⟩ := lexesTo_iff.mp lexes
  obtain ⟨sourceToo, decodedToo, lexedToo⟩ := lexesTo_iff.mp lexesToo
  obtain rfl := Except.ok.inj (decoded.symm.trans decodedToo)
  exact Except.ok.inj (lexed.symm.trans lexedToo)

/-- A failure is always explained. -/
theorem Report.failure_errors (output context cause : String) :
    (Report.failure output context cause).errors = "" ↔
      (Report.failure output context cause).code = 0 := by
  refine iff_of_false (fun silent => ?_) nofun
  have texts := congrArg String.toList silent
  simp [Report.failure] at texts

theorem Report.success_errors (output : String) :
    (Report.success output).errors = "" ↔ (Report.success output).code = 0 :=
  iff_of_true rfl rfl

namespace Request

variable {content : Except ReadFailure ByteArray}

/-- A request for a file that lexes is answered from the tokens. -/
theorem report_of_lexesTo {tokens : List Token} (lexes : LexesTo content tokens)
    (request : Request) :
    request.report content =
      request.reportTrees (if request.listTokens then tokenListing tokens else "") tokens := by
  obtain ⟨source, decoded, lexed⟩ := lexesTo_iff.mp lexes
  rw [report, decoded]
  dsimp only
  rw [reportSource, lexed]

/-- Where a file cannot be read, is no text or does not lex, nothing is printed, and the failure is
the same whatever is asked for. -/
theorem report_of_refused (refused : ¬∃ tokens, LexesTo content tokens) (path : String) :
    ∃ context cause, ∀ listTokens showTrees,
      report ⟨path, listTokens, showTrees⟩ content = .failure "" context cause := by
  cases decoded : content.bind decodeSource with
  | error cause =>
      refine ⟨"failed to read source file " ++ path, cause.message, fun _ _ => ?_⟩
      rw [report, decoded]
  | ok source =>
      cases lexed : lex source with
      | error cause =>
          refine ⟨"failed to lex " ++ path, cause.message, fun _ _ => ?_⟩
          rw [report, decoded]
          dsimp only
          rw [reportSource, lexed]
      | ok tokens => exact absurd ⟨tokens, lexesTo_iff.mpr ⟨source, decoded, lexed⟩⟩ refused

end Request

/-!
### One line for each tree
-/

/-- The lines of a listing are the symbolic expressions, if each of them is in one line. -/
theorem lines_treeListing {nodes : List Node} (sameLine : ∀ node ∈ nodes, '\n' ∉ node.dump.toList) :
    Text.lines (treeListing nodes).toList = nodes.map (·.dump.toList) := by
  have listed : (treeListing nodes).toList =
      (nodes.map (·.dump.toList)).flatMap (· ++ ['\n']) := by
    simp [treeListing, List.flatMap_map]
  rw [listed]
  exact Text.lines_flatMap_newline (List.forall_mem_map.mpr sameLine)

/-- The trees of a source text are listed in one line each. -/
theorem LexesTo.lines_treeListing {content : Except ReadFailure ByteArray} {tokens : List Token}
    {nodes : List Node} (lexes : LexesTo content tokens)
    (parsed : parseProgram tokens = .ok nodes) :
    Text.lines (treeListing nodes).toList = nodes.map (·.dump.toList) := by
  obtain ⟨_, source, -, -, lexed⟩ := lexes
  apply CLike.lines_treeListing
  intro node member
  exact (isCanonical_of_parseProgram lexed parsed node member).legible.sameLine

/-!
### Four runs
-/

/-- The report of a run with some arguments, where they mean what `understand` says and files are
as `read` says. -/
def Command.run (understand : List String → Command)
    (read : String → Except ReadFailure ByteArray) (arguments : List String) : Report :=
  (understand arguments).report (m := Id) read

/-- Arguments that ask for a file to be compiled are answered with the report on the file. -/
theorem Command.run_compile {understand : List String → Command} {arguments : List String}
    {path : String} {listTokens showTrees : Bool}
    (understood : understand arguments = .compile ⟨path, listTokens, showTrees⟩)
    (read : String → Except ReadFailure ByteArray) :
    Command.run understand read arguments =
      Request.report ⟨path, listTokens, showTrees⟩ (read path) := by
  rw [run, understood]
  rfl

/-- Four lists of arguments that are understood and name the same source file.  They ask for
nothing to be printed, for the tokens, for the trees, and for both. -/
structure FourWays (understand : List String → Command) (path : String)
    (silent tokens trees both : List String) : Prop where
  silent : understand silent = .compile ⟨path, false, false⟩
  tokens : understand tokens = .compile ⟨path, true, false⟩
  trees : understand trees = .compile ⟨path, false, true⟩
  both : understand both = .compile ⟨path, true, true⟩

/-- How the reports of four runs on a file with some content go together, if they were asked for
nothing, for the tokens, for the trees, and for both. -/
structure PrintsIndependently (content : Except ReadFailure ByteArray)
    (silent tokens trees both : Report) : Prop where
  both_output : both.output = tokens.output ++ trees.output
  both_exit : both.code = trees.code ∧ both.errors = trees.errors
  silent_output : silent.output = ""
  silent_exit : silent.code = tokens.code ∧ silent.errors = tokens.errors
  tokens_code : tokens.code = 0 ↔ ∃ found, LexesTo content found
  tokens_output : ∀ found, LexesTo content found → tokens.output = tokenListing found
  trees_code : trees.code = 0 ↔
    ∃ found nodes, LexesTo content found ∧ parseProgram found = .ok nodes
  /-- One line for each statement. -/
  trees_output : ∀ found nodes, LexesTo content found → parseProgram found = .ok nodes →
    trees.output = treeListing nodes ∧ Text.lines trees.output.toList = nodes.map (·.dump.toList)
  /-- Nothing is printed of a file that cannot be read or does not lex. -/
  refused : (¬∃ found, LexesTo content found) →
    ∀ report ∈ [silent, tokens, trees, both], report.output = ""
  /-- No tree is printed of tokens that are no program, also if they start with statements. -/
  unparsed : ∀ found cause, LexesTo content found → parseProgram found = .error cause →
    trees.output = "" ∧ both.output = tokens.output
  errors : ∀ report ∈ [silent, tokens, trees, both], report.errors = "" ↔ report.code = 0

namespace PrintsIndependently

variable {content : Except ReadFailure ByteArray} {context cause : String} {found : List Token}

/-- What a run that fails before it prints leaves behind. -/
theorem of_refused (refused : ¬∃ found, LexesTo content found) :
    let report := Report.failure "" context cause
    PrintsIndependently content report report report report where
  both_output := rfl
  both_exit := ⟨rfl, rfl⟩
  silent_output := rfl
  silent_exit := ⟨rfl, rfl⟩
  tokens_code := iff_of_false nofun refused
  tokens_output _ lexes := absurd ⟨_, lexes⟩ refused
  trees_code := iff_of_false nofun fun ⟨found, _, lexes, _⟩ => refused ⟨found, lexes⟩
  trees_output _ _ lexes _ := absurd ⟨_, lexes⟩ refused
  refused _ report member := by
    simp only [List.mem_cons, List.not_mem_nil, or_false, or_self] at member
    rw [member]
    rfl
  unparsed _ _ lexes _ := absurd ⟨_, lexes⟩ refused
  errors report member := by
    simp only [List.mem_cons, List.not_mem_nil, or_false, or_self] at member
    rw [member]
    exact Report.failure_errors ..

/-- What runs leave behind where the tokens are no program. -/
theorem of_unparsed {fault : GrammarError} (lexes : LexesTo content found)
    (unparsed : parseProgram found = .error fault) :
    PrintsIndependently content (.success "") (.success (tokenListing found))
      (.failure "" context cause) (.failure (tokenListing found) context cause) where
  both_output := String.append_empty.symm
  both_exit := ⟨rfl, rfl⟩
  silent_output := rfl
  silent_exit := ⟨rfl, rfl⟩
  tokens_code := iff_of_true rfl ⟨found, lexes⟩
  tokens_output others lexesToo := by
    rw [lexesToo.unique lexes]
    rfl
  trees_code := by
    refine iff_of_false nofun ?_
    rintro ⟨others, nodes, lexesToo, parsed⟩
    rw [lexesToo.unique lexes, unparsed] at parsed
    cases parsed
  trees_output others nodes lexesToo parsed := by
    rw [lexesToo.unique lexes, unparsed] at parsed
    cases parsed
  refused refused := absurd ⟨found, lexes⟩ refused
  unparsed _ _ _ _ := ⟨rfl, rfl⟩
  errors := by
    simp only [List.forall_mem_cons]
    exact ⟨Report.success_errors _, Report.success_errors _, Report.failure_errors ..,
      Report.failure_errors .., List.forall_mem_nil _⟩

/-- What runs leave behind where the tokens are a program. -/
theorem of_parsed {nodes : List Node} (lexes : LexesTo content found)
    (parsed : parseProgram found = .ok nodes) :
    PrintsIndependently content (.success "") (.success (tokenListing found))
      (.success (treeListing nodes)) (.success (tokenListing found ++ treeListing nodes)) where
  both_output := rfl
  both_exit := ⟨rfl, rfl⟩
  silent_output := rfl
  silent_exit := ⟨rfl, rfl⟩
  tokens_code := iff_of_true rfl ⟨found, lexes⟩
  tokens_output others lexesToo := by
    rw [lexesToo.unique lexes]
    rfl
  trees_code := iff_of_true rfl ⟨found, nodes, lexes, parsed⟩
  trees_output others trees lexesToo parsedToo := by
    rw [lexesToo.unique lexes, parsed] at parsedToo
    obtain rfl := Except.ok.inj parsedToo
    exact ⟨rfl, lexes.lines_treeListing parsed⟩
  refused refused := absurd ⟨found, lexes⟩ refused
  unparsed others fault lexesToo unparsed := by
    rw [lexesToo.unique lexes, parsed] at unparsed
    cases unparsed
  errors := by
    simp only [List.forall_mem_cons]
    exact ⟨Report.success_errors _, Report.success_errors _, Report.success_errors _,
      Report.success_errors _, List.forall_mem_nil _⟩

end PrintsIndependently

/-- The two dumps of the command line are independent, and each is printed as a whole or not at all.
With both of them a run prints the tokens and then the trees, and it exits as with the trees alone.
Without either, nothing is printed, and a run exits as with the tokens alone.  This is well exactly
if the file is text that lexes, and then all its tokens are printed where they were asked for.  With
the trees its tokens must also be a program, which is printed with one line for each statement.
Errors are reported exactly if the exit code is not 0.

How the arguments are read does not matter, as long as all four lists of them are understood. -/
theorem runs_print_independently {understand : List String → Command} {path : String}
    {silent tokens trees both : List String}
    (ways : FourWays understand path silent tokens trees both)
    (read : String → Except ReadFailure ByteArray) :
    let run := Command.run understand read
    PrintsIndependently (read path) (run silent) (run tokens) (run trees) (run both) := by
  intro run
  have runSilent : run silent = _ := Command.run_compile ways.silent read
  have runTokens : run tokens = _ := Command.run_compile ways.tokens read
  have runTrees : run trees = _ := Command.run_compile ways.trees read
  have runBoth : run both = _ := Command.run_compile ways.both read
  rw [runSilent, runTokens, runTrees, runBoth]
  generalize read path = content
  by_cases lexes : ∃ found, LexesTo content found
  · obtain ⟨found, lexes⟩ := lexes
    simp only [Request.report_of_lexesTo lexes, Request.reportTrees]
    cases parsed : parseProgram found with
    | error fault => exact .of_unparsed lexes parsed
    | ok nodes => exact .of_parsed lexes parsed
  · obtain ⟨context, cause, failed⟩ := Request.report_of_refused lexes path
    simp only [failed]
    exact .of_refused lexes

/-- A call and a number that cannot stand alone: the tree of the call is not printed. -/
theorem runs_print_independently_call :
    let read : String → Except ReadFailure ByteArray := fun path =>
      if path = "a.c" then .ok "f();\n2;".toUTF8 else .error .notFound
    let found : List Token := [⟨.identifier, .text "f", ⟨1, 1⟩⟩, ⟨.leftParen, .text "(", ⟨1, 2⟩⟩,
      ⟨.rightParen, .text ")", ⟨1, 3⟩⟩, ⟨.semicolon, .text ";", ⟨1, 4⟩⟩,
      ⟨.integer, .integer 2, ⟨2, 1⟩⟩, ⟨.semicolon, .text ";", ⟨2, 2⟩⟩]
    let tokens := ["a.c", "--tokens"]
    let trees := ["--parse", "--", "a.c"]
    let both := ["--parse", "a.c", "--tokens=1"]
    let listing := "1:1\tIdentifier\tf\n1:2\tLParens\t(\n1:3\tRParens\t)\n" ++
      "1:4\tSemicolon\t;\n2:1\tInteger\t2\n2:2\tSemicolon\t;\n"
    let run := Command.run Command.ofArguments read
    FourWays Command.ofArguments "a.c" ["a.c"] tokens trees both ∧ LexesTo (read "a.c") found ∧
      parseProgram found = .error .danglingExpression ∧
      (run tokens).code = 0 ∧ (run tokens).output = listing ∧
      (run trees).code ≠ 0 ∧ (run trees).output = "" ∧ (run trees).errors ≠ "" ∧
      (run both).output = (run tokens).output := by
  intro read found tokens trees both listing run
  have ways : FourWays Command.ofArguments "a.c" ["a.c"] tokens trees both :=
    ⟨by decide, by decide, by decide, by decide⟩
  have lexes : LexesTo (read "a.c") found := ⟨_, "f();\n2;", rfl, by decide, rfl⟩
  have unparsed : parseProgram found = .error .danglingExpression := by cbv
  have listed : tokenListing found = listing := rfl
  have reports := runs_print_independently ways read
  obtain ⟨noTree, sameOutput⟩ := reports.unparsed found _ lexes unparsed
  have failed : (run trees).code ≠ 0 := by
    intro exited
    obtain ⟨others, nodes, lexesToo, parsed⟩ := reports.trees_code.mp exited
    rw [lexesToo.unique lexes, unparsed] at parsed
    cases parsed
  have explained : (run trees).errors ≠ "" := mt (reports.errors _ (by simp [run])).mp failed
  exact ⟨ways, lexes, unparsed, reports.tokens_code.mpr ⟨found, lexes⟩,
    (reports.tokens_output found lexes).trans listed, failed, noTree, explained, sameOutput⟩

end CLike
