/-
Module: CLike.CommandLine.Report
Layer: Command line
Purpose: What a command prints and how it exits.
Main exports: ReadFailure, Report, tokenListing, treeListing, Request.report, Command.report
-/
import CLike.CommandLine.Command
import CLike.Lexeme.Scan
import CLike.Node.Dump
import CLike.Statement

namespace CLike

/-- Why a source file cannot be read. -/
inductive ReadFailure where
  | notFound
  | notPermitted
  | notFolder
  | isFolder
  | nameTooLong
  | notText
  | other (code : Nat) (description : String)
deriving Repr, DecidableEq

namespace ReadFailure

/-- The wording of a failure. -/
def message : ReadFailure → String
  | notFound => "No such file or directory (os error 2)"
  | notPermitted => "Permission denied (os error 13)"
  | notFolder => "Not a directory (os error 20)"
  | isFolder => "Is a directory (os error 21)"
  | nameTooLong => "File name too long (os error 36)"
  | notText => "stream did not contain valid UTF-8"
  | other code description => description ++ " (os error " ++ code.repr ++ ")"

/-- The failure that an operating system reports by a number. -/
def ofCode (code : Nat) (description : String) : ReadFailure :=
  match code with
  | 2 => notFound
  | 13 => notPermitted
  | 20 => notFolder
  | 21 => isFolder
  | 36 => nameTooLong
  | _ => other code description

end ReadFailure

/-- What a run leaves behind: its exit code and the two streams that it wrote. -/
structure Report where
  code : Nat
  output : String
  errors : String
deriving Repr, DecidableEq

/-- One line per token: its place, its class and its text, with tabs between them. -/
def tokenListing (tokens : List Token) : String :=
  .join (tokens.map fun token =>
    token.position.text ++ "\t" ++ token.kind.label ++ "\t" ++ token.text ++ "\n")

/-- One line per tree. -/
def treeListing (nodes : List Node) : String :=
  .join (nodes.map fun node => node.dump ++ "\n")

namespace Report

/-- The report of a run that printed some output and then failed. -/
def failure (output context cause : String) : Report :=
  ⟨1, output, "Error: " ++ context ++ "\n\nCaused by:\n    " ++ cause ++ "\n"⟩

/-- The report of a run that went well. -/
def success (output : String) : Report := ⟨0, output, ""⟩

end Report

/-- The text in a file. -/
def decodeSource (content : ByteArray) : Except ReadFailure String :=
  match String.fromUTF8? content with
  | some source => .ok source
  | none => .error .notText

namespace Request

/-- Prints the trees of some tokens, behind what has been printed already.  If the tokens are no
program, no tree is printed at all. -/
def reportTrees (request : Request) (output : String) (tokens : List Token) : Report :=
  if request.showTrees then
    match parseProgram tokens with
    | .ok nodes => .success (output ++ treeListing nodes)
    | .error cause => .failure output ("failed to parse " ++ request.path) cause.message
  else .success output

/-- Prints what is asked for of a source text: first the tokens, then the trees. -/
def reportSource (request : Request) (source : String) : Report :=
  match lex source with
  | .ok tokens =>
    request.reportTrees (if request.listTokens then tokenListing tokens else "") tokens
  | .error cause => .failure "" ("failed to lex " ++ request.path) cause.message

/-- Answers a request, given what reading its file has brought. -/
def report (request : Request) (content : Except ReadFailure ByteArray) : Report :=
  match content.bind decodeSource with
  | .ok source => request.reportSource source
  | .error cause => .failure "" ("failed to read source file " ++ request.path) cause.message

end Request

/-- The name and version of the program. -/
def versionText : String := "minicc 0.1.0\n"

/-- A short description of the program and its options. -/
def helpText : String :=
  versionText ++
  "lexer and parser front end for a small C-like language\n" ++
  "\n" ++
  "USAGE:\n" ++
  "    minicc [FLAGS] <SOURCE>\n" ++
  "\n" ++
  "FLAGS:\n" ++
  "    -h, --help       Prints help information\n" ++
  "        --parse      parse the tokens and print the syntax tree\n" ++
  "        --tokens     print every token with its position\n" ++
  "    -V, --version    Prints version information\n" ++
  "\n" ++
  "ARGS:\n" ++
  "    <SOURCE>    the source file to compile\n"

/-- What is printed when the arguments cannot be understood. -/
def usageText : String := "Unsupported syntax!\nSupported Syntax: minicc <code.c>\n"

/-- Carries out a command, reading files in whatever way `read` does. -/
def Command.report {m : Type → Type} [Monad m] (read : String → m (Except ReadFailure ByteArray)) :
    Command → m Report
  | .help => return .success helpText
  | .version => return .success versionText
  | .refused => return ⟨1, usageText, ""⟩
  | .compile request => return request.report (← read request.path)

end CLike
