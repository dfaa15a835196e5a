/-
Module: CLike.CommandLine.Command
Layer: Command line
Purpose: What the arguments on a command line ask for.
Main exports: Request, Command, Command.ofArguments
-/

namespace CLike

/-- A source file to be read, and what is to be printed of it. -/
structure Request where
  path : String
  listTokens : Bool
  showTrees : Bool
deriving Repr, DecidableEq

/-- What a command line asks for. -/
inductive Command where
  | help
  | version
  | refused
  | compile (request : Request)
deriving Repr, DecidableEq

/-- What one argument is, while options are still looked for. -/
inductive Argument where
  | tokens
  | parse
  | help
  | version
  | unknownOption
  | endOfOptions
  | plain (text : String)
deriving Repr, DecidableEq

namespace Argument

/-- The option with a long name.  A value given to it is ignored. -/
def ofLongName (name : List Char) : Argument :=
  match String.ofList (name.takeWhile (· ≠ '=')) with
  | "tokens" => tokens
  | "parse" => parse
  | "help" => help
  | "version" => version
  | _ => unknownOption

/-- The option with a one-letter name. -/
def ofLetter : Char → Argument
  | 'h' => help
  | 'V' => version
  | _ => unknownOption

/-- Two dashes, and any more, stand before a long name, and one before letters, the first of which
decides.  A dash alone is no option. -/
def ofText (text : String) : Argument :=
  match text.toList with
  | ['-', '-'] => endOfOptions
  | '-' :: '-' :: name => ofLongName (name.dropWhile (· = '-'))
  | '-' :: letter :: _ => ofLetter letter
  | _ => plain text

end Argument

/-- What the arguments up to some place have said. -/
structure Arguments where
  path? : Option String
  tokens : Nat
  parse : Nat
deriving Repr, DecidableEq

namespace Arguments

/-- Before the first argument. -/
def none : Arguments := ⟨Option.none, 0, 0⟩

/-- The command when all arguments are read: there has to be a path, and no option twice. -/
def command (arguments : Arguments) : Command :=
  match arguments.path? with
  | Option.none => .refused
  | some path =>
    if arguments.tokens > 1 ∨ arguments.parse > 1 then .refused
    else .compile ⟨path, arguments.tokens == 1, arguments.parse == 1⟩

/-- Reads on where no more options are looked for.  A second path is refused. -/
def readPlain : Arguments → List String → Command
  | arguments, [] => arguments.command
  | arguments, text :: later =>
    if arguments.path?.isSome then .refused else readPlain { arguments with path? := text } later

/-- Reads on from left to right.  The first argument that asks for help or for the version, or that
cannot stand, decides. -/
def read : Arguments → List String → Command
  | arguments, [] => arguments.command
  | arguments, text :: later =>
    match Argument.ofText text with
    | .tokens => read { arguments with tokens := arguments.tokens + 1 } later
    | .parse => read { arguments with parse := arguments.parse + 1 } later
    | .help => .help
    | .version => .version
    | .unknownOption => .refused
    | .endOfOptions => readPlain arguments later
    | .plain path =>
      if arguments.path?.isSome then .refused else read { arguments with path? := path } later

end Arguments

/-- The command that some arguments ask for. -/
def Command.ofArguments (arguments : List String) : Command := Arguments.none.read arguments

end CLike
