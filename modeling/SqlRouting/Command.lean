import SqlRouting.Directory
import SqlRouting.Grammar.Statement
import SqlRouting.Json.Printer
import SqlRouting.Report
import SqlRouting.Rule.Configuration

/-!
# The command line

The command reads one statement and writes the report on it. Its arguments choose a rule document,
a dialect and the layout of the report. The answer depends on the arguments and the rule document
alone, and is given here as a function of them.

## Main definitions

* `SqlRouting.Command.Request` — what the arguments ask for.
* `SqlRouting.Command.Request.ofArguments?` — the request that some arguments make.
* `SqlRouting.Command.Response` — what the command answers.
* `SqlRouting.Command.respond` — the answer to a request.
-/

set_option autoImplicit false

namespace SqlRouting.Command

/-! ## Requests -/

/-- The options in front of the name of the action. -/
structure Options where
  /-- The path of the rule document. -/
  rules : Option String := none
  /-- The dialect of the statement. -/
  dialect : Dialect := .generic
  /-- Whether the steps are logged, which leaves the answer as it is. -/
  verbose : Bool := false
deriving DecidableEq, Repr

/-- What the arguments ask for. -/
structure Request where
  /-- The options. -/
  options : Options
  /-- The statement. -/
  statement : String
  /-- Whether the report is written on one line. -/
  compact : Bool
deriving DecidableEq, Repr

namespace Request

/-- The dialect of a name. -/
def dialect? (name : String) : Option Dialect :=
  [Dialect.generic, Dialect.mysql].find? (·.name == name)

/-- Whether an argument has the form of an option. A dash alone does not. -/
def isOption (argument : String) : Bool :=
  argument.startsWith "-" && argument != "-"

/-- The statement and the layout that the arguments of the action give. -/
def action? (options : Options) : List String → Option Request
  | [statement] => if isOption statement then none else some ⟨options, statement, false⟩
  | ["--compact", statement] =>
    if isOption statement then none else some ⟨options, statement, true⟩
  | [statement, "--compact"] =>
    if isOption statement then none else some ⟨options, statement, true⟩
  | _ => none

/-- The request that some arguments make after those that gave `options`. -/
def ofOptions? (options : Options) : List String → Option Request
  | [] => none
  | "parse" :: rest => action? options rest
  | "-v" :: rest => ofOptions? { options with verbose := true } rest
  | "--verbose" :: rest => ofOptions? { options with verbose := true } rest
  | option :: value :: rest =>
    if isOption value then none
    else if option == "-r" || option == "--rules" then
      ofOptions? { options with rules := some value } rest
    else if option == "-d" || option == "--dialect" then
      match dialect? value with
      | some dialect => ofOptions? { options with dialect } rest
      | none => none
    else none
  | _ => none

/-- The request that some arguments make, where `rules` is the path of the rule document unless the
arguments give one. An empty path is refused. -/
def ofArguments? (rules : Option String) (arguments : List String) : Option Request :=
  (ofOptions? { rules } arguments).filter (·.options.rules != some "")

end Request

/-! ## Responses -/

/-- What the command answers. -/
structure Response where
  /-- The exit code. -/
  exit : Nat
  /-- The text on the standard output. -/
  output : String
  /-- The text on the standard error output. -/
  errors : String
deriving DecidableEq, Repr

/-- Why a request fails. -/
structure Failure where
  /-- What failed. -/
  message : String
  /-- What made it fail, if there is more to say. -/
  cause : Option String := none
deriving DecidableEq, Repr

namespace Failure

/-- A text in which every line but the first is indented. -/
def indented (text : String) : String :=
  String.ofList (text.toList.flatMap fun c => if c == '\n' then "\n    ".toList else [c])

/-- A failure in words, with its cause on lines of its own. -/
def render (failure : Failure) : String :=
  let cause := match failure.cause with
    | some cause => "\n\nCaused by:\n    " ++ indented cause
    | none => ""
  "Error: " ++ failure.message ++ cause ++ "\n"

/-- The answer to a request that fails. -/
def response (failure : Failure) : Response :=
  ⟨1, "", failure.render⟩

end Failure

/-- The answer to arguments that make no request. -/
def usage : Response :=
  ⟨2, "", "Usage: [-r PATH] [-d generic|mysql] [-v] parse [--compact] SQL\n"⟩

/-- The rules and known columns that the document at `path` gives, where `document` is its content
or the reason why it cannot be read. -/
def loadRules (path : String) (document : Except ReadError String) :
    Except Failure (ShardingRule × TableMetadata) :=
  match document with
  | .error error =>
    .error ⟨"Failed to read rule file '" ++ path ++ "': " ++ error.message, some error.message⟩
  | .ok text =>
    match RuleConfiguration.ofText text with
    | .error error => .error ⟨error.message, none⟩
    | .ok configuration =>
      match configuration.build with
      | .error error => .error ⟨"invalid sharding rules in " ++ path, some error.message⟩
      | .ok rules => .ok rules

/-- The report that a request asks for, on one line or over several. -/
def report (request : Request) (rules : ShardingRule × TableMetadata) : Except Failure String :=
  let env : Environment := ⟨request.options.dialect, rules.1, rules.2⟩
  match Statement.ofText env request.statement with
  | .error error =>
    .error ⟨"cannot parse statement: " ++ request.statement, some error.message⟩
  | .ok statement =>
    let report := (Report.ofStatement request.statement statement).toJson
    .ok (if request.compact then report.compact else report.pretty)

/-- The rules that a request names, where `read` gives the content of a file or the reason why it
cannot be read. Without a document no table is sharded. -/
def requestedRules (request : Request) (read : String → Except ReadError String) :
    Except Failure (ShardingRule × TableMetadata) :=
  match request.options.rules with
  | none => .ok ({}, {})
  | some path => loadRules path (read path)

/-- The answer to a request. The rules are loaded before the statement is read. -/
def respond (request : Request) (read : String → Except ReadError String) : Response :=
  match requestedRules request read >>= report request with
  | .ok report => ⟨0, report ++ "\n", ""⟩
  | .error failure => failure.response

end SqlRouting.Command
