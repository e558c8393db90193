import SqlRouting.Command

/-!
# The program

## Main definitions

* `main` — reads the arguments and the rule document, and writes the answer.
-/

set_option autoImplicit false

open SqlRouting

/-- Why a file could not be read. -/
def readError : IO.Error → ReadError
  | .noFileOrDirectory .. => .notFound
  | .permissionDenied .. => .permissionDenied
  | .inappropriateType _ code _ => if code == 20 then .notADirectory else .isADirectory
  | .invalidArgument _ 36 _ => .nameTooLong
  | .userError _ => .notText
  | error => .described (toString error)

/-- The content of the file at `path`, or the reason why it cannot be read. -/
def readDocument (path : String) : IO (Except ReadError String) := do
  try
    return .ok (← IO.FS.readFile path)
  catch error =>
    return .error (readError error)

/-- Reads the arguments and the rule document, and writes the answer. -/
def main (arguments : List String) : IO UInt32 := do
  let rules ← IO.getEnv "SQL_ROUTING_RULES"
  let response ← match Command.Request.ofArguments? rules arguments with
    | none => pure Command.usage
    | some request =>
      let document ← match request.options.rules with
        | none => pure (.ok "")
        | some path => readDocument path
      pure (Command.respond request fun _ => document)
  IO.print response.output
  IO.eprint response.errors
  return UInt32.ofNat response.exit
