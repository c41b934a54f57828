import Mathlib
import RecipeScript.Program

/-!
The program on a real machine: looks at the paths that may matter, takes the plan, and either prints what there is to print
or talks to the cook line by line. An interrupt that the session handles is waited for together with the next line. All of
Mathlib is imported for what the standard library knows about signals and accounts.
-/

namespace RecipeScript.Main

/-- The number of an error. Some calls give it with the opposite sign. -/
def errorNumber (code : UInt32) : UInt32 :=
  min code (-code)

/-- Why a file could not be read. -/
def readFault : IO.Error → ReadFault
  | .noFileOrDirectory .. => .notFound
  | .inappropriateType _ code _ => if errorNumber code = 21 then .isDirectory else .notDirectory
  | .invalidArgument _ code _ =>
    if errorNumber code = 36 then .nameTooLong
    else if errorNumber code = 40 then .other "Too many levels of symbolic links (os error 40)"
    else .nulInPath
  | .permissionDenied _ code _ =>
    .other (if errorNumber code = 13 then "Permission denied (os error 13)" else "Operation not permitted (os error 1)")
  | error => .other (toString error)

/-- The answers of the file system about the given paths. A path leads somewhere if it can be resolved, even if what is
there cannot be read. -/
def look (paths : List String) : IO Files := do
  let answers ← paths.mapM fun (path : String) => do
    let isThere ← try
        let _ ← IO.FS.realPath path
        pure true
      catch _ => pure false
    let bytes ← try
        let bytes ← IO.FS.readBinFile path
        pure (Except.ok bytes.toList)
      catch error => pure (Except.error (readFault error))
    return (path, isThere, bytes)
  return .ofAnswers answers

/-- The home directory of the account, if it has one. -/
def accountHome : IO (Option String) := do
  try
    let user ← Std.Async.System.getCurrentUser
    return (user.homeDir.map toString).filter (· ≠ "")
  catch _ => return none

/-- The environment variables that matter, and the home directory of the account. -/
def environment : IO Environment := do
  let bindings ← ["HOME", Settings.fileVariable].filterMapM fun name => do
    return (← IO.getEnv name).map fun value => (name, value)
  return { bindings, accountHome := ← accountHome }

/-- Prints what a run says. -/
def say (output : IO.FS.Stream) (entries : Transcript) : IO Unit := do
  output.putStr entries.shown
  output.flush

/-- The next line of the input with its end, or what there is of it. -/
partial def readLine (input : IO.FS.Stream) (line : Array UInt8) : IO (Array UInt8) := do
  let bytes ← input.read 1
  match bytes.toList with
  | [] => return line
  | byte :: _ =>
    let line := line.push byte
    if byte = Console.lineFeed then return line else readLine input line

/-- What a session waits for. -/
inductive Event where
  | line (bytes : List UInt8)
  | interrupt

/-- Waits for a line of the input, or for an interrupt if that comes first. The read that an interrupt leaves behind is not
given up: the program ends when it returns. -/
def nextEvent (input : IO.FS.Stream) (interrupt? : Option (Task (Except IO.Error Int))) : IO Event := do
  match interrupt? with
  | none => return .line (← readLine input #[]).toList
  | some interrupt =>
    let line ← IO.asTask (readLine input #[]) .dedicated
    let events := [interrupt.map (·.map fun _ => Event.interrupt), line.map (·.map fun bytes => .line bytes.toList)]
    IO.ofExcept (← IO.waitAny events)

/-- Talks to the cook until the session ends. -/
partial def converse (options : ConsoleOptions) (input output : IO.FS.Stream)
    (interrupt? : Option (Task (Except IO.Error Int))) (recipe : Recipe) : IO UInt32 := do
  say output [.prompt options.prompt]
  match ← nextEvent input interrupt? with
  | .interrupt =>
    say output (Console.farewell options .interrupted)
    return 0
  | .line bytes =>
    match (Lines.cut Console.lineFeed Console.carriageReturn bytes).all with
    | [] =>
      say output (Console.farewell options .endOfInput)
      return 0
    | line :: _ =>
      let (said, recipe, ending) := Console.handle options recipe line
      say output said
      match ending with
      | none => converse options input output interrupt? recipe
      | some (.ok _) => return 0
      | some (.error _) => return 1

end RecipeScript.Main

open RecipeScript in
/-- Runs the program. -/
def main (args : List String) : IO UInt32 := do
  let output ← IO.getStdout
  let env ← Main.environment
  let files ← Main.look (Program.paths args env)
  match Program.plan args env files with
  | .finish exit =>
    output.putStr exit.printed
    output.flush
    return exit.code.toUInt32
  | .converse options handlesInterrupt =>
    Main.say output (options.banner.map .out)
    -- an interrupt that is not handled ends the program where it stands
    let interrupt? ← if handlesInterrupt then
        let waiter ← Std.Async.Signal.Waiter.mk .sigint false
        pure (some (← waiter.wait))
      else pure none
    Main.converse options (← IO.getStdin) output interrupt? Recipe.empty
