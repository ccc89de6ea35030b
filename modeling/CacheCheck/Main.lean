import CacheCheck.Program

/-!
The command line. Reports go to standard output and the log to standard error. The machine counts
as cut off from every network.
-/

set_option autoImplicit false

open CacheCheck CommandLine in
def main (words : List String) : IO UInt32 := do
  let settings ← Environment.names.mapM fun name ↦ return (name, ← IO.getEnv name)
  let environment := Environment.ofVariables fun name ↦ (settings.lookup name).join
  match Invocation.parse environment words with
  | .error problem =>
    if problem.isRequest then IO.println problem.message else IO.eprintln problem.message
    return problem.exitCode.toUInt32
  | .ok invocation =>
    match Program.run (Target.connect .unreachable) invocation with
    | .error message =>
      IO.eprintln message
      return Program.abortedCode.toUInt32
    | .ok result =>
      for line in result.log do
        if line.level.isShown invocation.verbosity then
          IO.eprintln (line.level.name ++ ": " ++ line.message)
      IO.print result.output
      return result.exitCode.toUInt32
