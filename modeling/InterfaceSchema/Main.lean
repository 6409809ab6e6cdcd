import InterfaceSchema.Command.Run

namespace InterfaceSchema.Command

-- A path that leads nowhere is reported with its name. A directory, which can be opened but not
-- read, is reported without it.
def faultOf? : IO.Error → Option FileFault
  | .noFileOrDirectory .. => some .notFound
  | .inappropriateType (some _) .. => some .notDirectory
  | .inappropriateType none .. => some .isDirectory
  | .invalidArgument .. => some .nameTooLong
  | .permissionDenied .. => some .accessDenied
  | _ => none

def readInput (path : String) : IO (Except FileFault ByteArray) := do
  try
    let content ← IO.FS.readBinFile path
    return .ok content
  catch error =>
    match faultOf? error with
    | some fault => return .error fault
    | none => throw error

def inputPaths (i : Invocation) : List String :=
  (i.settings.lookup .config).toList ++ i.files.filter (· != "-")

def gatherInputs (i : Invocation) : IO Inputs := do
  let mut contents : List (String × Except FileFault ByteArray) := []
  for path in inputPaths i do
    contents := (path, ← readInput path) :: contents
  let readsStdin := i.files.isEmpty || i.files.contains "-"
  let stdin ← if readsStdin then (← IO.getStdin).readBinToEnd else pure .empty
  let read := contents
  return { read := fun path => (read.lookup path).getD (.error .notFound), stdin := stdin }

end InterfaceSchema.Command

open InterfaceSchema.Command in
def main (words : List String) : IO UInt32 := do
  match Invocation.ofWords? .none words with
  | none =>
      (← IO.getStderr).putStrLn "error: the arguments are not valid"
      return 2
  | some invocation =>
      let inputs ← gatherInputs invocation
      let outcome := run (← (← IO.getStderr).isTty) inputs invocation
      (← IO.getStdout).putStr outcome.stdout
      (← IO.getStderr).putStr outcome.stderr
      return UInt32.ofNat outcome.status
