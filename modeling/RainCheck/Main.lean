import RainCheck.Command

/-!
# The command line program

Reads the files that the arguments name, runs the command, and writes its output.
-/

namespace RainCheck

/-- Why a file cannot be read, as the system says it. -/
def FileError.ofSystem : IO.Error → FileError
  | .inappropriateType none _ _ => .isDirectory
  | .inappropriateType (some _) _ _ => .notDirectory
  | .invalidArgument _ _ _ => .nameTooLong
  | .permissionDenied _ _ _ => .denied
  | _ => .missing

/-- The contents of a file. -/
def readFile (path : String) : IO (Except FileError (List UInt8)) := do
  try
    return .ok (← IO.FS.readBinFile path).toList
  catch e =>
    return .error (.ofSystem e)

/-- The files that a command line names. -/
def readFiles (args : List String) : IO (List (String × Except FileError (List UInt8))) := do
  match Request.ofArgs args with
  | .error _ => return []
  | .ok r => r.files.mapM fun (path : String) => do return (path, ← readFile path)

end RainCheck

/-- The program. -/
def main (args : List String) : IO UInt32 := do
  let found ← RainCheck.readFiles args
  let output := RainCheck.runCommand (fun path => (found.lookup path).getD (.error .missing)) args
  (← IO.getStdout).write ⟨output.out.toArray⟩
  (← IO.getStderr).write ⟨output.err.toArray⟩
  return output.status.code.toUInt32
