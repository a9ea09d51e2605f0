import HeaderSurvey.CommandLine.Plan

/-! The command line program: reads the files that the arguments name, and carries out the plan. -/
namespace HeaderSurvey.CommandLine

/-- What a path leads to on disk. -/
def fileEntry (path : String) : IO FileEntry := do
  if path = sinkPath then return .sink
  try
    return .file (String.fromUTF8? (← IO.FS.readBinFile path))
  catch
    | .inappropriateType .. => return .directory
    | .permissionDenied .. => return .file none
    | _ => return .missing

def Response.print (response : Response) : IO UInt32 := do
  (← IO.getStderr).putStr response.err
  (← IO.getStdout).putStr response.out
  return response.exit.toUInt32

def Plan.perform : Plan → IO UInt32
  | .reply response => response.print
  | .write path content written failed => do
    let done ← try
        IO.FS.writeFile path content
        pure true
      catch _ => pure false
    (if done then written else failed).print

end HeaderSurvey.CommandLine

open HeaderSurvey.CommandLine in
def main (arguments : List String) : IO UInt32 := do
  let entries ← (inputs arguments).mapM fun path => do return (path, ← fileEntry path)
  (plan arguments fun path => (entries.lookup path).getD .missing).perform
