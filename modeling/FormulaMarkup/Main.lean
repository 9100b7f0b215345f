import FormulaMarkup.CommandLine

/-!
# The program

Reads the files and the input that a run needs, and prints what it leaves
behind.
-/

namespace FormulaMarkup

def readFault : IO.Error → ReadFault
  | .noFileOrDirectory _ _ _ => .notFound
  | .permissionDenied _ _ _ => .denied
  | .inappropriateType _ _ _ => .isDirectory
  | _ => .notFound

/-- The content of a file, or why it cannot be read. -/
def readFile (path : String) : IO (Except ReadFault ByteArray) := do
  try
    return .ok (← IO.FS.readBinFile path)
  catch error =>
    return .error (readFault error)

/-- The content of the configuration file that the arguments name. -/
def readConfiguration : Request → IO (Except ReadFault ByteArray)
  | .convert { configuration? := some path, .. } => readFile path
  | _ => return .error .notFound

/-- The standard input, if the formula is to be read from it. -/
def readInput (request : Request) (configuration : Except ReadFault ByteArray) : IO ByteArray := do
  match request, configuration with
  | .convert { formula? := none, configuration? := none, .. }, _ => (← IO.getStdin).readBinToEnd
  | .convert { formula? := none, .. }, .ok _ => (← IO.getStdin).readBinToEnd
  | _, _ => return .empty

end FormulaMarkup

open FormulaMarkup in
def main (arguments : List String) : IO UInt32 := do
  let request := Request.ofArguments arguments
  let configuration ← readConfiguration request
  let input ← readInput request configuration
  let outcome := runCommandLine arguments (fun _ => configuration) input
  IO.print outcome.output
  if let some failure := outcome.failure? then
    IO.eprint failure.report
  return outcome.status.toUInt32
