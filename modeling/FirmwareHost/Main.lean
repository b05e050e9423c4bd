import FirmwareHost.CommandLine.Run

/-! The program. It reads at most one file, the one that its options name. -/

namespace FirmwareHost

/-- The system's text for an error of a file, with its number. -/
def describe : IO.Error → String
  | .noFileOrDirectory _ code details => details ++ " (os error " ++ toString code.toNat ++ ")"
  | .permissionDenied _ code details => details ++ " (os error " ++ toString code.toNat ++ ")"
  | .inappropriateType _ code details => details ++ " (os error " ++ toString code.toNat ++ ")"
  | .invalidArgument _ code details => details ++ " (os error " ++ toString code.toNat ++ ")"
  | e => toString e

def readBytes (path : String) : IO (Except String Bytes) := do
  try
    let file ← IO.FS.Handle.mk path .read
    return .ok (← file.readBinToEnd).toList
  catch e => return .error (describe e)

/-- The contents of the file that the arguments name, if they name one. -/
def configFile (args : List String) : IO (Except String Bytes) :=
  match Options.read args with
  | .ok { config := some path, .. } => readBytes path
  | _ => return .ok []

end FirmwareHost

def main (args : List String) : IO UInt32 := do
  let contents ← FirmwareHost.configFile args
  let exit := FirmwareHost.run (fun _ => contents) args
  IO.print exit.output
  exit.reports.forM IO.eprintln
  return .ofNat exit.code
