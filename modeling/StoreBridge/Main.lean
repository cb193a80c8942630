import StoreBridge.CommandLine.Report

/-!
The command line program: it reads the files that its arguments name, and prints.
-/
namespace StoreBridge

def readFileText (path : String) : IO (Except String String) := do
  try
    let bytes ← IO.FS.readBinFile path
    match String.fromUTF8? bytes with
    | some text => return .ok text
    | none => return .error "stream did not contain valid UTF-8"
  catch
    | .noFileOrDirectory _ _ _ => return .error "No such file or directory (os error 2)"
    | .inappropriateType _ _ _ => return .error "Is a directory (os error 21)"
    | .permissionDenied _ _ _ => return .error "Permission denied (os error 13)"
    | e => return .error (toString e)

def readFiles (paths : List String) : IO (List (String × Except String String)) :=
  paths.mapM fun path => do
    let contents ← readFileText path
    return (path, contents)

def run (words : List String) : IO UInt32 := do
  let paths := match CommandLine.Command.ofWords words with
    | .ok command => command.paths
    | .error _ => []
  let files ← readFiles paths
  let readFile (path : String) : Except String String :=
    ((files.find? fun f => f.1 == path).map Prod.snd).getD (.error "")
  let outcome := CommandLine.Outcome.ofWords readFile words
  IO.print outcome.output
  IO.eprint outcome.complaint
  return UInt32.ofNat outcome.status

end StoreBridge

def main (words : List String) : IO UInt32 := StoreBridge.run words
