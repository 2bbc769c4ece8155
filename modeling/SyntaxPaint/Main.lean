import SyntaxPaint.Report

/-!
The command line. The program runs on the disk; under the name `gen_tables` it writes the tables of
the built-in languages, and under every other name it reports about a text.
-/

namespace SyntaxPaint.Main

open Text (Bytes)

def faultOfCode? : UInt32 → Option StorageFault
  | 2 => some .notFound
  | 17 => some .alreadyExists
  | 20 => some .notFolder
  | 21 => some .isFolder
  | 36 => some .longName
  | _ => none

def faultOfError (e : IO.Error) : StorageFault :=
  let known :=
    match e with
    | .noFileOrDirectory _ code _ | .alreadyExists _ code _ | .inappropriateType _ code _
    | .invalidArgument _ code _ => faultOfCode? code
    | _ => none
  known.getD (.other e.toString)

/-- Runs a disk operation; what it throws is a fault of the storage. -/
def guarded {α : Type} (operation : IO α) : IO (Except StorageFault α) := do
  try
    return .ok (← operation)
  catch e =>
    return .error (faultOfError e)

instance : Storage IO where
  read path := guarded do
    return (← IO.FS.readBinFile path).data.toList
  write path contents := guarded (IO.FS.writeBinFile path ⟨contents.toArray⟩)
  createFolders path := guarded (IO.FS.createDirAll path)

def settingNames : List String :=
  ["SYNSCAN_CONFIG", "SYNSCAN_LANG", "SYNSCAN_TABLES", "SYNSCAN_KEYWORDS", "GEN_TABLES_DIR"]

def environment : IO Config.Environment := do
  let settings ← settingNames.mapM fun name => return (name, ← IO.getEnv name)
  return fun name => (settings.lookup name).join

def run (arguments : List String) : IO UInt32 := do
  let env ← environment
  let name := (← IO.appPath).fileName.getD ""
  let result ← if name = "gen_tables" then Report.generate env else Report.paint arguments env
  IO.print result.output
  IO.eprint result.errors
  return UInt32.ofNat result.code

end SyntaxPaint.Main

def main (arguments : List String) : IO UInt32 :=
  SyntaxPaint.Main.run arguments
