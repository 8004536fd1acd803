import GrowthFault.CommandLine.Session
import Std.Time.DateTime.Timestamp

/-!
# The program

The program reads the clock and the files that its arguments name, carries out the command, and
writes what the command left behind.  The checker and the library belong to the program and lie
beside it.
-/

namespace GrowthFault.CommandLine

/-- What the system has under a path, if anything. -/
def probe (path : Path) : IO (Option Node) := do
  try
    let content ← IO.FS.readBinFile path.lossyText
    return some (.data content.toList)
  catch
    | .inappropriateType .. => return some .directory
    | _ => return none

/-- The files with what the system has under a path and on the way to it. -/
def discover (fs : Files) (path : Path) : IO Files := do
  let mut found := fs
  for stage in Files.stages path do
    match ← probe stage with
    | some node => found := found.put (found.textualPlace stage) node
    | none => pure ()
  return found

/-- The name of the program, in whose directory its checker and its library lie. -/
def programName : Path := Bytes.ofText "./harness"

def builtIn : Files where
  nodes := [([Preload.checkerName], .checker), ([Preload.libraryName], .library)]

def readClock : IO Instant := do
  let now ← Std.Time.Timestamp.now
  let nanoseconds := now.toNanosecondsSinceUnixEpoch.val
  return ⟨nanoseconds / 1000000000, (nanoseconds % 1000000000).toNat⟩

def runIdAt (now : Instant) : String :=
  Decimal.text now.seconds.toNat ++ "-" ++ Decimal.text now.nanoseconds

def store (fs : Files) (paths : List Path) : IO Unit := do
  for path in paths do
    match fs.read path with
    | .ok content => IO.FS.writeBinFile path.lossyText content.toByteArray
    | .error _ => pure ()

def exitCode (s : Status) : UInt32 :=
  match s.code?, s.signal? with
  | some code, _ => code.toInt.toNat.toUInt32
  | none, some signal => 128 + signal.toInt.toNat.toUInt32
  | none, none => 1

def program (arguments : List String) : IO UInt32 := do
  let now ← readClock
  let arguments := arguments.map Bytes.ofText
  let command? := Command.parse arguments
  let mut files := builtIn
  for path in (command?.map Command.inputs).getD [] do
    files ← discover files path
  let setting : Setting :=
    { program := programName, «variables» := [], clock := fun _ => now, runId := runIdAt now }
  let ending := respond setting arguments files
  store ending.console.files ((command?.map Command.outputs).getD [])
  IO.print ending.console.stdout
  IO.eprint ending.console.stderr
  return exitCode ending.status

end GrowthFault.CommandLine

def main (arguments : List String) : IO UInt32 :=
  GrowthFault.CommandLine.program arguments
