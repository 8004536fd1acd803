import GrowthFault.Failure
import GrowthFault.Run.Record

/-!
# Executing a run

Both binaries have to be there before a process is started.  By default the checker lies beside
the running program or one directory above, and the library beside the checker.
-/

namespace GrowthFault.Preload

def execute (p : Preload) (fs : Files) (start : Launcher) : Except Failure RunRecord :=
  match fs.canonical? p.library with
  | none => .error (.missingLibrary p.library)
  | some library =>
    if fs.isFile p.checker then
      match start (p.launch library) with
      | .ok output => .ok (.ofOutput p output)
      | .error fault => .error (.spawn p.checker fault)
    else .error (.missingChecker p.checker)

def checkerName : Bytes := Bytes.ofText "append-check"

def libraryName : Bytes := Bytes.ofText "libfailrealloc_abi.so"

def libraryBeside (checker : Path) : Path :=
  checker.beside libraryName

def locateChecker (fs : Files) (program : Path) : Except Failure Path :=
  let directory := program.parent?.getD [Path.dot]
  let candidates := (directory :: directory.parent?.toList).map (·.append checkerName)
  match candidates.find? fs.isFile with
  | some checker => .ok checker
  | none => .error (.missingChecker (directory.append checkerName))

end GrowthFault.Preload
