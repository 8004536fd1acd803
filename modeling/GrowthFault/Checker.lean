import GrowthFault.Run.Launch
import GrowthFault.Scenario.Check
import GrowthFault.Transcript.Wording

/-!
# The checker

The checker is a program of its own: it runs the scenarios of a mode on the process allocator,
tells how they went, and exits with a code.  Its first growth call is the subject's.  With the
library before its allocator it also tells what the library has counted.
-/

namespace GrowthFault.Checker

open Heap

/-- What the arguments ask for; they are a subject, and possibly the flag for a run without the
normal scenario. -/
def parseArguments : List Bytes → Option (Subject × Mode)
  | [] => none
  | word :: rest => do
    let text ← word.text?
    let subject ← Subject.ofWord? text
    match rest with
    | [] => some (subject, .full)
    | [flag] => if flag = oomOnlyFlag then some (subject, .oomOnly) else none
    | _ => none

def usage : String := "usage: append-check <fixed|buggy> [--oom-only]\n"

def normalLines : NormalOutcome → List String
  | .passed => [Wording.normalBanner,
      Wording.normalPassed ++ ": '" ++ Scenario.normalExpected ++ "'", ""]
  | .returnedNull => [Wording.normalBanner, Wording.normalNull]
  | .mismatch got => [Wording.normalBanner,
      Wording.normalMismatch ++ ", got '" ++ got ++ "'"]

def lossLine : Subject → String
  | .fixed => "  (No memory leak - original pointer was freed)"
  | .buggy => "  (original buffer was not freed and is now lost)"

def oomLines (s : Subject) : OomOutcome → List String
  | .returnedNull => [Wording.oomBanner,
      Wording.oomPassed ++ ": append_str correctly returned NULL on realloc failure", lossLine s]
  | .succeeded got => [Wording.oomBanner, Wording.oomInactive, "  Result: '" ++ got ++ "'"]

/-- The lines about the library, if one is loaded. -/
def libraryLines (b : Base) : List String :=
  (b.interposedCalls?.map fun n => Wording.calls ++ Decimal.text n).toList ++
    (b.interposedPolicy?.map fun p => Wording.failAfter ++ Decimal.text p.ordinal.toNat).toList

def lines (s : Subject) (normal : Option NormalOutcome) (oom : Option OomOutcome) (b : Base) :
    List String :=
  (normal.map normalLines).getD [] ++
    match oom with
    | some outcome => oomLines s outcome ++ ["", Wording.completed] ++ libraryLines b
    | none => []

/-- The exit code of a run; without the out-of-memory scenario it was cut short. -/
def exitCode (oom : Option OomOutcome) : UInt8 :=
  if oom.isSome then 0 else 1

def run (s : Subject) (mode : Mode) (b : Base) : ProcessOutput :=
  match Scenario.runMode s mode (⟨[], b⟩ : Stack) with
  | .error _ => { status := .killed segmentationFault }
  | .ok ((normal, oom), h) =>
    { status := .exited (exitCode oom)
      stdout := Bytes.ofText (String.join ((lines s normal oom h.base).map (· ++ "\n")))
      stderr := h.base.reports?.getD [] }

/-- The allocator of a process: the library stands before it if it is loaded.  A placement says
where its blocks go. -/
def allocator (library : Option Environment) (place : Placement := .above) : Base :=
  match library with
  | some env => .preloaded env place
  | none => { source := .system, placement := place }

/-- Run the program with arguments, and with the library if its environment is given. -/
def process (arguments : List Bytes) (library : Option Environment)
    (place : Placement := .above) : ProcessOutput :=
  match parseArguments arguments with
  | some (s, mode) => run s mode (allocator library place)
  | none => { status := .exited 2, stderr := Bytes.ofText usage }

/-- Whether the library is to be loaded: the variable for it leads to it. -/
def preloads (fs : Files) (vs : Variables) : Bool :=
  match vs.lookup Variables.preload with
  | some path =>
    match fs.locate path with
    | .ok place => fs.node? place == some .library
    | .error _ => false
  | none => false

/-- Start a process among some files.  A program is given by a path with a slash; a library has
no start of its own and crashes. -/
def launcher (fs : Files) (parent : Variables) : Launcher := fun l => do
  if !l.program.contains Path.slash then .error .notFound
  else
    let place ← fs.locate l.program
    match fs.node? place with
    | some .checker =>
      let vs := l.variables parent
      .ok (process l.arguments (if preloads fs vs then some vs.environment else none))
    | some .library => .ok { status := .killed segmentationFault }
    | _ => .error .permissionDenied

end GrowthFault.Checker
