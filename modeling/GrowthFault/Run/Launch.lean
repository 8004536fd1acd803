import GrowthFault.Decimal.Digits
import GrowthFault.Files.Basic
import GrowthFault.Policy
import GrowthFault.Run.Status
import GrowthFault.Scenario.Basic
import GrowthFault.Subject.Basic

/-!
# Launching a checker

A preloaded run is a checker started with the library before it.  The launch names the program,
its arguments and what changes in the variables it inherits, so that the run depends on nothing
else.
-/

namespace GrowthFault

abbrev Variables := List (String × Bytes)

namespace Variables

def failAfter : String := "FAIL_REALLOC_AFTER"

def trace : String := "FAIL_REALLOC_TRACE"

def preload : String := "LD_PRELOAD"

def erase (vs : Variables) (name : String) : Variables :=
  vs.filter fun v => v.1 != name

def edit (vs : Variables) (change : String × Option Bytes) : Variables :=
  match change with
  | (name, some value) => (name, value) :: vs.erase name
  | (name, none) => vs.erase name

theorem lookup_erase (vs : Variables) (name other : String) :
    (vs.erase name).lookup other = if other = name then none else vs.lookup other := by
  unfold erase
  induction vs with
  | nil => simp
  | cons v vs ih =>
    obtain ⟨key, value⟩ := v
    by_cases hk : key = name
    · rw [List.filter_cons_of_neg (by simpa using hk), ih]
      by_cases ho : other = name
      · simp [ho]
      · have : (other == key) = false := by simpa [hk] using ho
        simp [List.lookup_cons, ho, this]
    · rw [List.filter_cons_of_pos (by simpa using hk)]
      by_cases hok : other = key
      · simp [hok, hk]
      · have : (other == key) = false := by simpa using hok
        simp only [List.lookup_cons, this, ih]

theorem lookup_edit (vs : Variables) (name other : String) (value : Option Bytes) :
    (vs.edit (name, value)).lookup other = if other = name then value else vs.lookup other := by
  cases value with
  | none => exact lookup_erase vs name other
  | some bytes =>
    by_cases h : other = name
    · simp [edit, h]
    · have : (other == name) = false := by simpa using h
      simp [edit, List.lookup_cons, this, lookup_erase, h]

def environment (vs : Variables) : Environment :=
  ⟨vs.lookup failAfter, vs.lookup trace⟩

end Variables

structure Launch where
  program : Path
  arguments : List Bytes
  /-- The variables to set or to remove. -/
  changes : List (String × Option Bytes)
  deriving DecidableEq, Repr

/-- The variables of the process, when its parent has these. -/
def Launch.variables (l : Launch) (parent : Variables) : Variables :=
  l.changes.foldl Variables.edit parent

/-- How a launch ends: with a finished process, or none could be started. -/
abbrev Launcher := Launch → Except FileFault ProcessOutput

structure Preload where
  library : Path
  checker : Path
  subject : Subject
  mode : Mode := .full
  /-- The ordinal to fail; without one the variable is not set. -/
  failAfter : Option UInt64 := none
  trace : Bool := false
  deriving DecidableEq, Repr

def oomOnlyFlag : Bytes := Bytes.ofText "--oom-only"

namespace Preload

def arguments (p : Preload) : List Bytes :=
  Bytes.ofText p.subject.name ::
    match p.mode with
    | .full => []
    | .oomOnly => [oomOnlyFlag]

/-- The launch with the library at this path; its changes are in the order of their names. -/
def launch (p : Preload) (library : Path) : Launch where
  program := p.checker
  arguments := p.arguments
  changes :=
    [(Variables.failAfter, p.failAfter.map fun n => Bytes.ofChars (Decimal.digits n.toNat)),
      (Variables.trace, if p.trace then some (Bytes.ofText "1") else none),
      (Variables.preload, some library)]

end Preload

end GrowthFault
