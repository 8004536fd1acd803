import GrowthFault.Scenario.Basic
import GrowthFault.Subject.Append

/-!
# Checking a scenario

A scenario runs a subject on a heap, looks at the string and gives it back.
-/

namespace GrowthFault.Scenario

open Heap

variable {σ : Type} [Allocator σ]

def normalBase : CString := ⟨Bytes.ofText "hello", by decide⟩

def normalAddition : CString := ⟨Bytes.ofText "world", by decide⟩

def normalExpected : String := "helloworld"

def oomBase : CString := ⟨Bytes.ofText "a", by decide⟩

def oomAddition : CString := ⟨Bytes.ofText "b", by decide⟩

/-- The string that a subject makes on a heap, and the heap after the string was given back. -/
def appended (s : Subject) (h : σ) (base addition : CString) :
    Except Misuse (Option Bytes × σ) := do
  let call : Subject.Call := ⟨s, base, addition, .drop⟩
  let (held, h) ← call.carryOut h
  .ok (held.map Subject.Held.bytes, h)

def judgeNormal : Option Bytes → NormalOutcome
  | none => .returnedNull
  | some bytes =>
    if bytes = Bytes.ofText normalExpected then .passed
    else .mismatch bytes.lossyText

def judgeOom : Option Bytes → OomOutcome
  | none => .returnedNull
  | some bytes => .succeeded bytes.lossyText

def checkNormal (s : Subject) (h : σ) : Except Misuse (NormalOutcome × σ) := do
  let (string, h) ← appended s h normalBase normalAddition
  .ok (judgeNormal string, h)

def checkOom (s : Subject) (h : σ) : Except Misuse (OomOutcome × σ) := do
  let (string, h) ← appended s h oomBase oomAddition
  .ok (judgeOom string, h)

/-- Run the scenarios of a mode; the second is left out when the first has failed. -/
def runMode (s : Subject) (mode : Mode) (h : σ) :
    Except Misuse ((Option NormalOutcome × Option OomOutcome) × σ) := do
  if mode.runsNormal then
    let (normal, h) ← checkNormal s h
    if normal.hasPassed then
      let (oom, h) ← checkOom s h
      .ok ((some normal, some oom), h)
    else .ok ((some normal, none), h)
  else
    let (oom, h) ← checkOom s h
    .ok ((none, some oom), h)

end GrowthFault.Scenario
