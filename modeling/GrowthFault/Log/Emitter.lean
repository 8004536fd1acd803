import GrowthFault.Log.Entry

/-!
# Emitters

An emitter writes entries of one run of one campaign.  It numbers the entries it makes from one
on; a trace id is the campaign, the run and the number.
-/

namespace GrowthFault

/-- What an emitter has made and written so far. -/
structure Emitter where
  campaign : String
  runId : String
  /-- The number of trace ids given out. -/
  sequence : Nat := 0
  /-- The entries written. -/
  written : List LogEntry := []
  deriving Repr

namespace Emitter

/-- The trace id with a number; numbers have at least three digits. -/
def traceId (campaign runId : String) (number : Nat) : String :=
  campaign ++ "::" ++ runId ++ "::" ++ String.ofList (Decimal.padded 3 number)

def nextTraceId (m : Emitter) : String × Emitter :=
  let number := m.sequence + 1
  (traceId m.campaign m.runId number, { m with sequence := number })

/-- What a clock shows for the next entry; each entry has a reading of its own. -/
def reading (m : Emitter) (clock : Clock) : Instant :=
  clock (m.sequence + 1)

def entry (m : Emitter) (now : Instant) (level : Level) (event : String) :
    LogEntry × Emitter :=
  let (id, m) := m.nextTraceId
  ((LogEntry.make now id level event).withCampaign m.campaign, m)

@[simp] theorem sequence_entry (m : Emitter) (now : Instant) (level : Level) (event : String) :
    (m.entry now level event).2.sequence = m.sequence + 1 := rfl

@[simp] theorem traceId_entry (m : Emitter) (now : Instant) (level : Level) (event : String) :
    (m.entry now level event).1.traceId = traceId m.campaign m.runId (m.sequence + 1) := rfl

def write (m : Emitter) (e : LogEntry) : Emitter :=
  { m with written := m.written ++ [e] }

def emit (m : Emitter) (now : Instant) (level : Level) (event : String) :
    LogEntry × Emitter :=
  let (e, m) := m.entry now level event
  (e, m.write e)

/-- Write an entry; it gets the next trace id and the emitter's campaign if it has none. -/
def emitEntry (m : Emitter) (e : LogEntry) : Emitter :=
  let (e, m) :=
    if e.traceId = "" then
      let (traceId, m) := m.nextTraceId
      ({ e with traceId }, m)
    else (e, m)
  m.write { e with campaign := e.campaign.or (some m.campaign) }

/-- The text written: every entry on a line of its own. -/
def text (m : Emitter) : String :=
  String.join (m.written.map fun e => e.line ++ "\n")

end Emitter

end GrowthFault
