import TransportStream.Reader.Run

/-!
# The report on a stream

A row for each PID, in ascending order, and the first twenty of the errors, which are
all counted. A fatal error leaves no report behind.
-/
namespace TransportStream

/-- PIDs in a word of 16 bits, as a report keeps them. -/
abbrev WidePid := Fin 65536

def Pid.wide (pid : Pid) : WidePid := pid.castLE (by decide)

structure PidRow where
  pid : WidePid
  packets : Nat
  unitStarts : Nat
  gaps : Nat
  deriving DecidableEq, Repr

/-- A row under way, with the counter that the next packet is held against. -/
structure PidTrack where
  row : PidRow
  lastCounter : Option Counter
  deriving DecidableEq, Repr

namespace PidTrack

def start (pid : WidePid) : PidTrack := ⟨⟨pid, 0, 0, 0⟩, none⟩

/-- Whether the counter neither repeats nor follows the last one. -/
def isGap (last : Option Counter) (counter : Counter) : Bool :=
  match last with
  | none => false
  | some last => counter != last && counter != last + 1

def observe (track : PidTrack) (header : Header) : PidTrack :=
  let counted : PidRow :=
    { track.row with
      packets := track.row.packets + 1
      unitStarts := track.row.unitStarts + header.unitStart.toNat }
  if header.isNull || !header.control.hasPayload then { track with row := counted }
  else
    let gap := isGap track.lastCounter header.counter
    ⟨{ counted with gaps := counted.gaps + gap.toNat }, some header.counter⟩

/-- Adds a packet to the track of its PID, in a list kept in ascending order. -/
def observeIn : List PidTrack → Header → List PidTrack
  | [], header => [(start header.pid.wide).observe header]
  | track :: later, header =>
    if header.pid.wide < track.row.pid then
      (start header.pid.wide).observe header :: track :: later
    else if header.pid.wide = track.row.pid then track.observe header :: later
    else track :: observeIn later header

@[simp] theorem pid_observe (track : PidTrack) (header : Header) :
    (track.observe header).row.pid = track.row.pid := by
  unfold observe
  split <;> rfl

end PidTrack

structure ListedError where
  packet : Option Nat
  message : String
  deriving DecidableEq, Repr

structure Report where
  source : String
  packetSize : Nat
  detected : Bool
  packets : Nat
  bytesRead : Nat
  decodeErrors : Nat
  errors : List ListedError
  pids : List PidRow
  deriving DecidableEq, Repr

/-- What has been seen of a stream so far. -/
structure Survey where
  packets : Nat := 0
  decodeErrors : Nat := 0
  errors : List ListedError := []
  tracks : List PidTrack := []
  deriving DecidableEq, Repr

namespace Survey

/-- At most this many errors are listed one by one. -/
def listedErrors : Nat := 20

def addError (s : Survey) (e : ReadError PacketDefect) : Survey :=
  { s with
    decodeErrors := s.decodeErrors + 1
    errors :=
      if s.errors.length < listedErrors then s.errors ++ [⟨e.packetIndex?, e.account⟩]
      else s.errors }

def add (s : Survey) (item : Outcome Packet PacketDefect) : Survey :=
  match item with
  | .ok packet =>
    { s with
      packets := s.packets + 1
      tracks := PidTrack.observeIn s.tracks packet.header }
  | .error e => s.addError e

def ofItems (items : List (Outcome Packet PacketDefect)) : Survey := items.foldl add {}

theorem errors_add (s : Survey) (item : Outcome Packet PacketDefect)
    (h : s.errors.length = min listedErrors s.decodeErrors) :
    (s.add item).errors.length = min listedErrors (s.add item).decodeErrors := by
  cases item with
  | ok packet => exact h
  | error e =>
    simp only [add, addError]
    split
    · simp only [List.length_append, List.length_cons, List.length_nil]
      omega
    · omega

/-- As many errors are listed as there are, up to the limit. -/
theorem length_errors_ofItems (items : List (Outcome Packet PacketDefect)) :
    (ofItems items).errors.length = min listedErrors (ofItems items).decodeErrors := by
  have key : ∀ (items : List (Outcome Packet PacketDefect)) (s : Survey),
      s.errors.length = min listedErrors s.decodeErrors →
      (items.foldl add s).errors.length = min listedErrors (items.foldl add s).decodeErrors := by
    intro items
    induction items with
    | nil => exact fun _ h => h
    | cons item items ih => exact fun s h => ih _ (errors_add s item h)
  exact key items {} rfl

end Survey

structure Inspection where
  result : Except (ReadError PacketDefect) Report
  requests : List Request
  notes : List Note

namespace Report

/-- The fatal error that a draining run ended with, if it did. -/
def failure? (run : List (Step Packet PacketDefect)) : Option (ReadError PacketDefect) :=
  match run.getLast?.bind (·.item) with
  | some (.error e) => if e.isFatal then some e else none
  | _ => none

/-- An error that does not end the run is noted as it passes. -/
def passing (step : Step Packet PacketDefect) : List Note :=
  match step.item with
  | some (.error e) => if e.isFatal then [] else [.passedOver e.account]
  | _ => []

def ofSurvey (source : String) (r : Reader Packet PacketDefect) (survey : Survey) : Report where
  source := source
  packetSize := r.packetSize
  detected := r.framing.detection.isSome
  packets := survey.packets
  bytesRead := r.tally.bytesRead
  decodeErrors := survey.decodeErrors
  errors := survey.errors
  pids := survey.tracks.map (·.row)

end Report

/-- Drains a reader into a report that names its source. -/
def Reader.inspect (source : String) (r : Reader Packet PacketDefect) : Inspection :=
  let run := r.drain
  { result :=
      match Report.failure? run with
      | some e => .error e
      | none => .ok (Report.ofSurvey source (r.afterSteps run) (Survey.ofItems (items run)))
    requests := run.flatMap (·.requests)
    notes := run.flatMap fun step => step.notes ++ Report.passing step }

end TransportStream
