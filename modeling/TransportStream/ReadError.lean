import TransportStream.Detection
import TransportStream.Settings

/-!
# Reading errors

A fatal error ends the operation that met it with nothing queued. Any other belongs
to one packet, and the stream goes on behind it.
-/
namespace TransportStream

/-- Reasons that a decoder may give for refusing a packet. -/
class Cause (E : Type) where
  message : E → String

instance : Cause PacketDefect := ⟨PacketDefect.message⟩

instance : Cause Fault := ⟨Fault.text⟩

inductive ReadError (E : Type) where
  | invalidSettings (fault : SettingsFault)
  | rejected (reason : Rejection)
  | io (during : Operation) (fault : Fault)
  | undecodable (index : Nat) (cause : E)
  | truncated (index length expected : Nat)
  | workerLost (index : Nat)
  deriving DecidableEq, Repr

namespace ReadError
variable {E : Type}

/-- A fault met while detecting is a fault of opening the reader. -/
def ofDetection : DetectionError → ReadError E
  | .rejected reason => .rejected reason
  | .io during fault => .io (.detecting during) fault

def isFatal : ReadError E → Bool
  | .invalidSettings _ | .rejected _ | .io _ _ => true
  | .undecodable _ _ | .truncated _ _ _ | .workerLost _ => false

/-- The packet that the error belongs to, counted from the first one read. -/
def packetIndex? : ReadError E → Option Nat
  | .undecodable index _ | .truncated index _ _ | .workerLost index => some index
  | .invalidSettings _ | .rejected _ | .io _ _ => none

def message : ReadError E → String
  | .invalidSettings fault => "invalid buffer configuration: " ++ fault.message
  | .rejected reason => "auto detecting packet size failed: " ++ reason.message
  | .io during _ => during.message
  | .undecodable index _ => s!"building packet {index} failed"
  | .truncated index length expected =>
    s!"packet {index} truncated: {length} of {expected} bytes before end of stream"
  | .workerLost index => s!"decode worker for packet {index} exited without a result"

def cause? [Cause E] : ReadError E → Option String
  | .io _ fault => some fault.text
  | .undecodable _ cause => some (Cause.message cause)
  | _ => none

def account [Cause E] (e : ReadError E) : String :=
  match e.cause? with
  | some cause => e.message ++ ": " ++ cause
  | none => e.message

@[simp] theorem isFatal_ofDetection (e : DetectionError) :
    (ofDetection e : ReadError E).isFatal = true := by
  cases e <;> rfl

end ReadError

end TransportStream
