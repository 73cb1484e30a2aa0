/-!
# Device faults

A read that is interrupted is tried again. Any other fault is reported with the
operation that met it.
-/
namespace TransportStream

inductive FaultKind where
  | interrupted
  | brokenPipe
  | connectionReset
  | unexpectedEnd
  | wouldBlock
  | timedOut
  | permissionDenied
  | invalidData
  | isDirectory
  | notADirectory
  | notFound
  | nameTooLong
  | other
  deriving DecidableEq, Repr

structure Fault where
  kind : FaultKind
  text : String
  deriving DecidableEq, Repr

namespace Fault

def Interrupted (fault : Fault) : Prop := fault.kind = .interrupted

instance (fault : Fault) : Decidable fault.Interrupted :=
  inferInstanceAs (Decidable (fault.kind = .interrupted))

/-- Reported by a reader that needs an exact number of bytes and meets the end before. -/
def endedEarly : Fault := ⟨.unexpectedEnd, "failed to fill whole buffer"⟩

def directory : Fault := ⟨.isDirectory, "Is a directory (os error 21)"⟩

def missing : Fault := ⟨.notFound, "No such file or directory (os error 2)"⟩

def belowFile : Fault := ⟨.notADirectory, "Not a directory (os error 20)"⟩

def longName : Fault := ⟨.nameTooLong, "File name too long (os error 36)"⟩

end Fault

inductive Operation where
  | probing (count : Nat)
  | extendingProbe (count : Nat)
  | rewinding
  | skipping (count : Nat)
  | filling (count : Nat)
  | detecting (step : Operation)
  /-- An operation of the caller's own, in the caller's words. -/
  | named (text : String)
  deriving DecidableEq, Repr

def Operation.message : Operation → String
  | .probing count => s!"reading first {count} bytes failed"
  | .extendingProbe count => s!"extending probe to {count} bytes failed"
  | .rewinding => "seeking to 0 failed"
  | .skipping count => s!"reading {count} bytes to sync reader failed"
  | .filling count => s!"reading {count} bytes failed"
  | .detecting step => "auto detecting packet size failed: " ++ step.message
  | .named text => text

end TransportStream
