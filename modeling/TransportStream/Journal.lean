import TransportStream.Detection

/-!
# The journal

What a reader notes down beside its answers. A note holds the facts; its level and
its wording are functions of them.
-/
namespace TransportStream

inductive Level where
  | trace
  | debug
  | warning
  deriving DecidableEq, Repr

inductive Note where
  | workersStarted (workers : Nat)
  | detected (detection : Detection)
  | truncated (index length expected : Nat)
  | refilled (bytes packets : Nat)
  | passedOver (account : String)
  deriving DecidableEq, Repr

def Level.name : Level → String
  | .trace => "TRACE"
  | .debug => "DEBUG"
  | .warning => "WARN"

namespace Note

def level : Note → Level
  | .workersStarted _ | .detected _ | .passedOver _ => .debug
  | .truncated _ _ _ => .warning
  | .refilled _ _ => .trace

def resyncText : Resync → String
  | .rewound => "Rewound"
  | .skipped count => s!"Skipped({count})"

def message : Note → String
  | .workersStarted workers => s!"decode pool started with {workers} workers"
  | .detected d =>
    s!"detected packet size {d.packetSize} from {d.window} probe bytes (" ++
      resyncText d.resync ++ ")"
  | .truncated index length expected =>
    s!"packet {index} truncated at end of stream ({length} of {expected} bytes)"
  | .refilled bytes packets => s!"refill read {bytes} bytes, dispatched {packets} packets"
  | .passedOver account => account

end Note

end TransportStream
