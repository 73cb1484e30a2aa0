import TransportStream.Source.Gather
import TransportStream.Packet.Header

/-!
# Finding the packet size

The packet size is the distance from the leading sync byte to the next one, from
offset 188 on. A probe of 193 bytes shows sizes up to 192, and one of 205 bytes the
others. A source that cannot go back is then moved to the end of the second packet.
-/
namespace TransportStream

inductive Resync where
  | rewound
  | skipped (count : Nat)
  deriving DecidableEq, Repr

structure Detection where
  packetSize : Nat
  /-- The bytes that the probe took. -/
  window : Nat
  resync : Resync
  deriving DecidableEq, Repr

inductive Rejection where
  | missingLeadingSync (needed available : Nat)
  | notSyncAligned (found : UInt8)
  | noSecondSync (window : Nat)
  deriving DecidableEq, Repr

inductive DetectionError where
  | rejected (reason : Rejection)
  | io (during : Operation) (fault : Fault)
  deriving DecidableEq, Repr

def Rejection.message : Rejection → String
  | .missingLeadingSync needed available =>
    s!"missing leading sync: needed {needed} probe bytes, stream held {available}"
  | .notSyncAligned found =>
    "stream is not sync aligned: first byte is " ++
      Text.Hexadecimal.marked .capital 2 found.toNat ++ ", expected 0x47"
  | .noSecondSync window => s!"only one sync byte detected in first {window} bytes"

namespace DetectionError

def message : DetectionError → String
  | .rejected reason => reason.message
  | .io during _ => during.message

def account (e : DetectionError) : String :=
  match e with
  | .rejected _ => e.message
  | .io _ fault => e.message ++ ": " ++ fault.text

end DetectionError

namespace Detection

def smallestSize : Nat := 188

def largestSize : Nat := 204

def probeLength : Nat := 193

def extendedProbeLength : Nat := largestSize + 1

/-- The first place at or after the smallest size that holds a sync byte. -/
def nextSync (window : Bytes) : Option Nat :=
  ((window.drop smallestSize).idxOf? syncByte).map (· + smallestSize)

structure Measure where
  packetSize : Nat
  window : Nat
  deriving DecidableEq, Repr

def measure (s : Source) : Exchange (Except DetectionError Measure) :=
  ((s.readUpTo probeLength).mapError (.io (.probing probeLength))).andThen fun head s =>
    if head.length < probeLength then
      .done (.error (.rejected (.missingLeadingSync probeLength head.length))) s
    else if head.headD 0 ≠ syncByte then
      .done (.error (.rejected (.notSyncAligned (head.headD 0)))) s
    else
      match nextSync head with
      | some size => .done (.ok ⟨size, head.length⟩) s
      | none =>
        ((s.readUpTo (extendedProbeLength - probeLength)).mapError
          (.io (.extendingProbe extendedProbeLength))).andThen fun more s =>
            match nextSync (head ++ more) with
            | some size => .done (.ok ⟨size, (head ++ more).length⟩) s
            | none => .done (.error (.rejected (.noSecondSync (head ++ more).length))) s

/-- What is left of the second packet behind the probe. -/
def Measure.skip (m : Measure) : Nat := m.packetSize - (m.window - m.packetSize)

def realign (m : Measure) (s : Source) : Exchange (Except DetectionError Resync) :=
  (s.rewind.mapError (.io .rewinding)).andThen fun rewound s =>
    if rewound then .done (.ok .rewound) s
    else
      ((s.readExactly m.skip).mapError (.io (.skipping m.skip))).andThen fun _ s =>
        .done (.ok (.skipped m.skip)) s

end Detection

/-- Measures the packet size and puts the source back on a packet boundary. -/
def detect (s : Source) : Exchange (Except DetectionError Detection) :=
  (Detection.measure s).andThen fun m s =>
    (Detection.realign m s).map (·.map fun resync => ⟨m.packetSize, m.window, resync⟩)

namespace Detection

theorem nextSync_le {window : Bytes} {size : Nat} (h : nextSync window = some size) :
    smallestSize ≤ size := by
  unfold nextSync at h
  obtain ⟨i, -, rfl⟩ := Option.map_eq_some_iff.mp h
  omega

end Detection

theorem Detection.smallestSize_le_of_measure {s : Source} {m : Detection.Measure}
    (h : (Detection.measure s).result = .ok m) : Detection.smallestSize ≤ m.packetSize := by
  obtain ⟨head, -, h⟩ := Exchange.result_andThen_eq_ok.mp h
  split at h
  · simp [Exchange.done] at h
  split at h
  · simp [Exchange.done] at h
  split at h
  · rename_i size hs
    obtain rfl := Except.ok.inj h
    exact Detection.nextSync_le hs
  obtain ⟨more, -, h⟩ := Exchange.result_andThen_eq_ok.mp h
  split at h
  · rename_i size hs
    obtain rfl := Except.ok.inj h
    exact Detection.nextSync_le hs
  · simp [Exchange.done] at h

theorem smallestSize_le_of_detect {s : Source} {d : Detection} (h : (detect s).result = .ok d) :
    Detection.smallestSize ≤ d.packetSize := by
  obtain ⟨m, hm, h⟩ := Exchange.result_andThen_eq_ok.mp h
  have := Detection.smallestSize_le_of_measure hm
  cases hr : (Detection.realign m (Detection.measure s).source).result with
  | error e => simp [hr, Except.map] at h
  | ok r =>
    simp only [Exchange.result_map, hr, Except.map, Except.ok.injEq] at h
    rw [← h]
    exact this

theorem packetSize_pos_of_detect {s : Source} {d : Detection} (h : (detect s).result = .ok d) :
    0 < d.packetSize :=
  Nat.lt_of_lt_of_le (by decide) (smallestSize_le_of_detect h)

end TransportStream
