/-!
# Reader settings

A packet size of zero asks for it to be measured. Of two faults the one of the chunk
is reported.
-/
namespace TransportStream

structure Settings where
  packetSize : Nat := 0
  chunkPackets : Nat := 10000
  /-- By default as many as the machine has processors, for which one stands here:
  how many there are is only noted down, as long as there is one at all. -/
  workers : Nat := 1
  deriving DecidableEq, Repr

inductive SettingsFault where
  | emptyChunk
  | noWorkers
  | chunkTooLong
  deriving DecidableEq, Repr

def SettingsFault.message : SettingsFault → String
  | .emptyChunk => "chunk_packets must be at least 1"
  | .noWorkers => "workers must be at least 1"
  | .chunkTooLong => "packet_size * chunk_packets overflows"

namespace Settings

/-- Lengths from here on cannot be written in a word of 64 bits. -/
def wordLimit : Nat := UInt64.size

/-- What a reader with borrowed workers requires. -/
def checkChunk (settings : Settings) : Except SettingsFault Unit :=
  if settings.chunkPackets = 0 then .error .emptyChunk else .ok ()

/-- What a reader with workers of its own requires. -/
def check (settings : Settings) : Except SettingsFault Unit :=
  match settings.checkChunk with
  | .error fault => .error fault
  | .ok () => if settings.workers = 0 then .error .noWorkers else .ok ()

/-- The bytes of a chunk of packets of the given size. -/
def chunkLength (settings : Settings) (packetSize : Nat) : Except SettingsFault Nat :=
  if packetSize * settings.chunkPackets < wordLimit then
    .ok (packetSize * settings.chunkPackets)
  else .error .chunkTooLong

end Settings

end TransportStream
