import TransportStream.Reader.Basic

/-!
# Opening a reader

The settings are checked, workers are started, the packet size is measured if it is
not given, and the length of a chunk is checked, in this order. A buffer that no
allocation can provide is a failure of the program and not of its input.
-/
namespace TransportStream

/-- Whether a reader starts workers of its own or borrows running ones. -/
inductive Workers where
  | own
  | borrowed
  deriving DecidableEq, Repr

namespace Workers

/-- Starts the given number of workers, of which there has to be one. -/
def start? (count : Nat) : Option (List Note) :=
  if count = 0 then none else some [.workersStarted count]

def check (workers : Workers) (settings : Settings) : Except SettingsFault Unit :=
  match workers with
  | .own => settings.check
  | .borrowed => settings.checkChunk

def notes (workers : Workers) (settings : Settings) : List Note :=
  match workers with
  | .own => [.workersStarted settings.workers]
  | .borrowed => []

end Workers

/-- Why no reader was opened. -/
inductive Refusal (E : Type) where
  | error (reason : ReadError E)
  | unallocatable (length : Nat)
  deriving DecidableEq, Repr

structure Opening (P E : Type) where
  result : Except (Refusal E) (Reader P E)
  requests : List Request
  notes : List Note

namespace Framing

/-- The given packet size, or the measured one where none is given. -/
def locate (packetSize : Nat) (s : Source) : Exchange (Except DetectionError Framing) :=
  if h : 0 < packetSize then .done (.ok ⟨packetSize, h, none⟩) s
  else
    match hd : (detect s).result with
    | .error e => ⟨.error e, (detect s).source, (detect s).requests⟩
    | .ok d =>
      ⟨.ok ⟨d.packetSize, packetSize_pos_of_detect hd, some d⟩, (detect s).source,
        (detect s).requests⟩

theorem locate_of_given {packetSize : Nat} (h : 0 < packetSize) (s : Source) :
    locate packetSize s = .done (.ok ⟨packetSize, h, none⟩) s := by
  rw [locate, dif_pos h]

theorem locate_zero_of_error {s : Source} {e : DetectionError} (h : (detect s).result = .error e) :
    locate 0 s = ⟨.error e, (detect s).source, (detect s).requests⟩ := by
  rw [locate, dif_neg (by decide)]
  split <;> simp_all

theorem locate_zero_of_ok {s : Source} {d : Detection} (h : (detect s).result = .ok d) :
    locate 0 s =
      ⟨.ok ⟨d.packetSize, packetSize_pos_of_detect h, some d⟩, (detect s).source,
        (detect s).requests⟩ := by
  rw [locate, dif_neg (by decide)]
  split
  · simp_all
  · rename_i d' hd
    obtain rfl : d = d' := by simpa [h] using hd
    rfl

def notes (framing : Framing) : List Note := framing.detection.toList.map .detected

end Framing

namespace Reader
variable {P E : Type}

def ofFraming (settings : Settings) (decoder : Decoder P E) (framing : Framing) (s : Source) :
    Except (Refusal E) (Reader P E) :=
  match settings.chunkLength framing.packetSize with
  | .error fault => .error (.error (.invalidSettings fault))
  | .ok length =>
    match ChunkBuffer.allocate? length with
    | none => .error (.unallocatable length)
    | some buffer => .ok { decoder, framing, source := s, buffer }

/-- Opening looks neither at the decoder nor at what the source holds. -/
theorem ofFraming_map {settings : Settings} {decoder decoder' : Decoder P E} {framing : Framing}
    {s s' : Source} {f : Reader P E → Reader P E}
    (h : ∀ buffer, f { decoder, framing, source := s, buffer } =
      { decoder := decoder', framing, source := s', buffer }) :
    ofFraming settings decoder' framing s' = (ofFraming settings decoder framing s).map f := by
  unfold ofFraming
  cases settings.chunkLength framing.packetSize with
  | error fault => rfl
  | ok length =>
    cases hbuffer : ChunkBuffer.allocate? length with
    | none => simp only [hbuffer, Except.map]
    | some buffer => simp only [hbuffer, Except.map, h]

def ofSource (workers : Workers) (settings : Settings) (decoder : Decoder P E) (s : Source) :
    Opening P E :=
  match workers.check settings with
  | .error fault => ⟨.error (.error (.invalidSettings fault)), [], []⟩
  | .ok () =>
    let located := Framing.locate settings.packetSize s
    match located.result with
    | .error e =>
      ⟨.error (.error (.ofDetection e)), located.requests, workers.notes settings⟩
    | .ok framing =>
      ⟨ofFraming settings decoder framing located.source, located.requests,
        workers.notes settings ++ framing.notes⟩

end Reader

end TransportStream
