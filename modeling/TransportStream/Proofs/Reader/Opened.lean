import TransportStream.Reader.Opening

/-!
# Readers as they are opened

An opened reader has an empty line, an empty tally and a buffer for a whole number of
packets (`start`, `start_of_ofSource`).
-/
namespace TransportStream

theorem Workers.check_of_pos {workers : Workers} {settings : Settings}
    (hc : 0 < settings.chunkPackets) (hw : workers = .own → 0 < settings.workers) :
    workers.check settings = .ok () := by
  have hchunk : settings.checkChunk = .ok () := if_neg (Nat.ne_of_gt hc)
  cases workers with
  | own => simp [check, Settings.check, hchunk, Nat.ne_of_gt (hw rfl)]
  | borrowed => exact hchunk

theorem Workers.chunkPackets_pos_of_check {workers : Workers} {settings : Settings}
    (h : workers.check settings = .ok ()) : 0 < settings.chunkPackets := by
  refine Nat.pos_of_ne_zero fun hz => ?_
  cases workers <;> simp [check, Settings.check, Settings.checkChunk, hz] at h

namespace Framing
open Detection

theorem detect_of_locate {packetSize : Nat} {s : Source} {framing : Framing}
    (hzero : packetSize = 0) (h : (locate packetSize s).result = .ok framing) :
    ∃ d, (detect s).result = .ok d ∧ (locate packetSize s).source = (detect s).source ∧
      framing.packetSize = d.packetSize ∧ framing.detection = some d := by
  subst hzero
  cases hd : (detect s).result with
  | error e =>
    rw [locate_zero_of_error hd] at h
    cases h
  | ok d =>
    rw [locate_zero_of_ok hd] at h ⊢
    rw [← Except.ok.inj h]
    exact ⟨d, rfl, rfl, rfl, rfl⟩

theorem detect_of_locate_error {packetSize : Nat} {s : Source} {e : DetectionError}
    (h : (locate packetSize s).result = .error e) : (detect s).result = .error e := by
  unfold locate at h
  split at h
  · cases h
  · split at h
    · cases h
      assumption
    · cases h

end Framing

namespace Reader
variable {P E : Type}

/-- The reader that opening gives once the framing is known. -/
def start (settings : Settings) (decoder : Decoder P E) (framing : Framing) (s : Source) :
    Reader P E :=
  { decoder, framing, source := s, buffer := ⟨framing.packetSize * settings.chunkPackets, []⟩ }

theorem ofFraming_of_le {settings : Settings} {decoder : Decoder P E} {framing : Framing}
    {s : Source}
    (h : framing.packetSize * settings.chunkPackets ≤ ChunkBuffer.capacityLimit) :
    ofFraming settings decoder framing s = .ok (start settings decoder framing s) := by
  have hword : framing.packetSize * settings.chunkPackets < Settings.wordLimit :=
    Nat.lt_of_le_of_lt h (by decide)
  simp [ofFraming, Settings.chunkLength, ChunkBuffer.allocate?, start, h, hword]

theorem start_of_ofFraming {settings : Settings} {decoder : Decoder P E} {framing : Framing}
    {s : Source} {r : Reader P E} (h : ofFraming settings decoder framing s = .ok r) :
    framing.packetSize * settings.chunkPackets ≤ ChunkBuffer.capacityLimit ∧
      r = start settings decoder framing s := by
  unfold ofFraming Settings.chunkLength ChunkBuffer.allocate? at h
  by_cases hword : framing.packetSize * settings.chunkPackets < Settings.wordLimit
  · by_cases hle : framing.packetSize * settings.chunkPackets ≤ ChunkBuffer.capacityLimit
    · simp only [hword, hle, if_true, Except.ok.injEq] at h
      exact ⟨hle, h.symm⟩
    · simp [hword, hle] at h
  · simp [hword] at h

theorem ofSource_of_given {workers : Workers} {settings : Settings} {s : Source}
    (decoder : Decoder P E) (hcheck : workers.check settings = .ok ())
    (hsize : 0 < settings.packetSize)
    (hle : settings.packetSize * settings.chunkPackets ≤ ChunkBuffer.capacityLimit) :
    (ofSource workers settings decoder s).result =
      .ok (start settings decoder ⟨settings.packetSize, hsize, none⟩ s) := by
  simp only [ofSource, hcheck, Framing.locate_of_given hsize, Exchange.done]
  exact ofFraming_of_le hle

/-- A given packet size is taken as it is: opening asks the source for nothing. -/
theorem requests_of_given {workers : Workers} {settings : Settings} {s : Source}
    (decoder : Decoder P E) (hcheck : workers.check settings = .ok ())
    (hsize : 0 < settings.packetSize) :
    (ofSource workers settings decoder s).requests = [] := by
  simp only [ofSource, hcheck, Framing.locate_of_given hsize, Exchange.done]

/-- A packet size that is not given is measured, and nothing else is asked for. -/
theorem requests_of_measured {workers : Workers} {settings : Settings} {s : Source}
    (decoder : Decoder P E) (hcheck : workers.check settings = .ok ())
    (hsize : settings.packetSize = 0) :
    (ofSource workers settings decoder s).requests = (detect s).requests := by
  cases hd : (detect s).result with
  | error e => simp only [ofSource, hcheck, hsize, Framing.locate_zero_of_error hd]
  | ok d => simp only [ofSource, hcheck, hsize, Framing.locate_zero_of_ok hd]

theorem ofSource_of_unusable {workers : Workers} {settings : Settings} {fault : SettingsFault}
    (decoder : Decoder P E) (hcheck : workers.check settings = .error fault) (s : Source) :
    (ofSource workers settings decoder s).result = .error (.error (.invalidSettings fault)) := by
  simp only [ofSource, hcheck]

theorem ofSource_of_undetected {workers : Workers} {settings : Settings} {s : Source}
    {e : DetectionError} (decoder : Decoder P E) (hcheck : workers.check settings = .ok ())
    (hsize : settings.packetSize = 0) (h : (detect s).result = .error e) :
    (ofSource workers settings decoder s).result = .error (.error (.ofDetection e)) := by
  simp only [ofSource, hcheck, hsize, Framing.locate_zero_of_error h]

theorem ofSource_of_detected {workers : Workers} {settings : Settings} {s : Source}
    {d : Detection} (decoder : Decoder P E) (hcheck : workers.check settings = .ok ())
    (hsize : settings.packetSize = 0) (h : (detect s).result = .ok d)
    (hle : d.packetSize * settings.chunkPackets ≤ ChunkBuffer.capacityLimit) :
    (ofSource workers settings decoder s).result =
      .ok (start settings decoder ⟨d.packetSize, packetSize_pos_of_detect h, some d⟩
        (detect s).source) := by
  simp only [ofSource, hcheck, hsize, Framing.locate_zero_of_ok h]
  exact ofFraming_of_le hle

theorem start_of_ofSource {workers : Workers} {settings : Settings} {decoder : Decoder P E}
    {s : Source} {r : Reader P E}
    (h : (ofSource workers settings decoder s).result = .ok r) :
    workers.check settings = .ok () ∧ ∃ framing,
      (Framing.locate settings.packetSize s).result = .ok framing ∧
      framing.packetSize * settings.chunkPackets ≤ ChunkBuffer.capacityLimit ∧
      r = start settings decoder framing (Framing.locate settings.packetSize s).source := by
  unfold ofSource at h
  cases hcheck : workers.check settings with
  | error fault => simp [hcheck] at h
  | ok _ =>
    cases hl : (Framing.locate settings.packetSize s).result with
    | error e => simp [hcheck, hl] at h
    | ok framing =>
      simp only [hcheck, hl] at h
      obtain ⟨hle, hr⟩ := start_of_ofFraming h
      exact ⟨rfl, framing, rfl, hle, hr⟩

theorem start_of_given {workers : Workers} {settings : Settings} {decoder : Decoder P E}
    {s : Source} {r : Reader P E} (hsize : 0 < settings.packetSize)
    (h : (ofSource workers settings decoder s).result = .ok r) :
    0 < settings.chunkPackets ∧
      r = start settings decoder ⟨settings.packetSize, hsize, none⟩ s := by
  obtain ⟨hcheck, framing, hlocate, -, rfl⟩ := start_of_ofSource h
  rw [Framing.locate_of_given hsize] at hlocate ⊢
  obtain rfl := Except.ok.inj hlocate
  exact ⟨Workers.chunkPackets_pos_of_check hcheck, rfl⟩

end Reader

end TransportStream
