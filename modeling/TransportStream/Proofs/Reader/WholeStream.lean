import TransportStream.Proofs.Reader.Forecast
import TransportStream.Proofs.Reader.Opened
import TransportStream.Sample

/-!
# The whole of a steady stream

A reader with a given packet size on a steady source delivers the packets of the
data, and then nothing more.
-/
namespace TransportStream.Reader
variable {P E : Type}

section
variable {settings : Settings} {framing : Framing} {s : Source}

theorem steady_start (decoder : Decoder P E) (hchunk : 0 < settings.chunkPackets)
    (hs : s.Steady) : (start settings decoder framing s).Steady :=
  ⟨hs, Nat.mul_pos framing.packetSize_pos hchunk, ⟨settings.chunkPackets, rfl⟩⟩

theorem future_start (decoder : Decoder P E) :
    (start settings decoder framing s).future =
      Outcome.ofSlices decoder framing.packetSize 0 (s.rest.slices framing.packetSize) :=
  List.nil_append _

theorem getElem?_future_start (decoder : Decoder P E) (i : Nat) :
    (start settings decoder framing s).future[i]? =
      if i * framing.packetSize < s.rest.length then
        some (Outcome.ofSlice decoder framing.packetSize i
          ((s.rest.drop (i * framing.packetSize)).take framing.packetSize))
      else none := by
  rw [future_start, Outcome.getElem?_ofSlices, Bytes.getElem?_slices framing.packetSize_pos,
    Nat.zero_add]
  split <;> rfl

theorem length_future_start (decoder : Decoder P E) :
    (start settings decoder framing s).future.length =
      (s.rest.length + framing.packetSize - 1) / framing.packetSize := by
  rw [future_start, Outcome.length_ofSlices, Bytes.length_slices framing.packetSize_pos]

theorem forecast_start (decoder : Decoder P E) (hchunk : 0 < settings.chunkPackets) :
    (start settings decoder framing s).forecast =
      ⟨s.rest.length,
        (s.rest.length + framing.packetSize * settings.chunkPackets - 1) /
          (framing.packetSize * settings.chunkPackets),
        (s.rest.length + framing.packetSize - 1) / framing.packetSize,
        (s.rest.length + framing.packetSize - 1) / framing.packetSize⟩ := by
  have hroom : 0 < framing.packetSize * settings.chunkPackets :=
    Nat.mul_pos framing.packetSize_pos hchunk
  unfold forecast
  rw [length_future_start]
  simp only [start, chunkLength, packetSize, Nat.zero_add, Bytes.length_slices hroom,
    Bytes.length_slices framing.packetSize_pos]

end

theorem mul_lt_iff_lt_pieces {size : Nat} (hs : 0 < size) (i length : Nat) :
    i * size < length ↔ i < (length + size - 1) / size := by
  have h : i < (length + size - 1) / size ↔ (i + 1) * size ≤ length + size - 1 :=
    Nat.le_div_iff_mul_le hs
  rw [h, Nat.add_mul]
  omega

/-- A reader with a given packet size, opened on a steady source over `data`,
yields one item for each piece of the data and then none for ever, and its
tally ends with the numbers of bytes, chunks and packets. -/
theorem whole_stream (workers : Workers) (settings : Settings) (decoder : Decoder P E)
    {s : Source} {data : Bytes} (hworkers : workers = .own → 0 < settings.workers)
    (hsize : 0 < settings.packetSize) (hchunk : 0 < settings.chunkPackets)
    (hlimit : settings.packetSize * settings.chunkPackets ≤ ChunkBuffer.capacityLimit)
    (hs : s.Steady) (hdata : s.rest = data) :
    ∃ r, (ofSource workers settings decoder s).result = .ok r ∧
      (∀ i, i < (data.length + settings.packetSize - 1) / settings.packetSize →
        (r.afterCalls i).next.item =
          some (Outcome.ofSlice decoder settings.packetSize i
            ((data.drop (i * settings.packetSize)).take settings.packetSize))) ∧
      (∀ i, (data.length + settings.packetSize - 1) / settings.packetSize ≤ i →
        (r.afterCalls i).next.item = none) ∧
      ∀ count, (data.length + settings.packetSize - 1) / settings.packetSize ≤ count →
        (r.afterCalls count).tally =
          ⟨data.length,
            (data.length + settings.packetSize * settings.chunkPackets - 1) /
              (settings.packetSize * settings.chunkPackets),
            (data.length + settings.packetSize - 1) / settings.packetSize,
            (data.length + settings.packetSize - 1) / settings.packetSize⟩ := by
  subst hdata
  have hcheck := Workers.check_of_pos hchunk hworkers
  have hsteady : (start settings decoder ⟨settings.packetSize, hsize, none⟩ s).Steady :=
    steady_start decoder hchunk hs
  refine ⟨_, ofSource_of_given decoder hcheck hsize hlimit, ?_, ?_, ?_⟩
  · intro i hi
    have hlt := (mul_lt_iff_lt_pieces hsize i s.rest.length).mpr hi
    rw [item_of_steady hsteady, getElem?_future_start, if_pos hlt]
  · intro i hi
    have hnlt : ¬i * settings.packetSize < s.rest.length := fun h =>
      Nat.not_lt.mpr hi ((mul_lt_iff_lt_pieces hsize i s.rest.length).mp h)
    rw [item_of_steady hsteady, getElem?_future_start, if_neg hnlt]
  · intro count hcount
    rw [tally_of_steady hsteady (by rw [length_future_start]; exact hcount),
      forecast_start decoder hchunk]

/-- Five bytes that come one, then two, then one at a time, with an interruption. -/
def trickle : Source where
  data := [0x47, 0, 1, 0, 0x47]
  answers := [.serve 1, .fail ⟨.interrupted, "again"⟩, .serve 2, .serve 1]

theorem whole_stream_trickle :
    trickle.Steady ∧
      ∃ r, (ofSource .borrowed { packetSize := 2, chunkPackets := 2 }
          (Sample.tagDecoder none) trickle).result = .ok r ∧
        (r.afterCalls 0).next.item = some (.error (.workerLost 0)) ∧
        (r.afterCalls 1).next.item = some (.error (.undecodable 1 (.missingSync 1))) ∧
        (r.afterCalls 2).next.item = some (.error (.truncated 2 1 2)) ∧
        (r.afterCalls 3).next.item = none ∧
        (r.afterCalls 3).tally = ⟨5, 2, 3, 3⟩ := by
  have hs : trickle.Steady := ⟨by decide, by decide⟩
  obtain ⟨r, hr, hitem, hnone, htally⟩ :=
    whole_stream .borrowed { packetSize := 2, chunkPackets := 2 } (Sample.tagDecoder none)
      (by decide) (by decide) (by decide) (by decide) hs rfl
  exact ⟨hs, r, hr, hitem 0 (by decide), hitem 1 (by decide), hitem 2 (by decide),
    hnone 3 (by decide), htally 3 (by decide)⟩

end TransportStream.Reader
