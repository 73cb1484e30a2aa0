import TransportStream.Proofs.Reader.WholeStream
import TransportStream.Proofs.Source.Barred

/-!
# Streams that break off

A reader whose source fails for good at some byte behaves like one whose source ends
with the last chunk before the barrier (`shortened`). Where that one finds the end,
this one fails, and keeps failing (`next_of_barred`).
-/
namespace TransportStream.Reader
variable {P E : Type}

/-- The source is barred, and a chunk holds a whole number of packets, at least one. -/
structure Barred (r : Reader P E) (barrier : Barrier) : Prop where
  source : r.source.Barred barrier
  room : 0 < r.chunkLength
  whole : r.packetSize ∣ r.chunkLength

/-- How many chunks are still to be read before the barrier. -/
def chunksBefore (r : Reader P E) (barrier : Barrier) : Nat :=
  (barrier.offset - r.source.position) / r.chunkLength

/-- The same reader on a source that ends with these chunks. -/
def shortened (r : Reader P E) (barrier : Barrier) : Reader P E :=
  { r with source := .ofBytes (r.source.rest.take (r.chunksBefore barrier * r.chunkLength)) }

/-- What a call reports that meets the barrier. -/
def failure (r : Reader P E) (barrier : Barrier) : Outcome P E :=
  .error (.io (.filling r.chunkLength) barrier.fault)

/-- The second reader is the first one on a source with the same bytes to come,
with a buffer of the same length. -/
structure Alike (q q' : Reader P E) : Prop where
  rest : q'.source.rest = q.source.rest
  chunkLength : q'.chunkLength = q.chunkLength
  others : q' = { q with source := q'.source, buffer := q'.buffer }

section
variable {q q' : Reader P E}

theorem Alike.future (h : Alike q q') : q'.future = q.future := by
  rw [h.others, Reader.future, Reader.future]
  dsimp only [Reader.packetSize]
  rw [h.rest]

theorem Alike.forecast (h : Alike q q') : q'.forecast = q.forecast := by
  unfold Reader.forecast
  rw [h.future, h.chunkLength, h.rest, h.others]
  rfl

end

section
variable {r : Reader P E} {barrier : Barrier}

theorem rest_shortened (r : Reader P E) (barrier : Barrier) :
    (r.shortened barrier).source.rest =
      r.source.rest.take (r.chunksBefore barrier * r.chunkLength) := List.drop_zero

theorem steady_shortened (hr : r.Barred barrier) : (r.shortened barrier).Steady :=
  ⟨Source.steady_ofBytes _, hr.room, hr.whole⟩

theorem Barred.received (hr : r.Barred barrier) : r.received.Barred barrier :=
  ⟨hr.source.gather r.chunkLength, hr.room, hr.whole⟩

theorem Barred.refilled (hr : r.Barred barrier) : r.refilled.dropFirst.Barred barrier :=
  ⟨hr.source.gather r.chunkLength, hr.room, hr.whole⟩

/-- A chunk that ends before the barrier is read in full, also by the shortened reader. -/
theorem Barred.intake_of_clear (hr : r.Barred barrier) (h : r.chunksBefore barrier ≠ 0) :
    r.intake.result = ⟨r.source.rest.take r.chunkLength, none⟩ ∧
      r.intake.result.bytes ≠ [] ∧
      (r.shortened barrier).intake.result = r.intake.result := by
  have hclear : r.source.position + r.chunkLength ≤ barrier.offset :=
    Nat.add_le_of_le_sub' hr.source.before (Nat.div_pos_iff.mp (Nat.pos_of_ne_zero h)).2
  have hroom : r.chunkLength ≤ r.chunksBefore barrier * r.chunkLength :=
    Nat.le_mul_of_pos_left _ (Nat.pos_of_ne_zero h)
  have hresult : r.intake.result = ⟨r.source.rest.take r.chunkLength, none⟩ := by
    rw [intake, Source.gather_of_barred hr.source, if_pos hclear]
  refine ⟨hresult, ?_, ?_⟩
  · have hlength := hr.room
    have hwithin := hr.source.within
    rw [hresult, ← List.length_pos_iff, List.length_take, Source.rest, List.length_drop]
    omega
  rw [(steady_shortened hr).supplied, hresult, rest_shortened]
  change Intake.mk ((r.source.rest.take _).take r.chunkLength) none = _
  rw [List.take_take, Nat.min_eq_left hroom]

/-- The chunk that needs a byte behind the barrier fails where the shortened
reader finds the end of its source. -/
theorem Barred.intake_of_met (hr : r.Barred barrier) (h : r.chunksBefore barrier = 0) :
    r.intake.result.fault = some barrier.fault ∧
      r.intake.source.position = barrier.offset ∧
      (r.shortened barrier).intake.result = ⟨[], none⟩ := by
  have hbefore := hr.source.before
  have hwithin := hr.source.within
  have hshort : barrier.offset - r.source.position < r.chunkLength := by
    rcases Nat.div_eq_zero_iff.mp h with hzero | hlt
    · exact absurd hzero (Nat.ne_of_gt hr.room)
    · exact hlt
  have hresult := Source.gather_of_barred hr.source r.chunkLength
  rw [if_neg (by omega)] at hresult
  refine ⟨congrArg Intake.fault hresult, ?_, ?_⟩
  · rw [intake, Source.position_gather, hresult, List.length_take, Source.rest, List.length_drop]
    omega
  · rw [(steady_shortened hr).supplied, rest_shortened, h, Nat.zero_mul, List.take_zero,
      List.take_nil]

theorem Barred.rest_refilled (hr : r.Barred barrier) (h : r.chunksBefore barrier ≠ 0) :
    (r.refilled.dropFirst.shortened barrier).source.rest =
      (r.shortened barrier).refilled.dropFirst.source.rest := by
  obtain ⟨hresult, -⟩ := hr.intake_of_clear h
  have hwithin := hr.source.within
  have hle := (Nat.div_pos_iff.mp (Nat.pos_of_ne_zero h)).2
  have hposition : r.intake.source.position = r.source.position + r.chunkLength := by
    have hmoved := r.source.position_gather r.chunkLength
    have hbytes := congrArg Intake.bytes hresult
    rw [intake] at hbytes ⊢
    rw [hmoved, hbytes, List.length_take, Source.rest, List.length_drop]
    omega
  have hchunks : r.refilled.dropFirst.chunksBefore barrier + 1 = r.chunksBefore barrier := by
    change (barrier.offset - r.intake.source.position) / r.chunkLength + 1 = _
    rw [hposition, Nat.sub_add_eq, chunksBefore, Nat.div_eq_sub_div hr.room hle]
  have hrest : r.intake.source.rest = r.source.rest.drop r.chunkLength :=
    Supplied.rest_received hresult
  calc (r.refilled.dropFirst.shortened barrier).source.rest
      = r.intake.source.rest.take
          (r.refilled.dropFirst.chunksBefore barrier * r.chunkLength) := rest_shortened _ _
    _ = (r.source.rest.take (r.chunksBefore barrier * r.chunkLength)).drop r.chunkLength := by
        rw [hrest, List.drop_take, ← hchunks, Nat.add_one_mul, Nat.add_sub_cancel]
    _ = (r.shortened barrier).refilled.dropFirst.source.rest := by
        rw [← rest_shortened]
        exact (Supplied.rest_received (steady_shortened hr).supplied).symm

/-- A call does what the shortened reader's call does, except that it fails where
that one finds the end. -/
theorem next_of_barred (hr : r.Barred barrier) :
    r.next.item = some ((r.shortened barrier).next.item.getD (r.failure barrier)) ∧
      Alike (r.shortened barrier).next.reader (r.next.reader.shortened barrier) ∧
      r.next.reader.Barred barrier ∧ r.next.reader.chunkLength = r.chunkLength ∧
      ((r.shortened barrier).next.item = none →
        r.next.reader.source.position = barrier.offset) := by
  cases hs : r.backlog.slots with
  | cons slot later =>
    have hshortened : (r.shortened barrier).backlog.slots = slot :: later := hs
    rw [next_of_call (.deliver hs), next_of_call (.deliver hshortened)]
    exact ⟨rfl, ⟨rfl, rfl, rfl⟩, ⟨hr.source, hr.room, hr.whole⟩, rfl, fun h => by cases h⟩
  | nil =>
    have hshortened : (r.shortened barrier).backlog.slots = [] := hs
    by_cases h : r.chunksBefore barrier = 0
    · obtain ⟨hfault, hposition, hend⟩ := hr.intake_of_met h
      rw [next_of_call (.fault hs hfault), next_of_call
        (.finish hshortened (congrArg Intake.fault hend) (congrArg Intake.bytes hend))]
      refine ⟨rfl, ⟨?_, rfl, rfl⟩, hr.received, rfl, fun _ => hposition⟩
      have hchunks : r.received.chunksBefore barrier = 0 := by
        change (barrier.offset - r.intake.source.position) / r.chunkLength = 0
        rw [hposition, Nat.sub_self, Nat.zero_div]
      rw [rest_shortened, hchunks, (steady_shortened hr).supplied.rest_received, rest_shortened, h]
      simp only [Nat.zero_mul, List.take_zero, List.drop_nil]
    · obtain ⟨hresult, hbytes, hsame⟩ := hr.intake_of_clear h
      have hfault : r.intake.result.fault = none := congrArg Intake.fault hresult
      rw [next_of_call (.refill hs hfault hbytes), next_of_call
        (.refill hshortened ((congrArg Intake.fault hsame).trans hfault) (by rwa [hsame]))]
      refine ⟨?_, ⟨hr.rest_refilled h, rfl, ?_⟩, hr.refilled, rfl, fun h => by cases h⟩
      · rw [hsame]
        rfl
      · simp only [dropFirst, refilled, queue, received, cut, hsame]
        rfl

theorem afterCalls_of_barred (hr : r.Barred barrier) (i : Nat) :
    (r.afterCalls i).Barred barrier ∧ (r.afterCalls i).chunkLength = r.chunkLength ∧
      ((r.afterCalls i).shortened barrier).future = (r.shortened barrier).future.drop i ∧
      ((r.afterCalls i).shortened barrier).forecast = (r.shortened barrier).forecast := by
  induction i generalizing r with
  | zero => exact ⟨hr, rfl, rfl, rfl⟩
  | succ i ih =>
    obtain ⟨-, halike, hnext, hlength, -⟩ := next_of_barred hr
    obtain ⟨-, hfuture, hforecast, -⟩ := next_of_steady (steady_shortened hr)
    obtain ⟨hbarred, hlength', hfuture', hforecast'⟩ := ih hnext
    refine ⟨hbarred, hlength'.trans hlength, ?_, ?_⟩
    · rw [← List.drop_tail, ← hfuture, ← halike.future]
      exact hfuture'
    · rw [← hforecast, ← halike.forecast]
      exact hforecast'

/-- Call `i` yields item `i` of those before the barrier, and there is no end of
failures after them. -/
theorem item_of_barred (hr : r.Barred barrier) (i : Nat) :
    (r.afterCalls i).next.item =
      some ((r.shortened barrier).future[i]?.getD (r.failure barrier)) := by
  obtain ⟨hbarred, hlength, hfuture, -⟩ := afterCalls_of_barred hr i
  obtain ⟨hitem, -⟩ := next_of_barred hbarred
  obtain ⟨hhead, -⟩ := next_of_steady (steady_shortened hbarred)
  rw [hitem, hhead, hfuture, List.head?_drop, failure, failure, hlength]

/-- A failed call leaves an empty line, a source that stands at its barrier, and
the tally of what came before. -/
theorem left_of_barred (hr : r.Barred barrier) {i : Nat}
    (h : (r.shortened barrier).future.length ≤ i) :
    (r.afterCalls i).next.reader.pending = 0 ∧
      (r.afterCalls i).next.reader.tally = (r.shortened barrier).forecast ∧
      (r.afterCalls i).next.reader.source.position = barrier.offset := by
  obtain ⟨hbarred, -, hfuture, hforecast⟩ := afterCalls_of_barred hr i
  rw [List.drop_of_length_le h] at hfuture
  obtain ⟨-, halike, -, -, hposition⟩ := next_of_barred hbarred
  obtain ⟨hhead, htail, hlater, -⟩ := next_of_steady (steady_shortened hbarred)
  have hnone : (((r.afterCalls i).next.reader).shortened barrier).future = [] := by
    rw [halike.future, htail, hfuture, List.tail_nil]
  refine ⟨?_, ?_, hposition (by rw [hhead, hfuture, List.head?_nil])⟩
  · exact List.length_eq_zero_iff.mpr (future_eq_nil.mp hnone).1
  · rw [← hforecast, ← hlater, ← halike.forecast]
    exact tally_of_future_nil hnone

end

/-- The same reader on a source without its barrier. -/
def unbarred (r : Reader P E) : Reader P E := { r with source := r.source.unbarred }

section
variable {r : Reader P E}

/-- No call meets a barrier that lies behind the data. -/
theorem next_unbarred (hr : r.source.Steady) :
    r.unbarred.next =
      ⟨r.next.item, r.next.reader.unbarred, r.next.requests, r.next.notes⟩ := by
  have hintake : r.unbarred.intake =
      ⟨r.intake.result, r.intake.source.unbarred, r.intake.requests⟩ :=
    Source.gather_unbarred hr r.chunkLength
  have hcall := r.call_next
  generalize r.next = step at hcall
  cases hcall with
  | deliver hs => exact next_of_call (.deliver hs)
  | fault hs hf =>
    rw [next_of_call (r := r.unbarred) (.fault hs (by rwa [hintake]))]
    simp only [received, hintake]
    rfl
  | finish hs hf hb =>
    rw [next_of_call (r := r.unbarred) (.finish hs (by rwa [hintake]) (by rwa [hintake]))]
    simp only [received, hintake]
    rfl
  | refill hs hf hb =>
    rw [next_of_call (r := r.unbarred) (.refill hs (by rwa [hintake]) (by rwa [hintake]))]
    simp only [refilled, received, cut, hintake]
    rfl

theorem steady_afterCalls (hr : r.Steady) (i : Nat) : (r.afterCalls i).Steady := by
  induction i generalizing r with
  | zero => exact hr
  | succ i ih => exact ih (next_of_steady hr).2.2.2

theorem afterCalls_unbarred (hr : r.Steady) (i : Nat) :
    r.unbarred.afterCalls i = (r.afterCalls i).unbarred := by
  induction i generalizing r with
  | zero => rfl
  | succ i ih =>
    rw [afterCalls, next_unbarred hr.source]
    exact ih (next_of_steady hr).2.2.2

end

/-- A call that meets a source which fails for good after `count` bytes, of
which `chunks` whole chunks have been read. -/
structure BreaksOff (chunkLength chunkPackets chunks count : Nat) (step : Step P E) : Prop where
  failure : ∃ during fault, step.item = some (.error (.io during fault)) ∧
    (ReadError.io during fault : ReadError E).isFatal = true ∧
    during.message = s!"reading {chunkLength} bytes failed" ∧ fault.kind = .brokenPipe
  pending : step.reader.pending = 0
  tally : step.reader.tally =
    ⟨chunks * chunkLength, chunks, chunks * chunkPackets, chunks * chunkPackets⟩
  position : step.reader.source.position = count

section
variable {settings : Settings} {framing : Framing} {data : Bytes} {count : Nat}

/-- What is left of the data is the last chunk that ends before the failure, and
everything before it. -/
theorem shortened_start (decoder : Decoder P E) (rewinding : Rewinding) :
    (start settings decoder framing ((Source.scripted data rewinding).failingAfter count)).shortened
        ⟨count, .scripted, by decide⟩ =
      start settings decoder framing (.ofBytes (data.take
        (count / (framing.packetSize * settings.chunkPackets) *
          (framing.packetSize * settings.chunkPackets)))) := rfl

theorem bytes_of_chunks (chunks size packets : Nat) :
    chunks * (size * packets) = chunks * packets * size := by
  rw [Nat.mul_comm size, Nat.mul_assoc]

theorem pieces_of_mul {size : Nat} (hs : 0 < size) (pieces : Nat) :
    (pieces * size + size - 1) / size = pieces := by
  rw [Nat.add_sub_assoc hs, Nat.mul_comm, Nat.mul_add_div hs, Nat.div_eq_of_lt (by omega),
    Nat.add_zero]

theorem getElem?_future_chunks (decoder : Decoder P E) (chunks : Nat)
    (hchunks : chunks * (framing.packetSize * settings.chunkPackets) ≤ data.length) (i : Nat) :
    (start settings decoder framing (.ofBytes
        (data.take (chunks * (framing.packetSize * settings.chunkPackets))))).future[i]? =
      if i < chunks * settings.chunkPackets then
        some (Outcome.ofSlice decoder framing.packetSize i
          ((data.drop (i * framing.packetSize)).take framing.packetSize))
      else none := by
  rw [bytes_of_chunks] at hchunks ⊢
  rw [getElem?_future_start]
  change (if _ < (data.take _).length then
    some (Outcome.ofSlice decoder _ i (((data.take _).drop _).take _)) else none) = _
  rw [List.length_take, Nat.min_eq_left hchunks]
  by_cases hi : i < chunks * settings.chunkPackets
  · have hslice : (i + 1) * framing.packetSize ≤
        chunks * settings.chunkPackets * framing.packetSize := Nat.mul_le_mul_right _ hi
    rw [Nat.add_one_mul] at hslice
    rw [if_pos hi, if_pos (by have := framing.packetSize_pos; omega), List.drop_take,
      List.take_take, Nat.min_eq_left (by omega)]
  · rw [if_neg hi, if_neg]
    exact Nat.not_lt.mpr (Nat.mul_le_mul_right _ (Nat.not_lt.mp hi))

theorem forecast_chunks (decoder : Decoder P E) (hchunk : 0 < settings.chunkPackets)
    (chunks : Nat)
    (hchunks : chunks * (framing.packetSize * settings.chunkPackets) ≤ data.length) :
    (start settings decoder framing (.ofBytes
        (data.take (chunks * (framing.packetSize * settings.chunkPackets))))).forecast =
      ⟨chunks * (framing.packetSize * settings.chunkPackets), chunks,
        chunks * settings.chunkPackets, chunks * settings.chunkPackets⟩ := by
  have hlength : (Source.ofBytes (data.take
      (chunks * (framing.packetSize * settings.chunkPackets)))).rest.length =
        chunks * (framing.packetSize * settings.chunkPackets) := by
    change (data.take _).length = _
    rw [List.length_take, Nat.min_eq_left hchunks]
  have hpackets : (chunks * (framing.packetSize * settings.chunkPackets) +
      framing.packetSize - 1) / framing.packetSize = chunks * settings.chunkPackets := by
    rw [bytes_of_chunks, pieces_of_mul framing.packetSize_pos]
  rw [forecast_start decoder hchunk, hlength, hpackets,
    pieces_of_mul (Nat.mul_pos framing.packetSize_pos hchunk)]

theorem barred_start (decoder : Decoder P E) (rewinding : Rewinding)
    (hchunk : 0 < settings.chunkPackets) (h : count ≤ data.length) :
    (start settings decoder framing ((Source.scripted data rewinding).failingAfter count)).Barred
      ⟨count, .scripted, by decide⟩ :=
  ⟨Source.barred_failingAfter h rewinding, Nat.mul_pos framing.packetSize_pos hchunk,
    ⟨settings.chunkPackets, rfl⟩⟩

theorem item_before_failure (decoder : Decoder P E) (rewinding : Rewinding)
    (hchunk : 0 < settings.chunkPackets) (h : count ≤ data.length) {i : Nat}
    (hi : i < count / (framing.packetSize * settings.chunkPackets) * settings.chunkPackets) :
    ((start settings decoder framing
        ((Source.scripted data rewinding).failingAfter count)).afterCalls i).next.item =
      some (Outcome.ofSlice decoder framing.packetSize i
        ((data.drop (i * framing.packetSize)).take framing.packetSize)) := by
  have hchunks := Nat.le_trans
    (Nat.div_mul_le_self count (framing.packetSize * settings.chunkPackets)) h
  rw [item_of_barred (barred_start decoder rewinding hchunk h), shortened_start,
    getElem?_future_chunks decoder _ hchunks, if_pos hi, Option.getD_some]

theorem breaksOff_of_le (decoder : Decoder P E) (rewinding : Rewinding)
    (hchunk : 0 < settings.chunkPackets) (h : count ≤ data.length) {i : Nat}
    (hi : count / (framing.packetSize * settings.chunkPackets) * settings.chunkPackets ≤ i) :
    BreaksOff (framing.packetSize * settings.chunkPackets) settings.chunkPackets
      (count / (framing.packetSize * settings.chunkPackets)) count
      ((start settings decoder framing
        ((Source.scripted data rewinding).failingAfter count)).afterCalls i).next := by
  have hbarred : (start settings decoder framing
      ((Source.scripted data rewinding).failingAfter count)).Barred ⟨count, .scripted, by decide⟩ :=
    barred_start decoder rewinding hchunk h
  have hchunks := Nat.le_trans
    (Nat.div_mul_le_self count (framing.packetSize * settings.chunkPackets)) h
  have hdone := List.getElem?_eq_none_iff.mp
    ((getElem?_future_chunks decoder _ hchunks i).trans (if_neg (Nat.not_lt.mpr hi)))
  rw [← shortened_start decoder rewinding] at hdone
  obtain ⟨hpending, htally, hposition⟩ := left_of_barred hbarred hdone
  refine ⟨?_, hpending, ?_, hposition⟩
  · have hitem := item_of_barred hbarred i
    rw [List.getElem?_eq_none hdone] at hitem
    exact ⟨_, _, hitem, rfl, rfl, rfl⟩
  · rw [htally, shortened_start, forecast_chunks decoder hchunk _ hchunks]

end

/-- A source that fails for good after `count` bytes costs its reader the chunk
that needs the next byte, and nothing else: the packets of all chunks before it
are delivered, and every later call fails at the same place. If there are no
more than `count` bytes, the source never fails. -/
theorem delivers_before_failure (workers : Workers) (settings : Settings) (decoder : Decoder P E)
    (rewinding : Rewinding) (data : Bytes) (count : Nat)
    (hworkers : workers = .own → 0 < settings.workers) (hsize : 0 < settings.packetSize)
    (hchunk : 0 < settings.chunkPackets)
    (hlimit : settings.packetSize * settings.chunkPackets ≤ ChunkBuffer.capacityLimit) :
    ∃ r, (ofSource workers settings decoder
        ((Source.scripted data rewinding).failingAfter count)).result = .ok r ∧
      r.chunkLength = settings.packetSize * settings.chunkPackets ∧
      (count ≤ data.length →
        (∀ i, i < count / r.chunkLength * settings.chunkPackets →
          (r.afterCalls i).next.item = some (Outcome.ofSlice decoder settings.packetSize i
            ((data.drop (i * settings.packetSize)).take settings.packetSize))) ∧
        ∀ i, count / r.chunkLength * settings.chunkPackets ≤ i →
          BreaksOff r.chunkLength settings.chunkPackets (count / r.chunkLength) count
            (r.afterCalls i).next) ∧
      (data.length < count →
        ∃ q, (ofSource workers settings decoder (.scripted data rewinding)).result = .ok q ∧
          ∀ i, (r.afterCalls i).next.item = (q.afterCalls i).next.item ∧
            (r.afterCalls i).next.requests = (q.afterCalls i).next.requests ∧
            (r.afterCalls i).next.notes = (q.afterCalls i).next.notes ∧
            (r.afterCalls i).next.reader.unbarred = (q.afterCalls i).next.reader) := by
  have hcheck := Workers.check_of_pos hchunk hworkers
  refine
    ⟨_, ofSource_of_given decoder hcheck hsize hlimit, rfl, fun hcount => ?_, fun hbehind => ?_⟩
  · exact ⟨fun i hi => item_before_failure decoder rewinding hchunk hcount hi,
      fun i hi => breaksOff_of_le decoder rewinding hchunk hcount hi⟩
  · have hsteady : (start settings decoder ⟨settings.packetSize, hsize, none⟩
        ((Source.scripted data rewinding).failingAfter count)).Steady :=
      steady_start decoder hchunk (Source.steady_failingAfter hbehind rewinding)
    refine ⟨_, ofSource_of_given decoder hcheck hsize hlimit, fun i => ?_⟩
    have hcall := next_unbarred (steady_afterCalls hsteady i).source
    rw [← afterCalls_unbarred hsteady i] at hcall
    exact ⟨congrArg (·.item) hcall.symm, congrArg (·.requests) hcall.symm,
      congrArg (·.notes) hcall.symm, congrArg (·.reader) hcall.symm⟩

/-- Five bytes are there and five may be read, but the second chunk needs eight. -/
theorem delivers_before_failure_of_five :
    ∃ r, (ofSource .borrowed { packetSize := 2, chunkPackets := 2 } (Sample.tagDecoder none)
        ((Source.scripted [0x47, 0, 1, 0, 0x47] .unsupported).failingAfter 5)).result = .ok r ∧
      (r.afterCalls 0).next.item = some (.error (.workerLost 0)) ∧
      (r.afterCalls 1).next.item = some (.error (.undecodable 1 (.missingSync 1))) ∧
      BreaksOff 4 2 1 5 (r.afterCalls 2).next ∧ BreaksOff 4 2 1 5 (r.afterCalls 30).next := by
  obtain ⟨r, hr, hlength, hfailing, -⟩ :=
    delivers_before_failure .borrowed { packetSize := 2, chunkPackets := 2 }
      (Sample.tagDecoder none) .unsupported [0x47, 0, 1, 0, 0x47] 5
      (by decide) (by decide) (by decide) (by decide)
  obtain ⟨hitem, hbroken⟩ := hfailing (by decide)
  rw [hlength] at hitem hbroken
  exact ⟨r, hr, hitem 0 (by decide), hitem 1 (by decide), hbroken 2 (by decide),
    hbroken 30 (by decide)⟩

end TransportStream.Reader
