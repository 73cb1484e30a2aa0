import TransportStream.Proofs.Reader.Faults
import TransportStream.Proofs.Reader.Reachable

/-!
# The balance of the totals

`Balanced` ties the totals to each other, to the line and to the settings, on every
source. Where "end of input" was said only with no bytes left, the packets dispatched
are those of all bytes read taken together (`WholeSoFar`).
-/
namespace TransportStream

namespace Bytes
variable {size : Nat}

theorem length_slices_mul (hs : 0 < size) (bytes : Bytes) :
    bytes.length ≤ (slices size bytes).length * size ∧
      (slices size bytes).length * size < bytes.length + size := by
  have hdiv := Nat.div_add_mod (bytes.length + size - 1) size
  have hmod := Nat.mod_lt (bytes.length + size - 1) hs
  rw [Nat.mul_comm] at hdiv
  rw [length_slices hs]
  omega

theorem length_slices_of_dvd (hs : 0 < size) {bytes : Bytes} (h : size ∣ bytes.length) :
    (slices size bytes).length * size = bytes.length := by
  obtain ⟨pieces, hpieces⟩ := h
  obtain ⟨hle, hlt⟩ := length_slices_mul hs bytes
  rw [hpieces, Nat.mul_comm size] at hle hlt ⊢
  have hlow := Nat.le_of_mul_le_mul_right hle hs
  rw [← Nat.add_one_mul] at hlt
  have hhigh := Nat.lt_of_mul_lt_mul_right hlt
  rw [show (slices size bytes).length = pieces by omega]

theorem length_slices_le_of_le (hs : 0 < size) {bytes : Bytes} {pieces : Nat}
    (h : bytes.length ≤ size * pieces) : (slices size bytes).length ≤ pieces := by
  have hlt := (length_slices_mul hs bytes).2
  rw [Nat.mul_comm] at h
  have hone := Nat.add_one_mul pieces size
  have hhigh : (slices size bytes).length * size < (pieces + 1) * size := by omega
  exact Nat.le_of_lt_succ (Nat.lt_of_mul_lt_mul_right hhigh)

end Bytes

namespace Reader
variable {P E : Type}

/-- The totals of a reader with `packets` packets in a chunk, held against each
other, the line and the length of a chunk. -/
structure Balanced (packets : Nat) (r : Reader P E) : Prop where
  chunkLength : r.chunkLength = r.packetSize * packets
  /-- What has been dispatched has been drained or is in line. -/
  line : r.tally.drained + r.pending = r.tally.dispatched
  /-- The call that refills the line takes one packet out of it. -/
  room : r.pending < packets
  /-- A chunk brings a packet, and no more than it has room for. -/
  atLeastOne : r.tally.chunksRead ≤ r.tally.dispatched
  atMostAll : r.tally.dispatched ≤ r.tally.chunksRead * packets
  bytes : r.tally.bytesRead ≤ r.tally.chunksRead * r.chunkLength
  /-- The packets cover the bytes, and each chunk spares less than a packet. -/
  covered : r.tally.bytesRead ≤ r.tally.dispatched * r.packetSize
  spared : r.tally.dispatched * r.packetSize + r.tally.chunksRead ≤
    r.tally.bytesRead + r.tally.chunksRead * r.packetSize

section
variable {packets : Nat} {r : Reader P E}

theorem packetSize_pos (r : Reader P E) : 0 < r.packetSize := r.framing.packetSize_pos

theorem length_cut (r : Reader P E) :
    r.cut.length = (r.intake.result.bytes.slices r.packetSize).length :=
  Task.length_ofChunk ..

theorem pending_eq_zero (hs : r.backlog.slots = []) : r.pending = 0 :=
  List.length_eq_zero_iff.mpr hs

theorem pending_dropFirst {slot : Slot P E} {later : List (Slot P E)}
    (hs : r.backlog.slots = slot :: later) : r.pending = r.dropFirst.pending + 1 := by
  simp [pending, Backlog.length, dropFirst, hs]

theorem pending_refilled (hs : r.backlog.slots = []) (hb : r.intake.result.bytes ≠ []) :
    r.cut.length = r.refilled.dropFirst.pending + 1 := by
  obtain ⟨later, hslots⟩ := slots_refilled hs hb
  rw [← pending_dropFirst hslots]
  simp [pending, Backlog.length, refilled, queue, received, Backlog.submit, hs]

namespace Balanced

theorem received (h : Balanced packets r) : Balanced packets r.received :=
  ⟨h.chunkLength, h.line, h.room, h.atLeastOne, h.atMostAll, h.bytes, h.covered, h.spared⟩

theorem dropFirst (h : Balanced packets r) {slot : Slot P E} {later : List (Slot P E)}
    (hs : r.backlog.slots = slot :: later) : Balanced packets r.dropFirst := by
  have hpending := pending_dropFirst hs
  constructor
  · exact h.chunkLength
  · have hline := h.line
    change r.tally.drained + 1 + r.dropFirst.pending = r.tally.dispatched
    omega
  · have hroom := h.room
    omega
  · exact h.atLeastOne
  · exact h.atMostAll
  · exact h.bytes
  · exact h.covered
  · exact h.spared

theorem refilled (h : Balanced packets r) (hs : r.backlog.slots = [])
    (hb : r.intake.result.bytes ≠ []) : Balanced packets r.refilled.dropFirst := by
  have hpending := pending_refilled hs hb
  have hidle := pending_eq_zero hs
  have hlength : r.intake.result.bytes.length ≤ r.chunkLength :=
    r.source.gather_length_le r.chunkLength
  have hfit := hlength
  rw [h.chunkLength] at hfit
  have hmost : r.cut.length ≤ packets := by
    rw [length_cut]
    exact Bytes.length_slices_le_of_le r.packetSize_pos hfit
  obtain ⟨hcovered, hspared⟩ :=
    Bytes.length_slices_mul r.packetSize_pos r.intake.result.bytes
  rw [← length_cut] at hcovered hspared
  constructor
  · exact h.chunkLength
  · have hline := h.line
    change r.tally.drained + 1 + r.refilled.dropFirst.pending = r.tally.dispatched + r.cut.length
    omega
  · omega
  · have hone := h.atLeastOne
    change r.tally.chunksRead + 1 ≤ r.tally.dispatched + r.cut.length
    omega
  · have hall := h.atMostAll
    change r.tally.dispatched + r.cut.length ≤ (r.tally.chunksRead + 1) * packets
    rw [Nat.add_one_mul]
    omega
  · have hbytes := h.bytes
    change r.tally.bytesRead + r.intake.result.bytes.length ≤
      (r.tally.chunksRead + 1) * r.chunkLength
    rw [Nat.add_one_mul]
    omega
  · have hbefore := h.covered
    change r.tally.bytesRead + r.intake.result.bytes.length ≤
      (r.tally.dispatched + r.cut.length) * r.packetSize
    rw [Nat.add_mul]
    omega
  · have hbefore := h.spared
    change (r.tally.dispatched + r.cut.length) * r.packetSize + (r.tally.chunksRead + 1) ≤
      r.tally.bytesRead + r.intake.result.bytes.length + (r.tally.chunksRead + 1) * r.packetSize
    rw [Nat.add_mul, Nat.add_one_mul]
    omega

theorem lt_of_spared (h : Balanced packets r) :
    r.tally.dispatched * r.packetSize <
      r.tally.bytesRead + r.packetSize * max r.tally.chunksRead 1 := by
  have hspared := h.spared
  have hpos := r.packetSize_pos
  rcases Nat.eq_zero_or_pos r.tally.chunksRead with hnone | hsome
  · rw [hnone, Nat.zero_max, Nat.mul_one]
    rw [hnone] at hspared
    omega
  · rw [Nat.max_eq_left hsome, Nat.mul_comm r.packetSize]
    omega

theorem next (h : Balanced packets r) : Balanced packets r.next.reader := by
  have hcall := r.call_next
  generalize r.next = step at hcall
  cases hcall with
  | deliver hs => exact h.dropFirst hs
  | fault | finish => exact h.received
  | refill hs hf hb => exact h.refilled hs hb

theorem finish (h : Balanced packets r) (place : Nat) : Balanced packets (r.finish place) := by
  have hpending : (r.finish place).pending = r.pending := List.length_modify ..
  constructor
  · exact h.chunkLength
  · rw [hpending]
    exact h.line
  · rw [hpending]
    exact h.room
  · exact h.atLeastOne
  · exact h.atMostAll
  · exact h.bytes
  · exact h.covered
  · exact h.spared

theorem reachable {opened : Reader P E} (h : Balanced packets opened)
    (hr : Reachable opened r) : Balanced packets r := by
  induction hr with
  | opened => exact h
  | called _ ih => exact ih.next
  | worked place _ ih => exact ih.finish place

end Balanced

theorem balanced_start {settings : Settings} {framing : Framing} {s : Source}
    (decoder : Decoder P E) (hchunk : 0 < settings.chunkPackets) :
    Balanced settings.chunkPackets (start settings decoder framing s) := by
  constructor
  · rfl
  · rfl
  · exact hchunk
  all_goals exact Nat.le_of_eq (by simp [start])

theorem calm_start {settings : Settings} {framing : Framing} {s : Source}
    (decoder : Decoder P E) : (start settings decoder framing s).Calm :=
  fun _ hmem => absurd hmem List.not_mem_nil

/-- How many calls of a run brought a packet or the error of a packet. -/
def yielded (run : List (Step P E)) : Nat := run.countP fun step => !step.isLast

theorem isLast_of_item {step : Step P E} {outcome : Outcome P E} (h : step.item = some outcome) :
    step.isLast = Outcome.isFatal outcome := by
  unfold Step.isLast
  rw [h]
  cases outcome <;> rfl

/-- A call drains a packet exactly when it brings one. -/
theorem Calm.drained_next (h : r.Calm) :
    r.next.reader.tally.drained = yielded [r.next] + r.tally.drained := by
  have hcall := r.call_next
  generalize r.next = step at hcall
  unfold yielded
  cases hcall with
  | @deliver slot later hs =>
    have hfatal : Outcome.isFatal (slot.await r.decoder) = false :=
      h _ (by rw [hs]; exact List.mem_cons_self ..)
    rw [List.countP_singleton, isLast_of_item rfl, hfatal]
    exact Nat.add_comm ..
  | fault hs hf =>
    rw [List.countP_singleton, isLast_of_item rfl]
    exact (Nat.zero_add _).symm
  | finish hs hf hb => exact (Nat.zero_add _).symm
  | refill hs hf hb =>
    rw [List.countP_singleton, isLast_of_item rfl, Outcome.isFatal_ofSlice]
    exact Nat.add_comm ..

/-- Workers touch nothing but the line. -/
theorem exists_finished (r : Reader P E) (places : List Nat) :
    ∃ backlog, places.foldl Reader.finish r = { r with backlog } := by
  induction places generalizing r with
  | nil => exact ⟨r.backlog, rfl⟩
  | cons place later ih => exact ih (r.finish place)

theorem tally_finished (r : Reader P E) (places : List Nat) :
    (places.foldl finish r).tally = r.tally := by
  obtain ⟨backlog, h⟩ := r.exists_finished places
  rw [h]

theorem Calm.finished (h : r.Calm) (places : List Nat) : (places.foldl Reader.finish r).Calm :=
  h.reachable (Reachable.opened.finished places)

theorem Calm.drained_scheduled (h : r.Calm) (schedule : List (List Nat)) :
    (r.afterSteps (r.scheduled schedule)).tally.drained =
      yielded (r.scheduled schedule) + r.tally.drained := by
  induction schedule generalizing r with
  | nil => exact (Nat.zero_add _).symm
  | cons places later ih =>
    have hnow := h.finished places
    rw [scheduled, afterSteps_cons, ih hnow.next, hnow.drained_next, tally_finished, yielded,
      yielded, yielded, List.countP_singleton, List.countP_cons]
    omega

/-- A chunk that is short without a fault was the last: the source has said so,
and where it may say so it has no bytes left. -/
theorem rest_of_short (hf : r.intake.result.fault = none)
    (hshort : r.intake.result.bytes.length < r.chunkLength)
    (hcandid : Source.CandidIn r.source.data r.intake.requests) :
    r.intake.source.rest = [] := by
  obtain ⟨count, hmem⟩ := Source.end_mem_gather hf hshort
  have hend := hcandid _ count hmem
  rw [← r.source.gather_data r.chunkLength] at hend
  exact List.drop_eq_nil_of_le hend

/-- The packets dispatched are those of the bytes read taken together: exactly
while the chunks are whole, and rounded up once the source has no bytes left. -/
inductive WholeSoFar (r : Reader P E) : Prop
  | going : r.tally.bytesRead = r.tally.dispatched * r.packetSize → WholeSoFar r
  | ended : r.source.rest = [] →
      r.tally.dispatched = (r.tally.bytesRead + r.packetSize - 1) / r.packetSize → WholeSoFar r

namespace WholeSoFar

theorem dispatched_eq (h : r.WholeSoFar) :
    r.tally.dispatched = (r.tally.bytesRead + r.packetSize - 1) / r.packetSize := by
  cases h with
  | going hbytes =>
    have hpos := r.packetSize_pos
    rw [hbytes, Nat.add_sub_assoc hpos, Nat.mul_comm, Nat.mul_add_div hpos,
      Nat.div_eq_of_lt (Nat.sub_lt hpos Nat.one_pos), Nat.add_zero]
  | ended _ hdispatched => exact hdispatched

theorem received (h : r.WholeSoFar) : r.received.WholeSoFar := by
  cases h with
  | going hbytes => exact .going hbytes
  | ended hrest hdispatched =>
    have hgather : r.source.rest = r.intake.result.bytes ++ r.received.source.rest :=
      r.source.gather_rest r.chunkLength
    rw [hrest] at hgather
    exact .ended (List.append_eq_nil_iff.mp hgather.symm).2 hdispatched

/-- A whole chunk keeps the balance exact. A shorter one was the last. -/
theorem refilled (h : r.WholeSoFar) (hwhole : r.packetSize ∣ r.chunkLength)
    (hf : r.intake.result.fault = none) (hb : r.intake.result.bytes ≠ [])
    (hcandid : Source.CandidIn r.source.data r.intake.requests) :
    r.refilled.dropFirst.WholeSoFar := by
  have hpos := r.packetSize_pos
  have hlength : r.intake.result.bytes.length ≤ r.chunkLength :=
    r.source.gather_length_le r.chunkLength
  cases h with
  | ended hrest _ =>
    have hgather : r.source.rest = r.intake.result.bytes ++ r.intake.source.rest :=
      r.source.gather_rest r.chunkLength
    rw [hrest] at hgather
    exact absurd (List.append_eq_nil_iff.mp hgather.symm).1 hb
  | going hbytes =>
    rcases Nat.lt_or_eq_of_le hlength with hshort | hfull
    · apply ended
      · exact rest_of_short hf hshort hcandid
      · change r.tally.dispatched + r.cut.length =
          (r.tally.bytesRead + r.intake.result.bytes.length + r.packetSize - 1) / r.packetSize
        rw [hbytes, length_cut, Bytes.length_slices hpos, Nat.add_assoc,
          Nat.add_sub_assoc (Nat.le_add_left_of_le hpos), Nat.mul_comm, Nat.mul_add_div hpos]
    · apply going
      change r.tally.bytesRead + r.intake.result.bytes.length =
        (r.tally.dispatched + r.cut.length) * r.packetSize
      rw [Nat.add_mul, length_cut, Bytes.length_slices_of_dvd hpos (hfull ▸ hwhole), hbytes]

theorem next (h : r.WholeSoFar) (hwhole : r.packetSize ∣ r.chunkLength)
    (hcandid : Source.CandidIn r.source.data r.next.requests) : r.next.reader.WholeSoFar := by
  have hcall := r.call_next
  generalize r.next = step at hcall hcandid
  cases hcall with
  | deliver hs =>
    cases h with
    | going hbytes => exact .going hbytes
    | ended hrest hdispatched => exact .ended hrest hdispatched
  | fault | finish => exact h.received
  | refill hs hf hb => exact h.refilled hwhole hf hb hcandid

theorem finished (h : r.WholeSoFar) (places : List Nat) :
    (places.foldl Reader.finish r).WholeSoFar := by
  obtain ⟨backlog, heq⟩ := r.exists_finished places
  rw [heq]
  cases h with
  | going hbytes => exact .going hbytes
  | ended hrest hdispatched => exact .ended hrest hdispatched

end WholeSoFar

theorem wholeSoFar_start {settings : Settings} {framing : Framing} {s : Source}
    (decoder : Decoder P E) : (start settings decoder framing s).WholeSoFar :=
  .going (Nat.zero_mul _).symm

theorem data_next (r : Reader P E) : r.next.reader.source.data = r.source.data := by
  have hcall := r.call_next
  generalize r.next = step at hcall
  cases hcall with
  | deliver hs => rfl
  | fault | finish | refill => exact r.source.gather_data r.chunkLength

theorem WholeSoFar.scheduled (h : r.WholeSoFar) (hwhole : r.packetSize ∣ r.chunkLength)
    (schedule : List (List Nat))
    (hcandid : Source.CandidIn r.source.data ((r.scheduled schedule).flatMap (·.requests))) :
    (r.afterSteps (r.scheduled schedule)).WholeSoFar := by
  induction schedule generalizing r with
  | nil => exact h
  | cons places later ih =>
    have hnow := h.finished places
    obtain ⟨backlog, heq⟩ := r.exists_finished places
    rw [Reader.scheduled, heq] at hcandid ⊢
    rw [heq] at hnow
    rw [afterSteps_cons]
    have hagrees := agrees_next { r with backlog }
    apply ih
    · apply hnow.next hwhole
      intro offset wanted hmem
      exact hcandid offset wanted (List.mem_append_left _ hmem)
    · exact hagrees.whole hwhole
    · rw [data_next]
      intro offset wanted hmem
      exact hcandid offset wanted (List.mem_append_right _ hmem)

/-- A candid source says "end of input" only where no bytes are left, in any run. -/
theorem candidIn_scheduled (hs : r.source.Candid) (schedule : List (List Nat)) :
    Source.CandidIn r.source.data ((r.scheduled schedule).flatMap (·.requests)) := by
  induction schedule generalizing r with
  | nil => exact fun _ _ hmem => absurd hmem List.not_mem_nil
  | cons places later ih =>
    obtain ⟨backlog, heq⟩ := r.exists_finished places
    rw [Reader.scheduled, heq]
    have hnext : ({ r with backlog } : Reader P E).next.reader.source.Candid ∧
        Source.CandidIn r.source.data ({ r with backlog } : Reader P E).next.requests := by
      have hcall := ({ r with backlog } : Reader P E).call_next
      generalize ({ r with backlog } : Reader P E).next = step at hcall
      cases hcall with
      | deliver => exact ⟨hs, fun _ _ hmem => absurd hmem List.not_mem_nil⟩
      | fault | finish | refill => exact ⟨hs.gather _, hs.candidIn_gather _⟩
    have hlater := ih hnext.1
    rw [data_next] at hlater
    intro offset wanted hmem
    rcases List.mem_append.mp hmem with hnow | hthen
    · exact hnext.2 offset wanted hnow
    · exact hlater offset wanted hthen

end

/-- The totals after any run, with the workers busy between its calls. What
opening has fixed stays fixed. The totals balance on every source, those
drained are the calls that brought a packet, and if the source said "end of
input" only where no bytes were left, the packets dispatched are those of all
bytes read. -/
theorem totals_of_run {workers : Workers} {settings : Settings} {decoder : Decoder P E}
    {s : Source} {opened : Reader P E}
    (h : (ofSource workers settings decoder s).result = .ok opened)
    (schedule : List (List Nat)) :
    let run := opened.scheduled schedule
    let r := opened.afterSteps run
    (r.packetSize = opened.packetSize ∧ r.framing.detection = opened.framing.detection ∧
      r.chunkLength = opened.chunkLength) ∧
    (r.chunkLength = r.packetSize * settings.chunkPackets ∧ 0 < r.chunkLength) ∧
    (r.tally.drained ≤ r.tally.dispatched ∧
      r.pending = r.tally.dispatched - r.tally.drained ∧
      r.pending ≤ settings.chunkPackets - 1) ∧
    r.tally.drained = yielded run ∧
    (r.tally.chunksRead ≤ r.tally.dispatched ∧
      r.tally.dispatched ≤ r.tally.chunksRead * settings.chunkPackets) ∧
    r.tally.bytesRead ≤ r.tally.chunksRead * r.chunkLength ∧
    (r.tally.bytesRead ≤ r.tally.dispatched * r.packetSize ∧
      r.tally.dispatched * r.packetSize <
        r.tally.bytesRead + r.packetSize * max r.tally.chunksRead 1) ∧
    (Source.CandidIn opened.source.data (run.flatMap (·.requests)) →
      r.tally.dispatched = (r.tally.bytesRead + r.packetSize - 1) / r.packetSize) := by
  intro run r
  obtain ⟨hcheck, framing, -, -, hstart⟩ := start_of_ofSource h
  have hchunk := Workers.chunkPackets_pos_of_check hcheck
  have hreachable : Reachable opened r := Reachable.opened.scheduled schedule
  have hagrees := (hreachable.invariant (hstart ▸ rfl)).1
  have hbalanced : Balanced settings.chunkPackets r :=
    Balanced.reachable (hstart ▸ balanced_start decoder hchunk) hreachable
  have hline := hbalanced.line
  have hroom := hbalanced.room
  constructor
  · exact ⟨congrArg Framing.packetSize hagrees.framing, congrArg Framing.detection hagrees.framing,
      hagrees.chunkLength⟩
  constructor
  · rw [hbalanced.chunkLength]
    exact ⟨rfl, Nat.mul_pos r.packetSize_pos hchunk⟩
  constructor
  · omega
  constructor
  · have hcalm : opened.Calm := hstart ▸ calm_start decoder
    have hstill : opened.tally.drained = 0 := hstart ▸ rfl
    have hdrained := hcalm.drained_scheduled schedule
    rw [hstill] at hdrained
    exact hdrained
  constructor
  · exact ⟨hbalanced.atLeastOne, hbalanced.atMostAll⟩
  constructor
  · exact hbalanced.bytes
  constructor
  · exact ⟨hbalanced.covered, hbalanced.lt_of_spared⟩
  · intro hcandid
    have hwhole : opened.packetSize ∣ opened.chunkLength :=
      hstart ▸ ⟨settings.chunkPackets, rfl⟩
    have hnothing : opened.WholeSoFar := hstart ▸ wholeSoFar_start decoder
    exact (hnothing.scheduled hwhole schedule hcandid).dispatched_eq

/-- Packets of two bytes, two in a chunk: one is served, then half of the next
one, and then a fault is met. The other bytes come in a later call. -/
def haltingOften : Source where
  data := [0x47, 0, 9, 1, 2, 0x47, 7, 3]
  answers := [.serve 2, .serve 1, .fail ⟨.brokenPipe, "gone"⟩, .serve 1]

theorem totals_of_run_haltingOften :
    haltingOften.Candid ∧ ∃ opened : Reader Nat PacketDefect,
      (ofSource .borrowed { packetSize := 2, chunkPackets := 2 } (Sample.tagDecoder none)
        haltingOften).result = .ok opened ∧
      ∀ schedule, (opened.afterSteps (opened.scheduled schedule)).pending ≤ 1 ∧
        (opened.afterSteps (opened.scheduled schedule)).tally.drained =
          yielded (opened.scheduled schedule) ∧
        (opened.afterSteps (opened.scheduled schedule)).tally.dispatched =
          ((opened.afterSteps (opened.scheduled schedule)).tally.bytesRead + 1) / 2 := by
  have hs : haltingOften.Candid := by decide
  have hopen : (ofSource .borrowed { packetSize := 2, chunkPackets := 2 }
      (Sample.tagDecoder none) haltingOften).result = .ok (start
        { packetSize := 2, chunkPackets := 2 } (Sample.tagDecoder none) ⟨2, Nat.two_pos, none⟩
        haltingOften) :=
    ofSource_of_given (Sample.tagDecoder none) rfl (by decide) (by decide)
  refine ⟨hs, _, hopen, fun schedule => ?_⟩
  obtain ⟨⟨hsize, -⟩, -, ⟨-, -, hpending⟩, hdrained, -, -, -, hexact⟩ :=
    totals_of_run hopen schedule
  have hdispatched := hexact (candidIn_scheduled hs schedule)
  rw [hsize] at hdispatched
  exact ⟨hpending, hdrained, hdispatched⟩

end Reader

end TransportStream
