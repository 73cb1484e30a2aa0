import TransportStream.Proofs.Reader.Call
import TransportStream.Proofs.Source.Steady

/-!
# What a reader on a steady source is going to do

The items to come (`future`) and the tally to come (`forecast`) can be told from the
state. A refill changes neither, since a chunk holds a whole number of packets, and a
delivery takes the first item off the future (`next_of_steady`).
-/
namespace TransportStream.Reader
variable {P E : Type}

/-- The source is steady and a chunk holds a whole number of packets, at least one. -/
structure Steady (r : Reader P E) : Prop where
  source : r.source.Steady
  room : 0 < r.chunkLength
  whole : r.packetSize ∣ r.chunkLength

/-- Every item to come, in order. -/
def future (r : Reader P E) : List (Outcome P E) :=
  r.backlog.slots.map (·.await r.decoder) ++
    Outcome.ofSlices r.decoder r.packetSize r.backlog.nextIndex (r.source.rest.slices r.packetSize)

/-- The tally once the source has been read to its end and the line is empty. -/
def forecast (r : Reader P E) : Tally where
  bytesRead := r.tally.bytesRead + r.source.rest.length
  chunksRead := r.tally.chunksRead + (r.source.rest.slices r.chunkLength).length
  dispatched := r.tally.dispatched + (r.source.rest.slices r.packetSize).length
  drained := r.tally.drained + r.future.length

/-- What a refill would obtain is the next chunk, or the rest if that is less. -/
def Supplied (r : Reader P E) : Prop :=
  r.intake.result = ⟨r.source.rest.take r.chunkLength, none⟩

section
variable {r : Reader P E}

theorem Steady.supplied (hr : r.Steady) : r.Supplied :=
  Source.gather_of_steady hr.source r.chunkLength

theorem Supplied.rest_received (h : r.Supplied) :
    r.received.source.rest = r.source.rest.drop r.chunkLength := by
  have hrest : r.source.rest = r.intake.result.bytes ++ r.received.source.rest :=
    r.source.gather_rest r.chunkLength
  rw [h] at hrest
  exact List.append_cancel_left (hrest.symm.trans (List.take_append_drop ..).symm)

theorem Steady.received (hr : r.Steady) : r.received.Steady :=
  ⟨hr.source.gather r.chunkLength, hr.room, hr.whole⟩

theorem Steady.refilled (hr : r.Steady) : r.refilled.Steady :=
  ⟨hr.source.gather r.chunkLength, hr.room, hr.whole⟩

theorem Steady.dropFirst (hr : r.Steady) : r.dropFirst.Steady :=
  ⟨hr.source, hr.room, hr.whole⟩

theorem Supplied.slices_rest (h : r.Supplied) (hwhole : r.packetSize ∣ r.chunkLength) :
    r.source.rest.slices r.packetSize =
      r.intake.result.bytes.slices r.packetSize ++
        r.received.source.rest.slices r.packetSize := by
  rw [h.rest_received, h]
  exact Bytes.slices_split hwhole _

theorem Supplied.future_refilled (h : r.Supplied) (hwhole : r.packetSize ∣ r.chunkLength) :
    r.refilled.future = r.future := by
  have hawait : (r.cut.map fun task => (⟨task, none⟩ : Slot P E)).map (·.await r.decoder) =
      Outcome.ofSlices r.decoder r.packetSize r.backlog.nextIndex
        (r.intake.result.bytes.slices r.packetSize) := by
    rw [← Task.outcomes_ofChunk, List.map_map]
    rfl
  have hlength : r.cut.length = (r.intake.result.bytes.slices r.packetSize).length :=
    Task.length_ofChunk ..
  calc r.refilled.future
      = r.backlog.slots.map (·.await r.decoder) ++
          (r.cut.map fun task => (⟨task, none⟩ : Slot P E)).map (·.await r.decoder) ++
          Outcome.ofSlices r.decoder r.packetSize (r.backlog.nextIndex + r.cut.length)
            (r.received.source.rest.slices r.packetSize) := by
        simp only [future, refilled, queue, Backlog.submit, List.map_append]
        rfl
    _ = r.future := by
        rw [hawait, hlength, List.append_assoc, ← Outcome.ofSlices_append,
          ← h.slices_rest hwhole]
        rfl

theorem forecast_refilled (hr : r.Steady) (hb : r.intake.result.bytes ≠ []) :
    r.refilled.forecast = r.forecast := by
  have htake := congrArg Intake.bytes hr.supplied
  have hne : r.source.rest ≠ [] := by
    intro h
    simp [htake, h] at hb
  have hbytes : r.intake.result.bytes.length + r.received.source.rest.length =
      r.source.rest.length := by
    rw [hr.supplied.rest_received, htake, ← List.length_append, List.take_append_drop]
  have hchunks : (r.source.rest.slices r.chunkLength).length =
      (r.received.source.rest.slices r.chunkLength).length + 1 := by
    rw [hr.supplied.rest_received, Bytes.slices_of_ne_nil hr.room hne, List.length_cons]
  have hslices : r.cut.length + (r.received.source.rest.slices r.packetSize).length =
      (r.source.rest.slices r.packetSize).length := by
    rw [hr.supplied.slices_rest hr.whole, List.length_append]
    congr 1
    exact Task.length_ofChunk ..
  have hfuture := hr.supplied.future_refilled hr.whole
  unfold forecast
  rw [hfuture, hchunks, ← hbytes, ← hslices]
  simp only [refilled, queue, Tally.mk.injEq]
  refine ⟨Nat.add_assoc _ _ _, ?_, Nat.add_assoc _ _ _, rfl⟩
  exact (Nat.add_assoc _ 1 _).trans (congrArg (_ + ·) (Nat.add_comm 1 _))

theorem future_of_slots {slot : Slot P E} {later : List (Slot P E)}
    (h : r.backlog.slots = slot :: later) :
    r.future = slot.await r.decoder :: r.dropFirst.future := by
  simp [future, dropFirst, packetSize, h]

theorem forecast_dropFirst {slot : Slot P E} {later : List (Slot P E)}
    (h : r.backlog.slots = slot :: later) : r.dropFirst.forecast = r.forecast := by
  simp only [forecast, future_of_slots h, List.length_cons, Tally.mk.injEq]
  refine ⟨rfl, rfl, rfl, ?_⟩
  simp only [dropFirst]
  omega

/-- Nothing is to come exactly when the line and the source are empty. -/
theorem future_eq_nil : r.future = [] ↔ r.backlog.slots = [] ∧ r.source.rest = [] := by
  have hs : 0 < r.packetSize := r.framing.packetSize_pos
  constructor
  · intro h
    obtain ⟨hslots, hrest⟩ := List.append_eq_nil_iff.mp h
    refine ⟨List.map_eq_nil_iff.mp hslots, ?_⟩
    by_cases hne : r.source.rest = []
    · exact hne
    · rw [Bytes.slices_of_ne_nil hs hne] at hrest
      exact absurd hrest (List.cons_ne_nil _ _)
  · rintro ⟨hslots, hrest⟩
    simp [future, hslots, hrest, Outcome.ofSlices]

theorem tally_of_future_nil (h : r.future = []) : r.tally = r.forecast := by
  have hrest := (future_eq_nil.mp h).2
  simp [forecast, h, hrest]

end

/-- A call yields the first item to come and leaves the others, if a refill that
it takes to this obtains what there is. -/
theorem next_of_supplied {r : Reader P E} (hroom : 0 < r.chunkLength)
    (hwhole : r.packetSize ∣ r.chunkLength) (hsupplied : r.backlog.slots = [] → r.Supplied) :
    r.next.item = r.future.head? ∧ r.next.reader.future = r.future.tail := by
  have hcall := r.call_next
  generalize r.next = step at hcall
  cases hcall with
  | deliver hs =>
    rw [future_of_slots hs]
    exact ⟨rfl, rfl⟩
  | fault hs hf =>
    rw [hsupplied hs] at hf
    cases hf
  | finish hs hf hb =>
    have hrest : r.source.rest = [] := by
      rw [hsupplied hs] at hb
      exact (List.take_eq_nil_iff.mp hb).resolve_left (Nat.ne_of_gt hroom)
    have hrest' : r.received.source.rest = [] := by
      rw [(hsupplied hs).rest_received, hrest, List.drop_nil]
    have hnow : r.future = [] := future_eq_nil.mpr ⟨hs, hrest⟩
    have hthen : r.received.future = [] := future_eq_nil.mpr ⟨hs, hrest'⟩
    rw [hnow, hthen]
    exact ⟨rfl, rfl⟩
  | refill hs hf hb =>
    obtain ⟨later, hslots⟩ := slots_refilled hs hb
    have hfuture := future_of_slots hslots
    rw [(hsupplied hs).future_refilled hwhole] at hfuture
    rw [hfuture]
    refine ⟨?_, rfl⟩
    simp only [Slot.await, Task.outcome_eq_ofSlice, List.head?_cons]
    rfl

/-- On a steady source every call does so; the forecast stays as it is. -/
theorem next_of_steady {r : Reader P E} (hr : r.Steady) :
    r.next.item = r.future.head? ∧ r.next.reader.future = r.future.tail ∧
      r.next.reader.forecast = r.forecast ∧ r.next.reader.Steady := by
  obtain ⟨hitem, hfuture⟩ :=
    next_of_supplied hr.room hr.whole fun _ => hr.supplied
  refine ⟨hitem, hfuture, ?_⟩
  have hcall := r.call_next
  generalize r.next = step at hcall hitem hfuture
  cases hcall with
  | deliver hs => exact ⟨forecast_dropFirst hs, hr.dropFirst⟩
  | fault hs hf =>
    rw [hr.supplied] at hf
    cases hf
  | finish hs hf hb =>
    have hnow : r.future = [] := List.head?_eq_none_iff.mp hitem.symm
    have hthen : r.received.future = [] := by
      rw [hnow] at hfuture
      exact hfuture
    refine ⟨?_, hr.received⟩
    rw [← tally_of_future_nil hnow, ← tally_of_future_nil hthen]
    rfl
  | refill hs hf hb =>
    obtain ⟨later, hslots⟩ := slots_refilled hs hb
    refine ⟨?_, hr.refilled.dropFirst⟩
    rw [forecast_dropFirst hslots, forecast_refilled hr hb]

/-- A whole run: call `i` yields item `i` of those to come. -/
theorem item_of_steady {r : Reader P E} (hr : r.Steady) (i : Nat) :
    (r.afterCalls i).next.item = r.future[i]? := by
  induction i generalizing r with
  | zero =>
    rw [← List.head?_eq_getElem?]
    exact (next_of_steady hr).1
  | succ i ih =>
    obtain ⟨-, hfuture, -, hnext⟩ := next_of_steady hr
    have h := ih hnext
    rw [hfuture, List.getElem?_tail] at h
    exact h

theorem tally_of_steady {r : Reader P E} (hr : r.Steady) {count : Nat}
    (h : r.future.length ≤ count) : (r.afterCalls count).tally = r.forecast := by
  induction count generalizing r with
  | zero => exact tally_of_future_nil (List.length_eq_zero_iff.mp (Nat.le_zero.mp h))
  | succ count ih =>
    obtain ⟨-, hfuture, hforecast, hnext⟩ := next_of_steady hr
    rw [← hforecast]
    refine ih hnext ?_
    rw [hfuture, List.length_tail]
    omega

end TransportStream.Reader
