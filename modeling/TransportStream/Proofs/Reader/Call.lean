import TransportStream.Reader.Run
import TransportStream.Proofs.Outcome
import TransportStream.Proofs.Source.Reading

/-!
# What one call does

With tasks in line a call delivers the oldest one. With an empty line it reads, and
reports a fault, meets the end, or delivers the first task of a chunk. `Call` has
everything that each of the four courses changes.
-/
namespace TransportStream.Reader
variable {P E : Type}

/-- What the read loop of a refill obtains. -/
def intake (r : Reader P E) : Exchange Intake := r.source.gather r.chunkLength

/-- The reader once the bytes obtained are in its buffer. -/
def received (r : Reader P E) : Reader P E :=
  { r with buffer := r.buffer.store r.intake.result.bytes, source := r.intake.source }

/-- The tasks cut from the bytes obtained. -/
def cut (r : Reader P E) : List Task :=
  Task.ofChunk r.backlog.nextIndex r.packetSize r.intake.result.bytes

/-- The reader once these tasks are in line. -/
def refilled (r : Reader P E) : Reader P E := r.received.queue r.intake.result.bytes r.cut

/-- The reader without its oldest task, which has been delivered. -/
def dropFirst (r : Reader P E) : Reader P E :=
  { r with
    backlog := { r.backlog with slots := r.backlog.slots.tail }
    tally := { r.tally with drained := r.tally.drained + 1 } }

section
variable {r : Reader P E}

theorem pop?_of_slots {slot : Slot P E} {later : List (Slot P E)}
    (h : r.backlog.slots = slot :: later) :
    r.pop? = some (slot.await r.decoder, r.dropFirst) := by
  simp [pop?, Backlog.pop?, dropFirst, h]

theorem pop?_of_empty (h : r.backlog.slots = []) : r.pop? = none := by
  simp [pop?, Backlog.pop?, h]

theorem refill_of_fault {fault : Fault} (h : r.intake.result.fault = some fault) :
    r.refill =
      ⟨.error (.io (.filling r.chunkLength) fault), r.received, r.intake.requests, []⟩ := by
  unfold intake chunkLength at h
  simp [refill, ChunkBuffer.fill, received, intake, chunkLength, h]

theorem refill_of_end (h : r.intake.result.fault = none) (hb : r.intake.result.bytes = []) :
    r.refill = ⟨.ok 0, r.received, r.intake.requests, []⟩ := by
  unfold intake chunkLength at h hb
  simp [refill, ChunkBuffer.fill, received, intake, chunkLength, h, hb]

theorem refill_of_bytes (h : r.intake.result.fault = none) (hb : r.intake.result.bytes ≠ []) :
    r.refill =
      ⟨.ok r.cut.length, r.refilled, r.intake.requests,
        Task.notes r.cut ++ [.refilled r.intake.result.bytes.length r.cut.length]⟩ := by
  unfold intake chunkLength at h hb
  simp [refill, ChunkBuffer.fill, refilled, received, cut, intake, chunkLength, h, hb]

theorem cut_of_bytes (hb : r.intake.result.bytes ≠ []) :
    ∃ later, r.cut =
      ⟨r.backlog.nextIndex, r.packetSize, r.intake.result.bytes.take r.packetSize⟩ :: later := by
  have hs : 0 < r.packetSize := r.framing.packetSize_pos
  simp only [cut, Task.ofChunk, Bytes.slices_of_ne_nil hs hb, List.mapIdx_cons, Nat.add_zero]
  exact ⟨_, rfl⟩

/-- After a refill of an empty line the first slice is at its head. -/
theorem slots_refilled (hs : r.backlog.slots = []) (hb : r.intake.result.bytes ≠ []) :
    ∃ later, r.refilled.backlog.slots =
      ⟨⟨r.backlog.nextIndex, r.packetSize, r.intake.result.bytes.take r.packetSize⟩, none⟩ ::
        later := by
  obtain ⟨later, hcut⟩ := cut_of_bytes hb
  refine ⟨later.map (⟨·, none⟩), ?_⟩
  simp [refilled, queue, received, Backlog.submit, hs, hcut]

end

/-- The four courses of a call: to deliver a task in line, to report a fault,
to find the end of the stream, or to refill the line and deliver from it. -/
inductive Call (r : Reader P E) : Step P E → Prop
  | deliver {slot : Slot P E} {later : List (Slot P E)} : r.backlog.slots = slot :: later →
      Call r ⟨some (slot.await r.decoder), r.dropFirst, [], []⟩
  | fault {fault : Fault} : r.backlog.slots = [] → r.intake.result.fault = some fault →
      Call r ⟨some (.error (.io (.filling r.chunkLength) fault)), r.received,
        r.intake.requests, []⟩
  | finish : r.backlog.slots = [] → r.intake.result.fault = none →
      r.intake.result.bytes = [] → Call r ⟨none, r.received, r.intake.requests, []⟩
  | refill : r.backlog.slots = [] → r.intake.result.fault = none →
      r.intake.result.bytes ≠ [] →
      Call r ⟨some (Outcome.ofSlice r.decoder r.packetSize r.backlog.nextIndex
          (r.intake.result.bytes.take r.packetSize)), r.refilled.dropFirst, r.intake.requests,
        Task.notes r.cut ++ [.refilled r.intake.result.bytes.length r.cut.length]⟩

theorem call_next (r : Reader P E) : r.Call r.next := by
  cases hs : r.backlog.slots with
  | cons slot later =>
    rw [next_of_pop? (pop?_of_slots hs)]
    exact .deliver hs
  | nil =>
    have hp := pop?_of_empty hs
    cases hf : r.intake.result.fault with
    | some fault =>
      have hr := refill_of_fault hf
      rw [next_of_error (e := .io (.filling r.chunkLength) fault) hp (by rw [hr]), hr]
      exact .fault hs hf
    | none =>
      by_cases hb : r.intake.result.bytes = []
      · have hr := refill_of_end hf hb
        rw [next_of_end hp (by rw [hr]), hr]
        exact .finish hs hf hb
      · have hr := refill_of_bytes hf hb
        obtain ⟨tasks, hcut⟩ := cut_of_bytes hb
        obtain ⟨later, hslots⟩ := slots_refilled hs hb
        have hq : r.refill.queued = .ok (tasks.length + 1) := by rw [hr, hcut, List.length_cons]
        rw [next_of_queued hp hq, hr, next_of_pop? (pop?_of_slots hslots)]
        have hcall := Call.refill hs hf hb
        simpa [Step.after, Slot.await, Task.outcome_eq_ofSlice, refilled, queue, received]
          using hcall

theorem Call.unique {r : Reader P E} {step step' : Step P E} (h : r.Call step)
    (h' : r.Call step') : step = step' := by
  cases h <;> cases h' <;> simp_all

/-- The state decides the course, so a call that may take one takes that one. -/
theorem next_of_call {r : Reader P E} {step : Step P E} (h : r.Call step) : r.next = step :=
  r.call_next.unique h

section
variable {r : Reader P E} {bytes : Bytes} {left : Source}

/-- A fault found by the rules of the read loop, without running it. -/
theorem next_of_failing {fault : Fault} (hs : r.backlog.slots = [])
    (h : Source.Reads r.source r.chunkLength bytes (some fault) left) :
    r.next.item = some (.error (.io (.filling r.chunkLength) fault)) ∧
      r.next.reader = { r with buffer := r.buffer.store bytes, source := left } := by
  obtain ⟨hresult, hsource⟩ := h.eq_gather
  rw [next_of_call (.fault hs (congrArg Intake.fault hresult))]
  simp only [received, intake, hresult, hsource, and_self]

/-- A chunk found by the rules of the read loop, without running it. -/
theorem next_of_chunk {slice : Bytes} {later : List Bytes} (hs : r.backlog.slots = [])
    (h : Source.Reads r.source r.chunkLength bytes none left)
    (hslices : bytes.slices r.packetSize = slice :: later) :
    r.next.item = some (Outcome.ofSlice r.decoder r.packetSize r.backlog.nextIndex slice) ∧
      r.next.reader = ({ r with buffer := r.buffer.store bytes, source := left }.queue bytes
        (Task.ofChunk r.backlog.nextIndex r.packetSize bytes)).dropFirst := by
  obtain ⟨hresult, hsource⟩ := h.eq_gather
  have hne : bytes ≠ [] := by
    rintro rfl
    simp at hslices
  have hsize : 0 < r.packetSize := r.framing.packetSize_pos
  have hslice : bytes.take r.packetSize = slice := by
    rw [Bytes.slices_of_ne_nil hsize hne] at hslices
    exact (List.cons.inj hslices).1
  rw [next_of_call (.refill hs (congrArg Intake.fault hresult)
    (by rw [intake, hresult]; exact hne))]
  simp only [refilled, received, cut, intake, hresult, hsource, hslice, and_self]

end

end TransportStream.Reader
