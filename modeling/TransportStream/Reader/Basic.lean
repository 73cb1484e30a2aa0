import TransportStream.Backlog
import TransportStream.ChunkBuffer

/-!
# The packet reader

While tasks are in line a reader takes the oldest one. With an empty line the next
call reads one chunk and queues its packets. The end and a failure leave the reader
as it was, apart from its source and the bytes in its buffer.
-/
namespace TransportStream

/-- The size of a packet, and how it was found if it was not given. -/
structure Framing where
  packetSize : Nat
  packetSize_pos : 0 < packetSize
  detection : Option Detection
  deriving DecidableEq

/-- Running totals. The bytes of a probe are not counted as read. -/
structure Tally where
  bytesRead : Nat := 0
  chunksRead : Nat := 0
  dispatched : Nat := 0
  drained : Nat := 0
  deriving DecidableEq, Repr

structure Reader (P E : Type) where
  decoder : Decoder P E
  framing : Framing
  source : Source
  buffer : ChunkBuffer
  backlog : Backlog P E := {}
  tally : Tally := {}

/-- One attempt to read a chunk: the number of tasks queued, zero at the end
of the stream. -/
structure Refill (P E : Type) where
  queued : Except (ReadError E) Nat
  reader : Reader P E
  requests : List Request
  notes : List Note

/-- One call for the next packet. -/
structure Step (P E : Type) where
  item : Option (Outcome P E)
  reader : Reader P E
  requests : List Request
  notes : List Note

namespace Step
variable {P E : Type}

/-- The same step, taken after a refill. -/
def after (refill : Refill P E) (step : Step P E) : Step P E :=
  { step with
    requests := refill.requests ++ step.requests
    notes := refill.notes ++ step.notes }

/-- Whether nothing is to be had after this step: the stream has ended or the
operation has failed. -/
def isLast (step : Step P E) : Bool :=
  match step.item with
  | none => true
  | some (.ok _) => false
  | some (.error e) => e.isFatal

end Step

namespace Reader
variable {P E : Type}

def packetSize (r : Reader P E) : Nat := r.framing.packetSize

def chunkLength (r : Reader P E) : Nat := r.buffer.capacity

/-- Tasks queued and not yet taken. -/
def pending (r : Reader P E) : Nat := r.backlog.length

/-- The reader once `chunk` has been read and its packets are queued. -/
def queue (r : Reader P E) (chunk : Bytes) (tasks : List Task) : Reader P E :=
  { r with
    backlog := r.backlog.submit tasks
    tally :=
      { r.tally with
        bytesRead := r.tally.bytesRead + chunk.length
        chunksRead := r.tally.chunksRead + 1
        dispatched := r.tally.dispatched + tasks.length } }

def refill (r : Reader P E) : Refill P E :=
  let x := r.buffer.fill r.source
  let r' := { r with buffer := x.result.buffer, source := x.source }
  match x.result.chunk with
  | .error fault => ⟨.error (.io (.filling r.chunkLength) fault), r', x.requests, []⟩
  | .ok none => ⟨.ok 0, r', x.requests, []⟩
  | .ok (some chunk) =>
    let tasks := Task.ofChunk r.backlog.nextIndex r.packetSize chunk
    ⟨.ok tasks.length, r'.queue chunk tasks, x.requests,
      Task.notes tasks ++ [.refilled chunk.length tasks.length]⟩

def pop? (r : Reader P E) : Option (Outcome P E × Reader P E) :=
  (r.backlog.pop? r.decoder).map fun (outcome, backlog) =>
    (outcome, { r with backlog, tally := { r.tally with drained := r.tally.drained + 1 } })

theorem source_refill (r : Reader P E) :
    r.refill.reader.source = (r.buffer.fill r.source).source := by
  simp only [refill]
  split <;> rfl

theorem rest_refill_le (r : Reader P E) :
    r.refill.reader.source.rest.length ≤ r.source.rest.length := by
  rw [source_refill]
  have := congrArg List.length (r.source.gather_rest r.buffer.capacity)
  simp only [List.length_append] at this
  simp only [ChunkBuffer.fill, Exchange.source_map]
  omega

/-- The bytes to come and the tasks waiting, which a reader uses up. -/
def work (r : Reader P E) : Nat := r.source.rest.length + r.pending

theorem work_refill_le (r : Reader P E) : r.refill.reader.work ≤ r.work := by
  have hrest := r.rest_refill_le
  unfold work
  cases hx : (r.buffer.fill r.source).result.chunk with
  | error fault =>
    have : r.refill.reader.pending = r.pending := by simp [refill, hx, pending]
    omega
  | ok chunk =>
    cases chunk with
    | none =>
      have : r.refill.reader.pending = r.pending := by simp [refill, hx, pending]
      omega
    | some chunk =>
      have hp : r.refill.reader.pending = r.pending + (chunk.slices r.packetSize).length := by
        simp [refill, hx, pending, queue, Task.length_ofChunk]
      have hs := Bytes.length_slices_le r.framing.packetSize_pos chunk
      have hr := congrArg List.length (ChunkBuffer.fill_chunk hx).2
      rw [List.length_append, ← source_refill] at hr
      unfold packetSize at hp
      omega

theorem refill_rest_lt {r : Reader P E} {n : Nat} (h : r.refill.queued = .ok (n + 1)) :
    r.refill.reader.source.rest.length < r.source.rest.length := by
  rw [source_refill]
  cases hx : (r.buffer.fill r.source).result.chunk with
  | error fault => simp [refill, hx] at h
  | ok chunk =>
    cases chunk with
    | none => simp [refill, hx] at h
    | some chunk =>
      obtain ⟨hne, hrest⟩ := ChunkBuffer.fill_chunk hx
      have := List.length_pos_iff.mpr hne
      rw [hrest, List.length_append]
      omega

/-- The next packet in stream order, the error of a packet, a fatal error, or
nothing at the end of the stream. -/
def next (r : Reader P E) : Step P E :=
  match r.pop? with
  | some (outcome, r') => ⟨some outcome, r', [], []⟩
  | none =>
    match _h : r.refill.queued with
    | .error e => ⟨some (.error e), r.refill.reader, r.refill.requests, r.refill.notes⟩
    | .ok 0 => ⟨none, r.refill.reader, r.refill.requests, r.refill.notes⟩
    | .ok (_ + 1) => r.refill.reader.next.after r.refill
termination_by r.source.rest.length
decreasing_by exact refill_rest_lt _h

theorem next_of_pop? {r r' : Reader P E} {outcome : Outcome P E}
    (h : r.pop? = some (outcome, r')) : r.next = ⟨some outcome, r', [], []⟩ := by
  rw [next, h]

theorem next_of_error {r : Reader P E} {e : ReadError E} (h : r.pop? = none)
    (he : r.refill.queued = .error e) :
    r.next = ⟨some (.error e), r.refill.reader, r.refill.requests, r.refill.notes⟩ := by
  rw [next, h]
  simp only
  split <;> simp_all

theorem next_of_end {r : Reader P E} (h : r.pop? = none) (he : r.refill.queued = .ok 0) :
    r.next = ⟨none, r.refill.reader, r.refill.requests, r.refill.notes⟩ := by
  rw [next, h]
  simp only
  split <;> simp_all

theorem next_of_queued {r : Reader P E} {n : Nat} (h : r.pop? = none)
    (hq : r.refill.queued = .ok (n + 1)) : r.next = r.refill.reader.next.after r.refill := by
  rw [next, h]
  simp only
  split <;> simp_all

theorem source_of_pop? {r r' : Reader P E} {outcome : Outcome P E}
    (h : r.pop? = some (outcome, r')) : r'.source = r.source := by
  unfold pop? at h
  obtain ⟨x, -, hx⟩ := Option.map_eq_some_iff.mp h
  simp only [Prod.mk.injEq] at hx
  rw [← hx.2]

theorem pending_of_pop? {r r' : Reader P E} {outcome : Outcome P E}
    (h : r.pop? = some (outcome, r')) : r.pending = r'.pending + 1 := by
  unfold pop? at h
  obtain ⟨⟨o, b⟩, hb, hx⟩ := Option.map_eq_some_iff.mp h
  simp only [Prod.mk.injEq] at hx
  rw [← hx.2]
  exact Backlog.length_of_pop? hb

theorem isFatal_of_refill {r : Reader P E} {e : ReadError E} (h : r.refill.queued = .error e) :
    e.isFatal = true := by
  simp only [refill] at h
  split at h <;> simp only [Except.error.injEq, reduceCtorEq] at h
  rw [← h]
  rfl

theorem work_next_lt {r : Reader P E} (h : r.next.isLast = false) :
    r.next.reader.work < r.work := by
  fun_induction next r with
  | case1 r outcome r' hp =>
    have := pending_of_pop? hp
    simp only [work, source_of_pop? hp]
    omega
  | case2 r _ e he => simp [Step.isLast, isFatal_of_refill he] at h
  | case3 r _ _ => simp [Step.isLast] at h
  | case4 r _ n hq ih => exact Nat.lt_of_lt_of_le (ih h) r.work_refill_le

end Reader

end TransportStream
