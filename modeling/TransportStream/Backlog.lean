import TransportStream.Packet.Basic
import TransportStream.Journal
import TransportStream.ReadError

/-!
# The backlog of decodes

The decode of each packet is a task with its own copy of the bytes. Tasks wait in
stream order, workers finish them at any time, and taking the head waits for its
report. A worker that breaks down leaves its own slot without an outcome.
-/
namespace TransportStream

structure Task where
  index : Nat
  expected : Nat
  bytes : Bytes
  deriving DecidableEq, Repr

abbrev Outcome (P E : Type) := Except (ReadError E) P

namespace Task
variable {P E : Type}

/-- One task for each slice of a chunk, numbered onward from `first`. -/
def ofChunk (first size : Nat) (chunk : Bytes) : List Task :=
  (chunk.slices size).mapIdx fun i bytes => ⟨first + i, size, bytes⟩

def isTruncated (task : Task) : Bool := task.bytes.length < task.expected

/-- What a worker reports about the task; nothing, if it breaks down. -/
def report (decoder : Decoder P E) (task : Task) : Option (Outcome P E) :=
  if task.isTruncated then
    some (.error (.truncated task.index task.bytes.length task.expected))
  else
    match decoder task.bytes with
    | .decoded packet => some (.ok packet)
    | .refused cause => some (.error (.undecodable task.index cause))
    | .brokeDown => none

/-- What the task delivers to the reader. -/
def outcome (decoder : Decoder P E) (task : Task) : Outcome P E :=
  (task.report decoder).getD (.error (.workerLost task.index))

/-- The notes on a run of tasks: a warning for each incomplete packet. -/
def notes (tasks : List Task) : List Note :=
  (tasks.filter isTruncated).map fun task =>
    .truncated task.index task.bytes.length task.expected

theorem length_ofChunk (first size : Nat) (chunk : Bytes) :
    (ofChunk first size chunk).length = (chunk.slices size).length := by
  simp [ofChunk]

@[simp] theorem ofChunk_nil (first size : Nat) : ofChunk first size [] = [] := by
  simp [ofChunk]

end Task

/-- A place in the line; the report of its task is kept once the task is finished. -/
structure Slot (P E : Type) where
  task : Task
  finished : Option (Option (Outcome P E)) := none

namespace Slot
variable {P E : Type}

/-- Runs the task, unless it has been run. -/
def finish (decoder : Decoder P E) (slot : Slot P E) : Slot P E :=
  match slot.finished with
  | none => { slot with finished := some (slot.task.report decoder) }
  | some _ => slot

def await (decoder : Decoder P E) (slot : Slot P E) : Outcome P E :=
  match slot.finished with
  | none => slot.task.outcome decoder
  | some report => report.getD (.error (.workerLost slot.task.index))

@[simp] theorem task_finish (decoder : Decoder P E) (slot : Slot P E) :
    (slot.finish decoder).task = slot.task := by
  unfold finish
  split <;> rfl

@[simp] theorem await_finish (decoder : Decoder P E) (slot : Slot P E) :
    (slot.finish decoder).await decoder = slot.await decoder := by
  unfold finish
  split
  · rename_i h
    simp [await, h, Task.outcome]
  · rfl

end Slot

structure Backlog (P E : Type) where
  slots : List (Slot P E) := []
  nextIndex : Nat := 0

namespace Backlog
variable {P E : Type}

/-- Queues tasks whose numbers go on from those queued before. -/
def submit (b : Backlog P E) (tasks : List Task) : Backlog P E :=
  ⟨b.slots ++ tasks.map (⟨·, none⟩), b.nextIndex + tasks.length⟩

def dispatch (b : Backlog P E) (size : Nat) (chunk : Bytes) : Backlog P E :=
  b.submit (Task.ofChunk b.nextIndex size chunk)

/-- A packet size of zero cuts nothing and is refused. -/
def dispatch? (b : Backlog P E) (size : Nat) (chunk : Bytes) :
    Option (Backlog P E × List Task) :=
  if size = 0 then none
  else some (b.dispatch size chunk, Task.ofChunk b.nextIndex size chunk)

/-- A worker finishes the task in slot `place`. -/
def finish (b : Backlog P E) (decoder : Decoder P E) (place : Nat) : Backlog P E :=
  { b with slots := b.slots.modify place (·.finish decoder) }

/-- Waits for the oldest task and takes its outcome out of the line. -/
def pop? (b : Backlog P E) (decoder : Decoder P E) : Option (Outcome P E × Backlog P E) :=
  match b.slots with
  | [] => none
  | slot :: later => some (slot.await decoder, { b with slots := later })

/-- Every outcome still in line, oldest first, and the empty line they leave. -/
def popAll (b : Backlog P E) (decoder : Decoder P E) : List (Outcome P E) × Backlog P E :=
  (b.slots.map (·.await decoder), { b with slots := [] })

def length (b : Backlog P E) : Nat := b.slots.length

@[simp] theorem length_submit (b : Backlog P E) (tasks : List Task) :
    (b.submit tasks).length = b.length + tasks.length := by
  simp [submit, length]

theorem pop?_eq_none {b : Backlog P E} {decoder : Decoder P E} :
    b.pop? decoder = none ↔ b.length = 0 := by
  unfold pop? length
  cases b.slots <;> simp

theorem length_of_pop? {b b' : Backlog P E} {decoder : Decoder P E} {outcome : Outcome P E}
    (h : b.pop? decoder = some (outcome, b')) : b.length = b'.length + 1 := by
  unfold pop? at h
  split at h
  · simp at h
  · rename_i slot later hs
    simp only [Option.some.injEq, Prod.mk.injEq] at h
    simp [← h.2, length, hs]

/-- Taking everything is the same as taking the head again and again. -/
theorem popAll_of_pop? {b b' : Backlog P E} {decoder : Decoder P E} {outcome : Outcome P E}
    (h : b.pop? decoder = some (outcome, b')) :
    b.popAll decoder = (outcome :: (b'.popAll decoder).1, (b'.popAll decoder).2) := by
  unfold pop? at h
  split at h
  · simp at h
  · rename_i slot later hs
    simp only [Option.some.injEq, Prod.mk.injEq] at h
    simp [popAll, hs, ← h.1, ← h.2]

/-- Whether and when a worker finishes a task cannot be told from what is delivered. -/
theorem popAll_finish (b : Backlog P E) (decoder : Decoder P E) (place : Nat) :
    (b.finish decoder place).popAll decoder = b.popAll decoder := by
  unfold finish popAll
  simp only [Prod.mk.injEq, and_true]
  apply List.ext_getElem?
  intro i
  simp only [List.getElem?_map, List.getElem?_modify]
  split
  · cases b.slots[i]? <;> simp
  · simp

end Backlog

end TransportStream
