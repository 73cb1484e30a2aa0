import TransportStream.Backlog

/-!
# Outcomes as a function of the bytes

What a packet delivers is decided by its bytes, the packet size and its index, which
is no more than a label (`ofSlice_shift`).
-/
namespace TransportStream

/-- The same error, of a packet counted from `offset` packets earlier. -/
def ReadError.shift {E : Type} (offset : Nat) : ReadError E → ReadError E
  | .undecodable index cause => .undecodable (offset + index) cause
  | .truncated index length expected => .truncated (offset + index) length expected
  | .workerLost index => .workerLost (offset + index)
  | .invalidSettings fault => .invalidSettings fault
  | .rejected reason => .rejected reason
  | .io during fault => .io during fault

namespace Outcome
variable {P E : Type}

/-- What packet `index` delivers. The decoder is not shown an incomplete one. -/
def ofSlice (decoder : Decoder P E) (size index : Nat) (slice : Bytes) : Outcome P E :=
  if slice.length < size then .error (.truncated index slice.length size)
  else
    match decoder slice with
    | .decoded packet => .ok packet
    | .refused cause => .error (.undecodable index cause)
    | .brokeDown => .error (.workerLost index)

/-- What consecutive packets deliver, the first of which has index `first`. -/
def ofSlices (decoder : Decoder P E) (size : Nat) : Nat → List Bytes → List (Outcome P E)
  | _, [] => []
  | first, slice :: later =>
    ofSlice decoder size first slice :: ofSlices decoder size (first + 1) later

def isFatal : Outcome P E → Bool
  | .ok _ => false
  | .error e => e.isFatal

def shift (offset : Nat) (outcome : Outcome P E) : Outcome P E :=
  outcome.mapError (·.shift offset)

@[simp] theorem length_ofSlices (decoder : Decoder P E) (size first : Nat) (slices : List Bytes) :
    (ofSlices decoder size first slices).length = slices.length := by
  induction slices generalizing first with
  | nil => rfl
  | cons slice later ih => simp [ofSlices, ih]

theorem ofSlices_append (decoder : Decoder P E) (size first : Nat) (slices more : List Bytes) :
    ofSlices decoder size first (slices ++ more) =
      ofSlices decoder size first slices ++
        ofSlices decoder size (first + slices.length) more := by
  induction slices generalizing first with
  | nil => rfl
  | cons slice later ih =>
    simp only [List.cons_append, ofSlices, ih, List.length_cons]
    rw [show first + 1 + later.length = first + (later.length + 1) by omega]

theorem getElem?_ofSlices (decoder : Decoder P E) (size first : Nat) (slices : List Bytes)
    (i : Nat) :
    (ofSlices decoder size first slices)[i]? =
      slices[i]?.map (ofSlice decoder size (first + i)) := by
  induction slices generalizing first i with
  | nil => simp [ofSlices]
  | cons slice later ih =>
    cases i with
    | zero => simp [ofSlices]
    | succ i =>
      simp only [ofSlices, List.getElem?_cons_succ, ih]
      rw [show first + 1 + i = first + (i + 1) by omega]

theorem ofSlice_shift (decoder : Decoder P E) (size offset index : Nat) (slice : Bytes) :
    ofSlice decoder size (offset + index) slice =
      shift offset (ofSlice decoder size index slice) := by
  unfold ofSlice shift
  split
  · rfl
  · cases decoder slice <;> rfl

theorem ofSlices_shift (decoder : Decoder P E) (size offset first : Nat) (slices : List Bytes) :
    ofSlices decoder size (offset + first) slices =
      (ofSlices decoder size first slices).map (shift offset) := by
  induction slices generalizing first with
  | nil => rfl
  | cons slice later ih => simp only [ofSlices, List.map_cons, ofSlice_shift, Nat.add_assoc, ih]

@[simp] theorem isFatal_ofSlice (decoder : Decoder P E) (size index : Nat) (slice : Bytes) :
    isFatal (ofSlice decoder size index slice) = false := by
  unfold ofSlice
  split
  · rfl
  · cases decoder slice <;> rfl

theorem exists_ofSlice_of_mem {decoder : Decoder P E} {size first : Nat} {slices : List Bytes}
    {outcome : Outcome P E} (h : outcome ∈ ofSlices decoder size first slices) :
    ∃ index slice, ofSlice decoder size index slice = outcome := by
  obtain ⟨i, hi⟩ := List.mem_iff_getElem?.mp h
  rw [getElem?_ofSlices] at hi
  obtain ⟨slice, -, hslice⟩ := Option.map_eq_some_iff.mp hi
  exact ⟨_, slice, hslice⟩

theorem isFatal_of_mem_ofSlices {decoder : Decoder P E} {size first : Nat} {slices : List Bytes}
    {outcome : Outcome P E} (h : outcome ∈ ofSlices decoder size first slices) :
    isFatal outcome = false := by
  obtain ⟨index, slice, rfl⟩ := exists_ofSlice_of_mem h
  exact isFatal_ofSlice ..

theorem packetIndex_of_ofSlice {decoder : Decoder P E} {size index : Nat} {slice : Bytes}
    {e : ReadError E} (h : ofSlice decoder size index slice = .error e) :
    e.packetIndex? = some index := by
  unfold ofSlice at h
  split at h
  · rw [← Except.error.inj h]
    rfl
  · split at h
    · simp at h
    · rw [← Except.error.inj h]
      rfl
    · rw [← Except.error.inj h]
      rfl

end Outcome

namespace Task
variable {P E : Type}

theorem outcome_eq_ofSlice (decoder : Decoder P E) (task : Task) :
    task.outcome decoder = Outcome.ofSlice decoder task.expected task.index task.bytes := by
  unfold outcome report Outcome.ofSlice isTruncated
  by_cases h : task.bytes.length < task.expected
  · simp [h]
  · simp only [h, decide_false, Bool.false_eq_true, if_false]
    cases decoder task.bytes <;> rfl

/-- The tasks of a chunk deliver the outcomes of its slices. -/
theorem outcomes_ofChunk (decoder : Decoder P E) (first size : Nat) (chunk : Bytes) :
    (ofChunk first size chunk).map (·.outcome decoder) =
      Outcome.ofSlices decoder size first (chunk.slices size) := by
  apply List.ext_getElem?
  intro i
  simp only [ofChunk, List.getElem?_map, List.getElem?_mapIdx, Outcome.getElem?_ofSlices,
    Option.map_map]
  congr 1
  funext slice
  exact outcome_eq_ofSlice decoder _

end Task

end TransportStream
