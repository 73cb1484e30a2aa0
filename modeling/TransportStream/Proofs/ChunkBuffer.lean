import TransportStream.ChunkBuffer
import TransportStream.Proofs.Source.Gathering
import TransportStream.Proofs.Source.Reading

/-!
# Where the bytes of a chunk come from

The buffer is never cleared, yet a chunk holds the bytes that were served during its
own fill and no others. Every byte taken from a source went into the chunk of one
fill or was lost with it (`portion`).
-/
namespace TransportStream.ChunkBuffer

/-- The bytes that a fill has taken: they are its chunk, or were lost with it. -/
def portion (x : Exchange Filled) : Bytes :=
  match x.result.chunk with
  | .ok (some chunk) => chunk
  | .ok none => []
  | .error _ => Request.taken x.requests

/-- The outcome of a fill, for a buffer of this capacity, as told by its requests. -/
structure Tells (capacity : Nat) (x : Exchange Filled) : Prop where
  /-- A chunk is what was served. It is short only if the last read brought nothing. -/
  chunk : ∀ chunk, x.result.chunk = .ok (some chunk) →
    chunk = Request.taken x.requests ∧ 1 ≤ chunk.length ∧ chunk.length ≤ capacity ∧
      (chunk.length < capacity ↔ MetEnd x.requests)
  /-- The end of the input is an answer of no bytes in front of every other one. -/
  ended : x.result.chunk = .ok none ↔
    ∃ place room, Request.firstSettled? x.requests = some (.read place room (.ok []))
  /-- A fault is met by a read that was made while the buffer had room. -/
  failed : ∀ fault, x.result.chunk = .error fault ↔ ∃ before place room after,
    x.requests = before ++ .read place room (.error fault) :: after ∧ ¬fault.Interrupted ∧
      (Request.taken before).length < capacity

section
variable (buffer : ChunkBuffer) (s : Source)

theorem requests_fill : (buffer.fill s).requests = (s.gather buffer.capacity).requests := rfl

theorem taken_fill :
    Request.taken (buffer.fill s).requests = (s.gather buffer.capacity).result.bytes :=
  s.taken_gather buffer.capacity

theorem chunk_fill :
    (buffer.fill s).result.chunk =
      match (s.gather buffer.capacity).result with
      | ⟨_, some fault⟩ => .error fault
      | ⟨[], none⟩ => .ok none
      | ⟨b :: bs, none⟩ => .ok (some (b :: bs)) := by
  simp only [fill, Exchange.result_map]
  generalize (s.gather buffer.capacity).result = taken
  obtain ⟨bytes, failure⟩ := taken
  cases failure with
  | some fault => rfl
  | none =>
    cases bytes with
    | nil => rfl
    | cons b bs =>
      change Except.ok (some ((buffer.store (b :: bs)).front (b :: bs).length)) = _
      rw [front_store]

theorem fill_eq_error {fault : Fault} :
    (buffer.fill s).result.chunk = .error fault ↔
      (s.gather buffer.capacity).result.fault = some fault := by
  rw [chunk_fill]
  rcases (s.gather buffer.capacity).result with ⟨_ | ⟨b, bs⟩, _ | met⟩ <;> simp

theorem fill_eq_none :
    (buffer.fill s).result.chunk = .ok none ↔
      (s.gather buffer.capacity).result.fault = none ∧
        (s.gather buffer.capacity).result.bytes = [] := by
  rw [chunk_fill]
  rcases (s.gather buffer.capacity).result with ⟨_ | ⟨b, bs⟩, _ | met⟩ <;> simp

theorem fill_eq_some {chunk : Bytes} :
    (buffer.fill s).result.chunk = .ok (some chunk) ↔
      (s.gather buffer.capacity).result = ⟨chunk, none⟩ ∧ chunk ≠ [] := by
  rw [chunk_fill]
  rcases (s.gather buffer.capacity).result with ⟨_ | ⟨b, bs⟩, _ | met⟩ <;>
    simp +contextual [eq_comm]

theorem tells_fill (h : 0 < buffer.capacity) : Tells buffer.capacity (buffer.fill s) := by
  have hgathering := s.gathering_gather buffer.capacity
  constructor
  · intro chunk hchunk
    obtain ⟨hresult, hne⟩ := (fill_eq_some buffer s).mp hchunk
    have hle := s.gather_length_le buffer.capacity
    have hmet := Source.metEnd_gather (congrArg Intake.fault hresult)
    rw [taken_fill, requests_fill, hmet, hresult]
    rw [hresult] at hle
    exact ⟨rfl, List.length_pos_iff.mpr hne, hle, Iff.rfl⟩
  · rw [fill_eq_none, ← taken_fill]
    exact hgathering.nothing_iff h
  · intro fault
    rw [fill_eq_error]
    exact hgathering.failure_iff

theorem portion_fill : portion (buffer.fill s) = Request.taken (buffer.fill s).requests := by
  unfold portion
  split
  · rename_i chunk hchunk
    rw [taken_fill, ((fill_eq_some buffer s).mp hchunk).1]
  · rename_i hnone
    rw [taken_fill, ((fill_eq_none buffer s).mp hnone).2]
  · rfl

theorem rest_fill : s.rest = portion (buffer.fill s) ++ (buffer.fill s).source.rest := by
  rw [portion_fill, taken_fill]
  exact s.gather_rest buffer.capacity

end

/-- Every fill of a run is told by its own requests. What it takes stands in the
data right behind all that the fills before it have taken, be it in their chunks
or lost, and together that is all that the source has served. -/
theorem chunks_of_fills (buffer : ChunkBuffer) (hcapacity : 0 < buffer.capacity) (s : Source)
    (count : Nat) :
    let run := fills count buffer s
    (∀ x ∈ run, Tells buffer.capacity x) ∧
    (∀ before x after, run = before ++ x :: after →
      s.rest = before.flatMap portion ++ (portion x ++ x.source.rest)) ∧
    Request.taken (run.flatMap (·.requests)) = run.flatMap portion := by
  induction count generalizing buffer s with
  | zero =>
    simp only [fills]
    refine ⟨fun x hmem => absurd hmem List.not_mem_nil, fun before x after h => ?_, rfl⟩
    exact absurd h.symm (List.append_ne_nil_of_right_ne_nil before (List.cons_ne_nil x after))
  | succ count ih =>
    have hcapacity' : (buffer.fill s).result.buffer.capacity = buffer.capacity :=
      capacity_fill buffer s
    obtain ⟨htells, hplaced, hserved⟩ := ih (buffer.fill s).result.buffer
      (hcapacity' ▸ hcapacity) (buffer.fill s).source
    simp only [fills]
    refine ⟨?_, ?_, ?_⟩
    · intro x hmem
      rcases List.mem_cons.mp hmem with rfl | hmem
      · exact tells_fill buffer s hcapacity
      · exact hcapacity' ▸ htells x hmem
    · intro before x after h
      cases before with
      | nil =>
        obtain ⟨rfl, rfl⟩ := List.cons.inj h
        exact rest_fill buffer s
      | cons first before =>
        obtain ⟨rfl, hlater⟩ := List.cons.inj h
        rw [List.flatMap_cons, List.append_assoc, ← hplaced before x after hlater]
        exact rest_fill buffer s
    · rw [List.flatMap_cons, List.flatMap_cons, Request.taken_append, hserved, portion_fill]

/-- One byte is served, and then a fault is met. The other bytes come in a later fill. -/
def spilling : Source where
  data := [1, 2, 3]
  answers := [.serve 1, .fail ⟨.brokenPipe, "gone"⟩]

def spoilt : ChunkBuffer := ⟨2, [9, 9]⟩

theorem chunks_of_fills_spilling :
    0 < spoilt.capacity ∧ ∃ lost kept : Exchange Filled, fills 2 spoilt spilling = [lost, kept] ∧
      lost.result.chunk = .error ⟨.brokenPipe, "gone"⟩ ∧ portion lost = [1] ∧
      kept.result.chunk = .ok (some [2, 3]) ∧
      Request.taken (lost.requests ++ kept.requests) = [1, 2, 3] ∧
      spilling.rest = portion lost ++ ([2, 3] ++ kept.source.rest) := by
  have hfault : Source.Reads spilling 2 ([1] ++ []) (some ⟨.brokenPipe, "gone"⟩)
      { spilling with position := 1, answers := [] } :=
    .served (by decide) (by decide) rfl (.failed (by decide) (by decide) rfl)
  have hchunk : Source.Reads { spilling with position := 1, answers := [] } 2 ([2, 3] ++ []) none
      { spilling with position := 3, answers := [] } :=
    .served (by decide) (by decide) rfl (.full _)
  obtain ⟨hspilt, hsource⟩ := hfault.eq_gather
  have hlost := (fill_eq_error spoilt spilling).mpr (congrArg Intake.fault hspilt)
  have hportion : portion (spoilt.fill spilling) = [1] := by
    rw [portion_fill, taken_fill]
    exact congrArg Intake.bytes hspilt
  have hkept : ((spoilt.fill spilling).result.buffer.fill
      (spoilt.fill spilling).source).result.chunk = .ok (some [2, 3]) := by
    rw [fill_eq_some, capacity_fill, show (spoilt.fill spilling).source = _ from hsource]
    exact ⟨hchunk.eq_gather.1, by decide⟩
  obtain ⟨-, hplaced, hserved⟩ := chunks_of_fills spoilt (by decide) spilling 2
  have hbehind := hplaced [_] _ [] rfl
  have htaken : portion ((spoilt.fill spilling).result.buffer.fill
      (spoilt.fill spilling).source) = [2, 3] := by
    rw [portion, hkept]
  simp only [fills, List.flatMap_cons, List.flatMap_nil, List.append_nil] at hserved
  rw [hportion, htaken] at hserved
  rw [htaken] at hbehind
  exact ⟨by decide, _, _, rfl, hlost, hportion, hkept, hserved, by simpa using hbehind⟩

end TransportStream.ChunkBuffer
