import TransportStream.Proofs.Reader.Reachable
import TransportStream.Proofs.Source.Candid
import TransportStream.Sample

/-!
# Where packets begin

On a candid source packet `index` begins at `index * packetSize` plus the bytes that
failed chunks have discarded before it was queued (`queued_at_offset`).
-/
namespace TransportStream

/-- The bytes that a request brought. -/
def Request.served : Request → Nat
  | .read _ _ (.ok bytes) => bytes.length
  | _ => 0

/-- The bytes that a list of requests brought. -/
def Request.servedIn : List Request → Nat
  | [] => 0
  | request :: later => request.served + servedIn later

theorem Source.servedIn_gather (s : Source) (wanted : Nat) :
    Request.servedIn (s.gather wanted).requests = (s.gather wanted).result.bytes.length := by
  fun_induction gather s wanted with
  | case1 | case2 | case5 => rfl
  | case3 s wanted hw b bs h ih =>
    simp only [Exchange.result_after, Exchange.result_map, Intake.bytes_prepend,
      List.length_append, ← ih]
    rfl
  | case4 s wanted hw fault h hf ih =>
    rw [Exchange.result_after, ← ih]
    exact Nat.zero_add _

/-- A chunk read in full is a whole number of packets; a shorter one was the last. -/
theorem Bytes.drop_slices {size count : Nat} (hs : 0 < size) (h : size ∣ count)
    (bytes : Bytes) :
    bytes.drop ((slices size (bytes.take count)).length * size) = bytes.drop count := by
  rw [length_slices hs, List.length_take]
  rcases Nat.le_total count bytes.length with hle | hle
  · obtain ⟨pieces, rfl⟩ := h
    rw [Nat.min_eq_left hle, Nat.add_sub_assoc hs, Nat.mul_add_div hs,
      Nat.div_eq_of_lt (Nat.sub_lt hs Nat.one_pos), Nat.add_zero, Nat.mul_comm]
  · have hround : bytes.length ≤ (bytes.length + size - 1) / size * size := by
      have hmod := Nat.div_add_mod (bytes.length + size - 1) size
      have hlt := Nat.mod_lt (bytes.length + size - 1) hs
      rw [Nat.mul_comm] at hmod
      omega
    rw [Nat.min_eq_right hle, List.drop_eq_nil_of_le hround, List.drop_eq_nil_of_le hle]

namespace Task
variable {first size : Nat} {chunk : Bytes} {task : Task}

/-- The tasks of a chunk, each with its number and its piece. -/
theorem of_getElem?_ofChunk (hs : 0 < size) {i : Nat}
    (h : (ofChunk first size chunk)[i]? = some task) :
    i * size < chunk.length ∧ task = ⟨first + i, size, (chunk.drop (i * size)).take size⟩ := by
  rw [ofChunk, List.getElem?_mapIdx, Bytes.getElem?_slices hs] at h
  by_cases hlt : i * size < chunk.length
  · rw [if_pos hlt] at h
    exact ⟨hlt, (Option.some.inj h).symm⟩
  · rw [if_neg hlt] at h
    cases h

theorem mem_ofChunk (hs : 0 < size) (h : task ∈ ofChunk first size chunk) :
    ∃ i, i * size < chunk.length ∧
      task = ⟨first + i, size, (chunk.drop (i * size)).take size⟩ := by
  obtain ⟨i, hi⟩ := List.mem_iff_getElem?.mp h
  exact ⟨i, of_getElem?_ofChunk hs hi⟩

end Task

namespace Step
variable {P E : Type}

/-- The bytes taken by a call that then failed. They are gone from the source. -/
def discarded (step : Step P E) : Nat :=
  if step.item.any Outcome.isFatal then Request.servedIn step.requests else 0

end Step

namespace Reader
variable {P E : Type}

/-- The tasks that the next call puts in line: none while any are waiting. -/
def queuedNext (r : Reader P E) : List Task :=
  if r.pending = 0 then r.refill.reader.backlog.slots.map (·.task) else []

/-- The bytes discarded in a run of `count` calls. -/
def discarded : Nat → Reader P E → Nat
  | 0, _ => 0
  | count + 1, r => r.next.discarded + discarded count r.next.reader

section
variable {r : Reader P E}

theorem queuedNext_of_intake (hs : r.backlog.slots = []) (hf : r.intake.result.fault = none) :
    r.queuedNext = r.cut := by
  have hp : r.pending = 0 := List.length_eq_zero_iff.mpr hs
  rw [queuedNext, if_pos hp]
  by_cases hb : r.intake.result.bytes = []
  · simp [refill_of_end hf hb, received, hs, cut, hb]
  · rw [refill_of_bytes hf hb]
    simp [refilled, queue, received, Backlog.submit, hs, Function.comp_def]

theorem mem_queuedNext {task : Task} (h : task ∈ r.queuedNext) :
    r.intake.result.fault = none ∧ task ∈ r.cut := by
  have hp : r.pending = 0 := by
    refine Decidable.byContradiction fun hp => ?_
    rw [queuedNext, if_neg hp] at h
    cases h
  have hs : r.backlog.slots = [] := List.length_eq_zero_iff.mp hp
  cases hf : r.intake.result.fault with
  | none => exact ⟨rfl, queuedNext_of_intake hs hf ▸ h⟩
  | some fault =>
    rw [queuedNext, if_pos hp, refill_of_fault hf] at h
    simp [received, hs] at h

/-- A failed call discards all that its read loop took. -/
theorem discarded_of_fault {fault : Fault} (hs : r.backlog.slots = [])
    (hf : r.intake.result.fault = some fault) :
    r.next.discarded = r.intake.result.bytes.length := by
  rw [next_of_call (.fault hs hf)]
  exact r.source.servedIn_gather r.chunkLength

end

/-- The source stands where the next packet begins: behind the packets queued
so far and the bytes discarded. -/
structure Stands (data : Bytes) (size lost : Nat) (r : Reader P E) : Prop where
  packetSize : r.packetSize = size
  whole : size ∣ r.chunkLength
  candid : r.source.Candid
  rest : r.source.rest = data.drop (r.backlog.nextIndex * size + lost)

namespace Stands
variable {data : Bytes} {size lost : Nat} {r : Reader P E}

theorem size_pos (h : Stands data size lost r) : 0 < size :=
  h.packetSize ▸ r.framing.packetSize_pos

theorem received (h : Stands data size lost r) :
    Stands data size (lost + r.intake.result.bytes.length) r.received where
  packetSize := h.packetSize
  whole := h.whole
  candid := h.candid.gather _
  rest := by
    have hrest : r.source.rest = r.intake.result.bytes ++ r.received.source.rest :=
      r.source.gather_rest r.chunkLength
    calc r.received.source.rest
        = r.source.rest.drop r.intake.result.bytes.length := by rw [hrest, List.drop_left]
      _ = data.drop (r.backlog.nextIndex * size + (lost + r.intake.result.bytes.length)) := by
          rw [h.rest, List.drop_drop, Nat.add_assoc]

theorem bytes_intake (h : Stands data size lost r) (hf : r.intake.result.fault = none) :
    r.intake.result.bytes = r.source.rest.take r.chunkLength :=
  h.candid.bytes_gather hf

theorem refilled (h : Stands data size lost r) (hf : r.intake.result.fault = none) :
    Stands data size lost r.refilled where
  packetSize := h.packetSize
  whole := h.whole
  candid := h.candid.gather _
  rest := by
    have hcut : r.cut.length = (r.intake.result.bytes.slices size).length := by
      rw [cut, Task.length_ofChunk, h.packetSize]
    have hindex : r.refilled.backlog.nextIndex = r.backlog.nextIndex + r.cut.length := rfl
    calc r.refilled.source.rest
        = r.source.rest.drop r.chunkLength := h.candid.rest_gather hf
      _ = r.source.rest.drop (r.cut.length * size) := by
          rw [hcut, h.bytes_intake hf, Bytes.drop_slices h.size_pos h.whole]
      _ = data.drop (r.refilled.backlog.nextIndex * size + lost) := by
          rw [h.rest, List.drop_drop, hindex, Nat.add_mul]
          congr 1
          omega

theorem dropFirst (h : Stands data size lost r) : Stands data size lost r.dropFirst :=
  ⟨h.packetSize, h.whole, h.candid, h.rest⟩

theorem next (h : Stands data size lost r) :
    Stands data size (lost + r.next.discarded) r.next.reader := by
  have hcall := r.call_next
  generalize r.next = step at hcall
  cases hcall with
  | deliver hs =>
    simp only [Step.discarded, Request.servedIn, ite_self]
    exact h.dropFirst
  | fault hs hf =>
    have hdiscarded := discarded_of_fault hs hf
    rw [next_of_call (.fault hs hf)] at hdiscarded
    rw [hdiscarded]
    exact h.received
  | finish hs hf hb =>
    have hreceived := h.received
    rw [hb] at hreceived
    exact hreceived
  | refill hs hf hb =>
    simp only [Step.discarded, Option.any_some, Outcome.isFatal_ofSlice, Bool.false_eq_true,
      if_false]
    exact (h.refilled hf).dropFirst

theorem afterCalls (h : Stands data size lost r) (count : Nat) :
    Stands data size (lost + r.discarded count) (r.afterCalls count) := by
  induction count generalizing r lost with
  | zero => exact h
  | succ count ih =>
    have hlater := ih h.next
    rw [Nat.add_assoc] at hlater
    exact hlater

/-- Every task, also an incomplete one, has the bytes that stand at its place. -/
theorem bytes_queued (h : Stands data size lost r) {task : Task} (ht : task ∈ r.queuedNext) :
    task.expected = size ∧
      task.bytes = (data.drop (task.index * size + lost)).take size := by
  obtain ⟨hf, hcut⟩ := mem_queuedNext ht
  have hbytes := h.bytes_intake hf
  rw [cut, h.packetSize] at hcut
  obtain ⟨i, hi, rfl⟩ := Task.mem_ofChunk h.size_pos hcut
  refine ⟨rfl, ?_⟩
  have hroom : size ≤ r.chunkLength - i * size := by
    obtain ⟨pieces, hwhole⟩ := h.whole
    rw [hbytes, List.length_take] at hi
    have hlt : i * size < pieces * size := by
      rw [Nat.mul_comm pieces, ← hwhole]
      omega
    have hle : (i + 1) * size ≤ pieces * size :=
      Nat.mul_le_mul_right size (Nat.lt_of_mul_lt_mul_right hlt)
    rw [Nat.mul_comm pieces, ← hwhole, Nat.add_one_mul] at hle
    omega
  calc (r.intake.result.bytes.drop (i * size)).take size
      = (r.source.rest.drop (i * size)).take size := by
        rw [hbytes, List.drop_take, List.take_take, Nat.min_eq_left hroom]
    _ = (data.drop ((r.backlog.nextIndex + i) * size + lost)).take size := by
        rw [h.rest, List.drop_drop, Nat.add_mul]
        congr 2
        omega

end Stands

theorem stands_start {settings : Settings} {s : Source} {size : Nat} (decoder : Decoder P E)
    (hsize : 0 < size) (hstart : s.position = 0) (hs : s.Candid) :
    Stands s.data size 0 (start settings decoder ⟨size, hsize, none⟩ s) where
  packetSize := rfl
  whole := ⟨settings.chunkPackets, rfl⟩
  candid := hs
  rest := by
    rw [show (start settings decoder ⟨size, hsize, none⟩ s).source.rest =
      s.data.drop s.position from rfl, hstart]
    exact congrArg s.data.drop (Nat.zero_mul size).symm

/-- On a candid source, however often it fails, the packet with number `index`
is cut from the data at `index * packetSize` plus the bytes that failed calls
had discarded by then. As long as these make up whole packets, every complete
packet is one of those that the stream is made of. -/
theorem queued_at_offset {workers : Workers} {settings : Settings} {decoder : Decoder P E}
    {s : Source} {r : Reader P E}
    (h : (ofSource workers settings decoder s).result = .ok r) (hsize : 0 < settings.packetSize)
    (hstart : s.position = 0) (hs : s.Candid) (count : Nat) :
    ∀ task ∈ (r.afterCalls count).queuedNext,
      task.expected = settings.packetSize ∧
      task.bytes = (s.data.drop (task.index * settings.packetSize + r.discarded count)).take
        settings.packetSize ∧
      (settings.packetSize ∣ r.discarded count → task.isTruncated = false →
        ∃ j, (j + 1) * settings.packetSize ≤ s.data.length ∧
          task.bytes = (s.data.drop (j * settings.packetSize)).take settings.packetSize) := by
  obtain ⟨-, framing, hlocate, -, rfl⟩ := start_of_ofSource h
  rw [Framing.locate_of_given hsize] at hlocate ⊢
  obtain rfl := Except.ok.inj hlocate
  intro task ht
  have hstands := (@stands_start _ _ settings _ _ decoder hsize hstart hs).afterCalls count
  rw [Nat.zero_add] at hstands
  obtain ⟨hexpected, hbytes⟩ := hstands.bytes_queued ht
  refine ⟨hexpected, hbytes, ?_⟩
  rintro ⟨packets, hwhole⟩ hfull
  have hplace : (task.index + packets) * settings.packetSize =
      task.index * settings.packetSize +
        (start settings decoder ⟨settings.packetSize, hsize, none⟩ s).discarded count := by
    rw [Nat.add_mul, Nat.mul_comm packets]
    exact congrArg _ hwhole.symm
  rw [← hplace] at hbytes
  refine ⟨task.index + packets, ?_, hbytes⟩
  have hlength := congrArg List.length hbytes
  rw [List.length_take, List.length_drop] at hlength
  have hcomplete : settings.packetSize ≤ task.bytes.length := by
    rw [← hexpected]
    exact Nat.le_of_not_lt (of_decide_eq_false hfull)
  rw [Nat.add_one_mul]
  omega

/-- One byte of the first packet is served, and then a fault is met. -/
def stumbling : Source where
  data := [0x47, 1, 0x47, 2]
  answers := [.serve 1, .fail ⟨.brokenPipe, "gone"⟩]

def stumblingReader : Reader Nat PacketDefect :=
  start { packetSize := 2, chunkPackets := 1 } (Sample.tagDecoder none) ⟨2, Nat.two_pos, none⟩
    stumbling

theorem opened_stumbling :
    (ofSource .borrowed { packetSize := 2, chunkPackets := 1 } (Sample.tagDecoder none)
      stumbling).result = .ok stumblingReader :=
  ofSource_of_given (Sample.tagDecoder none) rfl (by decide) (by decide)

/-- What the first call leaves: its byte is gone from the source. -/
def stumbled : Reader Nat PacketDefect :=
  { stumblingReader with
    source := { stumbling with position := 1, answers := [] }
    buffer := ⟨2, [0x47]⟩ }

theorem afterCalls_stumbling :
    stumblingReader.afterCalls 1 = stumbled ∧ stumblingReader.discarded 1 = 1 := by
  have hreads : Source.Reads stumbling 2 ([0x47] ++ []) (some ⟨.brokenPipe, "gone"⟩)
      { stumbling with position := 1, answers := [] } :=
    .served (by decide) (by decide) rfl (.failed (by decide) (by decide) rfl)
  have hresult : stumblingReader.intake.result = ⟨[0x47], some ⟨.brokenPipe, "gone"⟩⟩ :=
    hreads.eq_gather.1
  refine ⟨(@next_of_failing _ _ stumblingReader _ _ _ rfl hreads).2, ?_⟩
  have hdiscarded := discarded_of_fault rfl (congrArg Intake.fault hresult)
  rw [hresult] at hdiscarded
  rw [discarded, hdiscarded]
  rfl

/-- The next call queues the end of one packet with the start of the next. -/
theorem queuedNext_stumbled : stumbled.queuedNext = [⟨0, 2, [1, 0x47]⟩] := by
  have hreads : Source.Reads { stumbling with position := 1, answers := [] } 2
      ([1, 0x47] ++ []) none { stumbling with position := 3, answers := [] } :=
    .served (by decide) (by decide) rfl (.full _)
  have hresult : stumbled.intake.result = ⟨[1, 0x47], none⟩ := hreads.eq_gather.1
  have hslices : Bytes.slices 2 [1, 0x47] = [[1, 0x47]] := by simp [@Bytes.slices_of_ne_nil 2]
  rw [queuedNext_of_intake rfl (congrArg Intake.fault hresult), cut, hresult, Task.ofChunk,
    show stumbled.packetSize = 2 from rfl, hslices]
  rfl

theorem queued_at_offset_stumbling :
    0 < 2 ∧ stumbling.position = 0 ∧ stumbling.Candid ∧
      ∀ task ∈ (stumblingReader.afterCalls 1).queuedNext,
        task.bytes = (stumbling.data.drop (task.index * 2 + 1)).take 2 := by
  refine ⟨by decide, rfl, by decide, fun task ht => ?_⟩
  have hbytes := (queued_at_offset opened_stumbling (by decide) rfl (by decide) 1 task ht).2.1
  rw [afterCalls_stumbling.2] at hbytes
  exact hbytes

/-- A call that failed in the middle of a packet moves a later complete packet
off the boundaries of the stream. -/
theorem queued_off_boundary :
    (ofSource .borrowed { packetSize := 2, chunkPackets := 1 } (Sample.tagDecoder none)
        stumbling).result = .ok stumblingReader ∧
      stumbling.position = 0 ∧ stumbling.Candid ∧
      ∃ task ∈ (stumblingReader.afterCalls 1).queuedNext,
        task.expected = 2 ∧ task.isTruncated = false ∧
          ∀ j, task.bytes ≠ (stumbling.data.drop (j * 2)).take 2 := by
  refine ⟨opened_stumbling, rfl, by decide, ⟨0, 2, [1, 0x47]⟩, ?_, rfl, by decide, ?_⟩
  · rw [afterCalls_stumbling.1, queuedNext_stumbled]
    exact List.mem_singleton_self _
  · intro j
    match j with
    | 0 => decide
    | 1 => decide
    | j + 2 =>
      have hend : stumbling.data.drop ((j + 2) * 2) = [] :=
        List.drop_eq_nil_of_le (by simp only [stumbling, List.length_cons, List.length_nil]; omega)
      rw [hend]
      decide

end Reader

end TransportStream
