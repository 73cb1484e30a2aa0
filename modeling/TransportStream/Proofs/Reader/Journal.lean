import TransportStream.Proofs.Reader.Alignment
import TransportStream.Proofs.Reader.Due
import Mathlib.Algebra.Ring.Nat

/-!
# What the notes of a run tell

The notes about chunks add up to the tally. The warnings are, in order, the incomplete
packets among the items given so far and those still in line (`Journaled`).
-/
namespace TransportStream
variable {P E : Type}

/-- An incomplete packet, with its own length and that of a whole one. -/
structure Truncation where
  index : Nat
  length : Nat
  expected : Nat
  deriving DecidableEq, Repr

namespace Note

/-- The bytes and the packets of a chunk. -/
def chunk? : Note → Option (Nat × Nat)
  | .refilled bytes packets => some (bytes, packets)
  | .workersStarted _ | .detected _ | .truncated _ _ _ | .passedOver _ => none

def truncation? : Note → Option Truncation
  | .truncated index length expected => some ⟨index, length, expected⟩
  | .workersStarted _ | .detected _ | .refilled _ _ | .passedOver _ => none

theorem of_level_debug {note : Note} (h : note.level = .debug) :
    note.chunk? = none ∧ note.truncation? = none := by
  cases note with
  | workersStarted | detected | passedOver => exact ⟨rfl, rfl⟩
  | truncated | refilled => cases h

/-- What is to be read of a log at one level. -/
def texts (level : Level) (log : List Note) : List String :=
  (log.filter (·.level = level)).map (·.message)

/-- At the lowest level a log tells of chunks and of nothing else. -/
theorem texts_trace (log : List Note) :
    texts .trace log = (log.filterMap chunk?).map fun chunk =>
      s!"refill read {chunk.1} bytes, dispatched {chunk.2} packets" := by
  induction log with
  | nil => rfl
  | cons note later ih =>
    cases note with
    | refilled bytes packets => exact congrArg (message (.refilled bytes packets) :: ·) ih
    | workersStarted | detected | truncated | passedOver => exact ih

/-- What a log warns of is incomplete packets. -/
theorem texts_warning (log : List Note) :
    texts .warning log = (log.filterMap truncation?).map fun met =>
      s!"packet {met.index} truncated at end of stream ({met.length} of {met.expected} bytes)" := by
  induction log with
  | nil => rfl
  | cons note later ih =>
    cases note with
    | truncated index length expected =>
      exact congrArg (message (.truncated index length expected) :: ·) ih
    | workersStarted | detected | refilled | passedOver => exact ih

end Note

namespace Outcome

def truncation? : Outcome P E → Option Truncation
  | .error (.truncated index length expected) => some ⟨index, length, expected⟩
  | .error (.invalidSettings _) | .error (.rejected _) | .error (.io _ _)
  | .error (.undecodable _ _) | .error (.workerLost _) | .ok _ => none

end Outcome

namespace Task

/-- The worker finds incomplete what the warning has told, and nothing else. -/
theorem truncation?_outcome (decoder : Decoder P E) (task : Task) :
    (task.outcome decoder).truncation? =
      if task.isTruncated then some ⟨task.index, task.bytes.length, task.expected⟩ else none := by
  split
  · rename_i ht
    rw [outcome_of_truncated ht]
    rfl
  · rename_i ht
    rw [outcome_eq_ofSlice, Outcome.ofSlice, if_neg (mt isTruncated_iff.mpr ht)]
    cases decoder task.bytes <;> rfl

theorem truncations_notes (decoder : Decoder P E) (tasks : List Task) :
    (notes tasks).filterMap Note.truncation? =
      (tasks.map (·.outcome decoder)).filterMap Outcome.truncation? := by
  induction tasks with
  | nil => rfl
  | cons task later ih =>
    rw [List.map_cons, List.filterMap_cons, truncation?_outcome, ← ih]
    unfold notes
    cases ht : task.isTruncated with
    | true => rw [List.filter_cons_of_pos ht]; rfl
    | false => rw [List.filter_cons_of_neg (by simp [ht])]; rfl

theorem chunks_notes (tasks : List Task) : (notes tasks).filterMap Note.chunk? = [] := by
  unfold notes
  rw [List.filterMap_map]
  exact List.filterMap_eq_nil_iff.mpr fun _ _ => rfl

end Task

/-- All that is noted from the opening of a reader to the end of a run. -/
def Opening.log (opening : Opening P E) (run : List (Step P E)) : List Note :=
  opening.notes ++ run.flatMap (·.notes)

namespace Reader

/-- What the slots in line will deliver, oldest first. -/
def awaited (r : Reader P E) : List (Outcome P E) := r.backlog.slots.map (·.await r.decoder)

/-- What is noted of a chunk that has been read. -/
def chunkNotes (r : Reader P E) : List Note :=
  Task.notes r.cut ++ [.refilled r.intake.result.bytes.length r.cut.length]

/-- A log, held against the items that calls have given while it was written and
the reader that they have left. -/
structure Journaled (log : List Note) (items : List (Outcome P E)) (r : Reader P E) : Prop where
  chunks : (log.filterMap Note.chunk?).length = r.tally.chunksRead
  bytes : ((log.filterMap Note.chunk?).map (·.1)).sum = r.tally.bytesRead
  packets : ((log.filterMap Note.chunk?).map (·.2)).sum = r.tally.dispatched
  /-- What was warned of has been given or is in line. -/
  truncations : log.filterMap Note.truncation? =
    (items ++ r.awaited).filterMap Outcome.truncation?
  expected : ∀ met ∈ log.filterMap Note.truncation?, met.expected = r.packetSize

section
variable {r : Reader P E} {log : List Note} {items : List (Outcome P E)} {outcome : Outcome P E}

theorem awaited_refilled (r : Reader P E) :
    r.refilled.awaited = r.awaited ++ r.cut.map (·.outcome r.decoder) := by
  have hslots : r.refilled.backlog.slots =
      r.backlog.slots ++ r.cut.map (⟨·, none⟩) := rfl
  rw [awaited, hslots, List.map_append, List.map_map]
  rfl

theorem chunks_chunkNotes (r : Reader P E) :
    r.chunkNotes.filterMap Note.chunk? = [(r.intake.result.bytes.length, r.cut.length)] := by
  rw [chunkNotes, List.filterMap_append, Task.chunks_notes]
  rfl

theorem truncations_chunkNotes (r : Reader P E) :
    r.chunkNotes.filterMap Note.truncation? =
      (r.cut.map (·.outcome r.decoder)).filterMap Outcome.truncation? := by
  rw [chunkNotes, List.filterMap_append, Task.truncations_notes r.decoder]
  exact List.append_nil _

theorem expected_of_mem_chunkNotes {met : Truncation}
    (h : met ∈ r.chunkNotes.filterMap Note.truncation?) : met.expected = r.packetSize := by
  rw [truncations_chunkNotes] at h
  obtain ⟨outcome, hmem, hmet⟩ := List.mem_filterMap.mp h
  obtain ⟨task, htask, rfl⟩ := List.mem_map.mp hmem
  obtain ⟨i, -, rfl⟩ := Task.mem_ofChunk r.packetSize_pos htask
  rw [Task.truncation?_outcome] at hmet
  split at hmet
  · exact Option.some.inj hmet ▸ rfl
  · cases hmet

theorem truncation?_of_isFatal (h : Outcome.isFatal outcome = true) :
    outcome.truncation? = none := by
  cases outcome with
  | ok packet => rfl
  | error e =>
    cases e with
    | invalidSettings | rejected | io | undecodable | workerLost => rfl
    | truncated => cases h

theorem items_cons (step : Step P E) (run : List (Step P E)) :
    Reader.items (step :: run) = step.item.toList ++ Reader.items run := by
  unfold Reader.items
  cases hitem : step.item with
  | none => rw [List.filterMap_cons_none hitem, Option.toList_none, List.nil_append]
  | some item => rw [List.filterMap_cons_some hitem, Option.toList_some, List.singleton_append]

theorem notes_refill (h : ∀ n, r.refill.queued ≠ .ok (n + 1)) : r.refill.notes = [] := by
  cases hf : r.intake.result.fault with
  | some fault => rw [refill_of_fault hf]
  | none =>
    by_cases hb : r.intake.result.bytes = []
    · rw [refill_of_end hf hb]
    · obtain ⟨later, hcut⟩ := cut_of_bytes hb
      refine absurd ?_ (h later.length)
      rw [refill_of_bytes hf hb, hcut, List.length_cons]

/-- Only a call that has read a chunk notes anything, and it delivers from it. -/
theorem notes_of_isLast (h : r.next.isLast = true) : r.next.notes = [] := by
  have hcall := r.call_next
  generalize r.next = step at hcall h
  cases hcall with
  | deliver | fault | finish => rfl
  | refill =>
    rw [isLast_of_item rfl, Outcome.isFatal_ofSlice] at h
    cases h

namespace Journaled

theorem received (h : Journaled log items r) : Journaled log items r.received :=
  ⟨h.chunks, h.bytes, h.packets, h.truncations, h.expected⟩

/-- A fault is no incomplete packet. -/
theorem fault (h : Journaled log items r) (hs : r.backlog.slots = [])
    (hfatal : Outcome.isFatal outcome = true) : Journaled log (items ++ [outcome]) r := by
  refine ⟨h.chunks, h.bytes, h.packets, ?_, h.expected⟩
  have htruncations := h.truncations
  rw [awaited, hs, List.map_nil, List.append_nil] at htruncations ⊢
  rw [htruncations, List.filterMap_append,
    List.filterMap_cons_none (truncation?_of_isFatal hfatal), List.filterMap_nil,
    List.append_nil]

theorem dropFirst (h : Journaled log items r) {later : List (Outcome P E)}
    (hawaited : r.awaited = outcome :: later) :
    Journaled log (items ++ [outcome]) r.dropFirst := by
  refine ⟨h.chunks, h.bytes, h.packets, ?_, h.expected⟩
  have hlater : r.dropFirst.awaited = later := by
    rw [show r.dropFirst.awaited = r.awaited.tail from List.map_tail, hawaited, List.tail_cons]
  rw [h.truncations, hlater, hawaited, List.append_assoc, List.singleton_append]

/-- A chunk is noted as it is counted, and its incomplete packet as it is queued. -/
theorem refilled (h : Journaled log items r) :
    Journaled (log ++ r.chunkNotes) items r.refilled := by
  constructor
  · rw [List.filterMap_append, chunks_chunkNotes, List.length_append, h.chunks]
    rfl
  · rw [List.filterMap_append, chunks_chunkNotes, List.map_append, List.sum_append, h.bytes]
    rfl
  · rw [List.filterMap_append, chunks_chunkNotes, List.map_append, List.sum_append, h.packets]
    rfl
  · rw [List.filterMap_append, truncations_chunkNotes, h.truncations, ← List.filterMap_append,
      awaited_refilled, List.append_assoc]
  · intro met hmem
    rw [List.filterMap_append] at hmem
    rcases List.mem_append.mp hmem with hbefore | hnew
    · exact h.expected met hbefore
    · have hsize : met.expected = r.packetSize := expected_of_mem_chunkNotes hnew
      exact hsize

theorem next (h : Journaled log items r) :
    Journaled (log ++ r.next.notes) (items ++ r.next.item.toList) r.next.reader := by
  have hcall := r.call_next
  generalize r.next = step at hcall
  cases hcall with
  | @deliver slot later hs =>
    have hawaited : r.awaited = slot.await r.decoder :: later.map (·.await r.decoder) := by
      rw [awaited, hs, List.map_cons]
    rw [List.append_nil]
    exact h.dropFirst hawaited
  | fault hs hf =>
    rw [List.append_nil]
    exact h.received.fault hs rfl
  | finish hs hf hb =>
    rw [List.append_nil, Option.toList_none, List.append_nil]
    exact h.received
  | refill hs hf hb =>
    obtain ⟨later, hcut⟩ := cut_of_bytes hb
    have hawaited : r.refilled.awaited = Outcome.ofSlice r.decoder r.packetSize
        r.backlog.nextIndex (r.intake.result.bytes.take r.packetSize) ::
          later.map (·.outcome r.decoder) := by
      rw [awaited_refilled, awaited, hs, hcut, List.map_nil, List.nil_append, List.map_cons,
        Task.outcome_eq_ofSlice]
    exact h.refilled.dropFirst hawaited

theorem finish (h : Journaled log items r) (place : Nat) :
    Journaled log items (r.finish place) where
  chunks := h.chunks
  bytes := h.bytes
  packets := h.packets
  truncations := by
    rw [show (r.finish place).awaited = r.awaited from r.awaited_finish place]
    exact h.truncations
  expected := h.expected

theorem finished (h : Journaled log items r) (places : List Nat) :
    Journaled log items (places.foldl Reader.finish r) := by
  induction places generalizing r with
  | nil => exact h
  | cons place later ih => exact ih (h.finish place)

theorem scheduled (h : Journaled log items r) (schedule : List (List Nat)) :
    Journaled (log ++ (r.scheduled schedule).flatMap (·.notes))
      (items ++ Reader.items (r.scheduled schedule)) (r.afterSteps (r.scheduled schedule)) := by
  induction schedule generalizing r log items with
  | nil =>
    rw [Reader.scheduled, List.flatMap_nil, Reader.items, List.filterMap_nil, List.append_nil,
      List.append_nil]
    exact h
  | cons places later ih =>
    have hlater := ih (h.finished places).next
    rw [List.append_assoc, List.append_assoc] at hlater
    rw [Reader.scheduled, afterSteps_cons, List.flatMap_cons, items_cons]
    exact hlater

end Journaled

theorem exists_next_of_mem {schedule : List (List Nat)} {step : Step P E}
    (h : step ∈ r.scheduled schedule) : ∃ r' : Reader P E, step = r'.next := by
  induction schedule generalizing r with
  | nil => cases h
  | cons places later ih =>
    rcases List.mem_cons.mp h with rfl | hlater
    · exact ⟨_, rfl⟩
    · exact ih hlater

end

section
variable {workers : Workers} {settings : Settings} {decoder : Decoder P E} {s : Source}

/-- Opening tells of workers and of a measured packet size, and of nothing else. -/
theorem level_of_mem_opening {note : Note}
    (h : note ∈ (ofSource workers settings decoder s).notes) : note.level = .debug := by
  have hworkers : ∀ note ∈ workers.notes settings, note.level = .debug := by
    cases workers <;> simp [Workers.notes, Note.level]
  cases hcheck : workers.check settings with
  | error fault => simp [ofSource, hcheck] at h
  | ok _ =>
    cases hl : (Framing.locate settings.packetSize s).result with
    | error e =>
      simp only [ofSource, hcheck, hl] at h
      exact hworkers note h
    | ok framing =>
      simp only [ofSource, hcheck, hl] at h
      rcases List.mem_append.mp h with hmem | hmem
      · exact hworkers note hmem
      · obtain ⟨d, -, rfl⟩ := List.mem_map.mp hmem
        rfl

theorem journaled_start {log : List Note} {framing : Framing}
    (hlog : ∀ note ∈ log, note.level = .debug) :
    Journaled log [] (start settings decoder framing s) := by
  have hchunks : log.filterMap Note.chunk? = [] :=
    List.filterMap_eq_nil_iff.mpr fun note hmem => (Note.of_level_debug (hlog note hmem)).1
  have htruncations : log.filterMap Note.truncation? = [] :=
    List.filterMap_eq_nil_iff.mpr fun note hmem => (Note.of_level_debug (hlog note hmem)).2
  constructor
  · exact congrArg List.length hchunks
  · rw [hchunks]
    rfl
  · rw [hchunks]
    rfl
  · exact htruncations
  · rw [htruncations]
    exact fun _ hmem => absurd hmem List.not_mem_nil

theorem journaled_ofSource {opened : Reader P E}
    (h : (ofSource workers settings decoder s).result = .ok opened) :
    Journaled (ofSource workers settings decoder s).notes [] opened := by
  obtain ⟨-, framing, -, -, rfl⟩ := start_of_ofSource h
  exact journaled_start fun _ => level_of_mem_opening

/-- The log of a run, written while a reader was opened and called any number of
times, whatever its workers did in between, agrees with its totals, with what it has
given and with what it still holds. Refills that fail or find the end leave no trace
in it. -/
theorem journal_of_run {opened : Reader P E}
    (h : (ofSource workers settings decoder s).result = .ok opened)
    (schedule : List (List Nat)) :
    let run := opened.scheduled schedule
    let log := (ofSource workers settings decoder s).log run
    let r := opened.afterSteps run
    Journaled log (items run) r ∧
    (r.pending = 0 → log.filterMap Note.truncation? =
      (items run).filterMap Outcome.truncation?) ∧
    (Note.texts .trace log = (log.filterMap Note.chunk?).map fun chunk =>
      s!"refill read {chunk.1} bytes, dispatched {chunk.2} packets") ∧
    (Note.texts .warning log = (log.filterMap Note.truncation?).map fun met =>
      s!"packet {met.index} truncated at end of stream ({met.length} of {met.expected} bytes)") ∧
    (∀ step ∈ run, step.isLast = true → step.notes = []) ∧
    ∀ r : Reader P E, (∀ n, r.refill.queued ≠ .ok (n + 1)) → r.refill.notes = [] := by
  intro run log r
  have hjournaled : Journaled log (items run) r := (journaled_ofSource h).scheduled schedule
  refine ⟨hjournaled, ?_, Note.texts_trace log, Note.texts_warning log, ?_,
    fun _ => notes_refill⟩
  · intro hpending
    have hnothing : r.awaited = [] := List.map_eq_nil_iff.mpr (List.length_eq_zero_iff.mp hpending)
    rw [hjournaled.truncations, hnothing, List.append_nil]
  · intro step hmem hlast
    obtain ⟨r', rfl⟩ := exists_next_of_mem hmem
    exact notes_of_isLast hlast

end

/-- A packet and a half. -/
def broken : Source := .ofBytes [0x47, 0, 0x47]

def brokenReader : Reader Nat PacketDefect :=
  start { packetSize := 2, chunkPackets := 2 } (Sample.tagDecoder none) ⟨2, Nat.two_pos, none⟩
    broken

theorem next_brokenReader :
    brokenReader.next.item = some (.error (.workerLost 0)) ∧
      brokenReader.next.reader = { brokenReader with
        source := { broken with position := 3 }
        buffer := ⟨4, [0x47, 0, 0x47]⟩
        backlog := ⟨[⟨⟨1, 2, [0x47]⟩, none⟩], 2⟩
        tally := ⟨3, 1, 2, 1⟩ } := by
  have hreads : Source.Reads broken 4 ([0x47, 0, 0x47] ++ []) none { broken with position := 3 } :=
    .served (by decide) (by decide) rfl (.ended (by decide) rfl)
  have hslices : Bytes.slices 2 [0x47, 0, 0x47] = [[0x47, 0], [0x47]] := by
    simp [@Bytes.slices_of_ne_nil 2]
  have hqueued : Task.ofChunk 0 2 [0x47, 0, 0x47] = [⟨0, 2, [0x47, 0]⟩, ⟨1, 2, [0x47]⟩] := by
    rw [Task.ofChunk, hslices]
    rfl
  obtain ⟨hitem, hreader⟩ := @next_of_chunk _ _ brokenReader _ _ _ _ rfl hreads hslices
  refine ⟨hitem, hreader.trans ?_⟩
  exact congrArg (fun tasks => ({ brokenReader with
    source := { broken with position := 3 }
    buffer := ⟨4, [0x47, 0, 0x47]⟩ }.queue [0x47, 0, 0x47] tasks).dropFirst) hqueued

theorem journal_of_run_broken :
    let opening := ofSource .borrowed { packetSize := 2, chunkPackets := 2 }
      (Sample.tagDecoder none) broken
    let log := opening.log (brokenReader.scheduled [[]])
    opening.result = .ok brokenReader ∧
      Note.texts .warning log = ["packet 1 truncated at end of stream (1 of 2 bytes)"] ∧
      ∃ chunk : Nat × Nat, log.filterMap Note.chunk? = [chunk] ∧ chunk.1 = 3 ∧ chunk.2 = 2 := by
  intro opening log
  have hopen : opening.result = .ok brokenReader :=
    ofSource_of_given (Sample.tagDecoder none) rfl (by decide) (by decide)
  obtain ⟨hjournaled, -, -, hwarning, -⟩ := journal_of_run hopen [[]]
  obtain ⟨hitem, hreader⟩ := next_brokenReader
  have hitems : items (brokenReader.scheduled [[]]) = [.error (.workerLost 0)] := by
    rw [items, scheduled, scheduled, List.foldl_nil, List.filterMap_cons_some hitem]
    rfl
  have hleft : brokenReader.afterSteps (brokenReader.scheduled [[]]) = brokenReader.next.reader :=
    rfl
  rw [hitems, hleft, hreader] at hjournaled
  refine ⟨hopen, ?_, ?_⟩
  · rw [show Note.texts .warning log = _ from hwarning, hjournaled.truncations]
    rfl
  · obtain ⟨chunk, hchunk⟩ := List.length_eq_one_iff.mp hjournaled.chunks
    have hbytes := hjournaled.bytes
    have hpackets := hjournaled.packets
    rw [hchunk] at hbytes hpackets
    exact ⟨chunk, hchunk, hbytes, hpackets⟩

end Reader

end TransportStream
