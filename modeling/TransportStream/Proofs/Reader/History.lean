import TransportStream.Proofs.Reader.Reachable
import TransportStream.Sample

/-!
# A reader has no memory of its stream

A reader that has come through packets, ends and failures goes on as one would that
is opened anew on what is left of its source. `Ahead` says what the two have in
common, and every call keeps it (`Ahead.next`).
-/
namespace TransportStream

/-- The totals of two stretches of a stream taken together. -/
def Tally.add (t t' : Tally) : Tally where
  bytesRead := t.bytesRead + t'.bytesRead
  chunksRead := t.chunksRead + t'.chunksRead
  dispatched := t.dispatched + t'.dispatched
  drained := t.drained + t'.drained

namespace Reader
variable {P E : Type}

/-- `r` is where `q` is, with all that `base` counts behind it besides. -/
structure Ahead (base : Tally) (q r : Reader P E) : Prop where
  decoder : r.decoder = q.decoder
  packetSize : r.packetSize = q.packetSize
  chunkLength : r.chunkLength = q.chunkLength
  source : r.source = q.source
  line : r.backlog.slots.map (·.await r.decoder) =
    (q.backlog.slots.map (·.await q.decoder)).map (Outcome.shift base.dispatched)
  nextIndex : r.backlog.nextIndex = base.dispatched + q.backlog.nextIndex
  tally : r.tally = base.add q.tally

namespace Ahead
variable {base : Tally} {q r : Reader P E}

theorem intake (h : Ahead base q r) : r.intake = q.intake := by
  unfold Reader.intake
  rw [h.source, h.chunkLength]

theorem slots_eq_nil (h : Ahead base q r) (hs : q.backlog.slots = []) :
    r.backlog.slots = [] := by
  have hline := h.line
  rw [hs] at hline
  exact List.map_eq_nil_iff.mp hline

theorem outcomes_cut (h : Ahead base q r) :
    r.cut.map (·.outcome r.decoder) =
      (q.cut.map (·.outcome q.decoder)).map (Outcome.shift base.dispatched) := by
  unfold cut
  rw [Task.outcomes_ofChunk, Task.outcomes_ofChunk, h.intake, h.decoder, h.packetSize,
    h.nextIndex, Outcome.ofSlices_shift]

theorem length_cut (h : Ahead base q r) : r.cut.length = q.cut.length := by
  have hlength := congrArg List.length h.outcomes_cut
  simpa using hlength

theorem received (h : Ahead base q r) : Ahead base q.received r.received where
  decoder := h.decoder
  packetSize := h.packetSize
  chunkLength := h.chunkLength
  source := congrArg Exchange.source h.intake
  line := h.line
  nextIndex := h.nextIndex
  tally := h.tally

theorem refilled (h : Ahead base q r) : Ahead base q.refilled r.refilled where
  decoder := h.decoder
  packetSize := h.packetSize
  chunkLength := h.chunkLength
  source := congrArg Exchange.source h.intake
  line := by
    have hline := h.line
    have hcut := h.outcomes_cut
    simp only [Reader.refilled, queue, Reader.received, Backlog.submit, List.map_append, hline]
    simp only [List.map_map] at hcut ⊢
    congr 1
  nextIndex := by
    simp only [Reader.refilled, queue, Reader.received, Backlog.submit, h.nextIndex,
      h.length_cut, Nat.add_assoc]
  tally := by
    simp only [Reader.refilled, queue, Reader.received, h.tally, h.intake, h.length_cut,
      Tally.add, Nat.add_assoc]

theorem dropFirst (h : Ahead base q r) : Ahead base q.dropFirst r.dropFirst where
  decoder := h.decoder
  packetSize := h.packetSize
  chunkLength := h.chunkLength
  source := h.source
  line := by
    have hline := congrArg List.tail h.line
    rw [← List.map_tail, ← List.map_tail, ← List.map_tail] at hline
    exact hline
  nextIndex := h.nextIndex
  tally := by simp only [Reader.dropFirst, h.tally, Tally.add, Nat.add_assoc]

theorem finish_left (h : Ahead base q r) (place : Nat) : Ahead base (q.finish place) r where
  decoder := h.decoder
  packetSize := h.packetSize
  chunkLength := h.chunkLength
  source := h.source
  line := h.line.trans (congrArg (List.map _) (q.awaited_finish place).symm)
  nextIndex := h.nextIndex
  tally := h.tally

theorem finish_right (h : Ahead base q r) (place : Nat) : Ahead base q (r.finish place) where
  decoder := h.decoder
  packetSize := h.packetSize
  chunkLength := h.chunkLength
  source := h.source
  line := (r.awaited_finish place).trans h.line
  nextIndex := h.nextIndex
  tally := h.tally

theorem finished (h : Ahead base q r) (places places' : List Nat) :
    Ahead base (places.foldl Reader.finish q) (places'.foldl Reader.finish r) := by
  induction places generalizing q with
  | cons place later ih => exact ih (h.finish_left place)
  | nil =>
    induction places' generalizing r with
    | nil => exact h
    | cons place later ih => exact ih (h.finish_right place)

theorem next (h : Ahead base q r) :
    r.next.item = q.next.item.map (Outcome.shift base.dispatched) ∧
      r.next.requests = q.next.requests ∧ Ahead base q.next.reader r.next.reader := by
  have hcall := q.call_next
  generalize q.next = step at hcall
  cases hcall with
  | @deliver slot later hs =>
    have hline := h.line
    rw [hs, List.map_cons, List.map_cons] at hline
    obtain ⟨slot', later', hs', hawait, -⟩ := List.map_eq_cons_iff.mp hline
    rw [next_of_call (.deliver hs')]
    exact ⟨congrArg some hawait, rfl, h.dropFirst⟩
  | @fault fault hs hf =>
    rw [← h.intake] at hf
    rw [next_of_call (.fault (h.slots_eq_nil hs) hf), h.chunkLength, h.intake]
    exact ⟨rfl, rfl, h.received⟩
  | finish hs hf hb =>
    rw [← h.intake] at hf hb
    rw [next_of_call (.finish (h.slots_eq_nil hs) hf hb), h.intake]
    exact ⟨rfl, rfl, h.received⟩
  | refill hs hf hb =>
    rw [← h.intake] at hf hb
    rw [next_of_call (.refill (h.slots_eq_nil hs) hf hb), h.intake, h.decoder, h.packetSize,
      h.nextIndex, Outcome.ofSlice_shift]
    exact ⟨rfl, rfl, h.refilled.dropFirst⟩

/-- Two runs of equally many calls go alike, whatever the workers do on either side. -/
theorem scheduled (h : Ahead base q r) {schedule schedule' : List (List Nat)}
    (hlength : schedule.length = schedule'.length) :
    (r.scheduled schedule').map (·.item) =
        (q.scheduled schedule).map (·.item.map (Outcome.shift base.dispatched)) ∧
      (r.scheduled schedule').map (·.requests) = (q.scheduled schedule).map (·.requests) ∧
      (r.scheduled schedule').map (·.reader.tally) =
        (q.scheduled schedule).map (base.add ·.reader.tally) := by
  induction schedule generalizing q r schedule' with
  | nil =>
    obtain rfl := List.length_eq_zero_iff.mp hlength.symm
    exact ⟨rfl, rfl, rfl⟩
  | cons places later ih =>
    obtain ⟨places', later', rfl⟩ := List.exists_cons_of_length_eq_add_one hlength.symm
    obtain ⟨hitem, hrequests, hnext⟩ := (h.finished places places').next
    obtain ⟨hitems, hothers, htallies⟩ := ih hnext (Nat.succ.inj hlength)
    simp only [Reader.scheduled, List.map_cons]
    rw [hitem, hrequests, hnext.tally, hitems, hothers, htallies]
    exact ⟨rfl, rfl, rfl⟩

end Ahead

theorem ahead_start {settings : Settings} {r : Reader P E} (hidle : r.pending = 0)
    (hlength : r.chunkLength = r.packetSize * settings.chunkPackets) (hr : r.Numbered) :
    Ahead r.tally
      (start settings r.decoder ⟨r.packetSize, r.framing.packetSize_pos, none⟩ r.source) r where
  decoder := rfl
  packetSize := rfl
  chunkLength := hlength
  source := rfl
  line := congrArg (List.map _) (List.length_eq_zero_iff.mp hidle)
  nextIndex := hr
  tally := rfl

/-- Whatever a reader has come through, with nothing pending it goes on as if
its history were forgotten. A call that finds the end or fails changes nothing
that can be asked of the reader. Any run of calls yields the items and makes
the requests of a reader that is opened with this packet size on the source as
it is now, and only counts on from the present totals. -/
theorem history_forgotten {workers : Workers} {settings : Settings} {decoder : Decoder P E}
    {s : Source} {opened r : Reader P E}
    (hopened : (ofSource workers settings decoder s).result = .ok opened)
    (hreachable : Reachable opened r) (hidle : r.pending = 0) :
    ((∀ outcome, r.next.item = some outcome → Outcome.isFatal outcome = true) →
      r.next.reader.pending = r.pending ∧ r.next.reader.tally = r.tally ∧
        r.next.reader.framing = r.framing ∧ r.next.reader.chunkLength = r.chunkLength ∧
        r.next.reader.backlog = r.backlog ∧ r.next.notes = []) ∧
    (∃ fresh : Reader P E,
      (ofSource workers { settings with packetSize := r.packetSize } decoder r.source).result =
          .ok fresh ∧
        (ofSource workers { settings with packetSize := r.packetSize } decoder
          r.source).requests = [] ∧
        fresh.chunkLength = r.chunkLength ∧
        ∀ schedule schedule' : List (List Nat), schedule.length = schedule'.length →
          (r.scheduled schedule').map (·.item) =
              (fresh.scheduled schedule).map (·.item.map (Outcome.shift r.tally.dispatched)) ∧
            (r.scheduled schedule').map (·.requests) =
              (fresh.scheduled schedule).map (·.requests) ∧
            (r.scheduled schedule').map (·.reader.tally) =
              (fresh.scheduled schedule).map (r.tally.add ·.reader.tally)) ∧
    ∀ (stale : Bytes) (schedule : List (List Nat)),
      (({ r with buffer := { r.buffer with contents := stale } } : Reader P E).scheduled
          schedule).map (·.item) = (r.scheduled schedule).map (·.item) := by
  obtain ⟨hcheck, framing, -, hle, rfl⟩ := start_of_ofSource hopened
  obtain ⟨hagrees, hnumbered⟩ := hreachable.invariant rfl
  have hsize : r.packetSize = framing.packetSize := congrArg Framing.packetSize hagrees.framing
  have hlength : r.chunkLength = r.packetSize * settings.chunkPackets := by
    rw [hsize]
    exact hagrees.chunkLength
  obtain rfl : decoder = r.decoder := hagrees.decoder.symm
  have hpos : 0 < r.packetSize := r.framing.packetSize_pos
  have hcheck' : workers.check { settings with packetSize := r.packetSize } = .ok () := by
    cases workers <;> exact hcheck
  have hahead := @ahead_start _ _ settings r hidle hlength hnumbered
  refine ⟨fun hfailed => ?_, ⟨_, ofSource_of_given r.decoder hcheck' hpos (hsize ▸ hle),
    requests_of_given r.decoder hcheck' hpos, hlength.symm, fun _ _ => hahead.scheduled⟩,
    fun stale schedule => ?_⟩
  · obtain ⟨hreader, hnotes⟩ := next_of_failure hidle hfailed
    rw [hreader]
    exact ⟨rfl, rfl, rfl, rfl, rfl, hnotes⟩
  · have hstale := @ahead_start _ _ settings
      { r with buffer := { r.buffer with contents := stale } } hidle hlength hnumbered
    exact (hstale.scheduled rfl).1.trans (hahead.scheduled rfl).1.symm

/-- A whole packet is served, then half of one, and then a fault is met. -/
def halting : Source where
  data := [0x47, 0, 9, 1, 2]
  answers := [.serve 2, .serve 1, .fail ⟨.brokenPipe, "gone"⟩]

def haltingReader : Reader Nat PacketDefect :=
  start { packetSize := 2, chunkPackets := 1 } (Sample.tagDecoder none) ⟨2, Nat.two_pos, none⟩
    halting

/-- Where two calls leave this reader: half a packet stands over the one before. -/
def halted : Reader Nat PacketDefect :=
  { haltingReader with
    source := { halting with position := 3, answers := [] }
    buffer := ⟨2, [9, 0]⟩
    backlog := ⟨[], 1⟩
    tally := ⟨2, 1, 1, 1⟩ }

theorem reachable_halted : haltingReader.Reachable halted := by
  have hwhole : Source.Reads halting 2 ([0x47, 0] ++ []) none
      { halting with position := 2, answers := [.serve 1, .fail ⟨.brokenPipe, "gone"⟩] } :=
    .served (by decide) (by decide) rfl (.full _)
  have hhalf : Source.Reads
      { halting with position := 2, answers := [.serve 1, .fail ⟨.brokenPipe, "gone"⟩] } 2
      ([9] ++ []) (some ⟨.brokenPipe, "gone"⟩) { halting with position := 3, answers := [] } :=
    .served (by decide) (by decide) rfl (.failed (by decide) (by decide) rfl)
  have hslices : Bytes.slices 2 [0x47, 0] = [[0x47, 0]] := by simp [@Bytes.slices_of_ne_nil 2]
  have hfirst := (@next_of_chunk _ _ haltingReader _ _ _ _ rfl hwhole hslices).2
  have hreached : haltingReader.Reachable haltingReader.next.reader := .called .opened
  rw [hfirst, List.append_nil, Task.ofChunk,
    show haltingReader.packetSize = 2 from rfl, hslices] at hreached
  have hfailed := hreached.called
  rw [(next_of_failing rfl hhalf).2] at hfailed
  exact hfailed

theorem history_forgotten_halted :
    haltingReader.Reachable halted ∧ halted.pending = 0 ∧ halted.buffer.contents = [9, 0] ∧
      ∃ fresh : Reader Nat PacketDefect,
        (ofSource .borrowed { packetSize := 2, chunkPackets := 1 } (Sample.tagDecoder none)
            { halting with position := 3, answers := [] }).result = .ok fresh ∧
          ∀ schedule, (halted.scheduled schedule).map (·.item) =
            (fresh.scheduled schedule).map (·.item.map (Outcome.shift 1)) := by
  have hopen : (ofSource .borrowed { packetSize := 2, chunkPackets := 1 }
      (Sample.tagDecoder none) halting).result = .ok haltingReader :=
    ofSource_of_given (Sample.tagDecoder none) rfl (by decide) (by decide)
  obtain ⟨-, ⟨fresh, hfresh, -, -, hruns⟩, -⟩ := history_forgotten hopen reachable_halted rfl
  exact ⟨reachable_halted, rfl, rfl, fresh, hfresh, fun schedule => (hruns schedule schedule rfl).1⟩

end Reader

end TransportStream
