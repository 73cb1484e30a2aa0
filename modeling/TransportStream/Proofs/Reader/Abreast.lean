import TransportStream.Proofs.Reader.Due
import TransportStream.Sample

/-!
# Two decoders on one stream

Two readers are abreast when they agree in all but their decoders and the reports in
their lines. Calls and workers keep them so (`Abreast.next`, `Abreast.finish`), and
two items differ only where the decoders differ about the bytes of one packet.
-/
namespace TransportStream.Reader
variable {P E P' E' P'' E'' : Type}

/-- `r'` is where `r` is. Their decoders may have nothing in common. -/
structure Abreast (r : Reader P E) (r' : Reader P' E') : Prop where
  framing : r'.framing = r.framing
  source : r'.source = r.source
  buffer : r'.buffer = r.buffer
  tasks : r'.tasks = r.tasks
  nextIndex : r'.backlog.nextIndex = r.backlog.nextIndex
  tally : r'.tally = r.tally

namespace Abreast
variable {r : Reader P E} {r' : Reader P' E'} {r'' : Reader P'' E''}

theorem refl (r : Reader P E) : Abreast r r := ⟨rfl, rfl, rfl, rfl, rfl, rfl⟩

theorem symm (h : Abreast r r') : Abreast r' r :=
  ⟨h.framing.symm, h.source.symm, h.buffer.symm, h.tasks.symm, h.nextIndex.symm, h.tally.symm⟩

theorem trans (h : Abreast r r') (h' : Abreast r' r'') : Abreast r r'' where
  framing := h'.framing.trans h.framing
  source := h'.source.trans h.source
  buffer := h'.buffer.trans h.buffer
  tasks := h'.tasks.trans h.tasks
  nextIndex := h'.nextIndex.trans h.nextIndex
  tally := h'.tally.trans h.tally

theorem packetSize (h : Abreast r r') : r'.packetSize = r.packetSize :=
  congrArg Framing.packetSize h.framing

theorem chunkLength (h : Abreast r r') : r'.chunkLength = r.chunkLength :=
  congrArg ChunkBuffer.capacity h.buffer

theorem pending (h : Abreast r r') : r'.pending = r.pending := by
  rw [pending_eq_length_tasks, pending_eq_length_tasks, h.tasks]

theorem intake (h : Abreast r r') : r'.intake = r.intake := by
  unfold Reader.intake
  rw [h.source, h.chunkLength]

theorem cut (h : Abreast r r') : r'.cut = r.cut := by
  unfold Reader.cut
  rw [h.nextIndex, h.packetSize, h.intake]

theorem due (h : Abreast r r') : r'.due = r.due := by
  unfold Reader.due
  rw [h.tasks, h.intake, h.chunkLength, h.cut]

theorem slots_eq_nil (h : Abreast r r') (hs : r.backlog.slots = []) :
    r'.backlog.slots = [] := by
  have htasks := h.tasks
  rw [tasks_eq_nil hs] at htasks
  exact List.map_eq_nil_iff.mp htasks

theorem received (h : Abreast r r') : Abreast r.received r'.received where
  framing := h.framing
  source := congrArg Exchange.source h.intake
  buffer := by simp only [Reader.received, h.buffer, h.intake]
  tasks := h.tasks
  nextIndex := h.nextIndex
  tally := h.tally

theorem refilled (h : Abreast r r') : Abreast r.refilled r'.refilled where
  framing := h.framing
  source := congrArg Exchange.source h.intake
  buffer := h.received.buffer
  tasks := by rw [tasks_refilled, tasks_refilled, h.tasks, h.cut]
  nextIndex := by
    simp only [Reader.refilled, queue, Reader.received, Backlog.submit, h.nextIndex, h.cut]
  tally := by
    simp only [Reader.refilled, queue, Reader.received, h.tally, h.intake, h.cut]

theorem dropFirst (h : Abreast r r') : Abreast r.dropFirst r'.dropFirst where
  framing := h.framing
  source := h.source
  buffer := h.buffer
  tasks := by rw [tasks_dropFirst, tasks_dropFirst, h.tasks]
  nextIndex := h.nextIndex
  tally := by simp only [Reader.dropFirst, h.tally]

theorem next (h : Abreast r r') :
    r'.next.requests = r.next.requests ∧ r'.next.notes = r.next.notes ∧
      Abreast r.next.reader r'.next.reader := by
  have hcall := r.call_next
  generalize r.next = step at hcall
  cases hcall with
  | @deliver slot later hs =>
    have htasks := h.tasks
    rw [tasks_of_slots hs] at htasks
    obtain ⟨slot', later', hs', -, -⟩ := List.map_eq_cons_iff.mp htasks
    rw [next_of_call (.deliver hs')]
    exact ⟨rfl, rfl, h.dropFirst⟩
  | fault hs hf =>
    rw [← h.intake] at hf
    rw [next_of_call (.fault (h.slots_eq_nil hs) hf), h.intake]
    exact ⟨rfl, rfl, h.received⟩
  | finish hs hf hb =>
    rw [← h.intake] at hf hb
    rw [next_of_call (.finish (h.slots_eq_nil hs) hf hb), h.intake]
    exact ⟨rfl, rfl, h.received⟩
  | refill hs hf hb =>
    rw [← h.intake] at hf hb
    rw [next_of_call (.refill (h.slots_eq_nil hs) hf hb), h.intake, h.cut]
    exact ⟨rfl, rfl, h.refilled.dropFirst⟩

theorem finish (h : Abreast r r') (place : Nat) : Abreast r (r'.finish place) :=
  ⟨h.framing, h.source, h.buffer, (tasks_finish r' place).trans h.tasks, h.nextIndex, h.tally⟩

theorem finished (h : Abreast r r') (places : List Nat) :
    Abreast r (places.foldl Reader.finish r') := by
  induction places generalizing r' with
  | nil => exact h
  | cons place later ih => exact ih (h.finish place)

/-- A call of `r'` under a schedule, held against the plain call of `r` in its place. -/
theorem scheduled (h : Abreast r r') {schedule : List (List Nat)} {k : Nat}
    {step : Step P' E'} (hk : (r'.scheduled schedule)[k]? = some step) :
    step.requests = (r.afterCalls k).next.requests ∧
      step.notes = (r.afterCalls k).next.notes ∧
      Abreast (r.afterCalls k).next.reader step.reader := by
  induction schedule generalizing r r' k with
  | nil => cases hk
  | cons places later ih =>
    have hnow := (h.finished places).next
    cases k with
    | zero =>
      obtain rfl := Option.some.inj hk
      exact hnow
    | succ k => exact ih hnow.2.2 hk

/-- Such a call gives what the plain one is due to give, as its own decoder judges it. -/
theorem item_scheduled (h : Abreast r r') (hr : r'.Honest) {schedule : List (List Nat)} {k : Nat}
    {step : Step P' E'} (hk : (r'.scheduled schedule)[k]? = some step) :
    step.item = (r.afterCalls k).due.item r'.decoder := by
  induction schedule generalizing r r' k with
  | nil => cases hk
  | cons places later ih =>
    have hnow := h.finished places
    have hhonest := hr.finished places
    have hdecoder : (places.foldl Reader.finish r').decoder = r'.decoder := by
      obtain ⟨backlog, heq⟩ := r'.exists_finished places
      rw [heq]
    cases k with
    | zero =>
      obtain rfl := Option.some.inj hk
      rw [hhonest.item_next, hnow.due, hdecoder]
      rfl
    | succ k =>
      rw [ih hnow.next.2.2 hhonest.next hk, (agrees_next _).decoder, hdecoder]
      rfl

end Abreast

theorem agrees_afterCalls (r : Reader P E) (count : Nat) : r.Agrees (r.afterCalls count) :=
  (Reachable.opened.afterCalls count).agrees

/-- A call under a schedule goes like the plain call in its place: the workers of
a reader cannot be seen from outside. -/
theorem Honest.scheduled {r : Reader P E} (h : r.Honest) {schedule : List (List Nat)} {k : Nat}
    {step : Step P E} (hk : (r.scheduled schedule)[k]? = some step) :
    step.item = (r.afterCalls k).next.item ∧
      step.requests = (r.afterCalls k).next.requests ∧
      step.notes = (r.afterCalls k).next.notes ∧
      Abreast (r.afterCalls k).next.reader step.reader := by
  have hitem := (Abreast.refl r).item_scheduled h hk
  rw [(h.afterCalls k).item_next, (agrees_afterCalls r k).decoder]
  exact ⟨hitem, (Abreast.refl r).scheduled hk⟩

/-- The same reader, asking another decoder. -/
def withDecoder (r : Reader P E) (decoder : Decoder P E) : Reader P E := { r with decoder }

theorem abreast_withDecoder (r : Reader P E) (decoder : Decoder P E) :
    Abreast r (r.withDecoder decoder) :=
  ⟨rfl, rfl, rfl, rfl, rfl, rfl⟩

/-- Opening never asks the decoder. -/
theorem ofSource_withDecoder (workers : Workers) (settings : Settings)
    (decoder decoder' : Decoder P E) (s : Source) :
    ofSource workers settings decoder' s =
      { ofSource workers settings decoder s with
        result := (ofSource workers settings decoder s).result.map (·.withDecoder decoder') } := by
  cases hcheck : workers.check settings with
  | error fault =>
    simp only [ofSource, hcheck]
    rfl
  | ok _ =>
    cases hlocate : (Framing.locate settings.packetSize s).result with
    | error e =>
      simp only [ofSource, hcheck, hlocate]
      rfl
    | ok framing =>
      have hopened :
          ofFraming settings decoder' framing (Framing.locate settings.packetSize s).source =
          (ofFraming settings decoder framing (Framing.locate settings.packetSize s).source).map
            (·.withDecoder decoder') := ofFraming_map fun _ => rfl
      simp only [ofSource, hcheck, hlocate, hopened]

/-- Two decoders on the same stream. Opening ends alike, and every call makes the
same requests, leaves the same source, totals and line, and comes to the end, to
a fatal error or to an incomplete packet on both sides or on neither. Two items
differ only as two outcomes of one packet, about whose bytes the decoders differ. -/
theorem decoders_confined (workers : Workers) (settings : Settings)
    (decoder decoder' : Decoder P E) (s : Source) :
    (ofSource workers settings decoder' s).requests =
        (ofSource workers settings decoder s).requests ∧
    (ofSource workers settings decoder' s).notes = (ofSource workers settings decoder s).notes ∧
    (ofSource workers settings decoder' s).result =
      (ofSource workers settings decoder s).result.map (·.withDecoder decoder') ∧
    ∀ opened : Reader P E, (ofSource workers settings decoder s).result = .ok opened →
      ∀ (schedule schedule' : List (List Nat)) (k : Nat) (step step' : Step P E),
        (opened.scheduled schedule)[k]? = some step →
        ((opened.withDecoder decoder').scheduled schedule')[k]? = some step' →
          (step'.requests = step.requests ∧ step'.notes = step.notes ∧
            step'.reader.source = step.reader.source ∧
            step'.reader.tally = step.reader.tally ∧
            step'.reader.pending = step.reader.pending) ∧
          (step'.item = none ↔ step.item = none) ∧
          (∀ e : ReadError E, e.isFatal = true →
            (step'.item = some (.error e) ↔ step.item = some (.error e))) ∧
          (∀ index length expected : Nat,
            (step'.item = some (.error (.truncated index length expected)) ↔
              step.item = some (.error (.truncated index length expected)))) ∧
          (step'.item ≠ step.item →
            ∃ task, (opened.afterCalls k).due = .packet task ∧
              step.item = some (task.outcome decoder) ∧
              step'.item = some (task.outcome decoder') ∧
              task.isTruncated = false ∧ decoder' task.bytes ≠ decoder task.bytes) := by
  rw [ofSource_withDecoder workers settings decoder decoder' s]
  refine ⟨rfl, rfl, rfl, fun opened hopened schedule schedule' k step step' hk hk' => ?_⟩
  obtain ⟨-, framing, -, -, rfl⟩ := start_of_ofSource hopened
  obtain ⟨hrequests, hnotes, hreader⟩ := (Abreast.refl _).scheduled hk
  obtain ⟨hrequests', hnotes', hreader'⟩ := (abreast_withDecoder _ decoder').scheduled hk'
  have hboth := hreader.symm.trans hreader'
  have hitem : step.item = _ := (Abreast.refl _).item_scheduled (honest_start decoder) hk
  have hhonest' : ((start settings decoder framing
      (Framing.locate settings.packetSize s).source).withDecoder decoder').Honest :=
    honest_start decoder'
  have hitem' : step'.item = _ := (abreast_withDecoder _ decoder').item_scheduled hhonest' hk'
  refine ⟨⟨hrequests'.trans hrequests.symm, hnotes'.trans hnotes.symm, hboth.source, hboth.tally,
    hboth.pending⟩, ?_, ?_, ?_, fun hne => ?_⟩
  · rw [hitem, hitem', Due.item_eq_none, Due.item_eq_none]
  · intro e he
    rw [hitem, hitem', Due.item_eq_fatal he, Due.item_eq_fatal he]
  · intro index length expected
    rw [hitem, hitem', Due.item_eq_truncated, Due.item_eq_truncated]
  · rw [hitem, hitem'] at hne
    obtain ⟨task, hdue, hwhole, hanswer⟩ := Due.exists_of_item_ne hne
    rw [hdue] at hitem hitem'
    exact ⟨task, hdue, hitem, hitem', hwhole, hanswer⟩

/-- Two packets of two bytes in one chunk. -/
def paired : Source := .ofBytes [0x47, 0, 0x47, 1]

/-- Hands on the bytes of a packet. -/
def copying : Decoder Bytes PacketDefect := .decoded

/-- Breaks down over one packet, and hands on the others. -/
def tripping : Decoder Bytes PacketDefect := fun bytes =>
  if bytes = [0x47, 0] then .brokeDown else .decoded bytes

def pairedReader : Reader Bytes PacketDefect :=
  start { packetSize := 2, chunkPackets := 2 } copying ⟨2, Nat.two_pos, none⟩ paired

theorem decoders_confined_tripping :
    (ofSource .borrowed { packetSize := 2, chunkPackets := 2 } copying paired).result =
        .ok pairedReader ∧
      pairedReader.next.item = some (.ok [0x47, 0]) ∧
      (pairedReader.withDecoder tripping).next.item = some (.error (.workerLost 0)) ∧
      ∀ (schedule schedule' : List (List Nat)) (k : Nat) (step step' : Step Bytes PacketDefect),
        (pairedReader.scheduled schedule)[k]? = some step →
        ((pairedReader.withDecoder tripping).scheduled schedule')[k]? = some step' →
        step'.item ≠ step.item →
          ∃ task, (pairedReader.afterCalls k).due = .packet task ∧ task.bytes = [0x47, 0] := by
  have hopen : (ofSource .borrowed { packetSize := 2, chunkPackets := 2 } copying
      paired).result = .ok pairedReader :=
    ofSource_of_given copying rfl (by decide) (by decide)
  have hreads : Source.Reads paired 4 ([0x47, 0, 0x47, 1] ++ []) none
      { paired with position := 4 } :=
    .served (by decide) (by decide) rfl (.full _)
  have hslices : Bytes.slices 2 [0x47, 0, 0x47, 1] = [[0x47, 0], [0x47, 1]] := by
    simp [@Bytes.slices_of_ne_nil 2]
  refine ⟨hopen, (@next_of_chunk _ _ pairedReader _ _ _ _ rfl hreads hslices).1,
    (@next_of_chunk _ _ (pairedReader.withDecoder tripping) _ _ _ _ rfl hreads hslices).1, ?_⟩
  intro schedule schedule' k step step' hk hk' hne
  obtain ⟨-, -, -, hruns⟩ := decoders_confined .borrowed { packetSize := 2, chunkPackets := 2 }
    copying tripping paired
  obtain ⟨-, -, -, -, hdiffer⟩ := hruns pairedReader hopen schedule schedule' k step step' hk hk'
  obtain ⟨task, hdue, -, -, -, hanswer⟩ := hdiffer hne
  refine ⟨task, hdue, Decidable.byContradiction fun hbytes => hanswer ?_⟩
  exact if_neg hbytes

end TransportStream.Reader
