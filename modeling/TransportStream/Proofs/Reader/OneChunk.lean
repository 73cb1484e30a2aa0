import TransportStream.Proofs.Reader.Abreast
import TransportStream.Proofs.Reader.Alignment
import Mathlib.Algebra.Ring.Nat

/-!
# One chunk at a time

With tasks in line a call asks its source for nothing (`Delivers`), and with an empty
line it makes one attempt at a chunk (`Attempts`). So every byte taken was drained, is
in line, or went with an attempt that failed (`Ledger`).
-/
namespace TransportStream

theorem Request.servedIn_append (requests more : List Request) :
    servedIn (requests ++ more) = servedIn requests + servedIn more := by
  induction requests with
  | nil => exact (Nat.zero_add _).symm
  | cons request later ih => rw [List.cons_append, servedIn, servedIn, ih, Nat.add_assoc]

theorem Task.sum_ofChunk {first size : Nat} (hs : 0 < size) (chunk : Bytes) :
    ((ofChunk first size chunk).map (·.bytes.length)).sum = chunk.length := by
  have hpieces : (ofChunk first size chunk).map (·.bytes.length) =
      (chunk.slices size).map List.length := by
    rw [ofChunk]
    apply List.ext_getElem?
    intro i
    simp [Function.comp_def]
  rw [hpieces, ← List.length_flatten, Bytes.flatten_slices hs]

namespace Reader
variable {P E : Type}

/-- A call that takes the oldest task out of the line, and changes nothing else. -/
structure Delivers (r : Reader P E) (step : Step P E) : Prop where
  item : ∃ outcome, step.item = some outcome ∧ Outcome.isFatal outcome = false
  requests : step.requests = []
  notes : step.notes = []
  pending : step.reader.pending + 1 = r.pending
  reader : step.reader =
    { r with
      backlog := { r.backlog with slots := r.backlog.slots.tail }
      tally := { r.tally with drained := r.tally.drained + 1 } }

/-- A call that makes one attempt at a chunk. All its requests are those of the attempt. -/
structure Attempts (r : Reader P E) (step : Step P E) : Prop where
  requests : step.requests = (r.buffer.fill r.source).requests
  source : step.reader.source = (r.buffer.fill r.source).source
  asked : step.requests ≠ []
  onward : ∀ answer, Request.rewind answer ∉ step.requests
  atMost : Request.servedIn step.requests ≤ r.chunkLength
  /-- It gives a packet, or the error of one, exactly if the attempt brought a chunk. -/
  item : (∃ outcome, step.item = some outcome ∧ Outcome.isFatal outcome = false) ↔
    ∃ chunk, (r.buffer.fill r.source).result.chunk = .ok (some chunk)
  brought : ∀ chunk, (r.buffer.fill r.source).result.chunk = .ok (some chunk) →
    0 < chunk.length ∧ chunk.length = Request.servedIn step.requests ∧
      step.reader.pending = (chunk.length + r.packetSize - 1) / r.packetSize - 1
  missed : (∀ chunk, (r.buffer.fill r.source).result.chunk ≠ .ok (some chunk)) →
    step.reader.backlog = r.backlog ∧ step.reader.tally = r.tally

/-- The bytes of the tasks in line. -/
def bytesInLine (r : Reader P E) : Nat := (r.tasks.map (·.bytes.length)).sum

/-- The bytes of the packets that the calls of a schedule drain. -/
def drainedBytes : List (List Nat) → Reader P E → Nat
  | [], _ => 0
  | places :: later, r =>
    let r' := places.foldl finish r
    r'.due.length + drainedBytes later r'.next.reader

/-- A reader that stood at `start` when it was opened, held against the bytes
that have been taken since, those that went with failed attempts and those drained. -/
structure Ledger (start taken lost drained : Nat) (r : Reader P E) : Prop where
  position : r.source.position = start + taken
  taken : taken = r.tally.bytesRead + lost
  line : r.tally.bytesRead = drained + r.bytesInLine
  room : r.bytesInLine < r.chunkLength

section
variable {r : Reader P E}

theorem chunk_eq_some {chunk : Bytes} :
    (r.buffer.fill r.source).result.chunk = .ok (some chunk) ↔
      r.intake.result.fault = none ∧ r.intake.result.bytes ≠ [] ∧
        chunk = r.intake.result.bytes := by
  unfold intake chunkLength
  simp only [ChunkBuffer.fill, Exchange.result_map]
  cases (r.source.gather r.buffer.capacity).result.fault with
  | some fault => simp
  | none =>
    by_cases hb : (r.source.gather r.buffer.capacity).result.bytes = []
    · simp [hb]
    · simp [hb, @eq_comm _ chunk]

theorem servedIn_intake (r : Reader P E) :
    Request.servedIn r.intake.requests = r.intake.result.bytes.length :=
  r.source.servedIn_gather r.chunkLength

theorem bytesInLine_of_tasks {task : Task} {later : List Task} (ht : r.tasks = task :: later) :
    r.bytesInLine = task.bytes.length + r.dropFirst.bytesInLine := by
  rw [bytesInLine, bytesInLine, tasks_dropFirst, ht, List.map_cons, List.sum_cons, List.tail_cons]

theorem bytesInLine_of_empty (hs : r.backlog.slots = []) : r.bytesInLine = 0 := by
  rw [bytesInLine, tasks_eq_nil hs]
  rfl

theorem bytesInLine_refilled (hs : r.backlog.slots = []) :
    r.refilled.bytesInLine = r.intake.result.bytes.length := by
  rw [bytesInLine, tasks_refilled, tasks_eq_nil hs, List.nil_append]
  exact Task.sum_ofChunk r.packetSize_pos _

theorem Calm.delivers (h : r.Calm) (hp : 0 < r.pending) : r.Delivers r.next := by
  have hcall := r.call_next
  generalize r.next = step at hcall
  cases hcall with
  | deliver hs =>
    refine ⟨⟨_, rfl, h _ ?_⟩, rfl, rfl, (pending_dropFirst hs).symm, rfl⟩
    rw [hs]
    exact List.mem_cons_self ..
  | fault hs | finish hs | refill hs => exact absurd (pending_eq_zero hs) (Nat.ne_of_gt hp)

/-- What an attempt asks: to read on, at least once, and for no more than a chunk. -/
theorem requests_intake (hlength : 0 < r.chunkLength) :
    r.intake.requests ≠ [] ∧ (∀ answer, Request.rewind answer ∉ r.intake.requests) ∧
      Request.servedIn r.intake.requests ≤ r.chunkLength := by
  refine ⟨?_, r.source.rewind_not_mem_gather r.chunkLength, ?_⟩
  · obtain ⟨answer, later, hfirst⟩ := r.source.requests_gather (Nat.ne_of_gt hlength)
    rw [intake, hfirst]
    exact List.cons_ne_nil _ _
  · rw [servedIn_intake]
    exact r.source.gather_length_le r.chunkLength

theorem attempts_of_missed (hlength : 0 < r.chunkLength) {item : Option (Outcome P E)}
    (hmissed : ∀ chunk, (r.buffer.fill r.source).result.chunk ≠ .ok (some chunk))
    (hitem : ∀ outcome, item = some outcome → Outcome.isFatal outcome = true) :
    r.Attempts ⟨item, r.received, r.intake.requests, []⟩ := by
  obtain ⟨hasked, honward, hatMost⟩ := requests_intake hlength
  refine ⟨rfl, rfl, hasked, honward, hatMost, ⟨?_, ?_⟩, ?_, fun _ => ⟨rfl, rfl⟩⟩
  · rintro ⟨outcome, hsome, hmild⟩
    cases (hitem outcome hsome).symm.trans hmild
  · rintro ⟨chunk, hchunk⟩
    exact absurd hchunk (hmissed chunk)
  · exact fun chunk hchunk => absurd hchunk (hmissed chunk)

theorem attempts (hp : r.pending = 0) (hlength : 0 < r.chunkLength) : r.Attempts r.next := by
  have hcall := r.call_next
  generalize r.next = step at hcall
  cases hcall with
  | deliver hs =>
    rw [pending_dropFirst hs] at hp
    cases hp
  | fault hs hf =>
    apply attempts_of_missed hlength
    · intro chunk hchunk
      cases hf.symm.trans (chunk_eq_some.mp hchunk).1
    · intro outcome hitem
      obtain rfl := Option.some.inj hitem
      rfl
  | finish hs hf hb =>
    apply attempts_of_missed hlength
    · exact fun chunk hchunk => (chunk_eq_some.mp hchunk).2.1 hb
    · intro outcome hitem
      cases hitem
  | refill hs hf hb =>
    obtain ⟨hasked, honward, hatMost⟩ := requests_intake hlength
    have hbrought := chunk_eq_some.mpr ⟨hf, hb, rfl⟩
    refine ⟨rfl, rfl, hasked, honward, hatMost, ⟨?_, ?_⟩, ?_, ?_⟩
    · exact fun _ => ⟨_, hbrought⟩
    · exact fun _ => ⟨_, rfl, Outcome.isFatal_ofSlice ..⟩
    · intro chunk hchunk
      obtain ⟨-, -, rfl⟩ := chunk_eq_some.mp hchunk
      have hpending := pending_refilled hs hb
      rw [length_cut, Bytes.length_slices r.packetSize_pos] at hpending
      exact ⟨List.length_pos_iff.mpr hb, r.servedIn_intake.symm, by rw [hpending]; rfl⟩
    · exact fun hmissed => absurd hbrought (hmissed _)

end

namespace Ledger
variable {start taken lost drained : Nat} {r : Reader P E}

theorem abreast (h : Ledger start taken lost drained r) {r' : Reader P E} (hr : Abreast r r') :
    Ledger start taken lost drained r' := by
  have hline : r'.bytesInLine = r.bytesInLine := by rw [bytesInLine, hr.tasks, bytesInLine]
  constructor
  · rw [hr.source]
    exact h.position
  · rw [hr.tally]
    exact h.taken
  · rw [hr.tally, hline]
    exact h.line
  · rw [hline, hr.chunkLength]
    exact h.room

/-- A task leaves the line, and its bytes are among those drained. -/
theorem dropFirst (h : Ledger start taken lost drained r) {task : Task} {later : List Task}
    (ht : r.tasks = task :: later) :
    Ledger start taken lost (drained + task.bytes.length) r.dropFirst := by
  have hhead := bytesInLine_of_tasks ht
  have hline := h.line
  have hroom := h.room
  refine ⟨h.position, h.taken, ?_, ?_⟩
  · change r.tally.bytesRead = _
    omega
  · change r.dropFirst.bytesInLine < r.chunkLength
    omega

theorem received (h : Ledger start taken lost drained r) :
    Ledger start (taken + r.intake.result.bytes.length) (lost + r.intake.result.bytes.length)
      drained r.received := by
  refine ⟨?_, ?_, h.line, h.room⟩
  · have hmoved := r.source.position_gather r.chunkLength
    rw [h.position, Nat.add_assoc] at hmoved
    exact hmoved
  · rw [h.taken, Nat.add_assoc]
    rfl

theorem refilled (h : Ledger start taken lost drained r) (hs : r.backlog.slots = [])
    (hb : r.intake.result.bytes ≠ []) :
    Ledger start (taken + r.intake.result.bytes.length) lost
      (drained + (r.intake.result.bytes.take r.packetSize).length) r.refilled.dropFirst := by
  obtain ⟨later, htasks⟩ := tasks_refilled_of_bytes hs hb
  have hhead := bytesInLine_of_tasks htasks
  rw [bytesInLine_refilled hs] at hhead
  have hlength : r.intake.result.bytes.length ≤ r.chunkLength :=
    r.source.gather_length_le r.chunkLength
  have hfirst : 0 < (r.intake.result.bytes.take r.packetSize).length := by
    rw [List.length_take]
    exact Nat.lt_min.mpr ⟨r.packetSize_pos, List.length_pos_iff.mpr hb⟩
  have htaken := h.taken
  have hline := h.line
  rw [bytesInLine_of_empty hs] at hline
  constructor
  · exact h.received.position
  · change taken + r.intake.result.bytes.length =
      r.tally.bytesRead + r.intake.result.bytes.length + lost
    omega
  · change r.tally.bytesRead + r.intake.result.bytes.length = _
    dsimp only at hhead
    omega
  · change r.refilled.dropFirst.bytesInLine < r.chunkLength
    dsimp only at hhead
    omega

/-- A call enters what it takes, what it loses and what it drains. -/
theorem next (h : Ledger start taken lost drained r) :
    Ledger start (taken + Request.servedIn r.next.requests) (lost + r.next.discarded)
      (drained + r.due.length) r.next.reader := by
  have hcall := r.call_next
  generalize r.next = step at hcall
  cases hcall with
  | deliver hs =>
    simp only [Step.discarded, Request.servedIn, ite_self]
    rw [due_of_slots hs]
    exact h.dropFirst (tasks_of_slots hs)
  | fault hs hf =>
    have hreceived := h.received
    rw [← servedIn_intake] at hreceived
    rw [due_of_fault hs hf]
    exact hreceived
  | finish hs hf hb =>
    have hreceived := h.received
    rw [hb] at hreceived
    rw [due_of_end hs hf hb, servedIn_intake, hb]
    exact hreceived
  | refill hs hf hb =>
    have hrefilled := h.refilled hs hb
    rw [← servedIn_intake] at hrefilled
    rw [due_of_bytes hs hf hb]
    simp only [Step.discarded, Option.any_some, Outcome.isFatal_ofSlice, Bool.false_eq_true,
      if_false]
    exact hrefilled

theorem scheduled (h : Ledger start taken lost drained r) (schedule : List (List Nat)) :
    Ledger start
      (taken + Request.servedIn ((r.scheduled schedule).flatMap (·.requests)))
      (lost + ((r.scheduled schedule).map Step.discarded).sum)
      (drained + r.drainedBytes schedule) (r.afterSteps (r.scheduled schedule)) := by
  induction schedule generalizing r taken lost drained with
  | nil => exact h
  | cons places later ih =>
    have hnow := (h.abreast ((Abreast.refl r).finished places)).next
    have hlater := ih hnow
    rw [Nat.add_assoc, Nat.add_assoc, Nat.add_assoc] at hlater
    rw [Reader.scheduled, afterSteps_cons, List.flatMap_cons, Request.servedIn_append,
      List.map_cons, List.sum_cons, drainedBytes]
    exact hlater

end Ledger

theorem ledger_start {settings : Settings} {framing : Framing} {s : Source}
    (decoder : Decoder P E) (hchunk : 0 < settings.chunkPackets) :
    Ledger s.position 0 0 0 (start settings decoder framing s) :=
  ⟨rfl, rfl, rfl, Nat.mul_pos framing.packetSize_pos hchunk⟩

/-- With a packet size given, the source is first asked by a call that needs a
chunk, and then for this one only. A call with packets pending drains one of them
and does nothing else; any other makes one attempt at a chunk. All bytes taken
since opening have therefore been read or went with failed attempts, and those
read but not drained are fewer than a chunk holds. -/
theorem one_chunk_at_a_time (workers : Workers) (settings : Settings) (decoder : Decoder P E)
    (s : Source) :
    (0 < settings.packetSize → (ofSource workers settings decoder s).requests = []) ∧
    ∀ opened : Reader P E, (ofSource workers settings decoder s).result = .ok opened →
      (0 < settings.packetSize → opened.source = s) ∧
      (∀ r, Reachable opened r →
        r.next.item = r.due.item decoder ∧ (0 < r.pending → r.Delivers r.next) ∧
          (r.pending = 0 → r.Attempts r.next)) ∧
      ∀ schedule : List (List Nat),
        let run := opened.scheduled schedule
        let r := opened.afterSteps run
        let taken := Request.servedIn (run.flatMap (·.requests))
        r.source.position = opened.source.position + taken ∧
        taken = r.tally.bytesRead + (run.map Step.discarded).sum ∧
        r.tally.bytesRead = opened.drainedBytes schedule + r.bytesInLine ∧
        r.tally.bytesRead < opened.drainedBytes schedule + r.chunkLength := by
  refine ⟨fun hsize => ?_, fun opened h => ⟨fun hsize => ?_, fun r hr => ?_, fun schedule => ?_⟩⟩
  · cases hcheck : workers.check settings with
    | error fault => simp only [ofSource, hcheck]
    | ok _ => exact requests_of_given decoder hcheck hsize
  · obtain ⟨-, rfl⟩ := start_of_given hsize h
    rfl
  · obtain ⟨hcheck, framing, -, -, hstart⟩ := start_of_ofSource h
    have hhonest : r.Honest := Honest.reachable (hstart ▸ honest_start decoder) hr
    have hcalm : r.Calm := Calm.reachable (hstart ▸ calm_start decoder) hr
    have hdecoder : r.decoder = decoder := hr.agrees.decoder.trans (hstart ▸ rfl)
    have hlength : 0 < r.chunkLength := by
      rw [hr.agrees.chunkLength, hstart]
      exact Nat.mul_pos framing.packetSize_pos (Workers.chunkPackets_pos_of_check hcheck)
    exact ⟨hdecoder ▸ hhonest.item_next, hcalm.delivers, fun hp => attempts hp hlength⟩
  · obtain ⟨hcheck, framing, -, -, rfl⟩ := start_of_ofSource h
    have hledger := (ledger_start decoder (Workers.chunkPackets_pos_of_check hcheck)).scheduled
      (r := start settings decoder framing (Framing.locate settings.packetSize s).source) schedule
    simp only [Nat.zero_add] at hledger
    refine ⟨hledger.position, hledger.taken, hledger.line, ?_⟩
    rw [hledger.line]
    exact Nat.add_lt_add_left hledger.room _

theorem one_chunk_at_a_time_paired :
    (ofSource .borrowed { packetSize := 2, chunkPackets := 2 } copying paired).requests = [] ∧
      pairedReader.Attempts pairedReader.next ∧
      pairedReader.next.reader.pending = 1 ∧
      pairedReader.next.reader.Delivers pairedReader.next.reader.next ∧
      ∀ schedule, (pairedReader.afterSteps (pairedReader.scheduled schedule)).tally.bytesRead <
        pairedReader.drainedBytes schedule + 4 := by
  have hopen : (ofSource .borrowed { packetSize := 2, chunkPackets := 2 } copying
      paired).result = .ok pairedReader :=
    ofSource_of_given copying rfl (by decide) (by decide)
  obtain ⟨hrequests, hopened⟩ := one_chunk_at_a_time .borrowed
    { packetSize := 2, chunkPackets := 2 } copying paired
  obtain ⟨-, hcalls, hruns⟩ := hopened pairedReader hopen
  have hfirst := (hcalls pairedReader .opened).2.2 rfl
  have hreads : Source.Reads paired 4 ([0x47, 0, 0x47, 1] ++ []) none
      { paired with position := 4 } :=
    .served (by decide) (by decide) rfl (.full _)
  have hintake : pairedReader.intake.result = ⟨[0x47, 0, 0x47, 1], none⟩ := hreads.eq_gather.1
  have hpending : pairedReader.next.reader.pending = 1 := by
    have hchunk := chunk_eq_some.mpr
      ⟨congrArg Intake.fault hintake, by rw [hintake]; decide, rfl⟩
    rw [hintake] at hchunk
    exact (hfirst.brought _ hchunk).2.2
  refine ⟨hrequests (by decide), hfirst, hpending, ?_, fun schedule => ?_⟩
  · exact (hcalls _ (.called .opened)).2.1 (by rw [hpending]; decide)
  · obtain ⟨-, -, -, hlt⟩ := hruns schedule
    have hreached : pairedReader.Reachable _ := Reachable.opened.scheduled schedule
    rw [hreached.agrees.chunkLength] at hlt
    exact hlt

end Reader

end TransportStream
