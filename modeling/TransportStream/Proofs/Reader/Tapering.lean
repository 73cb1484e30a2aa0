import TransportStream.Proofs.Reader.Abreast
import TransportStream.Proofs.Reader.Alignment

/-!
# The incomplete packet at the end

Where "end of input" is said only with no bytes left, an incomplete packet stands last
in line (`Tapers`), and the call that delivers it leaves a reader that has nothing
more to give (`Spent`).
-/
namespace TransportStream

/-- A task of a chunk, held against the tasks behind it: their numbers go up to
the last one, and only a task with none behind it may be incomplete. -/
theorem Task.of_suffix_ofChunk {first size : Nat} {chunk : Bytes} {task : Task}
    {later : List Task} (hs : 0 < size) (h : task :: later <:+ ofChunk first size chunk) :
    0 < task.bytes.length ∧ task.expected = size ∧
      task.index + later.length + 1 = first + (ofChunk first size chunk).length ∧
      (task.isTruncated = true → later = [] ∧ ¬size ∣ chunk.length) := by
  obtain ⟨before, hbefore⟩ := h
  have hplace : (ofChunk first size chunk)[before.length]? = some task := by
    simp [← hbefore]
  have hcount : (ofChunk first size chunk).length = before.length + later.length + 1 := by
    simp [← hbefore, Nat.add_assoc]
  obtain ⟨hlt, htask⟩ := of_getElem?_ofChunk hs hplace
  have hexpected : task.expected = size := by rw [htask]
  have hindex : task.index = first + before.length := by rw [htask]
  have hlength : task.bytes.length = min size (chunk.length - before.length * size) := by
    rw [htask, List.length_take, List.length_drop]
  refine ⟨by omega, hexpected, by omega, fun htruncated => ?_⟩
  have hend : chunk.length < (before.length + 1) * size := by
    have hshort := isTruncated_iff.mp htruncated
    rw [Nat.add_one_mul]
    omega
  constructor
  · have hmost : (ofChunk first size chunk).length ≤ before.length + 1 := by
      rw [Nat.mul_comm] at hend
      rw [length_ofChunk]
      exact Bytes.length_slices_le_of_le hs (Nat.le_of_lt hend)
    exact List.length_eq_zero_iff.mp (by omega)
  · rintro ⟨pieces, hpieces⟩
    rw [hpieces, Nat.mul_comm size] at hlt hend
    have hlow := Nat.lt_of_mul_lt_mul_right hlt
    have hhigh := Nat.lt_of_mul_lt_mul_right hend
    omega

namespace Reader
variable {P E : Type}

/-- A task that `r` has in line or has just delivered, and the tasks behind it. -/
structure Tapering (r : Reader P E) (task : Task) (later : List Task) : Prop where
  filled : 0 < task.bytes.length
  expected : task.expected = r.packetSize
  index : task.index + later.length + 1 = r.backlog.nextIndex
  last : task.isTruncated = true → later = [] ∧ r.source.rest = []

/-- Only the last task in line may be incomplete, and only if nothing is left to be read. -/
def Tapers (r : Reader P E) : Prop :=
  ∀ task later, task :: later <:+ r.tasks → r.Tapering task later

/-- Nothing is in line and nothing is left to be read. -/
structure Spent (r : Reader P E) : Prop where
  line : r.tasks = []
  source : r.source.rest = []

section
variable {r : Reader P E}

theorem tapers_of_empty (h : r.tasks = []) : r.Tapers := by
  intro task later hsuffix
  rw [h] at hsuffix
  cases List.suffix_nil.mp hsuffix

namespace Tapers

theorem deliver (h : r.Tapers) {task : Task} {later : List Task} (ht : r.tasks = task :: later) :
    r.dropFirst.Tapers ∧ r.dropFirst.Tapering task r.dropFirst.tasks := by
  have hleft : r.dropFirst.tasks = later := by rw [tasks_dropFirst, ht, List.tail_cons]
  constructor
  · intro task' later' hsuffix
    rw [hleft] at hsuffix
    have hstanding := h task' later' (ht ▸ hsuffix.trans (List.suffix_cons task later))
    exact ⟨hstanding.filled, hstanding.expected, hstanding.index, hstanding.last⟩
  · have hhead := h task later (ht ▸ List.suffix_refl _)
    rw [hleft]
    exact ⟨hhead.filled, hhead.expected, hhead.index, hhead.last⟩

theorem refilled (ht : r.tasks = []) (hwhole : r.packetSize ∣ r.chunkLength)
    (hf : r.intake.result.fault = none)
    (hcandid : Source.CandidIn r.source.data r.intake.requests) : r.refilled.Tapers := by
  intro task later hsuffix
  rw [tasks_refilled, ht, List.nil_append] at hsuffix
  obtain ⟨hfilled, hexpected, hindex, hlast⟩ :=
    Task.of_suffix_ofChunk r.packetSize_pos hsuffix
  refine ⟨hfilled, hexpected, hindex, fun htruncated => ?_⟩
  obtain ⟨hnone, hpart⟩ := hlast htruncated
  have hlength : r.intake.result.bytes.length ≤ r.chunkLength :=
    r.source.gather_length_le r.chunkLength
  have hshort : r.intake.result.bytes.length < r.chunkLength :=
    Nat.lt_of_le_of_ne hlength fun hfull => hpart (hfull ▸ hwhole)
  exact ⟨hnone, rest_of_short hf hshort hcandid⟩

theorem next (h : r.Tapers) (hwhole : r.packetSize ∣ r.chunkLength)
    (hcandid : Source.CandidIn r.source.data r.next.requests) :
    r.next.reader.Tapers ∧ ∀ task, r.due = .packet task →
      r.next.reader.Tapering task r.next.reader.tasks := by
  have hcall := r.call_next
  generalize r.next = step at hcall hcandid
  cases hcall with
  | deliver hs =>
    obtain ⟨hline, hhead⟩ := h.deliver (tasks_of_slots hs)
    refine ⟨hline, fun task hdue => ?_⟩
    obtain rfl := Due.packet.inj ((due_of_slots hs).symm.trans hdue)
    exact hhead
  | fault hs hf =>
    refine ⟨tapers_of_empty (tasks_eq_nil hs), fun task hdue => ?_⟩
    cases (due_of_fault hs hf).symm.trans hdue
  | finish hs hf hb =>
    refine ⟨tapers_of_empty (tasks_eq_nil hs), fun task hdue => ?_⟩
    cases (due_of_end hs hf hb).symm.trans hdue
  | refill hs hf hb =>
    obtain ⟨later, htasks⟩ := tasks_refilled_of_bytes hs hb
    obtain ⟨hline, hhead⟩ := (refilled (tasks_eq_nil hs) hwhole hf hcandid).deliver htasks
    refine ⟨hline, fun task hdue => ?_⟩
    obtain rfl := Due.packet.inj ((due_of_bytes hs hf hb).symm.trans hdue)
    exact hhead

theorem afterCalls (h : r.Tapers) (hwhole : r.packetSize ∣ r.chunkLength) {count : Nat}
    (hcandid : ∀ k < count, Source.CandidIn r.source.data (r.afterCalls k).next.requests) :
    (r.afterCalls count).Tapers := by
  induction count generalizing r with
  | zero => exact h
  | succ count ih =>
    apply ih (h.next hwhole (hcandid 0 (Nat.zero_lt_succ count))).1 ((agrees_next r).whole hwhole)
    intro k hk
    rw [data_next]
    exact hcandid (k + 1) (Nat.succ_lt_succ hk)

end Tapers

theorem data_afterCalls (r : Reader P E) (count : Nat) :
    (r.afterCalls count).source.data = r.source.data := by
  induction count generalizing r with
  | zero => rfl
  | succ count ih => exact (ih r.next.reader).trans r.data_next

theorem afterCalls_add (i j : Nat) (r : Reader P E) :
    r.afterCalls (i + j) = (r.afterCalls i).afterCalls j := by
  induction i generalizing r with
  | zero => rw [Nat.zero_add, Reader.afterCalls]
  | succ i ih =>
    rw [Nat.succ_add]
    exact ih r.next.reader

namespace Spent

theorem next (h : r.Spent) :
    r.next.reader.Spent ∧
      (r.next.item = none ∨ ∃ e, r.next.item = some (.error e) ∧ e.isFatal = true) := by
  have hgather : r.source.rest = r.intake.result.bytes ++ r.intake.source.rest :=
    r.source.gather_rest r.chunkLength
  rw [h.source] at hgather
  obtain ⟨hbytes, hrest⟩ := List.append_eq_nil_iff.mp hgather.symm
  have hcall := r.call_next
  generalize r.next = step at hcall
  cases hcall with
  | deliver hs =>
    have hline := h.line
    rw [tasks_of_slots hs] at hline
    cases hline
  | fault hs hf => exact ⟨⟨h.line, hrest⟩, .inr ⟨_, rfl, rfl⟩⟩
  | finish hs hf hb => exact ⟨⟨h.line, hrest⟩, .inl rfl⟩
  | refill hs hf hb => exact absurd hbytes hb

theorem afterCalls (h : r.Spent) (count : Nat) : (r.afterCalls count).Spent := by
  induction count generalizing r with
  | zero => exact h
  | succ count ih => exact ih h.next.1

end Spent

/-- The call that delivers an incomplete packet is the last one to deliver any. -/
theorem Tapers.spent_of_truncated (h : r.Tapers) (hwhole : r.packetSize ∣ r.chunkLength) {i : Nat}
    (hcandid : ∀ k ≤ i, Source.CandidIn r.source.data (r.afterCalls k).next.requests)
    {task : Task} (hdue : (r.afterCalls i).due = .packet task) (ht : task.isTruncated = true) :
    (r.afterCalls i).next.reader.Tapering task [] ∧ (r.afterCalls i).next.reader.Spent := by
  have hnow : (r.afterCalls i).Tapers :=
    h.afterCalls hwhole fun k hk => hcandid k (Nat.le_of_lt hk)
  have hsame := (agrees_afterCalls r i).whole hwhole
  have hrequests := hcandid i (Nat.le_refl i)
  rw [← data_afterCalls r i] at hrequests
  have hdelivered := (hnow.next hsame hrequests).2 task hdue
  obtain ⟨hline, hrest⟩ := hdelivered.last ht
  rw [hline] at hdelivered
  exact ⟨hdelivered, hline, hrest⟩

theorem Spent.item_later {i j : Nat} (h : (r.afterCalls i).next.reader.Spent) (hij : i < j) :
    (r.afterCalls j).next.item = none ∨
      ∃ e, (r.afterCalls j).next.item = some (.error e) ∧ e.isFatal = true := by
  obtain ⟨more, rfl⟩ : ∃ more, j = i + (more + 1) := ⟨j - i - 1, by omega⟩
  rw [afterCalls_add]
  exact (h.afterCalls more).next.2

theorem not_truncated_of_ended {item : Option (Outcome P E)} {index length expected : Nat}
    (h : item = none ∨ ∃ e, item = some (.error e) ∧ e.isFatal = true) :
    item ≠ some (.error (.truncated index length expected)) := by
  rintro rfl
  obtain hnone | ⟨e, hitem, hfatal⟩ := h
  · cases hnone
  · obtain rfl := Except.error.inj (Option.some.inj hitem)
    cases hfatal

theorem Tapers.spent_scheduled (h : r.Tapers) (hr : r.Honest)
    (hwhole : r.packetSize ∣ r.chunkLength) {schedule : List (List Nat)}
    (hcandid : Source.CandidIn r.source.data ((r.scheduled schedule).flatMap (·.requests)))
    {i index length expected : Nat} {step : Step P E} (hi : (r.scheduled schedule)[i]? = some step)
    (hitem : step.item = some (.error (.truncated index length expected))) :
    ∃ task : Task, task.isTruncated = true ∧ index = task.index ∧ length = task.bytes.length ∧
      expected = task.expected ∧ (r.afterCalls i).next.reader.Tapering task [] ∧
      (r.afterCalls i).next.reader.Spent := by
  have hplain : ∀ k ≤ i, Source.CandidIn r.source.data (r.afterCalls k).next.requests := by
    intro k hk
    have hlt := Nat.lt_of_le_of_lt hk (List.getElem?_eq_some_iff.mp hi).1
    have hstep := List.getElem?_eq_getElem hlt
    rw [← ((Abreast.refl r).scheduled hstep).1]
    intro offset wanted hmem
    exact hcandid offset wanted
      (List.mem_flatMap.mpr ⟨_, List.mem_of_getElem? hstep, hmem⟩)
  have hdue := (Abreast.refl r).item_scheduled hr hi
  rw [hitem] at hdue
  obtain ⟨task, hpacket, ht, hindex, hlength, hexpected⟩ := Due.item_eq_truncated.mp hdue.symm
  exact ⟨task, ht, hindex, hlength, hexpected, h.spent_of_truncated hwhole hplain hpacket ht⟩

end

/-- On a source that says "end of input" only where no bytes are left, an
incomplete packet is the last of the stream. It has some bytes and too few, it
is the last one of its chunk, and all later calls, also those behind a failed
one, find the end or fail. -/
theorem truncated_ends_run {workers : Workers} {settings : Settings} {decoder : Decoder P E}
    {s : Source} {opened : Reader P E}
    (h : (ofSource workers settings decoder s).result = .ok opened)
    (schedule : List (List Nat))
    (hcandid : Source.CandidIn opened.source.data
      ((opened.scheduled schedule).flatMap (·.requests)))
    {i index length expected : Nat} {step : Step P E}
    (hi : (opened.scheduled schedule)[i]? = some step)
    (hitem : step.item = some (.error (.truncated index length expected))) :
    (0 < length ∧ length < expected ∧ expected = opened.packetSize) ∧
    (step.reader.pending = 0 ∧ index + 1 = step.reader.tally.dispatched) ∧
    (∀ j later, i < j → (opened.scheduled schedule)[j]? = some later →
      later.item = none ∨ ∃ e, later.item = some (.error e) ∧ e.isFatal = true) ∧
    ∀ j step' index' length' expected', (opened.scheduled schedule)[j]? = some step' →
      step'.item = some (.error (.truncated index' length' expected')) → j = i := by
  obtain ⟨-, framing, -, -, hstart⟩ := start_of_ofSource h
  have hhonest : opened.Honest := hstart ▸ honest_start decoder
  have hwhole : opened.packetSize ∣ opened.chunkLength := hstart ▸ ⟨settings.chunkPackets, rfl⟩
  have htapers : opened.Tapers := tapers_of_empty (hstart ▸ rfl)
  have hlater : ∀ {i index length expected : Nat} {step : Step P E},
      (opened.scheduled schedule)[i]? = some step →
      step.item = some (.error (.truncated index length expected)) →
      ∀ j later, i < j → (opened.scheduled schedule)[j]? = some later →
        later.item = none ∨ ∃ e, later.item = some (.error e) ∧ e.isFatal = true := by
    intro i index length expected step hi hitem j later hij hj
    obtain ⟨-, -, -, -, -, -, hspent⟩ := htapers.spent_scheduled hhonest hwhole hcandid hi hitem
    rw [(hhonest.scheduled hj).1]
    exact hspent.item_later hij
  obtain ⟨task, ht, rfl, rfl, rfl, htapering, hspent⟩ :=
    htapers.spent_scheduled hhonest hwhole hcandid hi hitem
  obtain ⟨-, -, habreast⟩ := (Abreast.refl opened).scheduled hi
  have hreached : opened.Reachable (opened.afterCalls i).next.reader :=
    (Reachable.opened.afterCalls i).called
  obtain ⟨hagrees, hnumbered⟩ := hreached.invariant (hstart ▸ rfl)
  refine ⟨⟨htapering.filled, Task.isTruncated_iff.mp ht, ?_⟩, ⟨?_, ?_⟩, hlater hi hitem, ?_⟩
  · rw [htapering.expected, packetSize, hagrees.framing]
    rfl
  · rw [habreast.pending, pending_eq_length_tasks, hspent.line, List.length_nil]
  · rw [habreast.tally]
    exact htapering.index.trans hnumbered
  · intro j step' index' length' expected' hj hitem'
    rcases Nat.lt_trichotomy i j with hlt | heq | hgt
    · exact absurd hitem' (not_truncated_of_ended (hlater hi hitem j step' hlt hj))
    · exact heq.symm
    · exact absurd hitem (not_truncated_of_ended (hlater hj hitem' i step hgt hi))

/-- A byte is lost to a fault, then a packet and a half are served. -/
def curtailed : Source where
  data := [9, 0x47, 0, 0x47]
  answers := [.serve 1, .fail ⟨.brokenPipe, "gone"⟩, .serve 2]

def curtailedReader : Reader Nat PacketDefect :=
  start { packetSize := 2, chunkPackets := 2 } (Sample.tagDecoder none) ⟨2, Nat.two_pos, none⟩
    curtailed

/-- The first call fails and leaves its byte in the buffer. -/
def curtailedOnce : Reader Nat PacketDefect :=
  { curtailedReader with
    source := { curtailed with position := 1, answers := [.serve 2] }
    buffer := ⟨4, [9]⟩ }

/-- The second one delivers the packet, and the incomplete one is in line. -/
def curtailedTwice : Reader Nat PacketDefect :=
  { curtailedReader with
    source := { curtailed with position := 4, answers := [] }
    buffer := ⟨4, [0x47, 0, 0x47]⟩
    backlog := ⟨[⟨⟨1, 2, [0x47]⟩, none⟩], 2⟩
    tally := ⟨3, 1, 2, 1⟩ }

theorem next_curtailed :
    curtailedReader.next.reader = curtailedOnce ∧ curtailedOnce.next.reader = curtailedTwice := by
  have hlost : Source.Reads curtailed 4 ([9] ++ []) (some ⟨.brokenPipe, "gone"⟩)
      { curtailed with position := 1, answers := [.serve 2] } :=
    .served (by decide) (by decide) rfl (.failed (by decide) (by decide) rfl)
  have hpart : Source.Reads { curtailed with position := 1, answers := [.serve 2] } 4
      ([0x47, 0] ++ ([0x47] ++ [])) none { curtailed with position := 4, answers := [] } :=
    .served (by decide) (by decide) rfl
      (.served (by decide) (by decide) rfl (.ended (by decide) rfl))
  have hslices : Bytes.slices 2 [0x47, 0, 0x47] = [[0x47, 0], [0x47]] := by
    simp [@Bytes.slices_of_ne_nil 2]
  refine ⟨(@next_of_failing _ _ curtailedReader _ _ _ rfl hlost).2, ?_⟩
  have hqueued : Task.ofChunk 0 2 [0x47, 0, 0x47] = [⟨0, 2, [0x47, 0]⟩, ⟨1, 2, [0x47]⟩] := by
    rw [Task.ofChunk, hslices]
    rfl
  have hsecond := (@next_of_chunk _ _ curtailedOnce _ _ _ _ rfl hpart hslices).2
  exact hsecond.trans (congrArg (fun tasks => ({ curtailedOnce with
    source := { curtailed with position := 4, answers := [] }
    buffer := ⟨4, [0x47, 0, 0x47]⟩ }.queue [0x47, 0, 0x47] tasks).dropFirst) hqueued)

theorem truncated_ends_run_curtailed :
    (ofSource .borrowed { packetSize := 2, chunkPackets := 2 } (Sample.tagDecoder none)
        curtailed).result = .ok curtailedReader ∧
      curtailed.Candid ∧
      ∀ schedule : List (List Nat), ∃ step,
        (curtailedReader.scheduled ([] :: [] :: [] :: schedule))[2]? = some step ∧
        step.item = some (.error (.truncated 1 1 2)) ∧ step.reader.pending = 0 ∧
        ∀ j later, 2 < j →
          (curtailedReader.scheduled ([] :: [] :: [] :: schedule))[j]? = some later →
            later.item = none ∨ ∃ e, later.item = some (.error e) ∧ e.isFatal = true := by
  have hopen : (ofSource .borrowed { packetSize := 2, chunkPackets := 2 }
      (Sample.tagDecoder none) curtailed).result = .ok curtailedReader :=
    ofSource_of_given (Sample.tagDecoder none) rfl (by decide) (by decide)
  refine ⟨hopen, by decide, fun schedule => ?_⟩
  have hthird : (curtailedReader.scheduled ([] :: [] :: [] :: schedule))[2]? =
      some curtailedReader.next.reader.next.reader.next := rfl
  rw [next_curtailed.1, next_curtailed.2] at hthird
  have hitem : curtailedTwice.next.item = some (.error (.truncated 1 1 2)) := by
    rw [next_of_call (.deliver rfl)]
    rfl
  obtain ⟨-, ⟨hpending, -⟩, hlater, -⟩ := truncated_ends_run hopen ([] :: [] :: [] :: schedule)
    (@candidIn_scheduled _ _ curtailedReader (by decide) _) hthird hitem
  exact ⟨_, hthird, hitem, hpending, hlater⟩

end Reader

end TransportStream
