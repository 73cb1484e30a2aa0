import TransportStream.Proofs.Reader.Call
import TransportStream.Proofs.Reader.Opened
import TransportStream.Proofs.Reader.Reachable
import TransportStream.Proofs.Source.Reading
import TransportStream.Sample

/-!
# The sequential reader

The reference for a reader has no tasks, workers or buffers, only the slices not
delivered yet and the number of those delivered. A reader mirrors it under calls and
workers (`Mirrors.next`, `Mirrors.finish`), on every source and after every failure.
-/
namespace TransportStream

structure Sequential where
  source : Source
  undelivered : List Bytes := []
  delivered : Nat := 0

namespace Sequential
variable {P E : Type} {decoder : Decoder P E} {size length : Nat}

/-- One request of the reference for packets of `size` bytes, which it reads
in chunks of `length` bytes. -/
inductive Next (decoder : Decoder P E) (size length : Nat) :
    Sequential → Option (Outcome P E) → Sequential → Prop
  | deliver {s : Source} {slice : Bytes} {later : List Bytes} {index : Nat} :
      Next decoder size length ⟨s, slice :: later, index⟩
        (some (Outcome.ofSlice decoder size index slice)) ⟨s, later, index + 1⟩
  | fault {s left : Source} {bytes : Bytes} {fault : Fault} {index : Nat} :
      Source.Reads s length bytes (some fault) left →
      Next decoder size length ⟨s, [], index⟩
        (some (.error (.io (.filling length) fault))) ⟨left, [], index⟩
  | finish {s left : Source} {index : Nat} : Source.Reads s length [] none left →
      Next decoder size length ⟨s, [], index⟩ none ⟨left, [], index⟩
  | refill {s left : Source} {bytes slice : Bytes} {later : List Bytes} {index : Nat} :
      Source.Reads s length bytes none left → bytes.slices size = slice :: later →
      Next decoder size length ⟨s, [], index⟩
        (some (Outcome.ofSlice decoder size index slice)) ⟨left, later, index + 1⟩

/-- The answers to any number of requests. -/
inductive Run (decoder : Decoder P E) (size length : Nat) :
    Sequential → List (Option (Outcome P E)) → Prop
  | done (q : Sequential) : Run decoder size length q []
  | step {q q' : Sequential} {item : Option (Outcome P E)}
      {items : List (Option (Outcome P E))} :
      Next decoder size length q item q' → Run decoder size length q' items →
      Run decoder size length q (item :: items)

theorem Next.unique {q q₁ q₂ : Sequential} {item₁ item₂ : Option (Outcome P E)}
    (h₁ : Next decoder size length q item₁ q₁) (h₂ : Next decoder size length q item₂ q₂) :
    item₁ = item₂ ∧ q₁ = q₂ := by
  cases h₁ with
  | deliver =>
    cases h₂ with
    | deliver => exact ⟨rfl, rfl⟩
  | fault hr =>
    cases h₂ with
    | fault hr' =>
      obtain ⟨-, hf, rfl⟩ := hr.unique hr'
      obtain rfl := Option.some.inj hf
      exact ⟨rfl, rfl⟩
    | finish hr' => exact absurd (hr.unique hr').2.1 (by simp)
    | refill hr' hs' => exact absurd (hr.unique hr').2.1 (by simp)
  | finish hr =>
    cases h₂ with
    | fault hr' => exact absurd (hr.unique hr').2.1 (by simp)
    | finish hr' =>
      obtain ⟨-, -, rfl⟩ := hr.unique hr'
      exact ⟨rfl, rfl⟩
    | refill hr' hs' =>
      obtain ⟨rfl, -, -⟩ := hr.unique hr'
      simp at hs'
  | refill hr hs =>
    cases h₂ with
    | fault hr' => exact absurd (hr.unique hr').2.1 (by simp)
    | finish hr' =>
      obtain ⟨rfl, -, -⟩ := hr.unique hr'
      simp at hs
    | refill hr' hs' =>
      obtain ⟨rfl, -, rfl⟩ := hr.unique hr'
      obtain ⟨rfl, rfl⟩ := List.cons.inj (hs.symm.trans hs')
      exact ⟨rfl, rfl⟩

theorem Run.unique {q : Sequential} {items₁ items₂ : List (Option (Outcome P E))}
    (h₁ : Run decoder size length q items₁) (h₂ : Run decoder size length q items₂)
    (hlength : items₁.length = items₂.length) : items₁ = items₂ := by
  induction h₁ generalizing items₂ with
  | done q => exact (List.length_eq_zero_iff.mp hlength.symm).symm
  | step hnext _ ih =>
    cases h₂ with
    | done => simp at hlength
    | step hnext' hrun' =>
      obtain ⟨rfl, rfl⟩ := hnext.unique hnext'
      rw [ih hrun' (Nat.succ.inj hlength)]

/-- The items that are packets or errors of packets. -/
def deliveries (items : List (Option (Outcome P E))) : List (Outcome P E) :=
  (items.filterMap id).filter fun outcome => !Outcome.isFatal outcome

/-- A request that delivers counts, and its error carries the count so far;
any other one leaves the count alone. -/
theorem Next.delivered {q q' : Sequential} {item : Option (Outcome P E)}
    (h : Next decoder size length q item q') :
    (∃ outcome, item = some outcome ∧ Outcome.isFatal outcome = false ∧
        (∀ e, outcome = .error e → e.packetIndex? = some q.delivered) ∧
        q'.delivered = q.delivered + 1) ∨
      (q'.delivered = q.delivered ∧ (item = none ∨
        ∃ fault, item = some (.error (.io (.filling length) fault)))) := by
  cases h with
  | deliver =>
    exact .inl ⟨_, rfl, Outcome.isFatal_ofSlice .., fun _ => Outcome.packetIndex_of_ofSlice, rfl⟩
  | refill =>
    exact .inl ⟨_, rfl, Outcome.isFatal_ofSlice .., fun _ => Outcome.packetIndex_of_ofSlice, rfl⟩
  | fault => exact .inr ⟨rfl, .inr ⟨_, rfl⟩⟩
  | finish => exact .inr ⟨rfl, .inl rfl⟩

/-- Delivery `k` carries index `k` in its error, whatever failed in between. -/
theorem Run.packetIndex {q : Sequential} {items : List (Option (Outcome P E))}
    (h : Run decoder size length q items) {k : Nat} {e : ReadError E}
    (hk : (deliveries items)[k]? = some (.error e)) :
    e.packetIndex? = some (q.delivered + k) := by
  induction h generalizing k with
  | done q => simp [deliveries] at hk
  | step hnext _ ih =>
    rcases hnext.delivered with
      ⟨outcome, rfl, hfatal, hindex, hcount⟩ | ⟨hcount, rfl | ⟨fault, rfl⟩⟩
    · simp only [deliveries, List.filterMap_cons, id_eq, List.filter_cons, hfatal, Bool.not_false,
        if_true] at hk
      cases k with
      | zero => exact hindex e (Option.some.inj hk)
      | succ k =>
        have h := ih hk
        rw [hcount] at h
        rw [h, Nat.add_assoc, Nat.add_comm 1]
    · rw [← hcount]
      exact ih hk
    · rw [← hcount]
      exact ih hk

/-- A fatal error of a run names the number of bytes that could not be read. -/
theorem Run.message {q : Sequential} {items : List (Option (Outcome P E))}
    (h : Run decoder size length q items) {e : ReadError E} (he : some (.error e) ∈ items)
    (hfatal : e.isFatal = true) : e.message = s!"reading {length} bytes failed" := by
  induction h with
  | done q => simp at he
  | step hnext _ ih =>
    rcases List.mem_cons.mp he with hitem | hlater
    · rcases hnext.delivered with ⟨outcome, rfl, hnot, -⟩ | ⟨-, rfl | ⟨fault, rfl⟩⟩
      · obtain rfl := Option.some.inj hitem
        exact absurd (hfatal.symm.trans hnot) (by simp)
      · simp at hitem
      · obtain rfl := Except.error.inj (Option.some.inj hitem)
        rfl
    · exact ih hlater

end Sequential

namespace Reader
variable {P E : Type} {decoder : Decoder P E} {size length : Nat}

/-- The reader will deliver what the reference has at hand. -/
structure Mirrors (decoder : Decoder P E) (size length : Nat) (r : Reader P E) (q : Sequential) :
    Prop where
  sameDecoder : r.decoder = decoder
  sameSize : r.packetSize = size
  sameLength : r.chunkLength = length
  sameSource : r.source = q.source
  line : r.backlog.slots.map (·.await decoder) =
    Outcome.ofSlices decoder size q.delivered q.undelivered
  index : r.backlog.nextIndex = q.delivered + q.undelivered.length

namespace Mirrors
variable {r : Reader P E} {q : Sequential}

theorem finish (h : r.Mirrors decoder size length q) (place : Nat) :
    (r.finish place).Mirrors decoder size length q := by
  refine ⟨h.sameDecoder, h.sameSize, h.sameLength, h.sameSource, ?_, h.index⟩
  rw [← h.line, ← h.sameDecoder, awaited_finish]

theorem finished (h : r.Mirrors decoder size length q) (places : List Nat) :
    (places.foldl Reader.finish r).Mirrors decoder size length q := by
  induction places generalizing r with
  | nil => exact h
  | cons place later ih => exact ih (h.finish place)

theorem undelivered_of_empty (h : r.Mirrors decoder size length q)
    (hs : r.backlog.slots = []) : q.undelivered = [] := by
  have hlength := congrArg List.length h.line
  rw [hs, List.map_nil, Outcome.length_ofSlices] at hlength
  exact List.length_eq_zero_iff.mp hlength.symm

theorem reads (h : r.Mirrors decoder size length q) :
    Source.Reads q.source length r.intake.result.bytes r.intake.result.fault r.intake.source := by
  rw [← h.sameSource, ← h.sameLength]
  exact Source.gather_reads r.source r.chunkLength

theorem received (h : r.Mirrors decoder size length q) (hs : r.backlog.slots = []) :
    r.received.Mirrors decoder size length ⟨r.intake.source, [], q.delivered⟩ := by
  have hnil := h.undelivered_of_empty hs
  refine ⟨h.sameDecoder, h.sameSize, h.sameLength, rfl, ?_, ?_⟩
  · exact congrArg (List.map (·.await decoder)) hs
  · have hindex := h.index
    rw [hnil] at hindex
    exact hindex

theorem refilled (h : r.Mirrors decoder size length q) (hs : r.backlog.slots = []) :
    r.refilled.Mirrors decoder size length
      ⟨r.intake.source, r.intake.result.bytes.slices size, q.delivered⟩ := by
  have hindex : r.backlog.nextIndex = q.delivered := (h.received hs).index
  have hcut : r.cut.map (·.outcome decoder) =
      Outcome.ofSlices decoder size q.delivered (r.intake.result.bytes.slices size) := by
    rw [← h.sameSize, ← hindex]
    exact Task.outcomes_ofChunk ..
  refine ⟨h.sameDecoder, h.sameSize, h.sameLength, rfl, ?_, ?_⟩
  · rw [← hcut]
    simp only [Reader.refilled, queue, Reader.received, Backlog.submit, hs, List.nil_append,
      List.map_map]
    rfl
  · have hlength := congrArg List.length hcut
    rw [List.length_map, Outcome.length_ofSlices] at hlength
    rw [← hlength, ← hindex]
    rfl

/-- Delivering the head of the line is delivering the first slice at hand. -/
theorem dropFirst {slice : Bytes} {later : List Bytes} {s : Source} {index : Nat}
    (h : r.Mirrors decoder size length ⟨s, slice :: later, index⟩) :
    r.dropFirst.Mirrors decoder size length ⟨s, later, index + 1⟩ := by
  refine ⟨h.sameDecoder, h.sameSize, h.sameLength, h.sameSource, ?_, ?_⟩
  · have hline := congrArg List.tail h.line
    rw [← List.map_tail] at hline
    exact hline
  · have hindex := h.index
    simp only [List.length_cons] at hindex
    simp only [Reader.dropFirst]
    omega

theorem next (h : r.Mirrors decoder size length q) :
    ∃ q', Sequential.Next decoder size length q r.next.item q' ∧
      r.next.reader.Mirrors decoder size length q' := by
  have hcall := r.call_next
  generalize r.next = step at hcall
  obtain ⟨s, undelivered, delivered⟩ := q
  cases hcall with
  | @deliver slot waiting hs =>
    have hline := h.line
    rw [hs] at hline
    cases undelivered with
    | nil => exact absurd hline (List.cons_ne_nil _ _)
    | cons slice later =>
      have hhead : slot.await decoder = Outcome.ofSlice decoder size delivered slice :=
        (List.cons.inj hline).1
      refine ⟨⟨s, later, delivered + 1⟩, ?_, h.dropFirst⟩
      rw [h.sameDecoder, hhead]
      exact .deliver
  | fault hs hf =>
    obtain rfl : undelivered = [] := h.undelivered_of_empty hs
    have hreads := h.reads
    rw [hf] at hreads
    refine ⟨⟨r.intake.source, [], delivered⟩, ?_, h.received hs⟩
    rw [h.sameLength]
    exact .fault hreads
  | finish hs hf hb =>
    obtain rfl : undelivered = [] := h.undelivered_of_empty hs
    have hreads := h.reads
    rw [hf, hb] at hreads
    exact ⟨⟨r.intake.source, [], delivered⟩, .finish hreads, h.received hs⟩
  | refill hs hf hb =>
    obtain rfl : undelivered = [] := h.undelivered_of_empty hs
    have hreads := h.reads
    rw [hf] at hreads
    have hindex : r.backlog.nextIndex = delivered := (h.received hs).index
    have hsize : 0 < size := h.sameSize ▸ r.framing.packetSize_pos
    have hcut := Bytes.slices_of_ne_nil hsize hb
    have hrefilled := h.refilled hs
    rw [hcut] at hrefilled
    refine ⟨⟨r.intake.source, _, delivered + 1⟩, ?_, hrefilled.dropFirst⟩
    rw [h.sameDecoder, h.sameSize, hindex]
    exact .refill hreads hcut

theorem scheduled (h : r.Mirrors decoder size length q) (schedule : List (List Nat)) :
    Sequential.Run decoder size length q ((r.scheduled schedule).map (·.item)) := by
  induction schedule generalizing r q with
  | nil => exact .done q
  | cons places later ih =>
    obtain ⟨q', hnext, hmirrors⟩ := (h.finished places).next
    exact .step hnext (ih hmirrors)

end Mirrors

theorem mirrors_start (settings : Settings) (decoder : Decoder P E) (framing : Framing)
    (s : Source) :
    (start settings decoder framing s).Mirrors decoder framing.packetSize
      (framing.packetSize * settings.chunkPackets) ⟨s, [], 0⟩ :=
  ⟨rfl, rfl, rfl, rfl, rfl, rfl⟩

/-- On every source, whatever it answers, an opened reader returns what the
reference returns: the workers cannot change the items of a run, and the
answers of the reference to as many requests are these items and no others.
The index in the error of a packet is the number of packets delivered before
it, and a fatal error tells how much was to be read. -/
theorem steps_refine_sequential {workers : Workers} {settings : Settings} {decoder : Decoder P E}
    {s : Source} {r : Reader P E} (h : (ofSource workers settings decoder s).result = .ok r)
    (count : Nat) :
    (∀ schedule : List (List Nat), schedule.length = count →
      (r.scheduled schedule).map (·.item) = (r.steps count).map (·.item)) ∧
    (∀ items : List (Option (Outcome P E)), items.length = count →
      (Sequential.Run decoder r.packetSize (r.packetSize * settings.chunkPackets)
          ⟨r.source, [], 0⟩ items ↔
        items = (r.steps count).map (·.item))) ∧
    (∀ (k : Nat) (e : ReadError E),
      (Sequential.deliveries ((r.steps count).map (·.item)))[k]? = some (.error e) →
        e.packetIndex? = some k) ∧
    ∀ e : ReadError E, some (.error e) ∈ (r.steps count).map (·.item) → e.isFatal = true →
      e.message = s!"reading {r.packetSize * settings.chunkPackets} bytes failed" := by
  obtain ⟨-, framing, -, -, rfl⟩ := start_of_ofSource h
  have hmirrors := mirrors_start settings decoder framing
    (Framing.locate settings.packetSize s).source
  have hrun := hmirrors.scheduled (List.replicate count [])
  rw [scheduled_replicate_nil] at hrun
  refine ⟨?_, ?_, ?_, ?_⟩
  · intro schedule hschedule
    exact (hmirrors.scheduled schedule).unique hrun (by simp [hschedule])
  · intro items hitems
    constructor
    · intro hother
      exact hother.unique hrun (by simp [hitems])
    · rintro rfl
      exact hrun
  · intro k e hk
    have hindex := hrun.packetIndex hk
    rw [Nat.zero_add] at hindex
    exact hindex
  · intro e he hfatal
    exact hrun.message he hfatal

/-- One packet is served, then a fault is met, then one byte is left. -/
def faltering : Source where
  data := [0x47, 0, 1]
  answers := [.serve 2, .fail ⟨.brokenPipe, "gone"⟩]

theorem steps_refine_sequential_faltering :
    ∃ r : Reader Nat PacketDefect,
      (ofSource .borrowed { packetSize := 2, chunkPackets := 1 } (Sample.tagDecoder none)
        faltering).result = .ok r ∧
      (r.steps 4).map (·.item) =
        [some (.error (.workerLost 0)), some (.error (.io (.filling 2) ⟨.brokenPipe, "gone"⟩)),
          some (.error (.truncated 1 1 2)), none] := by
  have hopen : (ofSource .borrowed { packetSize := 2, chunkPackets := 1 }
      (Sample.tagDecoder none) faltering).result =
        .ok (start { packetSize := 2, chunkPackets := 1 } (Sample.tagDecoder none)
          ⟨2, by decide, none⟩ faltering) :=
    ofSource_of_given (Sample.tagDecoder none) rfl (by decide) (by decide)
  have hiff := (steps_refine_sequential hopen 4).2.1
  refine ⟨_, hopen, ((hiff _ rfl).mp ?_).symm⟩
  have hfirst : Source.Reads faltering 2 ([0x47, 0] ++ []) none
      { faltering with position := 2, answers := [.fail ⟨.brokenPipe, "gone"⟩] } :=
    .served (by decide) (by decide) rfl (.full _)
  have hfault : Source.Reads
      { faltering with position := 2, answers := [.fail ⟨.brokenPipe, "gone"⟩] } 2 []
      (some ⟨.brokenPipe, "gone"⟩) { faltering with position := 2, answers := [] } :=
    .failed (by decide) (by decide) rfl
  have hlast : Source.Reads { faltering with position := 2, answers := [] } 2 ([1] ++ []) none
      { faltering with position := 3, answers := [] } :=
    .served (by decide) (by decide) rfl (.ended (by decide) rfl)
  have hend : Source.Reads { faltering with position := 3, answers := [] } 2 [] none
      { faltering with position := 3, answers := [] } :=
    .ended (by decide) rfl
  have hcut : Bytes.slices 2 [0x47, 0] = [[0x47, 0]] := by simp [@Bytes.slices_of_ne_nil 2]
  have hrest : Bytes.slices 2 [1] = [[1]] := by simp [@Bytes.slices_of_ne_nil 2]
  exact .step (.refill hfirst hcut) (.step (.fault hfault) (.step (.refill hlast hrest)
    (.step (.finish hend) (.done _))))

end Reader

end TransportStream
