import TransportStream.Proofs.Backlog.Workshop
import TransportStream.Sample

/-!
# Delivery in the order of dispatch

The outcomes of all slices ever dispatched are those delivered, followed by those
still in line (`Accounted`). Every operation keeps this, so delivery `i` is the
outcome of slice `i`. Each job is run once at most (`Run.completions_perm`).
-/
namespace TransportStream

namespace Event
variable {P E : Type}

/-- The slices that an event brings, each with the packet size of its dispatch. -/
def slices : Event P E → List (Nat × Bytes)
  | .dispatched size chunk _ => (chunk.slices size).map (size, ·)
  | .finished _ | .popped _ => []

def delivery? : Event P E → Option (Outcome P E)
  | .popped item => item
  | .dispatched _ _ _ | .finished _ => none

def completion? : Event P E → Option Nat
  | .finished index => some index
  | .dispatched _ _ _ | .popped _ => none

def allSlices (events : List (Event P E)) : List (Nat × Bytes) := events.flatMap slices

def deliveries (events : List (Event P E)) : List (Outcome P E) := events.filterMap delivery?

/-- The numbers of the jobs that workers have finished, in that order. -/
def completions (events : List (Event P E)) : List Nat := events.filterMap completion?

theorem allSlices_concat (events : List (Event P E)) (event : Event P E) :
    allSlices (events ++ [event]) = allSlices events ++ event.slices := by
  simp [allSlices]

theorem deliveries_concat (events : List (Event P E)) (event : Event P E) :
    deliveries (events ++ [event]) = deliveries events ++ event.delivery?.toList := by
  cases h : event.delivery? <;> simp [deliveries, h]

theorem completions_concat (events : List (Event P E)) (event : Event P E) :
    completions (events ++ [event]) = completions events ++ event.completion?.toList := by
  cases h : event.completion? <;> simp [completions, h]

end Event

open Event

section
variable {P E : Type} {decoder : Decoder P E}

/-- What each of the slices is worth, with its place as its number. -/
def Outcome.ofDispatched (decoder : Decoder P E) (slices : List (Nat × Bytes)) :
    List (Outcome P E) :=
  slices.mapIdx fun i slice => ofSlice decoder slice.1 i slice.2

theorem Outcome.ofDispatched_append_chunk (decoder : Decoder P E) (earlier : List (Nat × Bytes))
    (size : Nat) (chunk : Bytes) :
    ofDispatched decoder (earlier ++ (chunk.slices size).map (size, ·)) =
      ofDispatched decoder earlier ++
        (Task.ofChunk earlier.length size chunk).map (·.outcome decoder) := by
  rw [Task.outcomes_ofChunk]
  simp only [ofDispatched, List.mapIdx_append]
  congr 1
  apply List.ext_getElem?
  intro i
  rw [getElem?_ofSlices, List.getElem?_mapIdx, List.getElem?_map, Option.map_map, Nat.add_comm]
  rfl

namespace Backlog

/-- The events that have led from an empty backlog to this one. -/
inductive Follows (decoder : Decoder P E) : List (Event P E) → Backlog P E → Prop
  | start : Follows decoder [] {}
  | step {events : List (Event P E)} {event : Event P E} {b b' : Backlog P E} :
      Follows decoder events b → Answers decoder b event b' →
      Follows decoder (events ++ [event]) b'

structure Accounted (decoder : Decoder P E) (events : List (Event P E)) (b : Backlog P E) :
    Prop where
  nextIndex : b.nextIndex = (allSlices events).length
  outcomes : Outcome.ofDispatched decoder (allSlices events) =
    deliveries events ++ (b.popAll decoder).1

theorem nextIndex_of_pop? {b b' : Backlog P E} {outcome : Outcome P E}
    (h : b.pop? decoder = some (outcome, b')) : b'.nextIndex = b.nextIndex := by
  unfold pop? at h
  split at h
  · simp at h
  · rw [← (Prod.mk.inj (Option.some.inj h)).2]

theorem accounted_empty : Accounted decoder [] {} where
  nextIndex := rfl
  outcomes := rfl

theorem Accounted.step {events : List (Event P E)} {event : Event P E} {b b' : Backlog P E}
    (h : Accounted decoder events b) (ha : Answers decoder b event b') :
    Accounted decoder (events ++ [event]) b' := by
  have hindex := h.nextIndex
  have houtcomes := h.outcomes
  cases ha with
  | dispatch hd =>
    unfold dispatch? at hd
    split at hd
    · simp at hd
    · simp only [Option.some.injEq, Prod.mk.injEq] at hd
      obtain ⟨rfl, rfl⟩ := hd
      constructor
      · simp [allSlices_concat, Event.slices, dispatch, submit, hindex, Task.length_ofChunk]
      · rw [allSlices_concat, deliveries_concat, Event.slices, Outcome.ofDispatched_append_chunk,
          houtcomes, ← hindex]
        simp [popAll, dispatch, submit, delivery?, Slot.await, Function.comp_def]
  | finish hplace =>
    constructor
    · rw [allSlices_concat, Event.slices, List.append_nil, ← hindex]
      rfl
    · simpa [allSlices_concat, deliveries_concat, Event.slices, delivery?, popAll_finish]
        using houtcomes
  | pop hpop =>
    rw [popAll_of_pop? hpop] at houtcomes
    constructor
    · rw [allSlices_concat, Event.slices, List.append_nil, ← hindex]
      exact nextIndex_of_pop? hpop
    · simpa [allSlices_concat, deliveries_concat, Event.slices, delivery?] using houtcomes
  | idle hpop =>
    constructor
    · simpa [allSlices_concat, Event.slices] using hindex
    · simpa [allSlices_concat, deliveries_concat, Event.slices, delivery?] using houtcomes

theorem Accounted.length_eq {events : List (Event P E)} {b : Backlog P E}
    (h : Accounted decoder events b) :
    b.length + (deliveries events).length = (allSlices events).length := by
  have hlength := congrArg List.length h.outcomes
  simp only [Outcome.ofDispatched, List.length_mapIdx, List.length_append, popAll,
    List.length_map] at hlength
  rw [Backlog.length]
  omega

/-- Delivery `i` is what slice `i` is worth. -/
theorem Accounted.delivery {events : List (Event P E)} {b : Backlog P E}
    (h : Accounted decoder events b) {i : Nat} {outcome : Outcome P E}
    (hi : (deliveries events)[i]? = some outcome) :
    ∃ size slice, (allSlices events)[i]? = some (size, slice) ∧
      outcome = Outcome.ofSlice decoder size i slice := by
  have hlt := (List.getElem?_eq_some_iff.mp hi).1
  have hworth : (Outcome.ofDispatched decoder (allSlices events))[i]? = some outcome := by
    rw [h.outcomes, List.getElem?_append_left hlt, hi]
  rw [Outcome.ofDispatched, List.getElem?_mapIdx] at hworth
  obtain ⟨⟨size, slice⟩, hslice, hworth⟩ := Option.map_eq_some_iff.mp hworth
  exact ⟨size, slice, hslice, hworth.symm⟩

end Backlog

namespace Workshop
variable {w : Workshop P E} {events : List (Event P E)}

/-- Every run of a workshop is one of a backlog that it represents. -/
theorem Run.refines (h : Run decoder events w) :
    ∃ b, Backlog.Follows decoder events b ∧ w.Represents b ∧
      Backlog.Accounted decoder events b := by
  induction h with
  | start => exact ⟨{}, .start, represents_empty, Backlog.accounted_empty⟩
  | step _ hstep ih =>
    obtain ⟨b, hfollows, hrepresents, haccounted⟩ := ih
    obtain ⟨b', hanswers, hrepresents'⟩ := hstep.refines hrepresents
    exact ⟨b', .step hfollows hanswers, hrepresents', haccounted.step hanswers⟩

/-- Each number given out is that of one job, which either has been finished
once or is still with the workers. -/
theorem Run.completions_perm (h : Run decoder events w) :
    (completions events ++ w.jobs.map (·.index)).Perm (List.range w.nextIndex) := by
  induction h with
  | start => exact .refl _
  | @step events event w w' hrun hstep ih =>
    rw [completions_concat]
    cases hstep with
    | @dispatch size chunk hsize =>
      have hindex := Task.index_ofChunk w.nextIndex size chunk
      simp only [completion?, Option.toList_none, List.append_nil, enqueue, List.map_append, hindex]
      rw [← List.append_assoc, List.range_add, ← List.range'_eq_map_range]
      exact ih.append_right _
    | @finish before after task hjobs =>
      simp only [completion?, Option.toList_some, settle, List.map_append, List.append_assoc,
        List.singleton_append]
      refine List.Perm.trans (List.Perm.append_left _ ?_) ih
      rw [hjobs, List.map_append, List.map_cons]
      exact List.perm_middle.symm
    | pop => simpa [completion?] using ih
    | idle => simpa [completion?] using ih

theorem Run.nodup_completions (h : Run decoder events w) : (completions events).Nodup := by
  have hnodup := h.completions_perm.nodup_iff.mpr List.nodup_range
  exact (List.nodup_append.mp hnodup).1

/-- What has been delivered had been finished: the jobs with the workers are of
tickets still in line. -/
theorem Run.completed_of_delivered (h : Run decoder events w) {i : Nat}
    (hi : i < (deliveries events).length) : i ∈ completions events := by
  obtain ⟨b, -, hrepresents, haccounted⟩ := h.refines
  have hlength := haccounted.length_eq
  have hgiven : i ∈ List.range w.nextIndex := by
    rw [List.mem_range, hrepresents.nextIndex, haccounted.nextIndex]
    omega
  refine (List.mem_append.mp (h.completions_perm.mem_iff.mpr hgiven)).resolve_right fun hjob => ?_
  obtain ⟨task, htask, rfl⟩ := List.mem_map.mp hjob
  rw [hrepresents.jobs, List.mem_map] at htask
  obtain ⟨slot, hslot, rfl⟩ := htask
  have hle := (hrepresents.index_bounds (List.mem_filter.mp hslot).1).1
  rw [haccounted.nextIndex] at hle
  omega

theorem Run.finish_all (h : Run decoder events w) :
    ∃ more w', Run decoder (events ++ more) w' ∧ allSlices more = [] ∧ w'.jobs = [] := by
  generalize hjobs : w.jobs = jobs
  induction jobs generalizing events w with
  | nil => exact ⟨[], w, by rwa [List.append_nil], rfl, hjobs⟩
  | cons task later ih =>
    have hfirst : w.jobs = [] ++ task :: later := hjobs
    obtain ⟨more, w', hrun, hmore, hdone⟩ := ih (h.step (.finish hfirst)) rfl
    refine ⟨.finished task.index :: more, w', ?_, ?_, hdone⟩
    · rwa [List.append_assoc] at hrun
    · exact hmore

theorem Represents.answered {b : Backlog P E} (h : w.Represents b) (hjobs : w.jobs = [])
    {index : Nat} {later : List Nat} (hline : w.line = index :: later) :
    ∃ outcome, (w.channel index).receive? index = some outcome := by
  obtain ⟨⟨task, finished⟩, waiting, hslots, rfl, -⟩ :=
    List.map_eq_cons_iff.mp (h.line.symm.trans hline)
  have hunfinished := h.jobs.symm.trans hjobs
  rw [h.channel ⟨task, finished⟩ (by simp [hslots])]
  cases finished with
  | none => simp [hslots] at hunfinished
  | some report =>
    cases report with
    | none => exact ⟨_, rfl⟩
    | some outcome => exact ⟨outcome, rfl⟩

theorem Run.pop_all (h : Run decoder events w) (hjobs : w.jobs = []) :
    ∃ more w', Run decoder (events ++ more) w' ∧ allSlices more = [] ∧ w'.line = [] := by
  generalize hline : w.line = line
  induction line generalizing events w with
  | nil => exact ⟨[], w, by rwa [List.append_nil], rfl, hline⟩
  | cons index later ih =>
    obtain ⟨b, -, hrepresents, -⟩ := h.refines
    obtain ⟨outcome, houtcome⟩ := hrepresents.answered hjobs hline
    obtain ⟨more, w', hrun, hmore, hempty⟩ := ih (h.step (.pop hline houtcome)) hjobs rfl
    refine ⟨.popped (some outcome) :: more, w', ?_, ?_, hempty⟩
    · rwa [List.append_assoc] at hrun
    · exact hmore

/-- From every state the line can be emptied without dispatching anything. -/
theorem Run.exists_drained (h : Run decoder events w) :
    ∃ more w', Run decoder (events ++ more) w' ∧ allSlices more = [] ∧ w'.line = [] := by
  obtain ⟨finishing, idle, hidle, hnone, hjobs⟩ := h.finish_all
  obtain ⟨popping, drained, hdrained, hnone', hline⟩ := hidle.pop_all hjobs
  refine ⟨finishing ++ popping, drained, by rwa [List.append_assoc] at hdrained, ?_, hline⟩
  rw [allSlices, List.flatMap_append, ← allSlices, ← allSlices, hnone, hnone', List.append_nil]

theorem Step.dispatched {w' : Workshop P E} {size queued : Nat} {chunk : Bytes}
    (h : Step decoder w (.dispatched size chunk queued) w') :
    queued = (chunk.length + size - 1) / size ∧ w'.line.length = w.line.length + queued := by
  cases h with
  | dispatch hsize =>
    rw [Task.length_ofChunk, Bytes.length_slices hsize]
    refine ⟨rfl, ?_⟩
    rw [enqueue, List.length_append, List.length_map, Task.length_ofChunk,
      Bytes.length_slices hsize]

theorem Step.popped {w' : Workshop P E} {item : Option (Outcome P E)}
    (h : Step decoder w (.popped item) w') :
    (item = none ∧ w.line = [] ∧ w' = w) ∨
      ∃ outcome, item = some outcome ∧ w'.line.length + 1 = w.line.length := by
  cases h with
  | idle hline => exact .inl ⟨rfl, hline, rfl⟩
  | pop hline _ => exact .inr ⟨_, rfl, by rw [hline]; rfl⟩

/-- However dispatches, workers and deliveries follow on one another, delivery
`i` is the outcome of slice `i`, decided by its own bytes and packet size; every
slice is delivered or still in line, and every job delivered has been finished,
none of them twice. A dispatch queues and counts the pieces of its chunk, an
empty line delivers nothing and stays as it is, and whatever is in line can
still be delivered. A backlog with the same events gives the same answers. -/
theorem delivers_in_order (h : Run decoder events w) :
    (∀ (i : Nat) (outcome : Outcome P E), (deliveries events)[i]? = some outcome →
      ∃ size slice, (allSlices events)[i]? = some (size, slice) ∧
        outcome = Outcome.ofSlice decoder size i slice) ∧
    w.line.length + (deliveries events).length = (allSlices events).length ∧
    (completions events).Nodup ∧
    (∀ i, i < (deliveries events).length → i ∈ completions events) ∧
    (∀ size chunk queued w', Step decoder w (.dispatched size chunk queued) w' →
      queued = (chunk.length + size - 1) / size ∧ w'.line.length = w.line.length + queued) ∧
    (∀ item w', Step decoder w (.popped item) w' →
      (item = none ∧ w.line = [] ∧ w' = w) ∨
        ∃ outcome, item = some outcome ∧ w'.line.length + 1 = w.line.length) ∧
    (∃ more w', Run decoder (events ++ more) w' ∧ allSlices more = [] ∧
      (deliveries (events ++ more)).length = (allSlices events).length) ∧
    ∃ b, Backlog.Follows decoder events b ∧ b.length = w.line.length := by
  obtain ⟨b, hfollows, hrepresents, haccounted⟩ := h.refines
  have hlength := haccounted.length_eq
  refine ⟨fun i outcome hi => haccounted.delivery hi, ?_, h.nodup_completions,
    fun i hi => h.completed_of_delivered hi, fun _ _ _ _ hstep => hstep.dispatched,
    fun _ _ hstep => hstep.popped, ?_, b, hfollows, hrepresents.length_line.symm⟩
  · rw [hrepresents.length_line]
    exact hlength
  · obtain ⟨more, w', hrun, hmore, hline⟩ := h.exists_drained
    obtain ⟨b', -, hrepresents', haccounted'⟩ := hrun.refines
    have hlength' := haccounted'.length_eq
    rw [← hrepresents'.length_line, hline, allSlices, List.flatMap_append, ← allSlices,
      ← allSlices, hmore, List.append_nil] at hlength'
    exact ⟨more, w', hrun, hmore, by simpa using hlength'⟩

/-- A broken and an incomplete packet, the second of which is finished first,
and a packet of another size that is dispatched in between. -/
def reversed : List (Event Nat PacketDefect) :=
  [.dispatched 2 [0x47, 0, 1] 2, .finished 1, .dispatched 1 [0] 1, .finished 0,
    .popped (some (.error (.workerLost 0))), .popped (some (.error (.truncated 1 1 2)))]

theorem allSlices_reversed : allSlices reversed = [(2, [0x47, 0]), (2, [1]), (1, [0])] := by
  simp [allSlices, reversed, Event.slices, @Bytes.slices_of_ne_nil 2, @Bytes.slices_of_ne_nil 1]

theorem run_reversed : ∃ w, Run (Sample.tagDecoder none) reversed w := by
  have htwo : Task.ofChunk 0 2 [0x47, 0, 1] = [⟨0, 2, [0x47, 0]⟩, ⟨1, 2, [1]⟩] := by
    simp [Task.ofChunk, @Bytes.slices_of_ne_nil 2]
  have hone : Task.ofChunk 2 1 [0] = [⟨2, 1, [0]⟩] := by
    simp [Task.ofChunk, @Bytes.slices_of_ne_nil 1]
  have hstart := @Run.start Nat PacketDefect (Sample.tagDecoder none)
  have hdispatch := hstart.step (@Step.dispatch _ _ _ _ 2 [0x47, 0, 1] (by decide))
  simp only [htwo] at hdispatch
  have hsecond := hdispatch.step (@Step.finish _ _ _ _ [⟨0, 2, [0x47, 0]⟩] [] ⟨1, 2, [1]⟩ rfl)
  have hother := hsecond.step (@Step.dispatch _ _ _ _ 1 [0] (by decide))
  simp only [settle, enqueue, List.length_cons, List.length_nil, Nat.zero_add, hone] at hother
  have hfirst := hother.step (@Step.finish _ _ _ _ [] [⟨2, 1, [0]⟩] ⟨0, 2, [0x47, 0]⟩ rfl)
  have hlost := hfirst.step (.pop rfl rfl)
  exact ⟨_, hlost.step (.pop rfl rfl)⟩

theorem delivers_in_order_reversed :
    ∃ w, Run (Sample.tagDecoder none) reversed w ∧ w.line.length = 1 ∧
      (∃ size slice, (allSlices reversed)[1]? = some (size, slice) ∧
        .error (.truncated 1 1 2) = Outcome.ofSlice (Sample.tagDecoder none) size 1 slice) ∧
      ∃ more w', Run (Sample.tagDecoder none) (reversed ++ more) w' ∧
        (deliveries (reversed ++ more)).length = 3 := by
  obtain ⟨w, hrun⟩ := run_reversed
  obtain ⟨hdelivery, hlength, -, -, -, -, ⟨more, w', hrun', -, hdrained⟩, -⟩ :=
    delivers_in_order hrun
  rw [allSlices_reversed] at hlength hdrained
  exact ⟨w, hrun, Nat.add_right_cancel hlength, hdelivery 1 _ rfl, more, w', hrun', hdrained⟩

end Workshop

end

end TransportStream
