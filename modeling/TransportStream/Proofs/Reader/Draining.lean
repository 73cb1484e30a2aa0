import TransportStream.Proofs.Reader.Balance
import TransportStream.Proofs.Reader.Forecast
import TransportStream.Report.Basic

/-!
# Runs that drain a reader

On a steady source a run takes as many items off the future as it has calls
(`scheduled_of_steady`), and a draining run takes all of them. On any source it fails
exactly when one of its requests does (`Calm.failure?_drain`).
-/
namespace TransportStream.Reader
variable {P E : Type}

theorem exists_drain (r : Reader P E) :
    ∃ count, r.drain = r.steps (count + 1) ∧ (r.afterCalls count).next.isLast = true := by
  induction r using drain.induct with
  | case1 r hlast => exact ⟨0, drain_of_last hlast, hlast⟩
  | case2 r hmore ih =>
    obtain ⟨count, hdrain, hlast⟩ := ih
    refine ⟨count + 1, ?_, hlast⟩
    rw [drain_of_not_last (by simpa using hmore), hdrain]
    rfl

section
variable {r : Reader P E}

theorem future_finished (r : Reader P E) (places : List Nat) :
    (places.foldl finish r).future = r.future := by
  induction places generalizing r with
  | nil => rfl
  | cons place later ih =>
    rw [List.foldl_cons, ih]
    exact congrArg (· ++ _) (awaited_finish r place)

theorem Steady.finished (hr : r.Steady) (places : List Nat) :
    (places.foldl finish r).Steady := by
  obtain ⟨backlog, h⟩ := r.exists_finished places
  rw [h]
  exact ⟨hr.source, hr.room, hr.whole⟩

theorem forecast_finished (r : Reader P E) (places : List Nat) :
    (places.foldl finish r).forecast = r.forecast := by
  have hfuture := r.future_finished places
  obtain ⟨backlog, h⟩ := r.exists_finished places
  rw [h] at hfuture ⊢
  unfold forecast
  rw [hfuture]
  rfl

/-- A run of a reader on a steady source, whatever the workers do meanwhile:
its items are the first ones of the future, the others are still to come. -/
theorem scheduled_of_steady (hr : r.Steady) (schedule : List (List Nat)) :
    items (r.scheduled schedule) = r.future.take schedule.length ∧
      (r.afterSteps (r.scheduled schedule)).future = r.future.drop schedule.length ∧
      (r.afterSteps (r.scheduled schedule)).forecast = r.forecast := by
  induction schedule generalizing r with
  | nil => exact ⟨rfl, rfl, rfl⟩
  | cons places later ih =>
    obtain ⟨hitem, hfuture, hforecast, hnext⟩ := next_of_steady (hr.finished places)
    obtain ⟨hitems, hleft, hsame⟩ := ih hnext
    rw [future_finished] at hitem hfuture
    rw [hfuture] at hitems hleft
    rw [hforecast, forecast_finished] at hsame
    rw [scheduled, afterSteps_cons]
    refine ⟨?_, ?_, hsame⟩
    · rw [items, List.filterMap_cons, hitem]
      cases hf : r.future with
      | nil =>
        rw [hf] at hitems
        exact hitems.trans List.take_nil
      | cons outcome outcomes =>
        rw [hf] at hitems
        exact congrArg (outcome :: ·) hitems
    · rw [hleft, List.drop_tail]
      rfl

/-- A long enough run yields everything there is, and ends with the forecast. -/
theorem scheduled_whole (hr : r.Steady) {schedule : List (List Nat)}
    (h : r.future.length ≤ schedule.length) :
    items (r.scheduled schedule) = r.future ∧
      (r.afterSteps (r.scheduled schedule)).tally = r.forecast := by
  obtain ⟨hitems, hleft, hforecast⟩ := scheduled_of_steady hr schedule
  rw [List.take_of_length_le h] at hitems
  rw [List.drop_eq_nil_of_le h] at hleft
  exact ⟨hitems, (tally_of_future_nil hleft).trans hforecast⟩

theorem framing_afterSteps (r : Reader P E) (schedule : List (List Nat)) :
    (r.afterSteps (r.scheduled schedule)).framing = r.framing := by
  induction schedule generalizing r with
  | nil => rfl
  | cons places later ih =>
    obtain ⟨backlog, h⟩ := r.exists_finished places
    rw [scheduled, afterSteps_cons, ih, h]
    exact (agrees_next { r with backlog }).framing

/-- A draining run on a steady source with no fatal error to come. -/
theorem drain_of_steady (hr : r.Steady)
    (hcalm : ∀ outcome ∈ r.future, Outcome.isFatal outcome = false) :
    ∃ count, r.future.length ≤ count ∧
      r.drain = r.scheduled (List.replicate (count + 1) []) := by
  obtain ⟨count, hdrain, hlast⟩ := r.exists_drain
  refine ⟨count, ?_, by rw [hdrain, scheduled_replicate_nil]⟩
  have hitem := item_of_steady hr count
  cases hc : r.future[count]? with
  | none => exact List.getElem?_eq_none_iff.mp hc
  | some outcome =>
    rw [hc] at hitem
    rw [isLast_of_item hitem, hcalm outcome (List.mem_of_getElem? hc)] at hlast
    cases hlast

theorem next_of_candid (hs : r.source.Candid) (hroom : 0 < r.chunkLength)
    (hwhole : r.packetSize ∣ r.chunkLength)
    (hmild : ∀ outcome, r.next.item = some outcome → Outcome.isFatal outcome = false) :
    r.next.item = r.future.head? ∧ r.next.reader.future = r.future.tail ∧
      r.next.reader.source.Candid := by
  have hsupplied : r.backlog.slots = [] → r.Supplied := by
    intro hslots
    cases hf : r.intake.result.fault with
    | some fault =>
      rw [next_of_call (.fault hslots hf)] at hmild
      cases hmild _ rfl
    | none =>
      have hbytes : r.intake.result.bytes = r.source.rest.take r.chunkLength :=
        hs.bytes_gather hf
      unfold Supplied
      rw [← hbytes, ← hf]
  obtain ⟨hitem, hfuture⟩ := next_of_supplied hroom hwhole hsupplied
  refine ⟨hitem, hfuture, ?_⟩
  have hcall := r.call_next
  generalize r.next = step at hcall
  cases hcall with
  | deliver => exact hs
  | fault | finish | refill => exact hs.gather _

/-- A call fails for good exactly when one of its requests does, and reports
that failure. -/
theorem Calm.failed_next (h : r.Calm) {e : ReadError E} :
    (r.next.item = some (.error e) ∧ e.isFatal = true) ↔
      ∃ fault, FailedWith r.next.requests fault ∧ e = .io (.filling r.chunkLength) fault := by
  have htrail : Trail r.intake.requests r.intake.result.fault :=
    r.source.trail_gather r.chunkLength
  have hmild {outcome : Outcome P E} {requests : List Request}
      (hfatal : Outcome.isFatal outcome = false) (hdone : Trail requests none) :
      (some outcome = some (.error e) ∧ e.isFatal = true) ↔
        ∃ fault, FailedWith requests fault ∧ e = .io (.filling r.chunkLength) fault := by
    constructor
    · rintro ⟨hitem, he⟩
      rw [Option.some.inj hitem] at hfatal
      exact absurd he (Bool.eq_false_iff.mp hfatal)
    · rintro ⟨fault, hfailed, -⟩
      cases hdone.failedWith_iff.mp hfailed
  have hcall := r.call_next
  generalize r.next = step at hcall
  cases hcall with
  | deliver hs => exact hmild (h _ (by rw [hs]; exact List.mem_cons_self ..)) .done
  | @fault fault hs hf =>
    rw [hf] at htrail
    constructor
    · rintro ⟨hitem, -⟩
      exact ⟨fault, htrail.failedWith_iff.mpr rfl,
        (Except.error.inj (Option.some.inj hitem)).symm⟩
    · rintro ⟨fault', hfailed, rfl⟩
      rw [Option.some.inj (htrail.failedWith_iff.mp hfailed)]
      exact ⟨rfl, rfl⟩
  | finish hs hf hb =>
    rw [hf] at htrail
    constructor
    · rintro ⟨hitem, -⟩
      cases hitem
    · rintro ⟨fault, hfailed, -⟩
      cases htrail.failedWith_iff.mp hfailed
  | refill hs hf hb =>
    rw [hf] at htrail
    exact hmild (Outcome.isFatal_ofSlice ..) htrail

end

section
variable {step : Step Packet PacketDefect} {run : List (Step Packet PacketDefect)}

theorem failure?_singleton {e : ReadError PacketDefect} :
    Report.failure? [step] = some e ↔ step.item = some (.error e) ∧ e.isFatal = true := by
  unfold Report.failure?
  rw [List.getLast?_singleton, Option.bind_some]
  cases hitem : step.item with
  | none => simp
  | some outcome =>
    cases outcome with
    | ok packet => simp
    | error e' =>
      by_cases hfatal : e'.isFatal = true
      · simp only [hfatal, if_true, Option.some.injEq, Except.error.injEq]
        constructor
        · rintro rfl
          exact ⟨rfl, hfatal⟩
        · exact And.left
      · simp only [hfatal, Option.some.injEq, Except.error.injEq]
        constructor
        · exact fun h => by cases h
        · rintro ⟨rfl, h⟩
          exact absurd h hfatal

theorem failure?_cons (h : run ≠ []) : Report.failure? (step :: run) = Report.failure? run := by
  unfold Report.failure?
  rw [List.getLast?_cons, List.getLast?_eq_some_getLast h]
  rfl

/-- A run whose items are all mild has not failed. -/
theorem failure?_of_items (h : ∀ outcome ∈ items run, Outcome.isFatal outcome = false) :
    Report.failure? run = none := by
  unfold Report.failure?
  cases hlast : run.getLast? with
  | none => rfl
  | some step =>
    rw [Option.bind_some]
    cases hitem : step.item with
    | none => rfl
    | some outcome =>
      have hmild := h outcome
        (List.mem_filterMap.mpr ⟨step, List.mem_of_getLast? hlast, hitem⟩)
      cases outcome with
      | ok packet => rfl
      | error e => exact if_neg (Bool.eq_false_iff.mp hmild)

end

theorem drain_ne_nil (r : Reader P E) : r.drain ≠ [] := by
  obtain ⟨count, hdrain, -⟩ := r.exists_drain
  rw [hdrain]
  exact List.cons_ne_nil _ _

/-- A draining run fails exactly when one of its requests does. -/
theorem Calm.failure?_drain {r : Reader Packet PacketDefect} (h : r.Calm)
    {e : ReadError PacketDefect} :
    Report.failure? r.drain = some e ↔
      ∃ fault, FailedWith (r.drain.flatMap (·.requests)) fault ∧
        e = .io (.filling r.chunkLength) fault := by
  induction r using drain.induct with
  | case1 r hlast =>
    rw [drain_of_last hlast, failure?_singleton, h.failed_next, List.flatMap_singleton]
  | case2 r hmore ih =>
    have hlast : r.next.isLast = false := by simpa using hmore
    have hnow : ∀ fault, ¬FailedWith r.next.requests fault := by
      intro fault hfailed
      obtain ⟨hitem, he⟩ := h.failed_next.mpr ⟨fault, hfailed, rfl⟩
      rw [isLast_of_item hitem] at hlast
      exact absurd he (Bool.eq_false_iff.mp hlast)
    rw [drain_of_not_last hlast, failure?_cons (drain_ne_nil _), ih h.next,
      (agrees_next r).chunkLength, List.flatMap_cons]
    simp only [failedWith_append, hnow, false_or]

/-- A draining run that does not fail yields all there is to come, where the
source says "end of input" only at the end. -/
theorem items_drain_of_candid {r : Reader Packet PacketDefect} (hs : r.source.Candid)
    (hroom : 0 < r.chunkLength) (hwhole : r.packetSize ∣ r.chunkLength)
    (h : Report.failure? r.drain = none) : items r.drain = r.future := by
  induction r using drain.induct with
  | case1 r hlast =>
    have hnone : r.next.item = none := by
      cases hitem : r.next.item with
      | none => rfl
      | some outcome =>
        rw [isLast_of_item hitem] at hlast
        cases outcome with
        | ok packet => cases hlast
        | error e =>
          rw [drain_of_last (by rwa [isLast_of_item hitem]),
            failure?_singleton.mpr ⟨hitem, hlast⟩] at h
          cases h
    obtain ⟨hitem, -, -⟩ := next_of_candid hs hroom hwhole fun outcome houtcome => by
      rw [hnone] at houtcome
      cases houtcome
    rw [hnone] at hitem
    rw [drain_of_last hlast, items, List.filterMap_cons, hnone,
      List.head?_eq_none_iff.mp hitem.symm]
    rfl
  | case2 r hmore ih =>
    have hlast : r.next.isLast = false := by simpa using hmore
    obtain ⟨hitem, hfuture, hnext⟩ := next_of_candid hs hroom hwhole fun outcome houtcome =>
      (isLast_of_item houtcome).symm.trans hlast
    have hagrees := agrees_next r
    rw [drain_of_not_last hlast, failure?_cons (drain_ne_nil _)] at h
    have hlater := ih hnext (by rwa [hagrees.chunkLength])
      (by rwa [packetSize, hagrees.framing, hagrees.chunkLength]) h
    rw [hfuture] at hlater
    rw [drain_of_not_last hlast, items, List.filterMap_cons, hitem]
    cases hf : r.future with
    | nil =>
      rw [hf] at hitem
      unfold Step.isLast at hlast
      rw [hitem] at hlast
      cases hlast
    | cons outcome later =>
      rw [hf] at hlater
      exact congrArg (outcome :: ·) hlater

end TransportStream.Reader
