import TransportStream.Proofs.Reader.Call
import TransportStream.Proofs.Reader.Opened

/-!
# The states of a reader

A reader gets into a state by being opened, by calls, and by workers that finish
tasks. What opening has settled holds in all of them (`Reachable.invariant`).
-/
namespace TransportStream.Reader
variable {P E : Type}

/-- A worker finishes the task at `place` of the line, if there is one. -/
def finish (r : Reader P E) (place : Nat) : Reader P E :=
  { r with backlog := r.backlog.finish r.decoder place }

/-- The steps of as many calls as the schedule has entries. -/
def scheduled : List (List Nat) → Reader P E → List (Step P E)
  | [], _ => []
  | places :: later, r =>
    let step := (places.foldl finish r).next
    step :: scheduled later step.reader

@[simp] theorem length_scheduled (schedule : List (List Nat)) (r : Reader P E) :
    (r.scheduled schedule).length = schedule.length := by
  induction schedule generalizing r with
  | nil => rfl
  | cons places later ih => simp [scheduled, ih]

theorem scheduled_replicate_nil (count : Nat) (r : Reader P E) :
    r.scheduled (List.replicate count []) = r.steps count := by
  induction count generalizing r with
  | zero => rfl
  | succ count ih => simp [List.replicate_succ, scheduled, steps, ih]

/-- What the slots of a line will deliver does not depend on the workers. -/
theorem awaited_finish (r : Reader P E) (place : Nat) :
    (r.finish place).backlog.slots.map (·.await r.decoder) =
      r.backlog.slots.map (·.await r.decoder) :=
  congrArg Prod.fst (r.backlog.popAll_finish r.decoder place)

/-- The states that calls and workers lead to from a given reader. -/
inductive Reachable (opened : Reader P E) : Reader P E → Prop
  | opened : Reachable opened opened
  | called {r : Reader P E} : Reachable opened r → Reachable opened r.next.reader
  | worked {r : Reader P E} (place : Nat) : Reachable opened r →
      Reachable opened (r.finish place)

/-- Two states of one reader: nothing that opening has fixed differs. -/
structure Agrees (r r' : Reader P E) : Prop where
  decoder : r'.decoder = r.decoder
  framing : r'.framing = r.framing
  chunkLength : r'.chunkLength = r.chunkLength

theorem Agrees.trans {r r' r'' : Reader P E} (h : r.Agrees r') (h' : r'.Agrees r'') :
    r.Agrees r'' :=
  ⟨h'.decoder.trans h.decoder, h'.framing.trans h.framing, h'.chunkLength.trans h.chunkLength⟩

theorem Agrees.whole {r r' : Reader P E} (h : r.Agrees r') (hwhole : r.packetSize ∣ r.chunkLength) :
    r'.packetSize ∣ r'.chunkLength := by
  rw [packetSize, h.framing, h.chunkLength]
  exact hwhole

theorem agrees_next (r : Reader P E) : r.Agrees r.next.reader := by
  have hcall := r.call_next
  generalize r.next = step at hcall
  cases hcall <;> exact ⟨rfl, rfl, rfl⟩

/-- Tasks are numbered by how many have been dispatched before. -/
def Numbered (r : Reader P E) : Prop := r.backlog.nextIndex = r.tally.dispatched

theorem Numbered.next {r : Reader P E} (h : r.Numbered) : r.next.reader.Numbered := by
  have hcall := r.call_next
  generalize r.next = step at hcall
  cases hcall with
  | deliver => exact h
  | fault => exact h
  | finish => exact h
  | refill => exact congrArg (· + r.cut.length) h

theorem Reachable.agrees {opened r : Reader P E} (h : Reachable opened r) : opened.Agrees r := by
  induction h with
  | opened => exact ⟨rfl, rfl, rfl⟩
  | called _ ih => exact ih.trans (agrees_next _)
  | worked place _ ih => exact ih.trans ⟨rfl, rfl, rfl⟩

theorem Reachable.invariant {opened r : Reader P E} (h : Reachable opened r)
    (ho : opened.Numbered) : opened.Agrees r ∧ r.Numbered := by
  refine ⟨h.agrees, ?_⟩
  induction h with
  | opened => exact ho
  | called _ ih => exact ih.next
  | worked place _ ih => exact ih

theorem Reachable.finished {opened r : Reader P E} (h : Reachable opened r) (places : List Nat) :
    Reachable opened (places.foldl finish r) := by
  induction places generalizing r with
  | nil => exact h
  | cons place later ih => exact ih (h.worked place)

theorem Reachable.afterCalls {opened r : Reader P E} (h : Reachable opened r) (count : Nat) :
    Reachable opened (r.afterCalls count) := by
  induction count generalizing r with
  | zero => exact h
  | succ count ih => exact ih h.called

theorem Reachable.scheduled {opened r : Reader P E} (h : Reachable opened r)
    (schedule : List (List Nat)) : Reachable opened (r.afterSteps (r.scheduled schedule)) := by
  induction schedule generalizing r with
  | nil => exact h
  | cons places later ih =>
    rw [Reader.scheduled, afterSteps_cons]
    exact ih (h.finished places).called

/-- A call that finds the end or fails, with nothing pending before it, has
taken one of the two courses that only read. -/
theorem next_of_failure {r : Reader P E} (hp : r.pending = 0)
    (h : ∀ outcome, r.next.item = some outcome → Outcome.isFatal outcome = true) :
    r.next.reader = r.received ∧ r.next.notes = [] := by
  have hcall := r.call_next
  generalize r.next = step at hcall h
  cases hcall with
  | deliver hs => simp [pending, Backlog.length, hs] at hp
  | fault hs hf => exact ⟨rfl, rfl⟩
  | finish hs hf hb => exact ⟨rfl, rfl⟩
  | refill hs hf hb => simpa using h _ rfl

end TransportStream.Reader
