import TransportStream.Reader.Basic

/-!
# Runs of a reader

A counted run goes on whatever the calls bring. A draining run stops with the first
step that ends the stream or fails (`work_next_lt`).
-/
namespace TransportStream.Reader
variable {P E : Type}

/-- The steps of exactly `count` calls. -/
def steps : Nat → Reader P E → List (Step P E)
  | 0, _ => []
  | count + 1, r => r.next :: steps count r.next.reader

/-- The reader as `count` calls leave it. -/
def afterCalls : Nat → Reader P E → Reader P E
  | 0, r => r
  | count + 1, r => afterCalls count r.next.reader

/-- The steps up to the end of the stream or the first fatal error; the last
step of the run is that one. -/
def drain (r : Reader P E) : List (Step P E) :=
  if _h : r.next.isLast then [r.next] else r.next :: drain r.next.reader
termination_by r.work
decreasing_by exact work_next_lt (by simpa using _h)

/-- The reader as a run leaves it. -/
def afterSteps (r : Reader P E) (run : List (Step P E)) : Reader P E :=
  (run.getLast?.map (·.reader)).getD r

/-- The items that a draining run yields, up to and with a fatal error. -/
def items (run : List (Step P E)) : List (Outcome P E) := run.filterMap (·.item)

theorem drain_of_last {r : Reader P E} (h : r.next.isLast = true) : r.drain = [r.next] := by
  rw [drain, dif_pos h]

theorem drain_of_not_last {r : Reader P E} (h : r.next.isLast = false) :
    r.drain = r.next :: r.next.reader.drain := by
  rw [drain, dif_neg (by simp [h])]

theorem afterSteps_cons (r : Reader P E) (step : Step P E) (run : List (Step P E)) :
    r.afterSteps (step :: run) = step.reader.afterSteps run := by
  unfold afterSteps
  rw [List.getLast?_cons]
  cases run.getLast? <;> rfl

@[simp] theorem length_steps (count : Nat) (r : Reader P E) : (steps count r).length = count := by
  induction count generalizing r with
  | zero => rfl
  | succ count ih => simp [steps, ih]

theorem getElem?_steps {count i : Nat} (h : i < count) (r : Reader P E) :
    (steps count r)[i]? = some (afterCalls i r).next := by
  induction count generalizing r i with
  | zero => omega
  | succ count ih =>
    cases i with
    | zero => rfl
    | succ i => exact ih (by omega) r.next.reader

end TransportStream.Reader
