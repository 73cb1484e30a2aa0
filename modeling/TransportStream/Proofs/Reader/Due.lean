import TransportStream.Proofs.Reader.Balance

/-!
# What a call is due to give

`due` reads off the state what the next call gives, and only `Due.item` asks the
decoder. The reports in line are those of their own tasks (`Honest`), so a call gives
what was due (`Honest.item_next`).
-/
namespace TransportStream
variable {P E : Type}

/-- What a call gives: the end of the stream, a fault, or the outcome of a task. -/
inductive Due where
  | finish
  | fault (during : Operation) (fault : Fault)
  | packet (task : Task)
  deriving DecidableEq, Repr

namespace Due

/-- The item of the call. Only a task is shown to the decoder. -/
def item (decoder : Decoder P E) : Due → Option (Outcome P E)
  | .finish => none
  | .fault during met => some (.error (.io during met))
  | .packet task => some (task.outcome decoder)

def length : Due → Nat
  | .finish | .fault _ _ => 0
  | .packet task => task.bytes.length

end Due

namespace Task
variable {decoder : Decoder P E} {task : Task}

@[simp] theorem isFatal_outcome (decoder : Decoder P E) (task : Task) :
    Outcome.isFatal (task.outcome decoder) = false := by
  rw [outcome_eq_ofSlice, Outcome.isFatal_ofSlice]

theorem isTruncated_iff : task.isTruncated = true ↔ task.bytes.length < task.expected :=
  decide_eq_true_iff

theorem outcome_of_truncated (h : task.isTruncated = true) :
    task.outcome decoder =
      .error (.truncated task.index task.bytes.length task.expected) := by
  rw [outcome_eq_ofSlice, Outcome.ofSlice, if_pos (isTruncated_iff.mp h)]

/-- A packet is reported incomplete exactly where its task is, and as it is. -/
theorem outcome_eq_truncated {index length expected : Nat} :
    task.outcome decoder = .error (.truncated index length expected) ↔
      task.isTruncated = true ∧ index = task.index ∧ length = task.bytes.length ∧
        expected = task.expected := by
  cases ht : task.isTruncated with
  | true =>
    rw [outcome_of_truncated ht]
    simp only [Except.error.injEq, ReadError.truncated.injEq, true_and, eq_comm]
  | false =>
    have hlength : ¬task.bytes.length < task.expected := by
      rw [← isTruncated_iff, ht]
      exact Bool.false_ne_true
    rw [outcome_eq_ofSlice, Outcome.ofSlice, if_neg hlength]
    cases decoder task.bytes <;> simp

/-- Of the decoder only its answer about the task's own bytes matters. -/
theorem outcome_congr {decoder' : Decoder P E} (h : decoder task.bytes = decoder' task.bytes) :
    task.outcome decoder = task.outcome decoder' := by
  rw [outcome_eq_ofSlice, outcome_eq_ofSlice, Outcome.ofSlice, Outcome.ofSlice, h]

end Task

namespace Due
variable {decoder decoder' : Decoder P E} {due : Due} {e : ReadError E}

theorem item_eq_none : due.item decoder = none ↔ due = .finish := by
  cases due <;> simp [item]

theorem item_eq_fatal (he : e.isFatal = true) :
    due.item decoder = some (.error e) ↔
      ∃ during met, due = .fault during met ∧ e = .io during met := by
  cases due with
  | finish => simp [item]
  | fault during met =>
    constructor
    · intro hitem
      exact ⟨during, met, rfl, (Except.error.inj (Option.some.inj hitem)).symm⟩
    · rintro ⟨during', met', hdue, rfl⟩
      obtain ⟨rfl, rfl⟩ := Due.fault.inj hdue
      rfl
  | packet task =>
    have hne : task.outcome decoder ≠ .error e := by
      intro houtcome
      have hfatal := task.isFatal_outcome decoder
      rw [houtcome] at hfatal
      exact Bool.false_ne_true (hfatal.symm.trans he)
    simp [item, hne]

theorem item_eq_truncated {index length expected : Nat} :
    due.item decoder = some (.error (.truncated index length expected)) ↔
      ∃ task, due = .packet task ∧ task.isTruncated = true ∧ index = task.index ∧
        length = task.bytes.length ∧ expected = task.expected := by
  cases due with
  | finish | fault => simp [item]
  | packet task => simp [item, Task.outcome_eq_truncated]

/-- Two decoders give different items only of a packet that is shown to them and
about which they differ. -/
theorem exists_of_item_ne (h : due.item decoder' ≠ due.item decoder) :
    ∃ task, due = .packet task ∧ task.isTruncated = false ∧
      decoder' task.bytes ≠ decoder task.bytes := by
  cases due with
  | finish | fault => exact absurd rfl h
  | packet task =>
    refine ⟨task, rfl, Bool.eq_false_iff.mpr fun ht => h ?_, fun heq => h ?_⟩
    · rw [item, item, Task.outcome_of_truncated ht, Task.outcome_of_truncated ht]
    · rw [item, item, Task.outcome_congr heq]

end Due

namespace Reader

/-- The tasks in line, oldest first. -/
def tasks (r : Reader P E) : List Task := r.backlog.slots.map (·.task)

def due (r : Reader P E) : Due :=
  match r.tasks with
  | task :: _ => .packet task
  | [] =>
    match r.intake.result.fault with
    | some fault => .fault (.filling r.chunkLength) fault
    | none =>
      match r.cut with
      | task :: _ => .packet task
      | [] => .finish

/-- Every slot will deliver the outcome of its task, also where it keeps a report. -/
def Honest (r : Reader P E) : Prop :=
  r.backlog.slots.map (·.await r.decoder) = r.tasks.map (·.outcome r.decoder)

section
variable {r : Reader P E}

theorem pending_eq_length_tasks (r : Reader P E) : r.pending = r.tasks.length :=
  (List.length_map ..).symm

theorem tasks_eq_nil (h : r.backlog.slots = []) : r.tasks = [] :=
  List.map_eq_nil_iff.mpr h

theorem tasks_of_slots {slot : Slot P E} {later : List (Slot P E)}
    (h : r.backlog.slots = slot :: later) : r.tasks = slot.task :: later.map (·.task) := by
  rw [tasks, h, List.map_cons]

theorem tasks_dropFirst (r : Reader P E) : r.dropFirst.tasks = r.tasks.tail :=
  List.map_tail ..

theorem tasks_refilled (r : Reader P E) : r.refilled.tasks = r.tasks ++ r.cut := by
  simp [tasks, refilled, received, queue, Backlog.submit, Function.comp_def]

/-- After a refill of an empty line the first slice is the task at its head. -/
theorem tasks_refilled_of_bytes (hs : r.backlog.slots = []) (hb : r.intake.result.bytes ≠ []) :
    ∃ later, r.refilled.tasks =
      ⟨r.backlog.nextIndex, r.packetSize, r.intake.result.bytes.take r.packetSize⟩ :: later := by
  obtain ⟨later, hcut⟩ := cut_of_bytes hb
  refine ⟨later, ?_⟩
  rw [tasks_refilled, tasks_eq_nil hs, List.nil_append, hcut]

@[simp] theorem tasks_finish (r : Reader P E) (place : Nat) :
    (r.finish place).tasks = r.tasks := by
  unfold tasks finish Backlog.finish
  apply List.ext_getElem?
  intro i
  simp only [List.getElem?_map, List.getElem?_modify]
  split
  · cases r.backlog.slots[i]? <;> simp
  · simp

theorem cut_eq_nil (h : r.intake.result.bytes = []) : r.cut = [] := by
  rw [cut, h, Task.ofChunk_nil]

theorem due_of_slots {slot : Slot P E} {later : List (Slot P E)}
    (h : r.backlog.slots = slot :: later) : r.due = .packet slot.task := by
  rw [due, tasks_of_slots h]

theorem due_of_fault {fault : Fault} (hs : r.backlog.slots = [])
    (hf : r.intake.result.fault = some fault) :
    r.due = .fault (.filling r.chunkLength) fault := by
  rw [due, tasks_eq_nil hs]
  simp only [hf]

theorem due_of_end (hs : r.backlog.slots = []) (hf : r.intake.result.fault = none)
    (hb : r.intake.result.bytes = []) : r.due = .finish := by
  rw [due, tasks_eq_nil hs]
  simp only [hf, cut_eq_nil hb]

theorem due_of_bytes (hs : r.backlog.slots = []) (hf : r.intake.result.fault = none)
    (hb : r.intake.result.bytes ≠ []) :
    r.due = .packet
      ⟨r.backlog.nextIndex, r.packetSize, r.intake.result.bytes.take r.packetSize⟩ := by
  obtain ⟨later, hcut⟩ := cut_of_bytes hb
  rw [due, tasks_eq_nil hs]
  simp only [hf, hcut]

namespace Honest

theorem finish (h : r.Honest) (place : Nat) : (r.finish place).Honest := by
  unfold Honest
  rw [tasks_finish]
  exact (r.awaited_finish place).trans h

theorem dropFirst (h : r.Honest) : r.dropFirst.Honest := by
  have htail := congrArg List.tail h
  rw [← List.map_tail, ← List.map_tail] at htail
  unfold Honest
  rw [tasks_dropFirst]
  exact htail

theorem refilled (h : r.Honest) : r.refilled.Honest := by
  have hnew : (r.cut.map fun task => (⟨task, none⟩ : Slot P E)).map (·.await r.decoder) =
      r.cut.map (·.outcome r.decoder) := by
    rw [List.map_map]
    rfl
  calc r.refilled.backlog.slots.map (·.await r.decoder)
      = r.backlog.slots.map (·.await r.decoder) ++
          (r.cut.map fun task => (⟨task, none⟩ : Slot P E)).map (·.await r.decoder) :=
        List.map_append
    _ = r.refilled.tasks.map (·.outcome r.decoder) := by
        rw [hnew, tasks_refilled, List.map_append]
        exact congrArg (· ++ _) h

theorem next (h : r.Honest) : r.next.reader.Honest := by
  have hcall := r.call_next
  generalize r.next = step at hcall
  cases hcall with
  | deliver => exact h.dropFirst
  | fault | finish => exact h
  | refill => exact h.refilled.dropFirst

theorem reachable {opened : Reader P E} (h : opened.Honest) (hr : Reachable opened r) :
    r.Honest := by
  induction hr with
  | opened => exact h
  | called _ ih => exact ih.next
  | worked place _ ih => exact ih.finish place

theorem finished (h : r.Honest) (places : List Nat) : (places.foldl Reader.finish r).Honest :=
  h.reachable (Reachable.opened.finished places)

theorem afterCalls (h : r.Honest) (count : Nat) : (r.afterCalls count).Honest :=
  h.reachable (Reachable.opened.afterCalls count)

theorem item_next (h : r.Honest) : r.next.item = r.due.item r.decoder := by
  have hcall := r.call_next
  generalize r.next = step at hcall
  cases hcall with
  | @deliver slot later hs =>
    unfold Honest at h
    rw [tasks_of_slots hs, hs] at h
    rw [due_of_slots hs]
    exact congrArg some (List.cons.inj h).1
  | fault hs hf => rw [due_of_fault hs hf, Due.item]
  | finish hs hf hb => rw [due_of_end hs hf hb, Due.item]
  | refill hs hf hb => rw [due_of_bytes hs hf hb, Due.item, Task.outcome_eq_ofSlice]

end Honest

theorem honest_start {settings : Settings} {framing : Framing} {s : Source}
    (decoder : Decoder P E) : (start settings decoder framing s).Honest :=
  rfl

end

end Reader

end TransportStream
