import TransportStream.Proofs.Outcome

/-!
# The line and the workers, apart

Here the line holds tickets, the jobs lie with the workers, and a report comes over
the channel of its ticket. A workshop stands for a backlog (`Represents`), and each
of its steps is an operation of the backlog (`Step.refines`).
-/
namespace TransportStream

/-- What has come over the channel of a ticket so far. -/
inductive Message (P E : Type) where
  | awaited
  | sent (outcome : Outcome P E)
  | dropped

namespace Message
variable {P E : Type}

/-- What a worker leaves in the channel of a task that it is done with. -/
def ofReport : Option (Outcome P E) → Message P E
  | some outcome => .sent outcome
  | none => .dropped

/-- What the holder of ticket `index` makes of it; nothing while it is awaited. -/
def receive? (index : Nat) : Message P E → Option (Outcome P E)
  | .awaited => none
  | .sent outcome => some outcome
  | .dropped => some (.error (.workerLost index))

end Message

/-- What has come over the channel that leads to the slot. -/
def Slot.message {P E : Type} (slot : Slot P E) : Message P E :=
  match slot.finished with
  | none => .awaited
  | some report => .ofReport report

structure Workshop (P E : Type) where
  /-- The tickets not taken yet, oldest first. -/
  line : List Nat := []
  nextIndex : Nat := 0
  /-- The tasks submitted and not finished, in the order of submission. -/
  jobs : List Task := []
  channel : Nat → Message P E := fun _ => .awaited

/-- What an observer of the line and the workers sees, with all answers given. -/
inductive Event (P E : Type) where
  | dispatched (size : Nat) (chunk : Bytes) (queued : Nat)
  | finished (index : Nat)
  | popped (item : Option (Outcome P E))

namespace Workshop
variable {P E : Type} {decoder : Decoder P E}

/-- A ticket for each task is put in line, and its job goes to the workers. -/
def enqueue (w : Workshop P E) (tasks : List Task) : Workshop P E :=
  { w with
    line := w.line ++ tasks.map (·.index)
    nextIndex := w.nextIndex + tasks.length
    jobs := w.jobs ++ tasks }

/-- A worker is done with a task and has left the other jobs where they were. -/
def settle (w : Workshop P E) (decoder : Decoder P E) (task : Task) (jobs : List Task) :
    Workshop P E :=
  { w with
    jobs
    channel := fun index =>
      if index = task.index then .ofReport (task.report decoder) else w.channel index }

inductive Step (decoder : Decoder P E) : Workshop P E → Event P E → Workshop P E → Prop
  | dispatch {w : Workshop P E} {size : Nat} {chunk : Bytes} : 0 < size →
      Step decoder w (.dispatched size chunk (Task.ofChunk w.nextIndex size chunk).length)
        (w.enqueue (Task.ofChunk w.nextIndex size chunk))
  | finish {w : Workshop P E} {before after : List Task} {task : Task} :
      w.jobs = before ++ task :: after →
      Step decoder w (.finished task.index) (w.settle decoder task (before ++ after))
  | pop {w : Workshop P E} {index : Nat} {later : List Nat} {outcome : Outcome P E} :
      w.line = index :: later → (w.channel index).receive? index = some outcome →
      Step decoder w (.popped (some outcome)) { w with line := later }
  | idle {w : Workshop P E} : w.line = [] → Step decoder w (.popped none) w

/-- The events that have led from an empty workshop to this one. -/
inductive Run (decoder : Decoder P E) : List (Event P E) → Workshop P E → Prop
  | start : Run decoder [] {}
  | step {events : List (Event P E)} {event : Event P E} {w w' : Workshop P E} :
      Run decoder events w → Step decoder w event w' → Run decoder (events ++ [event]) w'

end Workshop

/-- The same event as an operation of a backlog. -/
inductive Backlog.Answers {P E : Type} (decoder : Decoder P E) :
    Backlog P E → Event P E → Backlog P E → Prop
  | dispatch {b b' : Backlog P E} {size : Nat} {chunk : Bytes} {tasks : List Task} :
      b.dispatch? size chunk = some (b', tasks) →
      Answers decoder b (.dispatched size chunk tasks.length) b'
  | finish {b : Backlog P E} {place : Nat} {task : Task} :
      b.slots[place]? = some ⟨task, none⟩ →
      Answers decoder b (.finished task.index) (b.finish decoder place)
  | pop {b b' : Backlog P E} {outcome : Outcome P E} :
      b.pop? decoder = some (outcome, b') → Answers decoder b (.popped (some outcome)) b'
  | idle {b : Backlog P E} : b.pop? decoder = none → Answers decoder b (.popped none) b

theorem Task.index_ofChunk (first size : Nat) (chunk : Bytes) :
    (Task.ofChunk first size chunk).map (·.index) =
      List.range' first (Task.ofChunk first size chunk).length := by
  apply List.ext_getElem?
  intro i
  simp only [Task.ofChunk, List.getElem?_map, List.getElem?_mapIdx, List.length_mapIdx,
    Option.map_map]
  by_cases hi : i < (chunk.slices size).length <;> simp [hi]

namespace Workshop
variable {P E : Type} {decoder : Decoder P E}

structure Represents (w : Workshop P E) (b : Backlog P E) : Prop where
  nextIndex : w.nextIndex = b.nextIndex
  line : w.line = b.slots.map (·.task.index)
  /-- The tickets in line are consecutive and end with the last one given out. -/
  numbered : ∃ first, first + b.slots.length = b.nextIndex ∧
    b.slots.map (·.task.index) = List.range' first b.slots.length
  jobs : w.jobs = (b.slots.filter (·.finished.isNone)).map (·.task)
  channel : ∀ slot ∈ b.slots, w.channel slot.task.index = slot.message
  fresh : ∀ index, w.nextIndex ≤ index → w.channel index = .awaited

theorem represents_empty : Represents ({} : Workshop P E) {} where
  nextIndex := rfl
  line := rfl
  numbered := ⟨0, rfl, rfl⟩
  jobs := rfl
  channel := by simp
  fresh := fun _ _ => rfl

namespace Represents
variable {w : Workshop P E} {b : Backlog P E}

theorem length_line (h : w.Represents b) : w.line.length = b.length := by
  rw [h.line, List.length_map, Backlog.length]

theorem enqueue (h : w.Represents b) (size : Nat) (chunk : Bytes) :
    (w.enqueue (Task.ofChunk w.nextIndex size chunk)).Represents (b.dispatch size chunk) := by
  obtain ⟨first, hlength, hnumbered⟩ := h.numbered
  rw [h.nextIndex]
  have hindex := Task.index_ofChunk b.nextIndex size chunk
  unfold Backlog.dispatch
  generalize Task.ofChunk b.nextIndex size chunk = tasks at hindex
  have hslots : (tasks.map fun task => (⟨task, none⟩ : Slot P E)).map (·.task.index) =
      tasks.map (·.index) := by simp [Function.comp_def]
  refine ⟨?_, ?_, ⟨first, ?_, ?_⟩, ?_, ?_, ?_⟩
  · simp [Workshop.enqueue, Backlog.submit, h.nextIndex]
  · simp only [Workshop.enqueue, Backlog.submit, List.map_append, hslots, h.line]
  · simp only [Backlog.submit, List.length_append, List.length_map]
    omega
  · simp only [Backlog.submit, List.map_append, List.length_append, List.length_map, hslots,
      hnumbered, hindex]
    rw [← hlength, List.range'_append_1]
  · have hfresh : (tasks.map fun task => (⟨task, none⟩ : Slot P E)).filter
        (·.finished.isNone) = tasks.map (⟨·, none⟩) := by
      simp [List.filter_eq_self]
    simp [Workshop.enqueue, Backlog.submit, h.jobs, hfresh, Function.comp_def]
  · intro slot hslot
    rcases List.mem_append.mp hslot with hold | hnew
    · exact h.channel slot hold
    · obtain ⟨task, htask, rfl⟩ := List.mem_map.mp hnew
      have hmem : task.index ∈ List.range' b.nextIndex tasks.length := by
        rw [← hindex]
        exact List.mem_map_of_mem htask
      exact h.fresh task.index (by rw [h.nextIndex]; exact (List.mem_range'_1.mp hmem).1)
  · intro index hle
    exact h.fresh index (Nat.le_trans (Nat.le_add_right _ _) hle)

theorem nodup_index (h : w.Represents b) : (b.slots.map (·.task.index)).Nodup := by
  obtain ⟨first, -, hnumbered⟩ := h.numbered
  rw [hnumbered]
  exact List.nodup_range'

theorem index_bounds (h : w.Represents b) {slot : Slot P E} (hslot : slot ∈ b.slots) :
    b.nextIndex ≤ slot.task.index + b.length ∧ slot.task.index < w.nextIndex := by
  obtain ⟨first, hlength, hnumbered⟩ := h.numbered
  have hmem : slot.task.index ∈ b.slots.map (·.task.index) := List.mem_map_of_mem hslot
  rw [hnumbered, List.mem_range'_1] at hmem
  rw [h.nextIndex, Backlog.length]
  omega

/-- Each job is that of one unfinished slot, and the jobs around it are those of
the slots around that one. -/
theorem slot_of_job (h : w.Represents b) {before after : List Task} {task : Task}
    (hj : w.jobs = before ++ task :: after) :
    ∃ earlier later, b.slots = earlier ++ ⟨task, none⟩ :: later ∧
      before = (earlier.filter (·.finished.isNone)).map (·.task) ∧
      after = (later.filter (·.finished.isNone)).map (·.task) := by
  have hjobs := h.jobs.symm.trans hj
  obtain ⟨slots, rest, hfilter, hbefore, hrest⟩ := List.map_eq_append_iff.mp hjobs
  obtain ⟨slot, unfinished, rfl, htask, hafter⟩ := List.map_eq_cons_iff.mp hrest
  obtain ⟨earlier, others, hslots, hearlier, hothers⟩ := List.filter_eq_append_iff.mp hfilter
  obtain ⟨passed, later, rfl, hpassed, hnone, hlater⟩ := List.filter_eq_cons_iff.mp hothers
  obtain ⟨task', finished⟩ := slot
  obtain rfl : task' = task := htask
  obtain rfl : finished = none := by simpa using hnone
  refine ⟨earlier ++ passed, later, by rw [hslots, List.append_assoc], ?_, ?_⟩
  · have hempty : passed.filter (·.finished.isNone) = [] := by
      simpa [List.filter_eq_nil_iff] using hpassed
    rw [List.filter_append, hempty, List.append_nil, hearlier, hbefore]
  · rw [hlater, hafter]

/-- A worker that is done with a job has finished its slot. No other slot has
the same number, so nothing else comes over the channels of those in line. -/
theorem settle (h : w.Represents b) {before after : List Task} {task : Task}
    (hj : w.jobs = before ++ task :: after) :
    ∃ place, b.slots[place]? = some ⟨task, none⟩ ∧
      (w.settle decoder task (before ++ after)).Represents (b.finish decoder place) := by
  obtain ⟨earlier, later, hslots, hbefore, hafter⟩ := h.slot_of_job hj
  have hfinish : (b.finish decoder earlier.length).slots =
      earlier ++ ⟨task, some (task.report decoder)⟩ :: later := by
    simp only [Backlog.finish, hslots]
    exact List.modifyTailIdx_add _ 0 earlier (⟨task, none⟩ :: later)
  have hother : ∀ slot, slot ∈ earlier ++ later → slot.task.index ≠ task.index := by
    intro slot hmem hsame
    have hnodup := h.nodup_index
    rw [hslots, (List.perm_middle.map _).nodup_iff, List.map_cons] at hnodup
    exact (List.nodup_cons.mp hnodup).1 (hsame ▸ List.mem_map_of_mem hmem)
  have hindex : (b.finish decoder earlier.length).slots.map (·.task.index) =
      b.slots.map (·.task.index) := by simp [hfinish, hslots]
  refine ⟨earlier.length, by simp [hslots], ?_, ?_, ?_, ?_, ?_, ?_⟩
  · exact h.nextIndex
  · exact h.line.trans hindex.symm
  · obtain ⟨first, hlength, hnumbered⟩ := h.numbered
    have hsame : (b.finish decoder earlier.length).slots.length = b.slots.length := by
      simp [hfinish, hslots]
    exact ⟨first, by rw [hsame]; exact hlength, by rw [hindex, hsame, hnumbered]⟩
  · simp [Workshop.settle, hfinish, hbefore, hafter]
  · intro slot hslot
    rw [hfinish, List.perm_middle.mem_iff, List.mem_cons] at hslot
    rcases hslot with rfl | hslot
    · exact if_pos rfl
    · have hmem : slot ∈ b.slots := by
        rw [hslots, List.perm_middle.mem_iff]
        exact List.mem_cons_of_mem _ hslot
      exact (if_neg (hother slot hslot)).trans (h.channel slot hmem)
  · intro index hle
    have hmem : (⟨task, none⟩ : Slot P E) ∈ b.slots := by simp [hslots]
    have hlt : task.index < index := Nat.lt_of_lt_of_le (h.index_bounds hmem).2 hle
    exact (if_neg (Nat.ne_of_gt hlt)).trans (h.fresh index hle)

/-- Only a finished slot can be taken from the head of the line, and what it
delivers is what has come over its channel. -/
theorem pop (h : w.Represents b) {index : Nat} {later : List Nat} {outcome : Outcome P E}
    (hline : w.line = index :: later)
    (hreceive : (w.channel index).receive? index = some outcome) :
    ∃ b', b.pop? decoder = some (outcome, b') ∧
      ({ w with line := later } : Workshop P E).Represents b' := by
  obtain ⟨slot, waiting, hslots, hindex, hlater⟩ :=
    List.map_eq_cons_iff.mp (h.line.symm.trans hline)
  have hchannel : w.channel index = slot.message := by
    rw [← hindex]
    exact h.channel slot (by simp [hslots])
  obtain ⟨task, finished⟩ := slot
  cases finished with
  | none => simp [hchannel, Slot.message, Message.receive?] at hreceive
  | some report =>
    have hawait : (⟨task, some report⟩ : Slot P E).await decoder = outcome := by
      rw [hchannel, ← hindex] at hreceive
      cases report <;> simpa [Slot.message, Message.ofReport, Message.receive?, Slot.await]
        using hreceive
    obtain ⟨first, hlength, hnumbered⟩ := h.numbered
    rw [hslots, List.length_cons] at hlength
    rw [hslots, List.map_cons, List.length_cons, List.range'_succ] at hnumbered
    refine ⟨{ b with slots := waiting }, by simp [Backlog.pop?, hslots, hawait], ?_⟩
    exact {
      nextIndex := h.nextIndex
      line := hlater.symm
      numbered := ⟨first + 1, by simp only; omega, (List.cons.inj hnumbered).2⟩
      jobs := by simpa [hslots] using h.jobs
      channel := fun slot hslot => h.channel slot (by simp [hslots, hslot])
      fresh := h.fresh }

end Represents

/-- Whatever the parts do, a backlog can do in one piece, with the same answer. -/
theorem Step.refines {w w' : Workshop P E} {b : Backlog P E} {event : Event P E}
    (h : Step decoder w event w') (hr : w.Represents b) :
    ∃ b', Backlog.Answers decoder b event b' ∧ w'.Represents b' := by
  cases h with
  | @dispatch size chunk hsize =>
    have henqueue := hr.enqueue size chunk
    rw [hr.nextIndex] at henqueue ⊢
    refine ⟨_, .dispatch ?_, henqueue⟩
    rw [Backlog.dispatch?, if_neg (Nat.ne_of_gt hsize)]
  | finish hj =>
    obtain ⟨place, hplace, hsettle⟩ := hr.settle hj
    exact ⟨_, .finish hplace, hsettle⟩
  | pop hline hreceive =>
    obtain ⟨b', hpop, hrest⟩ := hr.pop hline hreceive
    exact ⟨b', .pop hpop, hrest⟩
  | idle hline =>
    refine ⟨b, .idle (Backlog.pop?_eq_none.mpr ?_), hr⟩
    rw [← hr.length_line, hline]
    rfl

end Workshop

end TransportStream
