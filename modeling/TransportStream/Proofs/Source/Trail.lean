import TransportStream.Source.Gather

/-!
# Trails of requests

In a trail an interrupted read is followed by the same read, and any other fault ends
the trail. A read loop leaves a trail that ends with the fault it reports
(`trail_gather`).
-/
namespace TransportStream

/-- The fault of a request that is not tried again. Only reads are tried again,
and only where they were interrupted. -/
def Request.failure? : Request → Option Fault
  | .read _ _ (.error fault) => if fault.Interrupted then none else some fault
  | .rewind (.error fault) => some fault
  | .read _ _ (.ok _) | .rewind (.ok _) => none

inductive Trail : List Request → Option Fault → Prop
  | done : Trail [] none
  | read {offset wanted : Nat} {bytes : Bytes} {later : List Request} {failure : Option Fault} :
      Trail later failure → Trail (.read offset wanted (.ok bytes) :: later) failure
  | rewind {rewound : Bool} {later : List Request} {failure : Option Fault} :
      Trail later failure → Trail (.rewind (.ok rewound) :: later) failure
  | retried {offset wanted : Nat} {interruption : Fault} {answer : Except Fault Bytes}
      {later : List Request} {failure : Option Fault} : interruption.Interrupted →
      Trail (.read offset wanted answer :: later) failure →
      Trail (.read offset wanted (.error interruption) :: .read offset wanted answer :: later)
        failure
  | failed {request : Request} {fault : Fault} : request.failure? = some fault →
      Trail [request] (some fault)

theorem Request.failure?_of_interrupted {interruption : Fault} (h : interruption.Interrupted)
    (offset wanted : Nat) : (Request.read offset wanted (.error interruption)).failure? = none :=
  if_pos h

namespace Trail
variable {requests more before after later : List Request} {first request : Request}
variable {fault : Fault} {failure : Option Fault}

theorem append (h : Trail requests none) (h' : Trail more failure) :
    Trail (requests ++ more) failure := by
  generalize hnone : none = ended at h
  induction h with
  | done => exact h'
  | read _ ih => exact .read (ih hnone)
  | rewind _ ih => exact .rewind (ih hnone)
  | retried hf _ ih => exact .retried hf (ih hnone)
  | failed => cases hnone

theorem tail (h : Trail (first :: later) failure) (hne : later ≠ []) : Trail later failure := by
  cases h with
  | read h | rewind h | retried _ h => exact h
  | failed => exact absurd rfl hne

theorem suffix (h : Trail (before ++ request :: after) failure) :
    Trail (request :: after) failure := by
  induction before with
  | nil => exact h
  | cons _ before ih =>
    exact ih (h.tail (List.append_ne_nil_of_right_ne_nil before (List.cons_ne_nil request after)))

theorem last_of_failure (h : Trail (before ++ request :: after) failure)
    (hfault : request.failure? = some fault) : after = [] ∧ failure = some fault := by
  cases h.suffix with
  | read | rewind => cases hfault
  | retried hf =>
    rw [Request.failure?_of_interrupted hf] at hfault
    cases hfault
  | failed hrequest => exact ⟨rfl, hrequest.symm.trans hfault⟩

theorem again_of_interrupted {offset wanted : Nat}
    (h : Trail (before ++ .read offset wanted (.error fault) :: after) failure)
    (hf : fault.Interrupted) : ∃ answer later, after = .read offset wanted answer :: later := by
  cases h.suffix with
  | retried => exact ⟨_, _, rfl⟩
  | failed hrequest =>
    rw [Request.failure?_of_interrupted hf] at hrequest
    cases hrequest

theorem failure_of_last (h : Trail requests (some fault)) :
    ∃ before request, requests = before ++ [request] ∧ request.failure? = some fault := by
  generalize hsome : some fault = ended at h
  induction h with
  | done => cases hsome
  | read _ ih | rewind _ ih =>
    obtain ⟨before, request, rfl, hfault⟩ := ih hsome
    exact ⟨_ :: before, request, rfl, hfault⟩
  | retried _ _ ih =>
    obtain ⟨before, request, hlater, hfault⟩ := ih hsome
    exact ⟨_ :: before, request, congrArg (_ :: ·) hlater, hfault⟩
  | @failed request _ hrequest => exact ⟨[], request, rfl, hsome ▸ hrequest⟩

end Trail

/-- Some request failed, with this fault. -/
def FailedWith (requests : List Request) (fault : Fault) : Prop :=
  ∃ request ∈ requests, request.failure? = some fault

theorem failedWith_append {requests more : List Request} {fault : Fault} :
    FailedWith (requests ++ more) fault ↔ FailedWith requests fault ∨ FailedWith more fault := by
  unfold FailedWith
  simp only [List.mem_append, or_and_right, exists_or]

theorem Trail.failedWith_iff {requests : List Request} {failure : Option Fault} {fault : Fault}
    (h : Trail requests failure) : FailedWith requests fault ↔ failure = some fault := by
  constructor
  · rintro ⟨request, hmem, hfault⟩
    obtain ⟨before, after, rfl⟩ := List.append_of_mem hmem
    exact (h.last_of_failure hfault).2
  · rintro rfl
    obtain ⟨before, request, rfl, hfault⟩ := h.failure_of_last
    exact ⟨request, List.mem_append_right before (List.mem_singleton_self request), hfault⟩

/-- The last request was answered by no bytes. -/
def MetEnd (requests : List Request) : Prop :=
  ∃ offset wanted, requests.getLast? = some (.read offset wanted (.ok []))

theorem metEnd_append {before requests : List Request} (h : requests ≠ []) :
    MetEnd (before ++ requests) ↔ MetEnd requests := by
  unfold MetEnd
  rw [List.getLast?_append, List.getLast?_eq_some_getLast h]
  rfl

theorem Trail.not_metEnd {requests : List Request} {fault : Fault}
    (h : Trail requests (some fault)) : ¬MetEnd requests := by
  obtain ⟨before, request, rfl, hfault⟩ := h.failure_of_last
  rintro ⟨offset, wanted, hlast⟩
  rw [List.getLast?_concat] at hlast
  obtain rfl := Option.some.inj hlast
  cases hfault

theorem metEnd_cons {request : Request} {later : List Request}
    (h : ∀ offset wanted, request ≠ .read offset wanted (.ok [])) :
    MetEnd (request :: later) ↔ MetEnd later := by
  cases later with
  | nil => simp [MetEnd, h]
  | cons next later => exact @metEnd_append [request] _ (List.cons_ne_nil next later)

namespace Source

/-- A loop that wants bytes begins with a read for all of them. -/
theorem requests_gather (s : Source) {wanted : Nat} (hw : wanted ≠ 0) :
    ∃ answer later, (s.gather wanted).requests = .read s.position wanted answer :: later := by
  cases h : (s.read wanted).1 with
  | ok bytes =>
    by_cases hb : bytes = []
    · exact ⟨_, _, congrArg Exchange.requests (gather_of_end hw (hb ▸ h))⟩
    · exact ⟨_, _, congrArg Exchange.requests (gather_of_bytes hw hb h)⟩
  | error fault =>
    by_cases hf : fault.Interrupted
    · exact ⟨_, _, congrArg Exchange.requests (gather_of_interrupted hw hf h)⟩
    · exact ⟨_, _, congrArg Exchange.requests (gather_of_fault hw hf h)⟩

theorem trail_gather (s : Source) (wanted : Nat) :
    Trail (s.gather wanted).requests (s.gather wanted).result.fault := by
  fun_induction gather s wanted with
  | case1 => exact .done
  | case2 => exact .read .done
  | case3 s wanted hw b bs h ih => exact .read ih
  | case4 s wanted hw fault h hf ih =>
    obtain ⟨answer, later, hrequests⟩ := (s.read wanted).2.requests_gather hw
    rw [read_error_position h] at hrequests
    simp only [Exchange.requests_after, Exchange.result_after, List.singleton_append]
    rw [hrequests] at ih ⊢
    exact .retried hf ih
  | case5 s wanted hw fault h hf => exact .failed (if_neg hf)

theorem rewind_not_mem_gather (s : Source) (wanted : Nat) (answer : Except Fault Bool) :
    Request.rewind answer ∉ (s.gather wanted).requests := by
  fun_induction gather s wanted <;> simp_all

/-- A loop without a failure takes fewer bytes than wanted exactly where its
last read is answered by none. -/
theorem metEnd_gather {s : Source} {wanted : Nat} (h : (s.gather wanted).result.fault = none) :
    MetEnd (s.gather wanted).requests ↔ (s.gather wanted).result.bytes.length < wanted := by
  fun_induction gather s wanted with
  | case1 => simp [MetEnd]
  | case2 s wanted hw => simp [MetEnd, Nat.pos_of_ne_zero hw]
  | case3 s wanted hw b bs hr ih =>
    have hle := (read_bytes hr).1
    simp only [Exchange.requests_after, Exchange.requests_map, Exchange.result_after,
      Exchange.result_map, Intake.bytes_prepend, List.singleton_append, List.length_append,
      List.length_cons] at hle ⊢
    rw [metEnd_cons (by simp), ih h]
    omega
  | case4 s wanted hw fault hr hf ih =>
    simp only [Exchange.requests_after, Exchange.result_after, List.singleton_append]
    rw [metEnd_cons (by simp), ih h]
  | case5 => cases h

theorem end_mem_gather {s : Source} {wanted : Nat} (h : (s.gather wanted).result.fault = none)
    (hshort : (s.gather wanted).result.bytes.length < wanted) :
    ∃ count, .read (s.gather wanted).source.position count (.ok []) ∈
      (s.gather wanted).requests := by
  fun_induction gather s wanted with
  | case1 => cases hshort
  | case2 s wanted hw hr =>
    have hposition := (read_bytes hr).2.2
    exact ⟨wanted, by simp [hposition]⟩
  | case3 s wanted hw b bs hr ih =>
    simp only [Exchange.result_after, Exchange.result_map, Intake.bytes_prepend,
      List.length_append, List.length_cons] at hshort
    obtain ⟨count, hmem⟩ := ih h (by omega)
    exact ⟨count, List.mem_cons_of_mem _ hmem⟩
  | case4 s wanted hw fault hr hf ih =>
    obtain ⟨count, hmem⟩ := ih h hshort
    exact ⟨count, List.mem_cons_of_mem _ hmem⟩
  | case5 => cases h

end Source

end TransportStream
