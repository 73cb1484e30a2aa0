import TransportStream.Proofs.Source.Trail

/-!
# What requests tell of a source

`Answered` says that some requests are those that a source has answered in turn, and
which source they leave. The bytes they brought are the next ones (`Answered.rest`).
-/
namespace TransportStream

/-- The bytes that a request brought. -/
def Request.bytes : Request → Bytes
  | .read _ _ (.ok bytes) => bytes
  | .read _ _ (.error _) | .rewind _ => []

/-- The bytes that some requests brought, one after the other. -/
def Request.taken (requests : List Request) : Bytes := requests.flatMap Request.bytes

/-- Answered in full, the request would bring the source to this place. -/
def Request.AimsAt (target : Nat) : Request → Prop
  | .read offset wanted _ => offset + wanted = target
  | .rewind _ => target = 0

/-- The last request was to bring the source to this place and was answered by no bytes. -/
def EndedBefore (target : Nat) (requests : List Request) : Prop :=
  ∃ offset wanted, requests.getLast? = some (.read offset wanted (.ok [])) ∧
    offset + wanted = target

namespace Request

@[simp] theorem taken_nil : taken [] = [] := rfl

@[simp] theorem taken_cons (request : Request) (later : List Request) :
    taken (request :: later) = request.bytes ++ taken later := List.flatMap_cons

@[simp] theorem taken_append (requests more : List Request) :
    taken (requests ++ more) = taken requests ++ taken more := List.flatMap_append

end Request

theorem EndedBefore.metEnd {target : Nat} {requests : List Request}
    (h : EndedBefore target requests) : MetEnd requests := by
  obtain ⟨offset, wanted, hlast, -⟩ := h
  exact ⟨offset, wanted, hlast⟩

theorem EndedBefore.of_aims {target : Nat} {requests : List Request} (h : MetEnd requests)
    (haims : ∀ request ∈ requests, request.AimsAt target) : EndedBefore target requests := by
  obtain ⟨offset, wanted, hlast⟩ := h
  exact ⟨offset, wanted, hlast, haims _ (List.mem_of_getLast? hlast)⟩

theorem EndedBefore.append {target : Nat} {requests : List Request}
    (h : EndedBefore target requests) (before : List Request) :
    EndedBefore target (before ++ requests) := by
  obtain ⟨offset, wanted, hlast, htarget⟩ := h
  refine ⟨offset, wanted, ?_, htarget⟩
  rw [List.getLast?_append, hlast]
  rfl

namespace Source

/-- From `s`, these requests are answered as recorded and leave the source `left`. -/
inductive Answered : Source → List Request → Source → Prop
  | done (s : Source) : Answered s [] s
  | read {s left : Source} {wanted : Nat} {later : List Request} :
      Answered (s.read wanted).2 later left →
      Answered s (.read s.position wanted (s.read wanted).1 :: later) left
  | rewind {s left : Source} {later : List Request} :
      Answered s.rewind.source later left → Answered s (.rewind s.rewind.result :: later) left

namespace Answered
variable {s mid left : Source} {requests more : List Request}

theorem append (h : Answered s requests mid) (h' : Answered mid more left) :
    Answered s (requests ++ more) left := by
  induction h with
  | done => exact h'
  | read _ ih => exact .read (ih h')
  | rewind _ ih => exact .rewind (ih h')

theorem read_of {wanted : Nat} {answer : Except Fault Bytes} (hr : (s.read wanted).1 = answer)
    (h : Answered (s.read wanted).2 requests left) :
    Answered s (.read s.position wanted answer :: requests) left :=
  hr ▸ .read h

theorem andThen {α β ε : Type} {x : Exchange (Except ε α)}
    {next : α → Source → Exchange (Except ε β)} (h : Answered s x.requests x.source)
    (hnext : ∀ a s', Answered s' (next a s').requests (next a s').source) :
    Answered s (x.andThen next).requests (x.andThen next).source := by
  cases hx : x.result with
  | error e =>
    rw [Exchange.andThen_of_error hx]
    exact h
  | ok a =>
    rw [Exchange.andThen_of_ok hx]
    exact h.append (hnext a x.source)

theorem data (h : Answered s requests left) : left.data = s.data := by
  induction h with
  | done => rfl
  | @read s left wanted later _ ih => exact ih.trans (s.read_data wanted)
  | @rewind s left later _ ih =>
    refine ih.trans ?_
    unfold Source.rewind
    cases s.rewinding <;> rfl

/-- Without a rewind that was granted, what the requests brought are the next bytes. -/
theorem rest (h : Answered s requests left) (honward : .rewind (.ok true) ∉ requests) :
    s.rest = Request.taken requests ++ left.rest := by
  induction h with
  | done => rfl
  | @read s left wanted later _ ih =>
    have hlater := ih fun hmem => honward (List.mem_cons_of_mem _ hmem)
    rw [Request.taken_cons, List.append_assoc, ← hlater]
    cases hr : (s.read wanted).1 with
    | ok bytes => exact read_rest hr
    | error fault => exact (read_error_rest hr).symm
  | @rewind s left later _ ih =>
    have hlater := ih fun hmem => honward (List.mem_cons_of_mem _ hmem)
    have hgranted : s.rewind.result ≠ .ok true := by
      intro hresult
      rw [hresult] at honward
      exact honward (List.mem_cons_self ..)
    have hsource : s.rewind.source = s := by
      unfold Source.rewind at hgranted ⊢
      cases hs : s.rewinding with
      | supported => simp [hs] at hgranted
      | unsupported | failing => rfl
    rwa [hsource] at hlater

end Answered

theorem answered_gather (s : Source) (wanted : Nat) :
    Answered s (s.gather wanted).requests (s.gather wanted).source := by
  fun_induction gather s wanted with
  | case1 s => exact .done s
  | case2 s wanted hw h => exact .read_of h (.done _)
  | case3 s wanted hw b bs h ih => exact .read_of h ih
  | case4 s wanted hw fault h hf ih => exact .read_of h ih
  | case5 s wanted hw fault h hf => exact .read_of h (.done _)

theorem answered_rewind (s : Source) : Answered s s.rewind.requests s.rewind.source := by
  have hrequests : s.rewind.requests = [.rewind s.rewind.result] := by
    unfold rewind
    cases s.rewinding <;> rfl
  rw [hrequests]
  exact .rewind (.done _)

theorem taken_gather (s : Source) (wanted : Nat) :
    Request.taken (s.gather wanted).requests = (s.gather wanted).result.bytes := by
  fun_induction gather s wanted with
  | case1 | case2 | case5 => rfl
  | case3 s wanted hw b bs h ih =>
    rw [Exchange.result_after, Exchange.result_map, Intake.bytes_prepend]
    exact congrArg ((b :: bs) ++ ·) ih
  | case4 s wanted hw fault h hf ih => exact ih

theorem aims_gather (s : Source) (wanted : Nat) :
    ∀ request ∈ (s.gather wanted).requests, request.AimsAt (s.position + wanted) := by
  intro request hmem
  fun_induction gather s wanted with
  | case1 => cases hmem
  | case2 s wanted hw h =>
    obtain rfl := List.mem_singleton.mp hmem
    rfl
  | case3 s wanted hw b bs h ih =>
    obtain ⟨hle, -, hposition⟩ := read_bytes h
    rw [List.length_cons] at hle hposition
    rcases List.mem_cons.mp hmem with rfl | hlater
    · rfl
    · have haims := ih hlater
      rwa [hposition, Nat.add_assoc, Nat.add_sub_cancel' hle] at haims
  | case4 s wanted hw fault h hf ih =>
    rcases List.mem_cons.mp hmem with rfl | hlater
    · rfl
    · exact read_error_position h ▸ ih hlater
  | case5 s wanted hw fault h hf =>
    obtain rfl := List.mem_singleton.mp hmem
    rfl

theorem length_lt_of_fault {s : Source} {wanted : Nat} {fault : Fault}
    (h : (s.gather wanted).result.fault = some fault) :
    (s.gather wanted).result.bytes.length < wanted := by
  fun_induction gather s wanted with
  | case1 | case2 => cases h
  | case3 s wanted hw b bs hr ih =>
    have hle := (read_bytes hr).1
    have hlater := ih h
    simp only [Exchange.result_after, Exchange.result_map, Intake.bytes_prepend,
      List.length_append, List.length_cons] at hle hlater ⊢
    omega
  | case4 s wanted hw fault' hr hf ih => exact ih h
  | case5 s wanted hw fault' hr hf => exact Nat.pos_of_ne_zero hw

/-- A loop that ends short of what it wanted, without a fault, was told so by its last read. -/
theorem endedBefore_gather {s : Source} {wanted : Nat}
    (h : (s.gather wanted).result.fault = none)
    (hshort : (s.gather wanted).result.bytes.length < wanted) :
    EndedBefore (s.position + wanted) (s.gather wanted).requests :=
  .of_aims ((metEnd_gather h).mpr hshort) (s.aims_gather wanted)

end Source

end TransportStream
