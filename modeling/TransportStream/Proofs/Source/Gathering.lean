import TransportStream.Proofs.Source.Answered
import TransportStream.Proofs.Source.Interspersed

/-!
# The requests of one read loop

`Gathering` has one rule for each answer to a read, and a loop follows the rules on
every source (`gathering_gather`). Apart from interruptions every read brings a byte
or is the last one (`Gathering.settled_le`).
-/
namespace TransportStream

instance : DecidablePred Request.Interrupted
  | .read _ _ (.error fault) => inferInstanceAs (Decidable fault.Interrupted)
  | .read _ _ (.ok _) | .rewind _ => inferInstanceAs (Decidable False)

namespace Request

/-- A read behind which the same loop makes no other, whatever it still wants. -/
def Ends : Request → Prop
  | .read _ _ (.ok bytes) => bytes = []
  | .read _ _ (.error fault) => ¬fault.Interrupted
  | .rewind _ => False

/-- The first request that was not interrupted. -/
def firstSettled? (requests : List Request) : Option Request :=
  requests.find? fun request => ¬request.Interrupted

/-- How many requests were not interrupted. -/
def settled (requests : List Request) : Nat :=
  requests.countP fun request => ¬request.Interrupted

/-- How many requests were interrupted. -/
def interruptions (requests : List Request) : Nat :=
  requests.countP fun request => request.Interrupted

end Request

/-- From `offset`, reading until `wanted` bytes are there makes these requests,
and ends with a failure or with none. -/
inductive Gathering : Nat → Nat → List Request → Option Fault → Prop
  | full {offset : Nat} : Gathering offset 0 [] none
  | ended {offset wanted : Nat} : 0 < wanted →
      Gathering offset wanted [.read offset wanted (.ok [])] none
  | served {offset wanted : Nat} {bytes : Bytes} {later : List Request} {failure : Option Fault} :
      bytes ≠ [] → bytes.length ≤ wanted →
      Gathering (offset + bytes.length) (wanted - bytes.length) later failure →
      Gathering offset wanted (.read offset wanted (.ok bytes) :: later) failure
  | retried {offset wanted : Nat} {interruption : Fault} {later : List Request}
      {failure : Option Fault} : 0 < wanted → interruption.Interrupted →
      Gathering offset wanted later failure →
      Gathering offset wanted (.read offset wanted (.error interruption) :: later) failure
  | failed {offset wanted : Nat} {fault : Fault} : 0 < wanted → ¬fault.Interrupted →
      Gathering offset wanted [.read offset wanted (.error fault)] (some fault)

theorem Source.gathering_gather (s : Source) (wanted : Nat) :
    Gathering s.position wanted (s.gather wanted).requests (s.gather wanted).result.fault := by
  fun_induction gather s wanted with
  | case1 => exact .full
  | case2 s wanted hw h => exact .ended (Nat.pos_of_ne_zero hw)
  | case3 s wanted hw b bs h ih =>
    obtain ⟨hle, -, hposition⟩ := read_bytes h
    rw [hposition] at ih
    exact .served (List.cons_ne_nil b bs) hle ih
  | case4 s wanted hw fault h hf ih =>
    rw [read_error_position h] at ih
    exact .retried (Nat.pos_of_ne_zero hw) hf ih
  | case5 s wanted hw fault h hf => exact .failed (Nat.pos_of_ne_zero hw) hf

namespace Gathering
variable {offset wanted : Nat} {requests before after : List Request} {request : Request}
variable {failure : Option Fault}

theorem eq_nil_iff (h : Gathering offset wanted requests failure) : requests = [] ↔ wanted = 0 := by
  cases h with
  | full => simp
  | ended hw | retried hw | failed hw => simp [Nat.ne_of_gt hw]
  | served hb hle =>
    have hpos := List.length_pos_iff.mpr hb
    simp only [reduceCtorEq, false_iff]
    omega

theorem onward (h : Gathering offset wanted (before ++ request :: after) failure) :
    (Request.taken before).length < wanted ∧
      Gathering (offset + (Request.taken before).length)
        (wanted - (Request.taken before).length) (request :: after) failure := by
  induction before generalizing offset wanted with
  | nil =>
    have hw : wanted ≠ 0 := fun hw => List.cons_ne_nil _ _ (h.eq_nil_iff.mpr hw)
    exact ⟨Nat.pos_of_ne_zero hw, h⟩
  | cons first before ih =>
    rw [List.cons_append] at h
    generalize hlater : before ++ request :: after = later at h
    have hne : later ≠ [] :=
      hlater ▸ List.append_ne_nil_of_right_ne_nil before (List.cons_ne_nil request after)
    cases h with
    | ended | failed => exact absurd rfl hne
    | @served _ _ bytes _ _ hb hle h =>
      obtain ⟨hlt, hgathering⟩ := ih (hlater ▸ h)
      rw [Request.taken_cons, Request.bytes, List.length_append, ← Nat.add_assoc,
        ← Nat.sub_sub]
      exact ⟨by omega, hgathering⟩
    | retried hw hf h => exact ih (hlater ▸ h)

/-- The first read is for all that is wanted. It is the only one if it ends the
loop or brings everything. -/
theorem first (h : Gathering offset wanted (request :: after) failure) :
    (∃ answer, request = .read offset wanted answer) ∧
      (after = [] ↔ request.Ends ∨ request.bytes.length = wanted) := by
  cases h with
  | ended => exact ⟨⟨_, rfl⟩, by simp [Request.Ends]⟩
  | failed hw hf => exact ⟨⟨_, rfl⟩, by simp [Request.Ends, hf]⟩
  | retried hw hf hlater =>
    refine ⟨⟨_, rfl⟩, ?_⟩
    rw [hlater.eq_nil_iff]
    simp only [Request.Ends, hf, not_true, false_or, Request.bytes, List.length_nil, eq_comm]
  | served hb hle hlater =>
    refine ⟨⟨_, rfl⟩, ?_⟩
    rw [hlater.eq_nil_iff]
    simp only [Request.Ends, hb, false_or, Request.bytes]
    omega

/-- Each read is for all that is missing, from behind what is there. -/
theorem asks (h : Gathering offset wanted (before ++ request :: after) failure) :
    (∃ answer, request = .read (offset + (Request.taken before).length)
        (wanted - (Request.taken before).length) answer) ∧
      (Request.taken before).length < wanted ∧
      (after = [] ↔ request.Ends ∨
        (Request.taken (before ++ [request])).length = wanted) := by
  obtain ⟨hlt, hgathering⟩ := h.onward
  obtain ⟨hread, hlast⟩ := hgathering.first
  refine ⟨hread, hlt, hlast.trans (or_congr_right ?_)⟩
  rw [Request.taken_append, Request.taken_cons, Request.taken_nil, List.append_nil,
    List.length_append]
  omega

theorem room_pos (h : Gathering offset wanted requests failure) (hmem : request ∈ requests) :
    ∃ place room answer, request = .read place room answer ∧ 0 < room := by
  obtain ⟨before, after, rfl⟩ := List.append_of_mem hmem
  obtain ⟨⟨answer, hread⟩, hlt, -⟩ := h.asks
  exact ⟨_, _, answer, hread, Nat.sub_pos_of_lt hlt⟩

/-- Every read that is not interrupted brings a byte or is the last one. -/
theorem settled_le (h : Gathering offset wanted requests failure) :
    Request.settled requests ≤ wanted := by
  unfold Request.settled
  induction h with
  | full => exact Nat.le_refl 0
  | ended hw | failed hw => exact Nat.le_trans List.countP_le_length hw
  | @served offset wanted bytes later failure hb hle _ ih =>
    have hpos := List.length_pos_iff.mpr hb
    rw [List.countP_cons]
    split <;> omega
  | @retried offset wanted interruption later failure hw hf _ ih =>
    rw [List.countP_cons_of_neg (by simp [Request.Interrupted, hf])]
    exact ih

/-- A loop comes away with nothing, and without a failure, exactly if it is told
so before anything else. -/
theorem nothing_iff (h : Gathering offset wanted requests failure) (hw : 0 < wanted) :
    failure = none ∧ Request.taken requests = [] ↔
      ∃ place room, Request.firstSettled? requests = some (.read place room (.ok [])) := by
  unfold Request.firstSettled?
  induction h with
  | full => cases hw
  | ended => simp [Request.Interrupted, Request.bytes]
  | served hb => simp [Request.Interrupted, Request.bytes, hb]
  | @retried offset wanted interruption later failure _ hf _ ih =>
    rw [List.find?_cons_of_neg (by simp [Request.Interrupted, hf])]
    exact ih hw
  | failed _ hf => simp [Request.Interrupted, hf]

theorem failure_of_first {place room : Nat} {fault : Fault} (hf : ¬fault.Interrupted)
    (h : Gathering offset wanted (.read place room (.error fault) :: after) failure) :
    failure = some fault := by
  cases h with
  | retried _ hi => exact absurd hi hf
  | failed => rfl

/-- A loop fails exactly if some read of it does, and does so while bytes are missing. -/
theorem failure_iff (h : Gathering offset wanted requests failure) {fault : Fault} :
    failure = some fault ↔ ∃ before place room after,
      requests = before ++ .read place room (.error fault) :: after ∧ ¬fault.Interrupted ∧
        (Request.taken before).length < wanted := by
  constructor
  · intro hfailure
    induction h with
    | full | ended => cases hfailure
    | @served offset wanted bytes later failure hb hle _ ih =>
      obtain ⟨before, place, room, after, rfl, hf, hlt⟩ := ih hfailure
      refine ⟨_ :: before, place, room, after, rfl, hf, ?_⟩
      rw [Request.taken_cons, Request.bytes, List.length_append]
      omega
    | retried hw hi _ ih =>
      obtain ⟨before, place, room, after, rfl, hf, hlt⟩ := ih hfailure
      exact ⟨_ :: before, place, room, after, rfl, hf, hlt⟩
    | @failed offset wanted met hw hf =>
      obtain rfl := Option.some.inj hfailure
      exact ⟨[], offset, wanted, [], rfl, hf, hw⟩
  · rintro ⟨before, place, room, after, rfl, hf, -⟩
    exact h.onward.2.failure_of_first hf

end Gathering

end TransportStream
