import TransportStream.Proofs.Source.Answered
import TransportStream.Proofs.Source.Steady
import TransportStream.Source.Basic

/-!
# Where the reads of a plain source begin

A read loop on a plain source is done with one read that brings bytes
(`offsets_gather`).
-/
namespace TransportStream

namespace Request
variable {requests more : List Request}

@[simp] theorem offsets_nil : offsets [] = [] := rfl

@[simp] theorem offsets_append : offsets (requests ++ more) = offsets requests ++ offsets more :=
  List.filterMap_append

end Request

namespace Source

structure Plain (s : Source) : Prop where
  answers : s.answers = []
  barrier : s.barrier = none

theorem plain_scripted (data : Bytes) (rewinding : Rewinding) :
    (scripted data rewinding).Plain := ⟨rfl, rfl⟩

namespace Plain
variable {s : Source}

theorem steady (hs : s.Plain) : s.Steady := by
  refine ⟨fun answer h => ?_, fun barrier h => ?_⟩
  · rw [hs.answers] at h
    cases h
  · rw [hs.barrier] at h
    cases h

theorem read_eq (hs : s.Plain) (wanted : Nat) : s.read wanted = s.serve wanted := by
  have hclear : s.clear wanted = .ok wanted := by simp only [clear, hs.barrier]
  simp only [Source.read, hclear, hs.answers]

theorem read (hs : s.Plain) (wanted : Nat) : (s.read wanted).2.Plain := by
  rw [hs.read_eq]
  exact ⟨hs.answers, hs.barrier⟩

theorem rewind (hs : s.Plain) : s.rewind.source.Plain := by
  unfold Source.rewind
  split <;> exact ⟨hs.answers, hs.barrier⟩

theorem of_answered {requests : List Request} {left : Source} (hs : s.Plain)
    (h : s.Answered requests left) : left.Plain := by
  induction h with
  | done => exact hs
  | read _ ih => exact ih (hs.read _)
  | rewind _ ih => exact ih hs.rewind

theorem gather (hs : s.Plain) (wanted : Nat) : (s.gather wanted).source.Plain :=
  hs.of_answered (s.answered_gather wanted)

theorem offsets_gather_of_done (hs : s.Plain) {wanted : Nat} (h : wanted = 0 ∨ s.rest = []) :
    Request.offsets (s.gather wanted).requests = [] := by
  by_cases hw : wanted = 0
  · rw [hw, gather_zero]
    rfl
  · have hend : (s.read wanted).1 = .ok [] := by
      rw [hs.read_eq, serve_eq, h.resolve_left hw, List.take_nil]
    rw [gather_of_end hw hend]
    rfl

theorem offsets_gather (hs : s.Plain) {wanted : Nat} (hw : wanted ≠ 0) (hrest : s.rest ≠ []) :
    Request.offsets (s.gather wanted).requests = [s.position] := by
  have hread : (s.read wanted).1 = .ok (s.rest.take wanted) := by
    rw [hs.read_eq, serve_eq]
  have hbytes : s.rest.take wanted ≠ [] := by
    simp only [ne_eq, List.take_eq_nil_iff, hw, hrest, or_self, not_false_eq_true]
  have hlater : (s.read wanted).2.rest = s.rest.drop wanted :=
    List.append_cancel_left ((read_rest hread).symm.trans (List.take_append_drop ..).symm)
  obtain ⟨b, bs, hcons⟩ := List.exists_cons_of_ne_nil hbytes
  have hdone : Request.offsets ((s.read wanted).2.gather
      (wanted - (s.rest.take wanted).length)).requests = [] := by
    refine (hs.read wanted).offsets_gather_of_done ?_
    rw [hlater, List.drop_eq_nil_iff, List.length_take]
    omega
  rw [gather_of_bytes hw hbytes hread, Exchange.requests_after, Exchange.requests_map,
    Request.offsets_append, hdone, hcons]
  rfl

end Plain

end Source

end TransportStream
