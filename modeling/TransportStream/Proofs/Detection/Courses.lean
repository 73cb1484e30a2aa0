import TransportStream.Proofs.Detection
import TransportStream.Proofs.Reader.Faults
import TransportStream.Proofs.Source.Answered

/-!
# The courses of a detection

Whatever a source answers, the probes lead to one of five verdicts
(`verdict_measure`), and only an accepted head has a rewind requested
(`return_realign`).
-/
namespace TransportStream

open Request (taken)

namespace Detection
open Exchange

/-- A head that is searched for a second sync byte. -/
structure Searched (head : Bytes) : Prop where
  long : 193 ≤ head.length
  limited : head.length ≤ 205
  aligned : head[0]? = some 0x47

/-- From `start` on the probes made these requests, which brought this head. -/
inductive Verdict (start : Nat) (probes : List Request) (head : Bytes) :
    Except DetectionError Measure → Prop
  | short : head.length < 193 → EndedBefore (start + 193) probes →
      Verdict start probes head (.error (.rejected (.missingLeadingSync 193 head.length)))
  | unaligned {found : UInt8} : head.length = 193 →
      (∀ request ∈ probes, request.AimsAt (start + 193)) → head[0]? = some found →
      found ≠ 0x47 → Verdict start probes head (.error (.rejected (.notSyncAligned found)))
  | single : Searched head → (∀ i, 188 ≤ i → head[i]? ≠ some 0x47) →
      (head.length < 205 → EndedBefore (start + 205) probes) →
      Verdict start probes head (.error (.rejected (.noSecondSync head.length)))
  | second {place : Nat} : Searched head → SecondSync head place →
      Verdict start probes head (.ok ⟨place, head.length⟩)
  | failed {during : Operation} {fault : Fault} : ¬MetEnd probes →
      head.length < 193 ∨ Searched head ∧ head.length < 205 →
      Verdict start probes head (.error (.io during fault))

theorem result_readUpTo_of_fault {s : Source} {wanted : Nat} {fault : Fault}
    (h : (s.gather wanted).result.fault = some fault) (during : Operation) :
    ((s.readUpTo wanted).mapError (.io during)).result =
      .error (DetectionError.io during fault) := by
  simp only [mapError, Source.readUpTo, result_map, h]
  rfl

theorem result_readUpTo_of_none {s : Source} {wanted : Nat}
    (h : (s.gather wanted).result.fault = none) (during : Operation) :
    ((s.readUpTo wanted).mapError (DetectionError.io during)).result =
      .ok (s.gather wanted).result.bytes := by
  simp only [mapError, Source.readUpTo, result_map, h]
  rfl

theorem requests_judgeMore (head more : Bytes) (s : Source) :
    (judgeMore head more s).requests = [] := by
  unfold judgeMore
  split <;> rfl

section
variable {s : Source} {head : Bytes}

theorem verdict_extended (hprobe : (s.gather 193).result = ⟨head, none⟩)
    (hfull : head.length = 193) (haligned : head[0]? = some 0x47) :
    let x := (((s.gather 193).source.readUpTo 12).mapError (.io (.extendingProbe 205))).andThen
      (judgeMore head)
    Verdict s.position ((s.gather 193).requests ++ x.requests) (head ++ taken x.requests)
      x.result := by
  intro x
  let more := (s.gather 193).source.gather 12
  have hposition : (s.gather 193).source.position + 12 = s.position + 205 := by
    rw [Source.position_gather, hprobe, hfull]
  have htaken : taken more.requests = more.result.bytes := Source.taken_gather _ 12
  have hlimit : more.result.bytes.length ≤ 12 := Source.gather_length_le _ 12
  have hlength : (head ++ more.result.bytes).length = 193 + more.result.bytes.length := by
    rw [List.length_append, hfull]
  have hsearched : Searched (head ++ more.result.bytes) := by
    refine ⟨by omega, by omega, ?_⟩
    rw [List.getElem?_append_left (by omega)]
    exact haligned
  cases hmore : more.result.fault with
  | some fault =>
    have hx : x = ⟨.error (.io (.extendingProbe 205) fault), more.source, more.requests⟩ :=
      andThen_of_error (result_readUpTo_of_fault hmore _) _
    have hfirst := s.trail_gather 193
    have hlater := (s.gather 193).source.trail_gather 12
    rw [hprobe] at hfirst
    have htrail := hfirst.append hlater
    rw [hmore] at htrail
    have hmissing : more.result.bytes.length < 12 := Source.length_lt_of_fault hmore
    rw [hx, htaken]
    exact .failed htrail.not_metEnd (.inr ⟨hsearched, by omega⟩)
  | none =>
    have hx : x = (judgeMore head more.result.bytes more.source).after more.requests :=
      andThen_of_ok (result_readUpTo_of_none hmore _) _
    have hrequests : x.requests = more.requests := by
      rw [hx, requests_after, requests_judgeMore, List.append_nil]
    rw [hrequests, htaken, hx, result_after]
    unfold judgeMore
    cases hnext : nextSync (head ++ more.result.bytes) with
    | some place => exact .second hsearched (nextSync_eq_some_iff.mp hnext)
    | none =>
      refine .single hsearched (nextSync_eq_none_iff.mp hnext) fun hshort => ?_
      have hmissing : more.result.bytes.length < 12 := by omega
      rw [← hposition]
      exact (Source.endedBefore_gather hmore hmissing).append _

/-- Judging what the first probe brought, without a fault. -/
theorem verdict_judgeHead (hprobe : (s.gather 193).result = ⟨head, none⟩) :
    let x := judgeHead head (s.gather 193).source
    Verdict s.position ((s.gather 193).requests ++ x.requests) (head ++ taken x.requests)
      x.result := by
  intro x
  have hfault : (s.gather 193).result.fault = none := congrArg Intake.fault hprobe
  have hbytes : (s.gather 193).result.bytes = head := congrArg Intake.bytes hprobe
  have hlimit : head.length ≤ 193 := hbytes ▸ s.gather_length_le 193
  by_cases hshort : head.length < 193
  · have hx : x = _ := judgeHead_of_short hshort
    rw [hx]
    simp only [done, Request.taken_nil, List.append_nil]
    exact .short hshort (Source.endedBefore_gather hfault (hbytes ▸ hshort))
  have hfull : head.length = 193 := by omega
  obtain ⟨first, later, hhead⟩ := List.exists_cons_of_length_pos (show 0 < head.length by omega)
  have hfirst : head[0]? = some (head.headD 0) := by rw [hhead]; rfl
  by_cases haligned : head.headD 0 ≠ 0x47
  · have hx : x = _ := judgeHead_of_unaligned hshort haligned
    rw [hx]
    simp only [done, Request.taken_nil, List.append_nil]
    exact .unaligned hfull (s.aims_gather 193) hfirst haligned
  have hsync : head[0]? = some 0x47 := hfirst.trans (congrArg some (Decidable.not_not.mp haligned))
  cases hnext : nextSync head with
  | some place =>
    have hx : x = _ := judgeHead_of_second hshort haligned hnext
    rw [hx]
    simp only [done, Request.taken_nil, List.append_nil]
    exact .second ⟨by omega, by omega, hsync⟩ (nextSync_eq_some_iff.mp hnext)
  | none =>
    have hx : x = _ := judgeHead_of_single hshort haligned hnext
    rw [hx]
    exact verdict_extended hprobe hfull hsync

end

theorem verdict_measure (s : Source) :
    Verdict s.position (measure s).requests (taken (measure s).requests) (measure s).result := by
  have htaken := s.taken_gather 193
  cases hfault : (s.gather 193).result.fault with
  | some fault =>
    have hx : measure s =
        ⟨.error (.io (.probing 193) fault), (s.gather 193).source, (s.gather 193).requests⟩ :=
      andThen_of_error (result_readUpTo_of_fault hfault _) _
    have htrail := s.trail_gather 193
    rw [hfault] at htrail
    rw [hx, htaken]
    exact .failed htrail.not_metEnd (.inl (Source.length_lt_of_fault hfault))
  | none =>
    have hx : measure s =
        (judgeHead (s.gather 193).result.bytes (s.gather 193).source).after
          (s.gather 193).requests :=
      andThen_of_ok (result_readUpTo_of_none hfault _) _
    have hprobe : (s.gather 193).result = ⟨(s.gather 193).result.bytes, none⟩ := by
      rw [← hfault]
    rw [hx, requests_after, Request.taken_append, htaken]
    exact verdict_judgeHead hprobe

theorem head_of_measure {s : Source} {m : Measure} (h : (measure s).result = .ok m) :
    (taken (measure s).requests).length = m.window ∧ Searched (taken (measure s).requests) ∧
      SecondSync (taken (measure s).requests) m.packetSize := by
  have hverdict := verdict_measure s
  rw [h] at hverdict
  cases hverdict with
  | second hsearched hsecond => exact ⟨rfl, hsearched, hsecond⟩

/-- Whatever the source answers, a measured size lies inside the window, which
has at most 205 bytes. -/
theorem window_of_measure {s : Source} {m : Measure} (h : (measure s).result = .ok m) :
    188 ≤ m.packetSize ∧ m.packetSize < m.window ∧ m.window ≤ 205 := by
  obtain ⟨hlength, hsearched, hsecond⟩ := head_of_measure h
  have hinside := hsecond.lt_length
  have hlimit := hsearched.limited
  exact ⟨hsecond.beyond, by omega, by omega⟩

theorem length_of_readExactly {s : Source} {wanted : Nat} {bytes : Bytes}
    (h : (s.readExactly wanted).result = .ok bytes) :
    (s.gather wanted).result.bytes.length = wanted := by
  have hlimit := s.gather_length_le wanted
  rw [Source.readExactly, result_map] at h
  cases hfault : (s.gather wanted).result.fault with
  | some fault => simp [hfault] at h
  | none =>
    rw [hfault] at h
    by_cases hshort : (s.gather wanted).result.bytes.length < wanted
    · simp [hshort] at h
    · omega

/-- The ways back to a packet boundary, each with the requests that it took. -/
inductive Return (m : Measure) : Exchange (Except DetectionError Resync) → Prop
  | rewound {left : Source} : left.position = 0 →
      Return m ⟨.ok .rewound, left, [.rewind (.ok true)]⟩
  | skipped {left : Source} {skips : List Request} : (∀ answer, .rewind answer ∉ skips) →
      (taken skips).length = m.skip →
      Return m ⟨.ok (.skipped m.skip), left, .rewind (.ok false) :: skips⟩
  | failed {during : Operation} {fault : Fault} {left : Source} {requests : List Request} :
      Return m ⟨.error (.io during fault), left, requests⟩

theorem return_realign (m : Measure) (s : Source) : Return m (realign m s) := by
  cases hr : s.rewinding with
  | supported =>
    have hx : realign m s = ⟨.ok .rewound, { s with position := 0 }, [.rewind (.ok true)]⟩ := by
      unfold realign Source.rewind
      rw [hr]
      rfl
    rw [hx]
    exact .rewound rfl
  | failing fault =>
    have hx : realign m s = ⟨.error (.io .rewinding fault), s, [.rewind (.error fault)]⟩ := by
      unfold realign Source.rewind
      rw [hr]
      rfl
    rw [hx]
    exact .failed
  | unsupported =>
    rw [realign_of_unsupported m hr, andThen_done]
    cases hread : (s.readExactly m.skip).result with
    | error fault =>
      simp only [after, map, mapError, hread]
      exact .failed
    | ok bytes =>
      have hlength := length_of_readExactly hread
      simp only [after, map, mapError, hread]
      refine .skipped (s.rewind_not_mem_gather m.skip) ?_
      exact (congrArg List.length (s.taken_gather m.skip)).trans hlength

theorem requests_detect {s : Source} {m : Measure} (h : (measure s).result = .ok m) :
    (detect s).requests = (measure s).requests ++ (realign m (measure s).source).requests := by
  rw [detect, Exchange.andThen_of_ok h]
  rfl

theorem answered_judgeHead (head : Bytes) (s : Source) :
    s.Answered (judgeHead head s).requests (judgeHead head s).source := by
  unfold judgeHead
  split
  · exact .done s
  split
  · exact .done s
  split
  · exact .done s
  refine Source.Answered.andThen (s.answered_gather _) fun more left => ?_
  unfold judgeMore
  split <;> exact .done left

theorem answered_realign (m : Measure) (s : Source) :
    s.Answered (realign m s).requests (realign m s).source := by
  refine Source.Answered.andThen s.answered_rewind fun rewound left => ?_
  split
  · exact .done left
  · exact Source.Answered.andThen (left.answered_gather _) fun _ last => .done last

theorem answered_measure (s : Source) :
    s.Answered (measure s).requests (measure s).source :=
  Source.Answered.andThen (s.answered_gather _) answered_judgeHead

end Detection

theorem answered_detect (s : Source) : s.Answered (detect s).requests (detect s).source :=
  Source.Answered.andThen (Detection.answered_measure s) fun m left =>
    Detection.answered_realign m left

end TransportStream
