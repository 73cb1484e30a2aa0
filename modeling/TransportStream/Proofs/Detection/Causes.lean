import TransportStream.Proofs.Detection.Courses
import Mathlib.Control.Monad.Basic

/-!
# Why a detection fails

The requests show which failure a detection has to report: a rejection has its
grounds in the probes (`Grounds`), and a failed request is reported as a fault. The
conditions exclude one another (`detect_error_iff`).
-/
namespace TransportStream

open Request (taken)

namespace Detection

/-- What has to be seen of the requests for a rejection. -/
def Grounds (start : Nat) (requests : List Request) : Rejection → Prop
  | .missingLeadingSync needed available =>
    needed = 193 ∧ available < 193 ∧ (taken requests).length = available ∧
      EndedBefore (start + 193) requests
  | .notSyncAligned found =>
    (taken requests).length = 193 ∧ (taken requests)[0]? = some found ∧ found ≠ 0x47
  | .noSecondSync window =>
    (taken requests).length = window ∧ 193 ≤ window ∧ window ≤ 205 ∧
      (taken requests)[0]? = some 0x47 ∧
      (∀ i, 188 ≤ i → i < window → (taken requests)[i]? ≠ some 0x47) ∧
      (window < 205 → EndedBefore (start + 205) requests)

section
variable {start : Nat} {probes : List Request} {reason : Rejection}

theorem grounds_of_verdict
    (h : Verdict start probes (taken probes) (.error (.rejected reason))) :
    Grounds start probes reason := by
  cases h with
  | short hshort hended => exact ⟨rfl, hshort, rfl, hended⟩
  | unaligned hfull _ hfirst hne => exact ⟨hfull, hfirst, hne⟩
  | single hsearched hnone hended =>
    exact ⟨rfl, hsearched.long, hsearched.limited, hsearched.aligned,
      fun i hi _ => hnone i hi, hended⟩

theorem Searched.ne_found {head : Bytes} {found : UInt8} (h : Searched head)
    (hfirst : head[0]? = some found) : found = 0x47 :=
  Option.some.inj (hfirst.symm.trans h.aligned)

theorem verdict_of_grounds {e : DetectionError}
    (h : Verdict start probes (taken probes) (.error e)) (hgrounds : Grounds start probes reason) :
    e = .rejected reason := by
  cases reason with
  | missingLeadingSync needed available =>
    obtain ⟨rfl, hshort, rfl, hended⟩ := hgrounds
    cases h with
    | short => rfl
    | unaligned hfull => omega
    | single hsearched => exact absurd hsearched.long (by omega)
    | failed hnot => exact absurd hended.metEnd hnot
  | notSyncAligned found =>
    obtain ⟨hfull, hfirst, hne⟩ := hgrounds
    cases h with
    | short hshort => omega
    | unaligned _ _ hfound => rw [Option.some.inj (hfound.symm.trans hfirst)]
    | single hsearched => exact absurd (hsearched.ne_found hfirst) hne
    | failed _ hhead =>
      rcases hhead with hshort | ⟨hsearched, -⟩
      · omega
      · exact absurd (hsearched.ne_found hfirst) hne
  | noSecondSync window =>
    obtain ⟨rfl, hlong, hlimit, hfirst, -, hended⟩ := hgrounds
    cases h with
    | short hshort => omega
    | unaligned _ _ hfound hne => exact absurd (Option.some.inj (hfound.symm.trans hfirst)) hne
    | single => rfl
    | failed hnot hhead =>
      rcases hhead with hshort | ⟨-, hshort⟩
      · omega
      · exact absurd (hended hshort).metEnd hnot

/-- An accepted head leaves no ground for a rejection, whatever was requested behind it. -/
theorem not_grounds_of_second {place : Nat} (hsearched : Searched (taken probes))
    (hsecond : SecondSync (taken probes) place) (later : List Request) :
    ¬Grounds start (probes ++ later) reason := by
  have hlong := hsearched.long
  have hinside := hsecond.lt_length
  have hlength : (taken (probes ++ later)).length = _ :=
    (congrArg List.length (Request.taken_append probes later)).trans List.length_append
  have hkept : ∀ i, i < (taken probes).length →
      (taken (probes ++ later))[i]? = (taken probes)[i]? := by
    intro i hi
    rw [Request.taken_append, List.getElem?_append_left hi]
  intro hgrounds
  cases reason with
  | missingLeadingSync needed available =>
    obtain ⟨-, hshort, rfl, -⟩ := hgrounds
    omega
  | notSyncAligned found =>
    obtain ⟨-, hfirst, hne⟩ := hgrounds
    rw [hkept 0 (by omega)] at hfirst
    exact hne (hsearched.ne_found hfirst)
  | noSecondSync window =>
    obtain ⟨rfl, -, -, -, hnone, -⟩ := hgrounds
    refine hnone place hsecond.beyond (by omega) ?_
    rw [hkept place hinside]
    exact hsecond.held

end

variable {s : Source}

/-- Behind an accepted head nothing is rejected. -/
theorem result_ne_rejected {m : Measure} (h : (measure s).result = .ok m) (reason : Rejection) :
    (detect s).result ≠ .error (.rejected reason) := by
  rw [(detect_of_ok h).1]
  have hreturn := return_realign m (measure s).source
  generalize realign m (measure s).source = x at hreturn
  cases hreturn with
  | rewound | skipped | failed => exact nofun

theorem detect_eq_of_error {e : DetectionError} (h : (measure s).result = .error e) :
    detect s = ⟨.error e, (measure s).source, (measure s).requests⟩ :=
  Exchange.andThen_of_error h _

theorem rejected_iff_grounds (s : Source) (reason : Rejection) :
    (detect s).result = .error (.rejected reason) ↔
      Grounds s.position (detect s).requests reason := by
  have hverdict := verdict_measure s
  cases hmeasure : (measure s).result with
  | error e =>
    rw [hmeasure] at hverdict
    rw [detect_eq_of_error hmeasure, Except.error.injEq]
    constructor
    · rintro rfl
      exact grounds_of_verdict hverdict
    · exact verdict_of_grounds hverdict
  | ok m =>
    obtain ⟨-, hsearched, hsecond⟩ := head_of_measure hmeasure
    rw [requests_detect hmeasure]
    exact iff_of_false (result_ne_rejected hmeasure reason)
      (not_grounds_of_second hsearched hsecond _)

theorem failure?_eq_some_iff {α : Type} {x : Exchange (Except DetectionError α)} {fault : Fault} :
    x.failure? = some fault ↔ ∃ during, x.result = .error (.io during fault) := by
  unfold Exchange.failure? Exchange.reported
  cases x.result with
  | ok a => simp
  | error e => cases e <;> simp [DetectionError.io?]

/-- A fault is reported for the request that failed, or for a skip that met the end. -/
theorem io_iff_failedWith (s : Source) (fault : Fault) :
    (∃ during, (detect s).result = .error (.io during fault)) ↔
      FailedWith (detect s).requests fault ∨
        fault = .endedEarly ∧ SkipMetEnd (detect s).requests := by
  rw [← failure?_eq_some_iff]
  cases explained_detect s with
  | plain htrail hskip =>
    rw [htrail.failedWith_iff]
    exact (or_iff_left fun hend => hskip hend.2).symm
  | skip count hreported htrail hskip =>
    have hfailure : (detect s).failure? = some .endedEarly := by
      rw [Exchange.failure?, hreported]
      rfl
    rw [htrail.failedWith_iff, hfailure, Option.some.injEq]
    simp [hskip, eq_comm]

theorem probes_of_rejected {reason : Rejection}
    (h : (detect s).result = .error (.rejected reason)) :
    (measure s).result = .error (.rejected reason) ∧
      (detect s).requests = (measure s).requests := by
  cases hmeasure : (measure s).result with
  | error e =>
    rw [detect_eq_of_error hmeasure] at h ⊢
    exact ⟨congrArg Except.error (Except.error.inj h), rfl⟩
  | ok m => exact absurd h (result_ne_rejected hmeasure reason)

/-- Where a rejection is reported, nothing has failed and no rewind was requested. -/
theorem calm_of_rejected {reason : Rejection}
    (h : (detect s).result = .error (.rejected reason)) :
    (∀ answer, .rewind answer ∉ (detect s).requests) ∧
      ∀ fault, ¬FailedWith (detect s).requests fault := by
  obtain ⟨hmeasure, hrequests⟩ := probes_of_rejected h
  have hfailure : (measure s).failure? = none := by
    simp only [Exchange.failure?, Exchange.reported, hmeasure, DetectionError.io?, Option.map_none]
  have htrail := (reading_measure s).trail
  rw [hfailure] at htrail
  rw [hrequests]
  refine ⟨(reading_measure s).reads, fun fault hfailed => ?_⟩
  cases htrail.failedWith_iff.mp hfailed

theorem aims_of_unaligned {found : UInt8}
    (h : (detect s).result = .error (.rejected (.notSyncAligned found))) :
    ∀ request ∈ (detect s).requests, request.AimsAt (s.position + 193) := by
  obtain ⟨hmeasure, hrequests⟩ := probes_of_rejected h
  have hverdict := verdict_measure s
  rw [hmeasure] at hverdict
  rw [hrequests]
  cases hverdict with
  | unaligned _ haims => exact haims

end Detection

open Detection

/-- Each report of a failed detection, by what it requested and how that was answered. -/
theorem detect_error_iff (s : Source) :
    s.Answered (detect s).requests (detect s).source ∧
      (∀ needed available,
        (detect s).result = .error (.rejected (.missingLeadingSync needed available)) ↔
          needed = 193 ∧ available < 193 ∧ (taken (detect s).requests).length = available ∧
            EndedBefore (s.position + 193) (detect s).requests) ∧
      (∀ found, (detect s).result = .error (.rejected (.notSyncAligned found)) ↔
        (taken (detect s).requests).length = 193 ∧
          (taken (detect s).requests)[0]? = some found ∧ found ≠ 0x47) ∧
      (∀ window, (detect s).result = .error (.rejected (.noSecondSync window)) ↔
        (taken (detect s).requests).length = window ∧ 193 ≤ window ∧ window ≤ 205 ∧
          (taken (detect s).requests)[0]? = some 0x47 ∧
          (∀ i, 188 ≤ i → i < window → (taken (detect s).requests)[i]? ≠ some 0x47) ∧
          (window < 205 → EndedBefore (s.position + 205) (detect s).requests)) ∧
      (∀ fault, (∃ during, (detect s).result = .error (.io during fault)) ↔
        FailedWith (detect s).requests fault ∨
          fault = .endedEarly ∧ SkipMetEnd (detect s).requests) ∧
      (∀ reason, (detect s).result = .error (.rejected reason) →
        (∀ answer, .rewind answer ∉ (detect s).requests) ∧
          ∀ fault, ¬FailedWith (detect s).requests fault) ∧
      ∀ found, (detect s).result = .error (.rejected (.notSyncAligned found)) →
        ∀ request ∈ (detect s).requests, request.AimsAt (s.position + 193) := by
  refine ⟨answered_detect s, ?_, ?_, ?_, io_iff_failedWith s, ?_, ?_⟩
  · intro needed available
    exact rejected_iff_grounds s (.missingLeadingSync needed available)
  · intro found
    exact rejected_iff_grounds s (.notSyncAligned found)
  · intro window
    exact rejected_iff_grounds s (.noSecondSync window)
  · intro reason h
    exact calm_of_rejected h
  · intro found h
    exact aims_of_unaligned h

/-- A sync byte and nothing that looks like a second one. The extended probe is told
that the input has ended, long before it has. -/
def lone : Source where
  data := 0x47 :: List.replicate 210 0
  answers := [.serve 200, .fail ⟨.interrupted, "again"⟩, .serve 5, .serve 0]

theorem detect_error_iff_lone :
    (detect lone).result = .error (.rejected (.noSecondSync 198)) ∧
      EndedBefore 205 (detect lone).requests ∧
      ∀ answer, .rewind answer ∉ (detect lone).requests := by
  have hdetect : (detect lone).result = .error (.rejected (.noSecondSync 198)) := by decide +kernel
  obtain ⟨-, -, -, hsingle, -, hcalm, -⟩ := detect_error_iff lone
  obtain ⟨-, -, -, -, -, hended⟩ := (hsingle 198).mp hdetect
  exact ⟨hdetect, hended (by decide), (hcalm _ hdetect).1⟩

end TransportStream
