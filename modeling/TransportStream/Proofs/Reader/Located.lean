import TransportStream.Proofs.Detection
import TransportStream.Proofs.Reader.WholeStream

/-!
# Where a reader starts

On a steady source the first packet is at the very start, or behind the two packets
that a source loses to the measurement if it cannot go back (`origin`).
-/
namespace TransportStream

open Detection

theorem Detection.SecondSync.unique {data : Bytes} {place place' : Nat}
    (h : SecondSync data place) (h' : SecondSync data place') : place = place' := by
  rcases Nat.lt_trichotomy place place' with hlt | heq | hgt
  · exact absurd h.held (h'.first place h.beyond hlt)
  · exact heq
  · exact absurd h'.held (h.first place' h'.beyond hgt)

theorem Detection.realign_of_failing (m : Measure) {s : Source} {fault : Fault}
    (h : s.rewinding = .failing fault) :
    (realign m s).result = .error (.io .rewinding fault) := by
  simp only [realign, Source.rewind, h]
  rfl

/-- Where the first packet begins that a reader is given. -/
def Source.origin (s : Source) (settings : Settings) (packetSize : Nat) : Nat :=
  if settings.packetSize = 0 ∧ s.rewinding = .unsupported then 2 * packetSize else 0

section
variable {s : Source} {d : Detection}

theorem survey_of_detect (hs : s.Steady) (h : (detect s).result = .ok d) :
    ∃ m, survey s.rest = .ok m ∧ d.packetSize = m.packetSize := by
  cases hsurvey : survey s.rest with
  | error reason =>
    rw [detect_of_rejected hs hsurvey] at h
    cases h
  | ok m =>
    refine ⟨m, rfl, ?_⟩
    rw [(detect_of_ok (measure_of_survey hs hsurvey).1).1] at h
    cases hrealign : (realign m (measure s).source).result with
    | error e =>
      rw [hrealign] at h
      cases h
    | ok resync =>
      rw [hrealign] at h
      rw [← Except.ok.inj h]

/-- A measurement that succeeds finds the second sync byte, and leaves the
source at its start or, if it cannot go back, at the end of the second packet. -/
theorem detect_ok_of_steady (hs : s.Steady) (hstart : s.position = 0)
    (h : (detect s).result = .ok d) :
    SecondSync s.data d.packetSize ∧ (detect s).source.Steady ∧
      ((s.rewinding = .supported ∧ (detect s).source.rest = s.data) ∨
        (s.rewinding = .unsupported ∧ 2 * d.packetSize ≤ s.data.length ∧
          (detect s).source.rest = s.data.drop (2 * d.packetSize))) := by
  have hrest : s.rest = s.data := Source.rest_of_start hstart
  obtain ⟨m, hsurvey, hsize⟩ := survey_of_detect hs h
  have hsecond := (of_survey_ok hsurvey).2.1
  rw [hsize, ← hrest]
  refine ⟨hsecond, ?_⟩
  cases hr : s.rewinding with
  | supported =>
    obtain ⟨-, hsteady, hdata, hposition⟩ := detect_of_rewindable hs hsurvey hr
    refine ⟨hsteady, .inl ⟨rfl, ?_⟩⟩
    rw [Source.rest_of_start hposition, hdata, hrest]
  | unsupported =>
    have hlong : 2 * m.packetSize ≤ s.rest.length := by
      apply Nat.le_of_not_lt
      intro hshort
      rw [detect_of_passing_short hs hsurvey hr hshort] at h
      cases h
    obtain ⟨-, hadvanced⟩ := detect_of_passing hs hsurvey hr hlong
    exact ⟨hadvanced.steady, .inr ⟨rfl, hlong, hadvanced.rest⟩⟩
  | failing fault =>
    obtain ⟨hmeasure, hadvanced⟩ := measure_of_survey hs hsurvey
    rw [(detect_of_ok hmeasure).1, realign_of_failing m (hadvanced.rewinding.trans hr)] at h
    cases h

end

namespace Reader
variable {P E : Type}

/-- What opening on a steady source from its first byte has settled. -/
structure Settled (settings : Settings) (decoder : Decoder P E) (s : Source)
    (r : Reader P E) : Prop where
  given : settings.packetSize ≠ 0 → r.packetSize = settings.packetSize
  measured : settings.packetSize = 0 → SecondSync s.data r.packetSize
  detected : r.framing.detection.isSome = (settings.packetSize == 0)
  within : s.origin settings r.packetSize ≤ s.data.length
  steady : r.Steady
  future : r.future = Outcome.ofSlices decoder r.packetSize 0
    (Bytes.slices r.packetSize (s.data.drop (s.origin settings r.packetSize)))
  bytesRead : r.forecast.bytesRead = s.data.length - s.origin settings r.packetSize

theorem settled_start {settings : Settings} {framing : Framing} {s left : Source}
    (decoder : Decoder P E) (hchunk : 0 < settings.chunkPackets)
    (hgiven : settings.packetSize ≠ 0 → framing.packetSize = settings.packetSize)
    (hmeasured : settings.packetSize = 0 → SecondSync s.data framing.packetSize)
    (hdetected : framing.detection.isSome = (settings.packetSize == 0))
    (hwithin : s.origin settings framing.packetSize ≤ s.data.length)
    (hleft : left.Steady)
    (hrest : left.rest = s.data.drop (s.origin settings framing.packetSize)) :
    Settled settings decoder s (start settings decoder framing left) where
  given := hgiven
  measured := hmeasured
  detected := hdetected
  within := hwithin
  steady := steady_start decoder hchunk hleft
  future := by
    rw [future_start, hrest]
    rfl
  bytesRead := by
    rw [forecast_start decoder hchunk, hrest, List.length_drop]
    rfl

theorem settled_of_steady {workers : Workers} {settings : Settings} {decoder : Decoder P E}
    {s : Source} {r : Reader P E} (hs : s.Steady) (hstart : s.position = 0)
    (h : (ofSource workers settings decoder s).result = .ok r) :
    Settled settings decoder s r := by
  obtain ⟨hcheck, framing, hlocate, -, rfl⟩ := start_of_ofSource h
  have hchunk := Workers.chunkPackets_pos_of_check hcheck
  rcases Nat.eq_zero_or_pos settings.packetSize with hzero | hpos
  · obtain ⟨d, hd, hsource, hsize, hdetection⟩ := Framing.detect_of_locate hzero hlocate
    obtain ⟨hsecond, hleft, hplace⟩ := detect_ok_of_steady hs hstart hd
    have horigin : s.origin settings d.packetSize ≤ s.data.length ∧
        (detect s).source.rest = s.data.drop (s.origin settings d.packetSize) := by
      unfold Source.origin
      rcases hplace with ⟨hr, hrest⟩ | ⟨hr, hlong, hrest⟩
      · rw [if_neg (by rw [hr]; exact nofun)]
        exact ⟨Nat.zero_le _, hrest⟩
      · rw [if_pos ⟨hzero, hr⟩]
        exact ⟨hlong, hrest⟩
    rw [← hsize] at hsecond horigin
    rw [hsource]
    apply settled_start decoder hchunk
    · exact absurd hzero
    · exact fun _ => hsecond
    · rw [hdetection, hzero]
      rfl
    · exact horigin.1
    · exact hleft
    · exact horigin.2
  · have hne : settings.packetSize ≠ 0 := Nat.ne_of_gt hpos
    rw [Framing.locate_of_given hpos] at hlocate ⊢
    obtain rfl := Except.ok.inj hlocate
    have horigin : s.origin settings settings.packetSize = 0 := if_neg fun h => hne h.1
    apply settled_start decoder hchunk
    · exact fun _ => rfl
    · exact fun hzero => absurd hzero hne
    · exact (beq_eq_false_iff_ne.mpr hne).symm
    · rw [horigin]
      exact Nat.zero_le _
    · exact hs
    · rw [horigin]
      exact Source.rest_of_start hstart

end Reader

end TransportStream
