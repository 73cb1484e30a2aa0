import TransportStream.Detection
import TransportStream.Proofs.Source.Steady

/-!
# What detection makes of a head

On a steady source the verdict is that of a single scan of the first 205 bytes
(`survey`), and the source is left at its start or at the end of the second packet.
-/
namespace TransportStream

namespace Detection

/-- The first place at or after offset 188 that holds a sync byte. -/
structure SecondSync (data : Bytes) (place : Nat) : Prop where
  beyond : 188 ≤ place
  held : data[place]? = some 0x47
  first : ∀ i, 188 ≤ i → i < place → data[i]? ≠ some 0x47

/-- The bytes that the probes take: the first probe is enough where it shows a
sync byte at or after offset 188. -/
@[irreducible] def reach (data : Bytes) : Nat :=
  if ∃ i, i < 193 ∧ 188 ≤ i ∧ data[i]? = some 0x47 then 193 else min data.length 205

theorem SecondSync.lt_length {data : Bytes} {place : Nat} (h : SecondSync data place) :
    place < data.length :=
  (List.getElem?_eq_some_iff.mp h.held).1

/-- A scan of the first `count` bytes finds the place if it lies among them. -/
theorem secondSync_take {data : Bytes} {count place : Nat} :
    SecondSync (data.take count) place ↔ SecondSync data place ∧ place < count := by
  constructor
  · intro h
    have hheld := h.held
    rw [List.getElem?_take] at hheld
    by_cases hlt : place < count
    · rw [if_pos hlt] at hheld
      refine ⟨⟨h.beyond, hheld, fun i hi hip => ?_⟩, hlt⟩
      have hfirst := h.first i hi hip
      rwa [List.getElem?_take_of_lt (by omega)] at hfirst
    · simp [hlt] at hheld
  · rintro ⟨h, hlt⟩
    refine ⟨h.beyond, ?_, fun i hi hip => ?_⟩
    · rw [List.getElem?_take_of_lt hlt]
      exact h.held
    · rw [List.getElem?_take_of_lt (by omega)]
      exact h.first i hi hip

/-- The first index of an element, told by what stands at the indices up to it. -/
theorem idxOf?_eq_some_iff_getElem? {bytes : Bytes} {b : UInt8} {i : Nat} :
    bytes.idxOf? b = some i ↔ bytes[i]? = some b ∧ ∀ j, j < i → bytes[j]? ≠ some b := by
  rw [List.idxOf?_eq_some_iff]
  constructor
  · rintro ⟨hlt, hheld, hfirst⟩
    refine ⟨List.getElem?_eq_some_iff.mpr ⟨hlt, hheld⟩, fun j hj hother => ?_⟩
    exact hfirst j hj (List.getElem?_eq_some_iff.mp hother).2
  · rintro ⟨hheld, hfirst⟩
    obtain ⟨hlt, hget⟩ := List.getElem?_eq_some_iff.mp hheld
    refine ⟨hlt, hget, fun j hj hother => ?_⟩
    exact hfirst j hj (List.getElem?_eq_some_iff.mpr ⟨by omega, hother⟩)

theorem nextSync_eq_some_iff {window : Bytes} {place : Nat} :
    nextSync window = some place ↔ SecondSync window place := by
  unfold nextSync
  rw [Option.map_eq_some_iff]
  constructor
  · rintro ⟨i, hi, rfl⟩
    obtain ⟨hheld, hfirst⟩ := idxOf?_eq_some_iff_getElem?.mp hi
    rw [List.getElem?_drop, Nat.add_comm] at hheld
    refine ⟨Nat.le_add_left .., hheld, fun j hj hji hother => ?_⟩
    have hbeyond : smallestSize ≤ j := hj
    refine hfirst (j - smallestSize) (by omega) ?_
    rw [List.getElem?_drop, Nat.add_sub_cancel' hbeyond]
    exact hother
  · intro h
    have hbeyond : smallestSize ≤ place := h.beyond
    refine ⟨place - smallestSize, ?_, Nat.sub_add_cancel hbeyond⟩
    refine idxOf?_eq_some_iff_getElem?.mpr ⟨?_, fun j hj hother => ?_⟩
    · rw [List.getElem?_drop, Nat.add_sub_cancel' hbeyond]
      exact h.held
    · rw [List.getElem?_drop] at hother
      exact h.first (smallestSize + j) (Nat.le_add_right ..) (by omega) hother

theorem nextSync_eq_none_iff {window : Bytes} :
    nextSync window = none ↔ ∀ i, 188 ≤ i → window[i]? ≠ some 0x47 := by
  unfold nextSync
  rw [Option.map_eq_none_iff, List.idxOf?_eq_none_iff, List.mem_iff_getElem?]
  constructor
  · intro h i hi hheld
    have hbeyond : smallestSize ≤ i := hi
    refine h ⟨i - smallestSize, ?_⟩
    rw [List.getElem?_drop, Nat.add_sub_cancel' hbeyond]
    exact hheld
  · rintro h ⟨i, hi⟩
    rw [List.getElem?_drop] at hi
    exact h (smallestSize + i) (Nat.le_add_right ..) hi

section
variable {data : Bytes} {place : Nat}

theorem reach_of_early (h : SecondSync data place) (hlt : place < 193) : reach data = 193 := by
  unfold reach
  exact if_pos ⟨place, hlt, h.beyond, h.held⟩

theorem reach_of_none (h : ∀ i, 188 ≤ i → i < 193 → data[i]? ≠ some 0x47) :
    reach data = min data.length 205 := by
  unfold reach
  exact if_neg fun ⟨i, hlt, hbeyond, hheld⟩ => h i hbeyond hlt hheld

theorem reach_of_late (h : SecondSync data place) (hle : 193 ≤ place) :
    reach data = min data.length 205 :=
  reach_of_none fun i hi hlt => h.first i hi (by omega)

/-- The two probes reach a place exactly when a scan of 205 bytes does. -/
theorem lt_reach_iff (h : SecondSync data place) :
    place < reach data ↔ place < min data.length 205 := by
  rcases Nat.lt_or_ge place 193 with hlt | hle
  · have hlength := h.lt_length
    rw [reach_of_early h hlt]
    omega
  · rw [reach_of_late h hle]

theorem reach_bounds (h : 193 ≤ data.length) :
    193 ≤ reach data ∧ reach data ≤ 205 ∧ reach data ≤ data.length := by
  unfold reach
  split <;> omega

end

/-- The verdict on a head from one scan of its first 205 bytes. -/
def survey (data : Bytes) : Except Rejection Measure :=
  if data.length < 193 then .error (.missingLeadingSync 193 data.length)
  else if data.headD 0 ≠ 0x47 then .error (.notSyncAligned (data.headD 0))
  else
    match nextSync (data.take 205) with
    | some size => .ok ⟨size, reach data⟩
    | none => .error (.noSecondSync (min data.length 205))

section
variable {data : Bytes}

theorem survey_of_short (h : data.length < 193) :
    survey data = .error (.missingLeadingSync 193 data.length) := if_pos h

theorem survey_of_unaligned {b : UInt8} (h : 193 ≤ data.length) (hb : data[0]? = some b)
    (hne : b ≠ 0x47) : survey data = .error (.notSyncAligned b) := by
  have hhead : data.headD 0 = b := by
    rw [List.headD_eq_head?_getD, List.head?_eq_getElem?, hb, Option.getD_some]
  rw [survey, if_neg (by omega), hhead, if_pos hne]

theorem survey_of_aligned (h : 193 ≤ data.length) (hb : data[0]? = some 0x47) :
    survey data =
      match nextSync (data.take 205) with
      | some size => .ok ⟨size, reach data⟩
      | none => .error (.noSecondSync (min data.length 205)) := by
  have hhead : data.headD 0 = 0x47 := by
    rw [List.headD_eq_head?_getD, List.head?_eq_getElem?, hb, Option.getD_some]
  rw [survey, if_neg (by omega), if_neg (by rw [hhead]; decide)]

theorem survey_of_second {place : Nat} (h : 193 ≤ data.length) (hb : data[0]? = some 0x47)
    (hp : SecondSync data place) (hlt : place < 205) : survey data = .ok ⟨place, reach data⟩ := by
  have hnext : nextSync (data.take 205) = some place :=
    nextSync_eq_some_iff.mpr (secondSync_take.mpr ⟨hp, hlt⟩)
  rw [survey_of_aligned h hb, hnext]

theorem survey_of_single (h : 193 ≤ data.length) (hb : data[0]? = some 0x47)
    (hnone : ∀ i, 188 ≤ i → i < 205 → data[i]? ≠ some 0x47) :
    survey data = .error (.noSecondSync (min data.length 205)) := by
  have hnext : nextSync (data.take 205) = none := by
    refine nextSync_eq_none_iff.mpr fun i hi hheld => ?_
    rw [List.getElem?_take] at hheld
    by_cases hlt : i < 205
    · rw [if_pos hlt] at hheld
      exact hnone i hi hlt hheld
    · simp [hlt] at hheld
  rw [survey_of_aligned h hb, hnext]

theorem survey_of_none (h : 193 ≤ data.length) (hb : data[0]? = some 0x47)
    (hnone : ∀ i, 188 ≤ i → i < reach data → data[i]? ≠ some 0x47) :
    survey data = .error (.noSecondSync (reach data)) := by
  have hbounds := reach_bounds h
  have hreach : reach data = min data.length 205 :=
    reach_of_none fun i hi hlt => hnone i hi (by omega)
  rw [hreach]
  refine survey_of_single h hb fun i hi hlt hheld => ?_
  have hend := (List.getElem?_eq_some_iff.mp hheld).1
  exact hnone i hi (by omega) hheld

theorem of_survey_ok {m : Measure} (h : survey data = .ok m) :
    193 ≤ data.length ∧ SecondSync data m.packetSize ∧ m.packetSize < m.window ∧
      m.window = reach data := by
  unfold survey at h
  split at h
  · simp at h
  rename_i hlength
  split at h
  · simp at h
  split at h
  · rename_i size hsize
    obtain ⟨hsecond, hlt⟩ := secondSync_take.mp (nextSync_eq_some_iff.mp hsize)
    have hend := hsecond.lt_length
    have hreach := (lt_reach_iff hsecond).mpr (by omega)
    obtain ⟨rfl, hwindow⟩ := Measure.mk.inj (Except.ok.inj h)
    exact ⟨by omega, hsecond, hwindow ▸ hreach, hwindow.symm⟩
  · simp at h

theorem aligned_of_survey {m : Measure} (h : survey data = .ok m) :
    data[0]? = some syncByte := by
  have hlong := (of_survey_ok h).1
  match data with
  | [] => cases hlong
  | first :: later =>
    rw [List.getElem?_cons_zero, Option.some.injEq]
    apply Decidable.byContradiction
    intro hne
    rw [survey_of_unaligned hlong rfl hne] at h
    cases h

/-- The rest of the second packet, as a difference that cannot run below zero. -/
theorem skip_of_survey {m : Measure} (h : survey data = .ok m) :
    m.skip = 2 * m.packetSize - m.window ∧ m.window < 2 * m.packetSize := by
  obtain ⟨hlength, hsecond, hlt, hwindow⟩ := of_survey_ok h
  have hbeyond := hsecond.beyond
  have hreach := (reach_bounds hlength).2.1
  unfold Measure.skip
  omega

end

theorem nextSync_take {data : Bytes} {count place : Nat} :
    nextSync (data.take count) = some place ↔ SecondSync data place ∧ place < count :=
  nextSync_eq_some_iff.trans secondSync_take

/-- The verdict once the probe has been extended. -/
def judgeMore (head more : Bytes) (s : Source) : Exchange (Except DetectionError Measure) :=
  match nextSync (head ++ more) with
  | some size => .done (.ok ⟨size, (head ++ more).length⟩) s
  | none => .done (.error (.rejected (.noSecondSync (head ++ more).length))) s

/-- The verdict on the bytes of the first probe. -/
def judgeHead (head : Bytes) (s : Source) : Exchange (Except DetectionError Measure) :=
  if head.length < probeLength then
    .done (.error (.rejected (.missingLeadingSync probeLength head.length))) s
  else if head.headD 0 ≠ syncByte then
    .done (.error (.rejected (.notSyncAligned (head.headD 0)))) s
  else
    match nextSync head with
    | some size => .done (.ok ⟨size, head.length⟩) s
    | none =>
      ((s.readUpTo (extendedProbeLength - probeLength)).mapError
        (.io (.extendingProbe extendedProbeLength))).andThen (judgeMore head)

theorem measure_eq (s : Source) :
    measure s =
      ((s.readUpTo probeLength).mapError (.io (.probing probeLength))).andThen judgeHead := rfl

section
variable {head : Bytes} {s : Source}

theorem judgeHead_of_short (h : head.length < 193) :
    judgeHead head s = .done (.error (.rejected (.missingLeadingSync 193 head.length))) s :=
  if_pos h

theorem judgeHead_of_unaligned (h : ¬head.length < 193) (hb : head.headD 0 ≠ 0x47) :
    judgeHead head s = .done (.error (.rejected (.notSyncAligned (head.headD 0)))) s :=
  (if_neg h).trans (if_pos hb)

theorem judgeHead_of_second {size : Nat} (h : ¬head.length < 193) (hb : ¬head.headD 0 ≠ 0x47)
    (hn : nextSync head = some size) :
    judgeHead head s = .done (.ok ⟨size, head.length⟩) s := by
  refine (if_neg h).trans ((if_neg hb).trans ?_)
  rw [hn]

theorem judgeHead_of_single (h : ¬head.length < 193) (hb : ¬head.headD 0 ≠ 0x47)
    (hn : nextSync head = none) :
    judgeHead head s =
      ((s.readUpTo 12).mapError (.io (.extendingProbe 205))).andThen (judgeMore head) := by
  refine (if_neg h).trans ((if_neg hb).trans ?_)
  rw [hn]
  rfl

end

theorem judgeMore_of_steady {s s' : Source} (hlong : 193 ≤ s.rest.length)
    (hb : ¬s.rest.headD 0 ≠ 0x47) (hn : nextSync (s.rest.take 193) = none)
    (hadvanced : Source.Advanced s (min 205 s.rest.length) s') :
    (judgeMore (s.rest.take 193) ((s.rest.drop 193).take 12) s').result =
        (survey s.rest).mapError .rejected ∧
      ∀ m, survey s.rest = .ok m → Source.Advanced s m.window
        (judgeMore (s.rest.take 193) ((s.rest.drop 193).take 12) s').source := by
  have hscan : s.rest.take 193 ++ (s.rest.drop 193).take 12 = s.rest.take 205 :=
    List.take_add.symm
  have hlength : (s.rest.take 205).length = min 205 s.rest.length := List.length_take
  have hnone : ∀ i, 188 ≤ i → i < 193 → s.rest[i]? ≠ some 0x47 := by
    intro i hi hlt
    have hnot := nextSync_eq_none_iff.mp hn i hi
    rwa [List.getElem?_take_of_lt hlt] at hnot
  have hreach := reach_of_none hnone
  rw [Nat.min_comm] at hreach
  unfold judgeMore survey
  rw [hscan, hlength, if_neg (Nat.not_lt.mpr hlong), if_neg hb, hreach, Nat.min_comm _ 205]
  cases nextSync (s.rest.take 205) with
  | some size =>
    refine ⟨rfl, fun m hm => ?_⟩
    obtain rfl := Except.ok.inj hm
    exact hadvanced
  | none => exact ⟨rfl, fun m hm => by simp at hm⟩

/-- On a steady source the two probes come to the verdict of the single scan,
and an accepted head leaves the source behind the bytes that they took. -/
theorem measure_of_steady {s : Source} (hs : s.Steady) :
    (measure s).result = (survey s.rest).mapError .rejected ∧
      ∀ m, survey s.rest = .ok m → Source.Advanced s m.window (measure s).source := by
  have hprobe : Source.Advanced s (min 193 s.rest.length) (s.gather 193).source :=
    Source.advanced_gather hs 193
  have hlength : (s.rest.take 193).length = min 193 s.rest.length := List.length_take
  have hhead : (s.rest.take 193).headD 0 = s.rest.headD 0 := by
    rw [List.headD_eq_head?_getD, List.head?_take, if_neg (by decide),
      ← List.headD_eq_head?_getD]
  rw [measure_eq, Source.readUpTo_andThen_of_steady hs]
  change (judgeHead (s.rest.take 193) (s.gather 193).source).result = _ ∧
    ∀ m : Measure, _ → Source.Advanced s m.window
      (judgeHead (s.rest.take 193) (s.gather 193).source).source
  by_cases hshort : s.rest.length < 193
  · have hall : s.rest.take 193 = s.rest := List.take_of_length_le (Nat.le_of_lt hshort)
    rw [survey_of_short hshort, judgeHead_of_short (by omega), hall]
    exact ⟨rfl, fun m hm => by simp at hm⟩
  have hlong : 193 ≤ s.rest.length := Nat.le_of_not_lt hshort
  have hfull : ¬(s.rest.take 193).length < 193 := by omega
  rw [Nat.min_eq_left hlong] at hprobe hlength
  by_cases haligned : s.rest.headD 0 ≠ 0x47
  · rw [judgeHead_of_unaligned hfull (hhead ▸ haligned), hhead, survey, if_neg hshort,
      if_pos haligned]
    exact ⟨rfl, fun m hm => by simp at hm⟩
  cases hfirst : nextSync (s.rest.take 193) with
  | some size =>
    obtain ⟨hsecond, hlt⟩ := nextSync_take.mp hfirst
    have hscan : nextSync (s.rest.take 205) = some size :=
      nextSync_take.mpr ⟨hsecond, Nat.lt_of_lt_of_le hlt (by decide)⟩
    rw [judgeHead_of_second hfull (hhead ▸ haligned) hfirst, hlength, survey, if_neg hshort,
      if_neg haligned, hscan, reach_of_early hsecond hlt]
    refine ⟨rfl, fun m hm => ?_⟩
    obtain rfl := Except.ok.inj hm
    exact hprobe
  | none =>
    have hmore : Source.Advanced s (min 205 s.rest.length)
        (((s.gather 193).source).gather 12).source := by
      have h := hprobe.trans (Source.advanced_gather hprobe.steady 12)
      rw [hprobe.rest, List.length_drop] at h
      rwa [show min 205 s.rest.length = 193 + min 12 (s.rest.length - 193) by omega]
    rw [judgeHead_of_single hfull (hhead ▸ haligned) hfirst,
      Source.readUpTo_andThen_of_steady hprobe.steady, hprobe.rest]
    exact judgeMore_of_steady hlong haligned hfirst hmore

theorem realign_of_supported (m : Measure) {s : Source} (h : s.rewinding = .supported) :
    (realign m s).result = .ok .rewound ∧ (realign m s).source = { s with position := 0 } := by
  simp only [realign, Source.rewind, h]
  exact ⟨rfl, rfl⟩

theorem realign_of_unsupported (m : Measure) {s : Source} (h : s.rewinding = .unsupported) :
    realign m s =
      (((s.readExactly m.skip).mapError (.io (.skipping m.skip))).andThen fun _ s =>
        .done (.ok (.skipped m.skip)) s).after [.rewind (.ok false)] := by
  simp only [realign, Source.rewind, h]
  rfl

theorem realign_of_steady (m : Measure) {s : Source} (hs : s.Steady)
    (h : s.rewinding = .unsupported) :
    (s.rest.length < m.skip →
      (realign m s).result = .error (.io (.skipping m.skip) .endedEarly)) ∧
    (m.skip ≤ s.rest.length → (realign m s).result = .ok (.skipped m.skip) ∧
      Source.Advanced s m.skip (realign m s).source) := by
  rw [realign_of_unsupported m h]
  have hread := Source.readExactly_of_steady hs m.skip
  constructor
  · intro hshort
    rw [if_pos hshort] at hread
    have herror : ((s.readExactly m.skip).mapError (DetectionError.io (.skipping m.skip))).result =
        .error (.io (.skipping m.skip) .endedEarly) := by
      rw [Exchange.mapError, Exchange.result_map, hread]
      rfl
    rw [Exchange.andThen_of_error herror]
    rfl
  · intro hle
    rw [if_neg (Nat.not_lt.mpr hle)] at hread
    have hok : ((s.readExactly m.skip).mapError (DetectionError.io (.skipping m.skip))).result =
        .ok (s.rest.take m.skip) := by
      rw [Exchange.mapError, Exchange.result_map, hread]
      rfl
    have hadvanced := Source.advanced_gather hs m.skip
    rw [Nat.min_eq_left hle] at hadvanced
    rw [Exchange.andThen_of_ok hok]
    exact ⟨rfl, hadvanced⟩

end Detection

open Detection

theorem detect_of_error {s : Source} {e : DetectionError} (h : (measure s).result = .error e) :
    (detect s).result = .error e := by
  rw [detect, Exchange.andThen_of_error h]

theorem detect_of_ok {s : Source} {m : Measure} (h : (measure s).result = .ok m) :
    (detect s).result = (realign m (measure s).source).result.map (⟨m.packetSize, m.window, ·⟩) ∧
      (detect s).source = (realign m (measure s).source).source := by
  rw [detect, Exchange.andThen_of_ok h]
  exact ⟨rfl, rfl⟩

theorem measure_of_detect {s : Source} {d : Detection} (h : (detect s).result = .ok d) :
    ∃ m, (measure s).result = .ok m ∧ d.packetSize = m.packetSize ∧ d.window = m.window ∧
      (realign m (measure s).source).result = .ok d.resync := by
  obtain ⟨m, hmeasure, h⟩ := Exchange.result_andThen_eq_ok.mp h
  rw [Exchange.result_map] at h
  cases hrealign : (realign m (measure s).source).result with
  | error e =>
    rw [hrealign] at h
    cases h
  | ok resync =>
    rw [hrealign] at h
    obtain rfl := Except.ok.inj h
    exact ⟨m, hmeasure, rfl, rfl, hrealign⟩

section
variable {s : Source} {m : Measure}

theorem detect_of_rejected (hs : s.Steady) {reason : Rejection}
    (h : survey s.rest = .error reason) : (detect s).result = .error (.rejected reason) := by
  refine detect_of_error ?_
  rw [(measure_of_steady hs).1, h]
  rfl

theorem measure_of_survey (hs : s.Steady) (h : survey s.rest = .ok m) :
    (measure s).result = .ok m ∧ Source.Advanced s m.window (measure s).source := by
  obtain ⟨hresult, hadvanced⟩ := measure_of_steady hs
  rw [h] at hresult
  exact ⟨hresult, hadvanced m h⟩

theorem detect_of_rewindable (hs : s.Steady) (h : survey s.rest = .ok m)
    (hr : s.rewinding = .supported) :
    (detect s).result = .ok ⟨m.packetSize, m.window, .rewound⟩ ∧ (detect s).source.Steady ∧
      (detect s).source.data = s.data ∧ (detect s).source.position = 0 := by
  obtain ⟨hresult, hadvanced⟩ := measure_of_survey hs h
  obtain ⟨hdetect, hsource⟩ := detect_of_ok hresult
  obtain ⟨hrealign, hrewound⟩ := realign_of_supported m (hadvanced.rewinding.trans hr)
  rw [hdetect, hsource, hrealign, hrewound]
  exact ⟨rfl, hadvanced.steady.rewound, hadvanced.data, rfl⟩

theorem detect_of_passing (hs : s.Steady) (h : survey s.rest = .ok m)
    (hr : s.rewinding = .unsupported) (hlong : 2 * m.packetSize ≤ s.rest.length) :
    (detect s).result =
        .ok ⟨m.packetSize, m.window, .skipped (2 * m.packetSize - m.window)⟩ ∧
      Source.Advanced s (2 * m.packetSize) (detect s).source := by
  obtain ⟨hskip, hlt⟩ := skip_of_survey h
  obtain ⟨hresult, hadvanced⟩ := measure_of_survey hs h
  obtain ⟨hdetect, hsource⟩ := detect_of_ok hresult
  have hleft : m.skip ≤ (measure s).source.rest.length := by
    rw [hadvanced.rest, List.length_drop]
    omega
  obtain ⟨hrealign, hskipped⟩ :=
    (realign_of_steady m hadvanced.steady (hadvanced.rewinding.trans hr)).2 hleft
  have hboth := hadvanced.trans hskipped
  rw [show m.window + m.skip = 2 * m.packetSize by omega] at hboth
  rw [hdetect, hsource, hrealign, hskip]
  exact ⟨rfl, hboth⟩

theorem detect_of_passing_short (hs : s.Steady) (h : survey s.rest = .ok m)
    (hr : s.rewinding = .unsupported) (hshort : s.rest.length < 2 * m.packetSize) :
    (detect s).result =
      .error (.io (.skipping (2 * m.packetSize - m.window)) .endedEarly) := by
  obtain ⟨hskip, hlt⟩ := skip_of_survey h
  obtain ⟨hresult, hadvanced⟩ := measure_of_survey hs h
  obtain ⟨hlength, -, -, hwindow⟩ := of_survey_ok h
  have hreach := (reach_bounds hlength).2.2
  have hleft : (measure s).source.rest.length < m.skip := by
    rw [hadvanced.rest, List.length_drop]
    omega
  have hrealign := (realign_of_steady m hadvanced.steady (hadvanced.rewinding.trans hr)).1 hleft
  rw [(detect_of_ok hresult).1, hrealign, hskip]
  rfl

end

/-- A steady source over `data` is judged by what the first 205 bytes hold,
one check after the other, and is left at its start or at the end of the
second packet. -/
theorem detect_of_steady {s : Source} {data : Bytes} (hs : s.Steady) (hstart : s.position = 0)
    (hdata : s.data = data) :
    (data.length < 193 →
      (detect s).result = .error (.rejected (.missingLeadingSync 193 data.length))) ∧
    (∀ b, 193 ≤ data.length → data[0]? = some b → b ≠ 0x47 →
      (detect s).result = .error (.rejected (.notSyncAligned b))) ∧
    (193 ≤ data.length → data[0]? = some 0x47 →
      (∀ i, 188 ≤ i → i < reach data → data[i]? ≠ some 0x47) →
      (detect s).result = .error (.rejected (.noSecondSync (reach data)))) ∧
    (∀ p, 193 ≤ data.length → data[0]? = some 0x47 → SecondSync data p → p < reach data →
      188 ≤ p ∧ p ≤ 204 ∧
      (s.rewinding = .supported →
        (detect s).result = .ok ⟨p, reach data, .rewound⟩ ∧
          (detect s).source.position = 0 ∧ (detect s).source.rest = data) ∧
      (s.rewinding = .unsupported → 2 * p ≤ data.length →
        (detect s).result = .ok ⟨p, reach data, .skipped (2 * p - reach data)⟩ ∧
          (detect s).source.position = 2 * p ∧ (detect s).source.rest = data.drop (2 * p)) ∧
      (s.rewinding = .unsupported → data.length < 2 * p →
        ∃ during fault, (detect s).result = .error (.io during fault) ∧
          during = .skipping (2 * p - reach data) ∧
          during.message = s!"reading {2 * p - reach data} bytes to sync reader failed" ∧
          fault.kind = .unexpectedEnd)) ∧
    ∀ p, SecondSync data p → (p < reach data ↔ p < min data.length 205) := by
  have hrest : s.rest = data := (Source.rest_of_start hstart).trans hdata
  refine ⟨?_, ?_, ?_, ?_, fun p hp => lt_reach_iff hp⟩
  · intro hshort
    refine detect_of_rejected hs ?_
    rw [hrest]
    exact survey_of_short hshort
  · intro b hlong hb hne
    refine detect_of_rejected hs ?_
    rw [hrest]
    exact survey_of_unaligned hlong hb hne
  · intro hlong hb hnone
    refine detect_of_rejected hs ?_
    rw [hrest]
    exact survey_of_none hlong hb hnone
  · intro p hlong hb hp hlt
    have hscan := (lt_reach_iff hp).mp hlt
    have hsurvey : survey s.rest = .ok ⟨p, reach data⟩ := by
      rw [hrest]
      exact survey_of_second hlong hb hp (by omega)
    have hlength : s.rest.length = data.length := congrArg List.length hrest
    refine ⟨hp.beyond, by omega, ?_, ?_, ?_⟩
    · intro hr
      obtain ⟨hresult, -, hsame, hzero⟩ := detect_of_rewindable hs hsurvey hr
      exact ⟨hresult, hzero, (Source.rest_of_start hzero).trans (hsame.trans hdata)⟩
    · intro hr hle
      obtain ⟨hresult, hadvanced⟩ := detect_of_passing hs hsurvey hr (by rw [hlength]; exact hle)
      refine ⟨hresult, ?_, hadvanced.rest.trans (by rw [hrest])⟩
      rw [hadvanced.position, hstart, Nat.zero_add]
    · intro hr hshort
      exact ⟨_, _, detect_of_passing_short hs hsurvey hr (by rw [hlength]; exact hshort), rfl, rfl,
        rfl⟩

/-- Packets of 195 bytes, which only the second probe can see, passing by in
pieces that do not fit the probes. -/
def passingLate : Source where
  data := 0x47 :: List.replicate 194 0 ++ 0x47 :: List.replicate 200 1
  answers := [.serve 100, .fail ⟨.interrupted, "again"⟩, .serve 92, .serve 3]
  rewinding := .unsupported

theorem secondSync_passingLate : SecondSync passingLate.data 195 where
  beyond := by decide
  held := by decide +kernel
  first := by
    intro i hi hlt
    have hall : ∀ j, j < 195 → 188 ≤ j → passingLate.data[j]? ≠ some 0x47 := by decide +kernel
    exact hall i hlt hi

theorem reach_passingLate : reach passingLate.data = 205 :=
  (reach_of_late secondSync_passingLate (by decide)).trans (by decide +kernel)

theorem detect_of_steady_passingLate :
    passingLate.Steady ∧ passingLate.position = 0 ∧
      (detect passingLate).result = .ok ⟨195, 205, .skipped 185⟩ ∧
      (detect passingLate).source.position = 390 := by
  have hs : passingLate.Steady := ⟨by decide, by decide⟩
  obtain ⟨-, -, -, haccepted, -⟩ := detect_of_steady hs rfl rfl
  have hreach := reach_passingLate
  obtain ⟨-, -, -, hpassing, -⟩ := haccepted 195 (by decide +kernel) (by decide +kernel)
    secondSync_passingLate (by rw [hreach]; decide)
  obtain ⟨hresult, hposition, -⟩ := hpassing rfl (by decide +kernel)
  rw [hreach] at hresult
  exact ⟨hs, rfl, hresult, hposition⟩

end TransportStream
