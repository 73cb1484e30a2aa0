import TransportStream.Proofs.Detection
import TransportStream.Proofs.Reader.WholeStream

/-!
# Streams that pass by

A source that cannot go back loses its first two packets to detection, and a reader
yields what one on a rewindable source yields from the third packet on.
-/
namespace TransportStream.Reader
variable {P E : Type}

/-- Readers that start `skipped` packets apart yield the same items that far
apart, with their indices moved. -/
theorem getElem?_future_skipped {settings : Settings} (decoder : Decoder P E)
    {framing framing' : Framing} {s s' : Source} {skipped : Nat}
    (hsize : framing'.packetSize = framing.packetSize)
    (hrest : s'.rest = s.rest.drop (skipped * framing.packetSize)) (i : Nat) :
    (start settings decoder framing s).future[i + skipped]? =
      ((start settings decoder framing' s').future[i]?).map (Outcome.shift skipped) := by
  have hplace : skipped * framing.packetSize + i * framing.packetSize =
      (i + skipped) * framing.packetSize := by
    rw [Nat.add_mul, Nat.add_comm]
  have hlength : i * framing.packetSize < s'.rest.length ↔
      (i + skipped) * framing.packetSize < s.rest.length := by
    rw [hrest, List.length_drop, ← hplace]
    omega
  rw [getElem?_future_start, getElem?_future_start, hsize]
  by_cases hlt : (i + skipped) * framing.packetSize < s.rest.length
  · rw [if_pos hlt, if_pos (hlength.mpr hlt), hrest, List.drop_drop, hplace, Nat.add_comm i,
      Outcome.ofSlice_shift]
    rfl
  · rw [if_neg hlt, if_neg (mt hlength.mp hlt)]
    rfl

/-- The whole runs of readers that start `skipped` packets apart in a steady
stream: the later one yields the items of the earlier one from there on, ends
where that ends, and reads the skipped packets less. -/
theorem run_skipped {settings : Settings} (decoder : Decoder P E) {framing framing' : Framing}
    {s s' : Source} {skipped : Nat} (hchunk : 0 < settings.chunkPackets) (hs : s.Steady)
    (hs' : s'.Steady) (hsize : framing'.packetSize = framing.packetSize)
    (hrest : s'.rest = s.rest.drop (skipped * framing.packetSize))
    (hlong : skipped * framing.packetSize ≤ s.rest.length) :
    (∀ i, ((start settings decoder framing s).afterCalls (i + skipped)).next.item =
      ((start settings decoder framing' s').afterCalls i).next.item.map
        (Outcome.shift skipped)) ∧
    (∀ i, ((start settings decoder framing' s').afterCalls i).next.item = none ↔
      (s.rest.length + framing.packetSize - 1) / framing.packetSize ≤ i + skipped) ∧
    ∀ count, (s.rest.length + framing.packetSize - 1) / framing.packetSize ≤ count →
      ((start settings decoder framing s).afterCalls count).tally.bytesRead = s.rest.length ∧
      ((start settings decoder framing' s').afterCalls count).tally.bytesRead +
        skipped * framing.packetSize = s.rest.length := by
  have hr : (start settings decoder framing s).Steady := steady_start decoder hchunk hs
  have hq : (start settings decoder framing' s').Steady := steady_start decoder hchunk hs'
  have hshift : ∀ i, (start settings decoder framing s).future[i + skipped]? =
      ((start settings decoder framing' s').future[i]?).map (Outcome.shift skipped) :=
    getElem?_future_skipped decoder hsize hrest
  have hlength : (start settings decoder framing s).future.length =
      (s.rest.length + framing.packetSize - 1) / framing.packetSize := length_future_start decoder
  have hnone : ∀ i, (start settings decoder framing' s').future[i]? = none ↔
      (s.rest.length + framing.packetSize - 1) / framing.packetSize ≤ i + skipped := by
    intro i
    rw [← hlength, ← List.getElem?_eq_none_iff, hshift i, Option.map_eq_none_iff]
  refine ⟨?_, ?_, ?_⟩
  · intro i
    rw [item_of_steady hr, item_of_steady hq, hshift i]
  · intro i
    rw [item_of_steady hq]
    exact hnone i
  · intro count hcount
    have hend : (start settings decoder framing' s').future.length ≤ count :=
      List.getElem?_eq_none_iff.mp ((hnone count).mpr (Nat.le_add_right_of_le hcount))
    rw [tally_of_steady hr (by rw [hlength]; exact hcount), tally_of_steady hq hend,
      forecast_start decoder hchunk, forecast_start decoder hchunk, hrest, List.length_drop]
    exact ⟨rfl, Nat.sub_add_cancel hlong⟩

section
variable {workers : Workers} {settings : Settings} {s : Source}

theorem ofSource_of_rewindable {m : Detection.Measure} (decoder : Decoder P E)
    (hcheck : workers.check settings = .ok ()) (hsize : settings.packetSize = 0) (hs : s.Steady)
    (hsurvey : Detection.survey s.rest = .ok m) (hr : s.rewinding = .supported)
    (hle : m.packetSize * settings.chunkPackets ≤ ChunkBuffer.capacityLimit) :
    ∃ framing s', framing.packetSize = m.packetSize ∧
      framing.detection = some ⟨m.packetSize, m.window, .rewound⟩ ∧
      s'.Steady ∧ s'.rest = s.data ∧
      (ofSource workers settings decoder s).result = .ok (start settings decoder framing s') := by
  obtain ⟨hresult, hsteady, hdata, hposition⟩ := detect_of_rewindable hs hsurvey hr
  exact ⟨_, _, rfl, rfl, hsteady, (Source.rest_of_start hposition).trans hdata,
    ofSource_of_detected decoder hcheck hsize hresult hle⟩

theorem ofSource_of_passing {m : Detection.Measure} (decoder : Decoder P E)
    (hcheck : workers.check settings = .ok ()) (hsize : settings.packetSize = 0) (hs : s.Steady)
    (hsurvey : Detection.survey s.rest = .ok m) (hr : s.rewinding = .unsupported)
    (hlong : 2 * m.packetSize ≤ s.rest.length)
    (hle : m.packetSize * settings.chunkPackets ≤ ChunkBuffer.capacityLimit) :
    ∃ framing s', framing.packetSize = m.packetSize ∧
      framing.detection =
        some ⟨m.packetSize, m.window, .skipped (2 * m.packetSize - m.window)⟩ ∧
      s'.Steady ∧ s'.rest = s.rest.drop (2 * m.packetSize) ∧
      (ofSource workers settings decoder s).result = .ok (start settings decoder framing s') := by
  obtain ⟨hresult, hadvanced⟩ := detect_of_passing hs hsurvey hr hlong
  exact ⟨_, _, rfl, rfl, hadvanced.steady, hadvanced.rest,
    ofSource_of_detected decoder hcheck hsize hresult hle⟩

theorem ofSource_of_passing_short {m : Detection.Measure} (decoder : Decoder P E)
    (hcheck : workers.check settings = .ok ()) (hsize : settings.packetSize = 0) (hs : s.Steady)
    (hsurvey : Detection.survey s.rest = .ok m) (hr : s.rewinding = .unsupported)
    (hshort : s.rest.length < 2 * m.packetSize) :
    (ofSource workers settings decoder s).result =
      .error (.error
        (.io (.detecting (.skipping (2 * m.packetSize - m.window))) .endedEarly)) :=
  ofSource_of_undetected decoder hcheck hsize (detect_of_passing_short hs hsurvey hr hshort)

end

/-- Two steady sources over the same data are opened without a given packet
size, a rewindable one and one that passes by. A refusal of the first is a
refusal of the second. Where the first is accepted, the second meets the end
too early if there are less than two packets, and otherwise yields the same
items without the first two, renumbered, and reads two packets less. -/
theorem passing_of_rewindable (workers : Workers) (settings : Settings) (decoder : Decoder P E)
    {a b : Source} {data : Bytes} (hsize : settings.packetSize = 0)
    (ha : a.Steady) (hastart : a.position = 0) (hadata : a.data = data)
    (har : a.rewinding = .supported)
    (hb : b.Steady) (hbstart : b.position = 0) (hbdata : b.data = data)
    (hbr : b.rewinding = .unsupported)
    (hlimit : ∀ d, (detect a).result = .ok d →
      d.packetSize * settings.chunkPackets ≤ ChunkBuffer.capacityLimit) :
    (∀ refusal, (ofSource workers settings decoder a).result = .error refusal →
      (ofSource workers settings decoder b).result = .error refusal) ∧
    ∀ r, (ofSource workers settings decoder a).result = .ok r →
      (data.length < 2 * r.packetSize →
        ∃ during fault, fault.kind = .unexpectedEnd ∧
          (ReadError.io during fault : ReadError E).isFatal = true ∧
          (ofSource workers settings decoder b).result = .error (.error (.io during fault))) ∧
      (2 * r.packetSize ≤ data.length →
        ∃ q, (ofSource workers settings decoder b).result = .ok q ∧
          q.packetSize = r.packetSize ∧
          (∃ window, r.framing.detection = some ⟨r.packetSize, window, .rewound⟩ ∧
            q.framing.detection =
              some ⟨r.packetSize, window, .skipped (2 * r.packetSize - window)⟩) ∧
          (∀ i, (r.afterCalls (i + 2)).next.item =
            (q.afterCalls i).next.item.map (Outcome.shift 2)) ∧
          (∀ i, (q.afterCalls i).next.item = none ↔
            (data.length + r.packetSize - 1) / r.packetSize ≤ i + 2) ∧
          ∀ count, (data.length + r.packetSize - 1) / r.packetSize ≤ count →
            (r.afterCalls count).tally.bytesRead = data.length ∧
            (q.afterCalls count).tally.bytesRead + 2 * r.packetSize = data.length) := by
  have harest : a.rest = data := (Source.rest_of_start hastart).trans hadata
  have hbrest : b.rest = data := (Source.rest_of_start hbstart).trans hbdata
  cases hcheck : workers.check settings with
  | error fault =>
    rw [ofSource_of_unusable decoder hcheck a, ofSource_of_unusable decoder hcheck b]
    exact ⟨fun _ h => h, fun r h => by simp at h⟩
  | ok _ =>
    cases hsurvey : Detection.survey data with
    | error reason =>
      have hea := detect_of_rejected ha (harest.symm ▸ hsurvey)
      have heb := detect_of_rejected hb (hbrest.symm ▸ hsurvey)
      rw [ofSource_of_undetected decoder hcheck hsize hea,
        ofSource_of_undetected decoder hcheck hsize heb]
      exact ⟨fun _ h => h, fun r h => by simp at h⟩
    | ok m =>
      rw [← harest] at hsurvey
      have hla : m.packetSize * settings.chunkPackets ≤ ChunkBuffer.capacityLimit :=
        hlimit _ (detect_of_rewindable ha hsurvey har).1
      obtain ⟨framing, s, hps, hdet, hs, hrest, hopen⟩ :=
        ofSource_of_rewindable decoder hcheck hsize ha hsurvey har hla
      rw [harest, ← hbrest] at hsurvey
      rw [hadata] at hrest
      rw [hopen]
      refine ⟨fun _ h => by simp at h, fun r hr => ?_⟩
      obtain rfl := Except.ok.inj hr
      rw [show (start settings decoder framing s).packetSize = m.packetSize from hps]
      constructor
      · intro hshort
        rw [← hbrest] at hshort
        exact ⟨_, _, rfl, rfl,
          ofSource_of_passing_short decoder hcheck hsize hb hsurvey hbr hshort⟩
      · intro hlong
        have hlongb : 2 * m.packetSize ≤ b.rest.length := by
          rw [hbrest]
          exact hlong
        obtain ⟨framing', s', hps', hdet', hs', hrest', hopen'⟩ :=
          ofSource_of_passing decoder hcheck hsize hb hsurvey hbr hlongb hla
        have hchunk := Workers.chunkPackets_pos_of_check hcheck
        have hskipped : s'.rest = s.rest.drop (2 * framing.packetSize) := by
          rw [hrest', hbrest, hrest, hps]
        have hrun := run_skipped decoder hchunk hs hs' (hps'.trans hps.symm) hskipped
          (by rw [hrest, hps]; exact hlong)
        rw [hrest, hps] at hrun
        exact ⟨_, hopen', hps', ⟨m.window, hdet, hdet'⟩, hrun⟩

/-- Two packets of 195 bytes and six bytes more, from a source that can go back
and from one that cannot. -/
theorem passing_of_rewindable_late :
    ∃ r q, (ofSource .borrowed { chunkPackets := 1 } (Sample.tagDecoder none)
        { passingLate with rewinding := .supported }).result = .ok r ∧
      (ofSource .borrowed { chunkPackets := 1 } (Sample.tagDecoder none)
        passingLate).result = .ok q ∧
      q.packetSize = 195 ∧
      (r.afterCalls 2).next.item = (q.afterCalls 0).next.item.map (Outcome.shift 2) ∧
      (q.afterCalls 0).next.item ≠ none ∧ (q.afterCalls 1).next.item = none ∧
      (r.afterCalls 3).tally.bytesRead = 396 ∧ (q.afterCalls 3).tally.bytesRead + 390 = 396 := by
  have hpassing : passingLate.Steady := ⟨by decide, by decide⟩
  have hs : ∀ rewinding, ({ passingLate with rewinding } : Source).Steady :=
    fun _ => ⟨hpassing.answers, hpassing.barrier⟩
  have hsurvey : Detection.survey passingLate.data = .ok ⟨195, _⟩ :=
    Detection.survey_of_second (by decide +kernel) (by decide +kernel) secondSync_passingLate
      (by decide)
  have hdata : ∀ rewinding, ({ passingLate with rewinding } : Source).data = passingLate.data :=
    fun _ => rfl
  have hcheck : Workers.borrowed.check { chunkPackets := 1 } = .ok () := rfl
  have hdetect := (detect_of_rewindable (hs .supported) hsurvey rfl).1
  obtain ⟨framing, s, hps, -, -, -, hopen⟩ :=
    ofSource_of_rewindable (Sample.tagDecoder none) hcheck rfl (hs .supported) hsurvey rfl
      (by decide)
  have hlimit : ∀ d, (detect { passingLate with rewinding := .supported }).result = .ok d →
      d.packetSize * 1 ≤ ChunkBuffer.capacityLimit := by
    intro d hd
    rw [hdetect] at hd
    obtain rfl := Except.ok.inj hd
    decide
  obtain ⟨-, haccepted⟩ :=
    passing_of_rewindable .borrowed { chunkPackets := 1 } (Sample.tagDecoder none) rfl
      (hs .supported) rfl (hdata .supported) rfl (hs .unsupported) rfl
      (hdata .unsupported) rfl hlimit
  obtain ⟨-, hlong⟩ := haccepted _ hopen
  have hsize : (start { chunkPackets := 1 } (Sample.tagDecoder none) framing s).packetSize = 195 :=
    hps
  have hlength : passingLate.data.length = 396 := by decide +kernel
  rw [hsize, hlength] at hlong
  obtain ⟨q, hq, hqsize, -, hitems, hend, htally⟩ := hlong (by decide)
  have hbytes := htally 3 (by decide)
  refine ⟨_, q, hopen, hq, hqsize, hitems 0, ?_, (hend 1).mpr (by decide), hbytes.1, hbytes.2⟩
  exact fun hnone => absurd ((hend 0).mp hnone) (by decide)

end TransportStream.Reader
