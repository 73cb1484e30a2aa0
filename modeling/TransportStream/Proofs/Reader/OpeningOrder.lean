import TransportStream.Proofs.Reader.Refusal

/-!
# The order of opening

Of several reasons not to open a reader the first is reported: an empty chunk, the
want of workers, a failed detection, the length of a chunk. Borrowed workers are not
counted (`borrowed_of_own`).
-/
namespace TransportStream

theorem Workers.check_own_of_pos {settings : Settings} (h : settings.workers ≠ 0) :
    Workers.own.check settings = Workers.borrowed.check settings := by
  simp only [check, Settings.check]
  cases settings.checkChunk with
  | error fault => rfl
  | ok _ => exact if_neg h

theorem Workers.check_of_empty (workers : Workers) {settings : Settings}
    (h : settings.chunkPackets = 0) : workers.check settings = .error .emptyChunk := by
  have hchunk : settings.checkChunk = .error .emptyChunk := if_pos h
  cases workers <;> simp only [check, Settings.check, hchunk]

theorem Workers.check_own_of_none {settings : Settings} (hchunk : settings.chunkPackets ≠ 0)
    (h : settings.workers = 0) : Workers.own.check settings = .error .noWorkers := by
  have hcheck : settings.checkChunk = .ok () := if_neg hchunk
  simp only [check, Settings.check, hcheck, h, if_true]

namespace Reader
variable {P E : Type}

theorem requests_of_unusable {workers : Workers} {settings : Settings} {fault : SettingsFault}
    (decoder : Decoder P E) (hcheck : workers.check settings = .error fault) (s : Source) :
    (ofSource workers settings decoder s).requests = [] := by
  simp only [ofSource, hcheck]

/-- With enough workers of its own a reader is opened as with borrowed ones. -/
theorem borrowed_of_own {settings : Settings} (decoder : Decoder P E) (s : Source)
    (h : settings.workers ≠ 0) :
    (ofSource .own settings decoder s).result = (ofSource .borrowed settings decoder s).result ∧
      (ofSource .own settings decoder s).requests =
        (ofSource .borrowed settings decoder s).requests := by
  simp only [ofSource, Workers.check_own_of_pos h]
  split
  · exact ⟨rfl, rfl⟩
  split <;> exact ⟨rfl, rfl⟩

/-- Once a packet is known to have `size` bytes the length of a chunk decides: it is
refused where a word cannot hold it, and below half of that there is a reader on the
source `left`, which has not done anything yet. -/
structure DecidedByLength (settings : Settings) (size : Nat) (detection : Option Detection)
    (left : Source) (opening : Opening P E) : Prop where
  refused : (∃ fault, opening.result = .error (.error (.invalidSettings fault))) ↔
    2 ^ 64 ≤ size * settings.chunkPackets
  opened : size * settings.chunkPackets < 2 ^ 63 →
    ∃ r, opening.result = .ok r ∧ r.packetSize = size ∧ r.framing.detection = detection ∧
      r.chunkLength = size * settings.chunkPackets ∧ r.pending = 0 ∧ r.tally = {} ∧
      r.source = left

theorem decidedByLength_of_located {workers : Workers} {settings : Settings} {framing : Framing}
    {s : Source} (decoder : Decoder P E) (hcheck : workers.check settings = .ok ())
    (hlocate : (Framing.locate settings.packetSize s).result = .ok framing) :
    DecidedByLength settings framing.packetSize framing.detection
      (Framing.locate settings.packetSize s).source (ofSource workers settings decoder s) := by
  have hresult := result_of_located decoder hcheck hlocate
  constructor
  · rw [hresult]
    constructor
    · rintro ⟨fault, hrefused⟩
      apply Nat.le_of_not_lt
      intro hword
      rcases Nat.lt_or_ge (framing.packetSize * settings.chunkPackets) (2 ^ 63) with hfits | hhalf
      · rw [ofFraming_of_le (Nat.le_of_lt_succ hfits)] at hrefused
        cases hrefused
      · rw [ofFraming_of_half_word decoder hhalf hword] at hrefused
        cases hrefused
    · exact fun hover => ⟨_, ofFraming_of_overflow decoder hover⟩
  · intro hfits
    rw [hresult, ofFraming_of_le (Nat.le_of_lt_succ hfits)]
    exact ⟨_, rfl, rfl, rfl, rfl, rfl, rfl, rfl⟩

/-- Opening is decided in this order: the packets in a chunk, the workers if they are
the reader's own, the detection if no packet size is given, the length of a chunk.
The source is asked for nothing but what the detection asks for. -/
theorem opening_order (settings : Settings) (decoder : Decoder P E) (s : Source) :
    (settings.chunkPackets = 0 → ∀ workers,
      (ofSource workers settings decoder s).result =
          .error (.error (.invalidSettings .emptyChunk)) ∧
        (ofSource workers settings decoder s).requests = []) ∧
    (settings.chunkPackets ≠ 0 → settings.workers = 0 →
      (ofSource .own settings decoder s).result = .error (.error (.invalidSettings .noWorkers)) ∧
        (ofSource .own settings decoder s).requests = []) ∧
    (∀ count, ofSource .borrowed { settings with workers := count } decoder s =
      ofSource .borrowed settings decoder s) ∧
    (settings.workers ≠ 0 →
      (ofSource .own settings decoder s).result = (ofSource .borrowed settings decoder s).result ∧
        (ofSource .own settings decoder s).requests =
          (ofSource .borrowed settings decoder s).requests) ∧
    ∀ workers, settings.chunkPackets ≠ 0 → (workers = .own → settings.workers ≠ 0) →
      (settings.packetSize ≠ 0 →
        (ofSource workers settings decoder s).requests = [] ∧
          DecidedByLength settings settings.packetSize none s
            (ofSource workers settings decoder s)) ∧
      (settings.packetSize = 0 →
        (ofSource workers settings decoder s).requests = (detect s).requests ∧
          (∀ reason, (detect s).result = .error (.rejected reason) →
            (ofSource workers settings decoder s).result = .error (.error (.rejected reason))) ∧
          (∀ during fault, (detect s).result = .error (.io during fault) →
            ∃ retold, (ofSource workers settings decoder s).result =
                .error (.error (.io retold fault)) ∧
              retold.message = "auto detecting packet size failed: " ++ during.message) ∧
          ∀ d, (detect s).result = .ok d →
            DecidedByLength settings d.packetSize (some d) (detect s).source
              (ofSource workers settings decoder s)) := by
  refine ⟨fun hempty workers => ?_, fun hchunk hnone => ?_, fun count => rfl,
    borrowed_of_own decoder s, fun workers hchunk hworkers => ⟨fun hgiven => ?_, fun hzero => ?_⟩⟩
  · have hcheck := workers.check_of_empty hempty
    exact ⟨ofSource_of_unusable decoder hcheck s, requests_of_unusable decoder hcheck s⟩
  · have hcheck := Workers.check_own_of_none hchunk hnone
    exact ⟨ofSource_of_unusable decoder hcheck s, requests_of_unusable decoder hcheck s⟩
  · have hcheck := Workers.check_of_pos (Nat.pos_of_ne_zero hchunk)
      fun hown => Nat.pos_of_ne_zero (hworkers hown)
    have hsize := Nat.pos_of_ne_zero hgiven
    have hlocated := Framing.locate_of_given hsize s
    have hdecided := decidedByLength_of_located decoder hcheck (congrArg Exchange.result hlocated)
    rw [hlocated] at hdecided
    exact ⟨requests_of_given decoder hcheck hsize, hdecided⟩
  · have hcheck := Workers.check_of_pos (Nat.pos_of_ne_zero hchunk)
      fun hown => Nat.pos_of_ne_zero (hworkers hown)
    refine ⟨requests_of_measured decoder hcheck hzero, fun reason h => ?_, fun during fault h => ?_,
      fun d h => ?_⟩
    · exact ofSource_of_undetected decoder hcheck hzero h
    · exact ⟨_, ofSource_of_undetected decoder hcheck hzero h, rfl⟩
    · have hlocated := Framing.locate_zero_of_ok h
      rw [← hzero] at hlocated
      have hdecided := decidedByLength_of_located decoder hcheck (congrArg Exchange.result hlocated)
      rw [hlocated] at hdecided
      exact hdecided

/-- Everything is wrong at once: an empty source, no packets in a chunk, no workers;
and then less and less of it. -/
theorem opening_order_of_all_wrong :
    (ofSource .own { chunkPackets := 0, workers := 0 } (Sample.tagDecoder none)
        (.ofBytes [])).result = .error (.error (.invalidSettings .emptyChunk)) ∧
      (ofSource .own { chunkPackets := 2 ^ 60, workers := 0 } (Sample.tagDecoder none)
        (.ofBytes [])).result = .error (.error (.invalidSettings .noWorkers)) ∧
      (ofSource .own { chunkPackets := 2 ^ 60 } (Sample.tagDecoder none)
        (.ofBytes [])).result =
          .error (.error (.rejected (.missingLeadingSync 193 0))) ∧
      ∃ fault, (ofSource .own { packetSize := 188, chunkPackets := 2 ^ 60 }
        (Sample.tagDecoder none) (.ofBytes [])).result =
          .error (.error (.invalidSettings fault)) := by
  have hrejected : (detect (.ofBytes [])).result = .error (.rejected (.missingLeadingSync 193 0)) :=
    detect_of_rejected (Source.steady_ofBytes []) (Detection.survey_of_short (by decide))
  obtain ⟨hempty, -, -, -, -⟩ := opening_order { chunkPackets := 0, workers := 0 }
    (Sample.tagDecoder none) (.ofBytes [])
  obtain ⟨-, hnone, -, -, -⟩ := opening_order { chunkPackets := 2 ^ 60, workers := 0 }
    (Sample.tagDecoder none) (.ofBytes [])
  obtain ⟨-, -, -, -, hmeasured⟩ := opening_order { chunkPackets := 2 ^ 60 }
    (Sample.tagDecoder none) (.ofBytes [])
  obtain ⟨-, -, -, -, hgiven⟩ := opening_order { packetSize := 188, chunkPackets := 2 ^ 60 }
    (Sample.tagDecoder none) (.ofBytes [])
  obtain ⟨-, hrejects, -, -⟩ := (hmeasured .own (by decide) (by decide)).2 rfl
  obtain ⟨-, hlength⟩ := (hgiven .own (by decide) (by decide)).1 (by decide)
  exact ⟨(hempty rfl .own).1, (hnone (by decide) rfl).1, hrejects _ hrejected,
    hlength.refused.mpr (by decide)⟩

end Reader

end TransportStream
