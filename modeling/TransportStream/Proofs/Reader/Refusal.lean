import TransportStream.Proofs.Detection.Courses
import TransportStream.Proofs.Reader.Opened
import TransportStream.Sample
import Mathlib.Algebra.Ring.Nat

/-!
# How opening may end

Opening gives a reader or says why it does not, except for a chunk length that a word
of 64 bits holds and a buffer cannot have (`answered_iff_allocatable`).
-/
namespace TransportStream

namespace Reader
variable {P E : Type}

section
variable {settings : Settings} {framing : Framing} {s : Source}

/-- A length between the two bounds passes the check and has no buffer. -/
theorem ofFraming_of_half_word (decoder : Decoder P E)
    (hlow : 2 ^ 63 ≤ framing.packetSize * settings.chunkPackets)
    (hhigh : framing.packetSize * settings.chunkPackets < 2 ^ 64) :
    ofFraming settings decoder framing s =
      .error (.unallocatable (framing.packetSize * settings.chunkPackets)) := by
  have hword : framing.packetSize * settings.chunkPackets < Settings.wordLimit := hhigh
  have hlimit : ¬framing.packetSize * settings.chunkPackets ≤ ChunkBuffer.capacityLimit := by
    have hcapacity : ChunkBuffer.capacityLimit = 2 ^ 63 - 1 := rfl
    omega
  simp only [ofFraming, Settings.chunkLength, ChunkBuffer.allocate?, if_pos hword, if_neg hlimit]

theorem ofFraming_of_overflow (decoder : Decoder P E)
    (h : 2 ^ 64 ≤ framing.packetSize * settings.chunkPackets) :
    ofFraming settings decoder framing s = .error (.error (.invalidSettings .chunkTooLong)) := by
  have hword : ¬framing.packetSize * settings.chunkPackets < Settings.wordLimit := Nat.not_lt.mpr h
  simp only [ofFraming, Settings.chunkLength, if_neg hword]

end

theorem result_of_located {workers : Workers} {settings : Settings} {framing : Framing}
    {s : Source} (decoder : Decoder P E) (hcheck : workers.check settings = .ok ())
    (hlocate : (Framing.locate settings.packetSize s).result = .ok framing) :
    (ofSource workers settings decoder s).result =
      ofFraming settings decoder framing (Framing.locate settings.packetSize s).source := by
  simp only [ofSource, hcheck, hlocate]

end Reader

/-- A reader is given, or the reason why not. -/
def Opening.Answered {P E : Type} (o : Opening P E) : Prop :=
  (∃ r, o.result = .ok r) ∨ ∃ e, o.result = .error (.error e)

/-- The settings pass, the packets are located, and a chunk of them has a
length that a word can hold and a buffer cannot. -/
def Settings.Unallocatable (settings : Settings) (workers : Workers) (s : Source) : Prop :=
  workers.check settings = .ok () ∧
    ∃ framing, (Framing.locate settings.packetSize s).result = .ok framing ∧
      2 ^ 63 ≤ framing.packetSize * settings.chunkPackets ∧
      framing.packetSize * settings.chunkPackets < 2 ^ 64

namespace Reader
variable {P E : Type}

theorem not_answered_of_unallocatable {workers : Workers} {settings : Settings} {s : Source}
    (decoder : Decoder P E) (h : settings.Unallocatable workers s) :
    ¬(ofSource workers settings decoder s).Answered := by
  obtain ⟨hcheck, framing, hlocate, hlow, hhigh⟩ := h
  unfold Opening.Answered
  rw [result_of_located decoder hcheck hlocate, ofFraming_of_half_word decoder hlow hhigh]
  rintro (⟨r, hr⟩ | ⟨e, he⟩)
  · cases hr
  · cases he

theorem answered_of_allocatable {workers : Workers} {settings : Settings} {s : Source}
    (decoder : Decoder P E) (h : ¬settings.Unallocatable workers s) :
    (ofSource workers settings decoder s).Answered := by
  cases hcheck : workers.check settings with
  | error fault => exact .inr ⟨_, ofSource_of_unusable decoder hcheck s⟩
  | ok _ =>
    cases hlocate : (Framing.locate settings.packetSize s).result with
    | error e =>
      apply Or.inr
      simp only [ofSource, hcheck, hlocate]
      exact ⟨_, rfl⟩
    | ok framing =>
      unfold Opening.Answered
      rw [result_of_located decoder hcheck hlocate]
      rcases Nat.lt_or_ge (framing.packetSize * settings.chunkPackets) (2 ^ 63) with hfits | hlow
      · exact .inl ⟨_, ofFraming_of_le (Nat.le_of_lt_succ hfits)⟩
      · rcases Nat.lt_or_ge (framing.packetSize * settings.chunkPackets) (2 ^ 64) with hhigh | hover
        · exact absurd ⟨hcheck, framing, hlocate, hlow, hhigh⟩ h
        · exact .inr ⟨_, ofFraming_of_overflow decoder hover⟩

/-- On every source, opening ends with a reader or an error exactly where the
length of a chunk does not lie between the two bounds. From the upper bound on
it is refused as too long, and no difference that detection forms of a window
and a packet size runs below zero. -/
theorem answered_iff_allocatable (workers : Workers) (settings : Settings)
    (decoder : Decoder P E) (s : Source) :
    ((ofSource workers settings decoder s).Answered ↔ ¬settings.Unallocatable workers s) ∧
    (∀ framing, workers.check settings = .ok () →
      (Framing.locate settings.packetSize s).result = .ok framing →
      2 ^ 64 ≤ framing.packetSize * settings.chunkPackets →
      (ofSource workers settings decoder s).result =
        .error (.error (.invalidSettings .chunkTooLong))) ∧
    ∀ m, (Detection.measure s).result = .ok m →
      m.packetSize ≤ m.window ∧ m.window - m.packetSize ≤ m.packetSize := by
  constructor
  · constructor
    · exact fun hanswered h => not_answered_of_unallocatable decoder h hanswered
    · exact answered_of_allocatable decoder
  constructor
  · intro framing hcheck hlocate hover
    rw [result_of_located decoder hcheck hlocate]
    exact ofFraming_of_overflow decoder hover
  · intro m hm
    have hwindow := Detection.window_of_measure hm
    omega

/-- A chunk of four packets of 2 ^ 62 bytes is too long, and says so. -/
theorem answered_iff_allocatable_word :
    Workers.own.check { packetSize := 2 ^ 62, chunkPackets := 4 } = .ok () ∧
      (ofSource .own { packetSize := 2 ^ 62, chunkPackets := 4 } (Sample.tagDecoder none)
        (Source.ofBytes [])).result = .error (.error (.invalidSettings .chunkTooLong)) := by
  have hcheck : Workers.own.check { packetSize := 2 ^ 62, chunkPackets := 4 } = .ok () := rfl
  have hsize : 0 < 2 ^ 62 := by decide
  obtain ⟨-, htoolong, -⟩ := answered_iff_allocatable .own
    { packetSize := 2 ^ 62, chunkPackets := 4 } (Sample.tagDecoder none) (Source.ofBytes [])
  refine ⟨hcheck, htoolong ⟨2 ^ 62, hsize, none⟩ hcheck ?_
    (show 2 ^ 64 ≤ 2 ^ 62 * 4 by decide)⟩
  rw [Framing.locate_of_given hsize]
  rfl

/-- A chunk of two packets of 2 ^ 62 bytes passes every check, and no buffer holds it. -/
theorem not_answered_half_word :
    ¬(ofSource .own { packetSize := 2 ^ 62, chunkPackets := 2 } (Sample.tagDecoder none)
      (Source.ofBytes [])).Answered := by
  have hsize : 0 < 2 ^ 62 := by decide
  apply not_answered_of_unallocatable
  refine ⟨rfl, ⟨2 ^ 62, hsize, none⟩, ?_, show 2 ^ 63 ≤ 2 ^ 62 * 2 by decide,
    show 2 ^ 62 * 2 < 2 ^ 64 by decide⟩
  rw [Framing.locate_of_given hsize]
  rfl

end Reader

end TransportStream
