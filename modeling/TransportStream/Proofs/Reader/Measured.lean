import TransportStream.Proofs.Packet.Grammar
import TransportStream.Proofs.Reader.Alignment
import TransportStream.Proofs.Reader.Due
import TransportStream.Proofs.Reader.Draining
import TransportStream.Proofs.Reader.Located
import TransportStream.Proofs.Reader.Passing
import TransportStream.Proofs.Reader.Refusal

/-!
# Readers that have measured their packets

A measured size lies between 188 and 204, and the decoder is shown no task of any
other length (`Sized`). Behind a rewind the first two packets begin at the sync bytes
that were measured, if the measurement began at the first byte.
-/
namespace TransportStream

open Detection

section
variable {s : Source} {d : Detection}

theorem size_of_detect (h : (detect s).result = .ok d) :
    188 ≤ d.packetSize ∧ d.packetSize ≤ 204 := by
  obtain ⟨m, hmeasure, hsize, -, -⟩ := measure_of_detect h
  have hwindow := window_of_measure hmeasure
  omega

theorem rewinding_of_rewound (hs : s.Steady) (h : (detect s).result = .ok d)
    (hrewound : d.resync = .rewound) : s.rewinding = .supported := by
  obtain ⟨m, hsurvey, -⟩ := survey_of_detect hs h
  obtain ⟨hmeasure, hadvanced⟩ := measure_of_survey hs hsurvey
  obtain ⟨m', hmeasure', -, -, hrealign⟩ := measure_of_detect h
  obtain rfl := Except.ok.inj (hmeasure.symm.trans hmeasure')
  cases hr : s.rewinding with
  | supported => rfl
  | failing fault =>
    rw [realign_of_failing m (hadvanced.rewinding.trans hr)] at hrealign
    cases hrealign
  | unsupported =>
    obtain ⟨hshort, hlong⟩ :=
      realign_of_steady m hadvanced.steady (hadvanced.rewinding.trans hr)
    rcases Nat.lt_or_ge (measure s).source.rest.length m.skip with hlt | hle
    · rw [hshort hlt] at hrealign
      cases hrealign
    · rw [(hlong hle).1, hrewound] at hrealign
      cases hrealign

end

namespace Outcome

/-- What no packet of `size` bytes can deliver, and how far one that it delivers reaches. -/
structure Fits (size : Nat) (outcome : Outcome Packet PacketDefect) : Prop where
  answered : ∀ index, outcome ≠ .error (.workerLost index)
  long : ∀ index length, outcome ≠ .error (.undecodable index (.tooShort length))
  extent : ∀ packet, outcome = .ok packet →
    packet.trailerLength = size - 188 ∧ packet.payload.length ≤ 184

theorem fits_of_io (size : Nat) (during : Operation) (fault : Fault) :
    Fits size (.error (.io during fault)) :=
  ⟨nofun, nofun, nofun⟩

theorem fits_ofSlice {size : Nat} (hsize : 188 ≤ size) (index : Nat) {slice : Bytes}
    (hslice : slice.length ≤ size) : Fits size (ofSlice Packet.decoder size index slice) := by
  unfold ofSlice
  by_cases hshort : slice.length < size
  · rw [if_pos hshort]
    exact ⟨nofun, nofun, nofun⟩
  have hlength : slice.length = size := by omega
  rw [if_neg hshort, Packet.decoder]
  generalize hdecode : Packet.decode slice = answer
  cases hdecode ▸ Packet.course_decode slice with
  | tooShort hlong => omega
  | missingSync | reservedControl | fieldOverflow => exact ⟨nofun, nofun, nofun⟩
  | packet _ hholds =>
    refine ⟨nofun, nofun, fun packet hpacket => ?_⟩
    obtain rfl := Except.ok.inj hpacket
    have htrailer := hholds.trailer
    exact ⟨by omega, hholds.length_payload_le⟩

/-- A slice that begins with the sync byte is not refused for want of one. -/
theorem ofSlice_ne_missingSync {size : Nat} {slice : Bytes}
    (hhead : slice.head? = some syncByte) (index place : Nat) (found : UInt8) :
    ofSlice Packet.decoder size index slice ≠
      .error (.undecodable place (.missingSync found)) := by
  unfold ofSlice
  by_cases hshort : slice.length < size
  · rw [if_pos hshort]
    exact nofun
  rw [if_neg hshort, Packet.decoder]
  cases hdecode : Packet.decode slice with
  | ok packet => exact nofun
  | error reason =>
    intro hreason
    cases hreason
    obtain ⟨-, hfound, hne⟩ := Packet.decode_eq_missingSync_iff.mp hdecode
    rw [List.head?_eq_getElem?, hfound] at hhead
    exact hne (Option.some.inj hhead)

end Outcome

namespace Reader
variable {P E : Type}

/-- Every task in line asks for the bytes of a packet and has no more than these. -/
def Sized (r : Reader P E) : Prop :=
  ∀ task ∈ r.tasks, task.expected = r.packetSize ∧ task.bytes.length ≤ r.packetSize

section
variable {r : Reader P E}

theorem sized_cut {task : Task} (h : task ∈ r.cut) :
    task.expected = r.packetSize ∧ task.bytes.length ≤ r.packetSize := by
  obtain ⟨i, -, rfl⟩ := Task.mem_ofChunk r.packetSize_pos h
  exact ⟨rfl, List.length_take_le _ _⟩

namespace Sized

theorem dropFirst (h : r.Sized) : r.dropFirst.Sized := by
  intro task hmem
  rw [tasks_dropFirst] at hmem
  exact h task (List.mem_of_mem_tail hmem)

theorem refilled (h : r.Sized) : r.refilled.Sized := by
  intro task hmem
  rw [tasks_refilled] at hmem
  rcases List.mem_append.mp hmem with hline | hcut
  · exact h task hline
  · exact sized_cut (r := r) hcut

theorem next (h : r.Sized) : r.next.reader.Sized := by
  have hcall := r.call_next
  generalize r.next = step at hcall
  cases hcall with
  | deliver => exact h.dropFirst
  | fault | finish => exact h
  | refill => exact h.refilled.dropFirst

theorem reachable {opened : Reader P E} (h : opened.Sized) (hr : Reachable opened r) :
    r.Sized := by
  induction hr with
  | opened => exact h
  | called _ ih => exact ih.next
  | @worked r place _ ih =>
    intro task hmem
    rw [tasks_finish] at hmem
    exact ih task hmem

theorem due (h : r.Sized) {task : Task} (hdue : r.due = .packet task) :
    task.expected = r.packetSize ∧ task.bytes.length ≤ r.packetSize := by
  unfold Reader.due at hdue
  split at hdue
  · rename_i first later hline
    obtain rfl := Due.packet.inj hdue
    exact h first (hline ▸ List.mem_cons_self ..)
  split at hdue
  · cases hdue
  split at hdue
  · rename_i first later hcut
    obtain rfl := Due.packet.inj hdue
    exact sized_cut (hcut ▸ List.mem_cons_self ..)
  · cases hdue

end Sized

theorem sized_start {settings : Settings} {framing : Framing} {s : Source}
    (decoder : Decoder P E) : (start settings decoder framing s).Sized :=
  fun _ hmem => absurd hmem List.not_mem_nil

/-- What a call brings of packets of 188 bytes or more. -/
theorem Sized.fits_next {r : Reader Packet PacketDefect} (h : r.Sized) (hhonest : r.Honest)
    (hdecoder : r.decoder = Packet.decoder) (hsize : 188 ≤ r.packetSize)
    {outcome : Outcome Packet PacketDefect} (hitem : r.next.item = some outcome) :
    Outcome.Fits r.packetSize outcome := by
  rw [hhonest.item_next, hdecoder] at hitem
  cases hdue : r.due with
  | finish =>
    rw [hdue] at hitem
    cases hitem
  | fault during met =>
    rw [hdue] at hitem
    obtain rfl := Option.some.inj hitem
    exact Outcome.fits_of_io _ during met
  | packet task =>
    obtain ⟨hexpected, hbytes⟩ := h.due hdue
    rw [hdue] at hitem
    obtain rfl := Option.some.inj hitem
    rw [Task.outcome_eq_ofSlice, hexpected]
    exact Outcome.fits_ofSlice hsize task.index hbytes

end

theorem detected_of_ofSource {workers : Workers} {settings : Settings} {decoder : Decoder P E}
    {s : Source} {opened : Reader P E} (hsize : settings.packetSize = 0)
    (hopened : (ofSource workers settings decoder s).result = .ok opened) :
    ∃ d, (detect s).result = .ok d ∧ opened.framing.detection = some d ∧
      opened.packetSize = d.packetSize := by
  obtain ⟨-, framing, hlocate, -, rfl⟩ := start_of_ofSource hopened
  obtain ⟨d, hd, -, hpacket, hdetection⟩ := Framing.detect_of_locate hsize hlocate
  exact ⟨d, hd, hdetection, hpacket⟩

/-- Behind a rewind the first two packets begin with the sync bytes that were measured. -/
theorem Settled.head_of_rewound {settings : Settings} {decoder : Decoder P E} {s : Source}
    {r : Reader P E} (h : Settled settings decoder s r) (hsize : settings.packetSize = 0)
    (hr : s.rewinding = .supported) (hfirst : s.data[0]? = some syncByte) {i : Nat} (hi : i < 2)
    {outcome : Outcome P E} (hitem : r.future[i]? = some outcome) :
    ∃ slice, slice.head? = some syncByte ∧
      outcome = Outcome.ofSlice decoder r.packetSize i slice := by
  have horigin : s.origin settings r.packetSize = 0 := if_neg (by rw [hr]; exact nofun)
  have hsecond : s.data[r.packetSize]? = some syncByte := (h.measured hsize).held
  rw [h.future, horigin, List.drop_zero, Outcome.getElem?_ofSlices,
    Bytes.getElem?_slices r.packetSize_pos] at hitem
  by_cases hlt : i * r.packetSize < s.data.length
  · rw [if_pos hlt, Option.map_some, Nat.zero_add] at hitem
    refine ⟨_, ?_, (Option.some.inj hitem).symm⟩
    rw [List.head?_take, if_neg (Nat.ne_of_gt r.packetSize_pos), List.head?_drop]
    match i, hi with
    | 0, _ => rw [Nat.zero_mul, hfirst]
    | 1, _ => rw [Nat.one_mul, hsecond]
  · rw [if_neg hlt] at hitem
    cases hitem

/-- Packets of a size that was measured, on any source and in every state that
calls and workers lead to: none of them loses its worker or is refused as too
short, and one that is decoded has a trailer of at most 16 bytes and a payload
that fits the body. Where a steady source was measured from its first byte on and
has been rewound to it, the first two items are not refused for want of a sync
byte, whatever the workers do meanwhile. -/
theorem measured_packets_fit {workers : Workers} {settings : Settings} {s : Source}
    {opened : Reader Packet PacketDefect} (hsize : settings.packetSize = 0)
    (hopened : (ofSource workers settings Packet.decoder s).result = .ok opened) :
    188 ≤ opened.packetSize ∧ opened.packetSize ≤ 204 ∧
    (∀ r outcome, Reachable opened r → r.next.item = some outcome →
      (∀ index, outcome ≠ .error (.workerLost index)) ∧
      (∀ index length, outcome ≠ .error (.undecodable index (.tooShort length))) ∧
      ∀ packet, outcome = .ok packet →
        packet.trailerLength = opened.packetSize - 188 ∧ packet.trailerLength ≤ 16 ∧
          packet.payload.length ≤ 184) ∧
    ∃ d, opened.framing.detection = some d ∧
      (d.resync = .rewound → s.Steady → s.position = 0 →
        ∀ (schedule : List (List Nat)) (i : Nat), i < 2 → ∀ index found,
          (items (opened.scheduled schedule))[i]? ≠
            some (.error (.undecodable index (.missingSync found)))) := by
  obtain ⟨d, hdetect, hdetection, hopenedSize⟩ := detected_of_ofSource hsize hopened
  obtain ⟨hlow, hhigh⟩ := size_of_detect hdetect
  rw [← hopenedSize] at hlow hhigh
  refine ⟨hlow, hhigh, fun r outcome hr hitem => ?_, d, hdetection, ?_⟩
  · obtain ⟨-, framing, -, -, hstart⟩ := start_of_ofSource hopened
    have hsized : r.Sized := Sized.reachable (hstart ▸ sized_start Packet.decoder) hr
    have hhonest : r.Honest := Honest.reachable (hstart ▸ honest_start Packet.decoder) hr
    have hdecoder : r.decoder = Packet.decoder := hr.agrees.decoder.trans (hstart ▸ rfl)
    have hsame : r.packetSize = opened.packetSize := congrArg Framing.packetSize hr.agrees.framing
    obtain ⟨hanswered, hlong, hextent⟩ :=
      hsized.fits_next hhonest hdecoder (hsame ▸ hlow) hitem
    refine ⟨hanswered, hlong, fun packet hpacket => ?_⟩
    obtain ⟨htrailer, hpayload⟩ := hextent packet hpacket
    rw [hsame] at htrailer
    exact ⟨htrailer, by omega, hpayload⟩
  · intro hrewound hs hstart schedule i hi index found hrefused
    obtain ⟨m, hsurvey, -⟩ := survey_of_detect hs hdetect
    have hfirst := aligned_of_survey hsurvey
    rw [Source.rest_of_start hstart] at hfirst
    have hsettled := settled_of_steady hs hstart hopened
    rw [(scheduled_of_steady hsettled.steady schedule).1] at hrefused
    have hlt : i < schedule.length := by
      have hlength := (List.getElem?_eq_some_iff.mp hrefused).1
      rw [List.length_take] at hlength
      omega
    have hitem := (List.getElem?_take_of_lt hlt).symm.trans hrefused
    obtain ⟨slice, hhead, houtcome⟩ := hsettled.head_of_rewound hsize
      (rewinding_of_rewound hs hdetect hrewound) hfirst hi hitem
    exact Outcome.ofSlice_ne_missingSync hhead i index found houtcome.symm

/-- Two packets of 195 bytes and six bytes more, from a source that can go back. -/
theorem measured_packets_fit_late :
    ∃ opened, (ofSource .borrowed { chunkPackets := 1 } Packet.decoder
        { passingLate with rewinding := .supported }).result = .ok opened ∧
      opened.packetSize = 195 ∧
      (∀ packet, opened.next.item = some (.ok packet) → packet.trailerLength = 7) ∧
      ∀ (schedule : List (List Nat)) (index : Nat) (found : UInt8),
        (items (opened.scheduled schedule))[1]? ≠
          some (.error (.undecodable index (.missingSync found))) := by
  have hs : ({ passingLate with rewinding := .supported } : Source).Steady :=
    ⟨by decide, by decide⟩
  have hsurvey : Detection.survey passingLate.data = .ok ⟨195, _⟩ :=
    Detection.survey_of_second (by decide +kernel) (by decide +kernel) secondSync_passingLate
      (by decide)
  have hcheck : Workers.borrowed.check { chunkPackets := 1 } = .ok () := rfl
  obtain ⟨framing, left, hsize, hdetection, -, -, hopened⟩ :=
    ofSource_of_rewindable Packet.decoder hcheck rfl hs hsurvey rfl (by decide)
  obtain ⟨-, -, hitems, d, hd, hfirst⟩ := measured_packets_fit rfl hopened
  obtain rfl := Option.some.inj (hdetection.symm.trans hd)
  have hopenedSize : (start { chunkPackets := 1 } Packet.decoder framing left).packetSize = 195 :=
    hsize
  refine ⟨_, hopened, hopenedSize, fun packet hpacket => ?_, fun schedule =>
    hfirst rfl hs rfl schedule 1 (by decide)⟩
  obtain ⟨-, -, hextent⟩ := hitems _ _ .opened hpacket
  rw [hopenedSize] at hextent
  exact (hextent packet rfl).1

/-- A stream behind a byte that is not part of it, and a source that stands behind that byte. -/
def behindStart : Source := { data := 0x00 :: Sample.stream 188 3, position := 1 }

/-- The measurement begins where the source stands, and the rewind goes to the first byte. -/
theorem measured_behind_start :
    behindStart.Steady ∧ ∃ opened,
      (ofSource .own {} Packet.decoder behindStart).result = .ok opened ∧
      opened.framing.detection = some ⟨188, 193, .rewound⟩ ∧
      items (opened.scheduled [[], []]) =
        [.error (.undecodable 0 (.missingSync 0)), .error (.undecodable 1 (.missingSync 0))] := by
  have hs : behindStart.Steady := ⟨by decide, by decide⟩
  have hcheck : Workers.own.check {} = .ok () := rfl
  have hsecond : Detection.SecondSync behindStart.rest 188 := by
    refine ⟨by decide, by decide +kernel, fun i hi hlt => ?_⟩
    omega
  have hsurvey : Detection.survey behindStart.rest = .ok ⟨188, 193⟩ := by
    rw [← Detection.reach_of_early hsecond (by decide)]
    exact Detection.survey_of_second (by decide +kernel) (by decide +kernel) hsecond (by decide)
  obtain ⟨framing, left, hsize, hdetection, hleft, hrest, hopened⟩ :=
    ofSource_of_rewindable Packet.decoder hcheck rfl hs hsurvey rfl (by decide)
  have hsteady : (start {} Packet.decoder framing left).Steady :=
    steady_start Packet.decoder (by decide) hleft
  refine ⟨hs, _, hopened, hdetection, ?_⟩
  rw [(scheduled_of_steady hsteady _).1, future_start, hsize, hrest,
    Bytes.slices_of_ne_nil (by decide) (by decide +kernel),
    Bytes.slices_of_ne_nil (by decide) (by decide +kernel)]
  simp only [Outcome.ofSlices, List.length_cons, List.length_nil, List.take_succ_cons,
    List.take_zero]
  decide +kernel

end Reader

end TransportStream
