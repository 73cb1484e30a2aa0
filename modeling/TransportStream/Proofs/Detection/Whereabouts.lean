import TransportStream.Proofs.Detection.Courses
import Mathlib.Control.Monad.Basic

/-!
# Where a detection leaves its source

On any source, a detection that succeeds has taken `window` bytes before its one
rewind. The window ends before the second packet does, so what is left of that packet
is a difference that cannot run below zero (`skip_of_measure`).
-/
namespace TransportStream

open Request (taken)

namespace Detection
variable {s : Source} {m : Measure}

theorem rest_of_measure (h : (measure s).result = .ok m) :
    taken (measure s).requests = s.rest.take m.window := by
  have hrest := (answered_measure s).rest ((reading_measure s).reads _)
  rw [hrest, List.take_left' (head_of_measure h).1]

theorem skip_of_measure (h : (measure s).result = .ok m) :
    m.skip + m.window = 2 * m.packetSize ∧ 0 < m.skip ∧ m.skip < m.packetSize := by
  have hwindow := window_of_measure h
  unfold Measure.skip
  omega

end Detection

open Detection

theorem left_of_detect {s : Source} {d : Detection} (h : (detect s).result = .ok d) :
    188 ≤ d.packetSize ∧ d.packetSize < d.window ∧ d.window ≤ 205 ∧
      s.rest[0]? = some 0x47 ∧ s.rest[d.packetSize]? = some 0x47 ∧
      (∀ i, 188 ≤ i → i < d.packetSize → s.rest[i]? ≠ some 0x47) ∧
      s.Answered (detect s).requests (detect s).source ∧
      ∃ probes, (∀ answer, .rewind answer ∉ probes) ∧ (taken probes).length = d.window ∧
        ((d.resync = .rewound ∧ (detect s).requests = probes ++ [.rewind (.ok true)] ∧
            (detect s).source.rest = s.data) ∨
          ∃ count skips, d.resync = .skipped count ∧ count + d.window = 2 * d.packetSize ∧
            0 < count ∧ count < d.packetSize ∧
            (detect s).requests = probes ++ .rewind (.ok false) :: skips ∧
            (∀ answer, .rewind answer ∉ skips) ∧
            (taken (detect s).requests).length = 2 * d.packetSize ∧
            (detect s).source.rest = s.rest.drop (2 * d.packetSize)) := by
  obtain ⟨m, hmeasure, hsize, hwindow, hresync⟩ := measure_of_detect h
  obtain ⟨hlength, hsearched, hsecond⟩ := head_of_measure hmeasure
  obtain ⟨hskip, hpositive, hbelow⟩ := skip_of_measure hmeasure
  have hreads := (reading_measure s).reads
  have hanswered := answered_detect s
  have hrequests := requests_detect hmeasure
  have hhead := rest_of_measure hmeasure
  obtain ⟨hbeyond, hinside, hlimit⟩ := window_of_measure hmeasure
  have haligned := hsearched.aligned
  rw [hhead, List.getElem?_take_of_lt (by omega)] at haligned
  rw [hhead] at hsecond
  obtain ⟨hplace, -⟩ := secondSync_take.mp hsecond
  rw [hsize, hwindow]
  refine ⟨hbeyond, hinside, hlimit, haligned, hplace.held, hplace.first, hanswered,
    (measure s).requests, hreads, hlength, ?_⟩
  have hreturn := return_realign m (measure s).source
  have hsource := (detect_of_ok hmeasure).2
  generalize realign m (measure s).source = x at hreturn hresync hrequests hsource
  cases hreturn with
  | failed => cases hresync
  | rewound hstart =>
    refine .inl ⟨(Except.ok.inj hresync).symm, hrequests, ?_⟩
    rw [Source.rest_of_start (by rw [hsource]; exact hstart), hanswered.data]
  | @skipped left skips honward htaken =>
    have htotal : (taken (detect s).requests).length = 2 * m.packetSize := by
      rw [hrequests, Request.taken_append, List.length_append, hlength, ← hskip, Nat.add_comm]
      exact congrArg (· + m.window) htaken
    have hdeclined : .rewind (.ok true) ∉ (detect s).requests := by
      rw [hrequests]
      intro hmem
      rcases List.mem_append.mp hmem with hprobe | hlater
      · exact hreads _ hprobe
      rcases List.mem_cons.mp hlater with hfirst | hskipped
      · cases hfirst
      · exact honward _ hskipped
    refine .inr ⟨m.skip, skips, (Except.ok.inj hresync).symm, hskip, hpositive, hbelow, hrequests,
      honward, htotal, ?_⟩
    rw [hanswered.rest hdeclined, List.drop_left' htotal]

/-- Packets of 195 bytes passing by. The source says "end of input" in the middle of
the extended probe and serves data again. -/
def resuming : Source where
  data := 0x47 :: List.replicate 194 0 ++ 0x47 :: List.replicate 200 1
  answers := [.serve 100, .fail ⟨.interrupted, "again"⟩, .serve 93, .serve 5, .serve 0, .serve 10,
    .fail ⟨.interrupted, "again"⟩]
  rewinding := .unsupported

theorem left_of_detect_resuming :
    (detect resuming).result = .ok ⟨195, 198, .skipped 192⟩ ∧
      (taken (detect resuming).requests).length = 390 ∧
      (detect resuming).source.rest = resuming.data.drop 390 := by
  have hdetect : (detect resuming).result = .ok ⟨195, 198, .skipped 192⟩ := by decide +kernel
  obtain ⟨-, -, -, -, -, -, -, probes, -, -, hleft⟩ := left_of_detect hdetect
  rcases hleft with ⟨hresync, -, -⟩ | ⟨count, skips, -, -, -, -, -, -, htotal, hrest⟩
  · cases hresync
  · exact ⟨hdetect, htotal, hrest⟩

end TransportStream
