import TransportStream.Proofs.Reader.Abreast
import TransportStream.Proofs.Source.Interspersed

/-!
# A reader whose source is interrupted

Readers whose sources differ by interruptions alone are opened alike and take every
call alike (`Interspersed.next`).
-/
namespace TransportStream.Reader
variable {P E : Type}

/-- The same reader on another source. -/
def withSource (r : Reader P E) (source : Source) : Reader P E := { r with source }

/-- Two readers that differ by interruptions to come. -/
structure Interspersed (r r' : Reader P E) : Prop where
  same : r' = r.withSource r'.source
  source : r.source.Interspersed r'.source

namespace Interspersed
variable {r r' : Reader P E}

theorem exists_source (h : Interspersed r r') : ∃ source,
    r.source.Interspersed source ∧ r' = r.withSource source :=
  ⟨r'.source, h.source, h.same⟩

theorem tally (h : Interspersed r r') : r'.tally = r.tally := by
  rw [h.same]
  rfl

theorem pending (h : Interspersed r r') : r'.pending = r.pending := by
  rw [h.same]
  rfl

theorem intake (h : Interspersed r r') : r.intake.Interspersed r'.intake := by
  obtain ⟨source, hsource, rfl⟩ := h.exists_source
  exact hsource.gather r.chunkLength

theorem received (h : Interspersed r r') : Interspersed r.received r'.received := by
  have hintake := h.intake
  obtain ⟨source, -, rfl⟩ := h.exists_source
  refine ⟨?_, hintake.source⟩
  unfold Reader.received
  rw [hintake.result]
  rfl

theorem cut (h : Interspersed r r') : r'.cut = r.cut := by
  have hintake := h.intake
  obtain ⟨source, -, rfl⟩ := h.exists_source
  unfold Reader.cut
  rw [hintake.result]
  rfl

theorem refilled (h : Interspersed r r') : Interspersed r.refilled r'.refilled := by
  have hintake := h.intake
  have hreceived := h.received.same
  have hcut := h.cut
  refine ⟨?_, hintake.source⟩
  unfold Reader.refilled
  rw [hcut, hintake.result, hreceived]
  rfl

theorem dropFirst (h : Interspersed r r') : Interspersed r.dropFirst r'.dropFirst := by
  obtain ⟨source, hsource, rfl⟩ := h.exists_source
  exact ⟨rfl, hsource⟩

theorem next (h : Interspersed r r') :
    r'.next.item = r.next.item ∧ r'.next.notes = r.next.notes ∧
      Padded Request.Interrupted r.next.requests r'.next.requests ∧
      Interspersed r.next.reader r'.next.reader := by
  have hintake := h.intake
  have hresult := hintake.result
  have hcut := h.cut
  have hreceived := h.received
  have hrefilled := h.refilled
  have hdropped := h.dropFirst
  obtain ⟨source, -, rfl⟩ := h.exists_source
  have hcall := r.call_next
  generalize r.next = step at hcall
  cases hcall with
  | deliver hs =>
    have hcall' : (r.withSource source).Call _ := .deliver hs
    rw [next_of_call hcall']
    exact ⟨rfl, rfl, .nil, hdropped⟩
  | fault hs hf =>
    rw [← hresult] at hf
    have hcall' : (r.withSource source).Call _ := .fault hs hf
    rw [next_of_call hcall']
    exact ⟨rfl, rfl, hintake.requests, hreceived⟩
  | finish hs hf hb =>
    rw [← hresult] at hf hb
    have hcall' : (r.withSource source).Call _ := .finish hs hf hb
    rw [next_of_call hcall']
    exact ⟨rfl, rfl, hintake.requests, hreceived⟩
  | refill hs hf hb =>
    rw [← hresult] at hf hb
    have hcall' : (r.withSource source).Call _ := .refill hs hf hb
    rw [next_of_call hcall', hcut, hresult]
    exact ⟨rfl, rfl, hintake.requests, hrefilled.dropFirst⟩

theorem afterCalls (h : Interspersed r r') (count : Nat) :
    Interspersed (r.afterCalls count) (r'.afterCalls count) := by
  induction count generalizing r r' with
  | zero => exact h
  | succ count ih => exact ih h.next.2.2.2

end Interspersed

theorem interspersed_locate {s s' : Source} (h : s.Interspersed s') (packetSize : Nat) :
    (Framing.locate packetSize s).Interspersed (Framing.locate packetSize s') := by
  rcases Nat.eq_zero_or_pos packetSize with rfl | hpos
  · have hdetect := h.detect
    have hresult := hdetect.result
    cases hd : (detect s).result with
    | error e =>
      rw [hd] at hresult
      rw [Framing.locate_zero_of_error hd, Framing.locate_zero_of_error hresult]
      exact ⟨rfl, hdetect.source, hdetect.requests⟩
    | ok d =>
      rw [hd] at hresult
      rw [Framing.locate_zero_of_ok hd, Framing.locate_zero_of_ok hresult]
      exact ⟨rfl, hdetect.source, hdetect.requests⟩
  · rw [Framing.locate_of_given hpos, Framing.locate_of_given hpos]
    exact .done h _

/-- Opening ends alike, and an opened reader differs by the interruptions to come. -/
theorem interspersed_ofSource {s s' : Source} (h : s.Interspersed s') (workers : Workers)
    (settings : Settings) (decoder : Decoder P E) :
    (ofSource workers settings decoder s').notes = (ofSource workers settings decoder s).notes ∧
      Padded Request.Interrupted (ofSource workers settings decoder s).requests
        (ofSource workers settings decoder s').requests ∧
      (ofSource workers settings decoder s').result =
        (ofSource workers settings decoder s).result.map
          (·.withSource (Framing.locate settings.packetSize s').source) := by
  cases hcheck : workers.check settings with
  | error fault =>
    simp only [ofSource, hcheck]
    exact ⟨trivial, .nil, rfl⟩
  | ok _ =>
    have hlocate := interspersed_locate h settings.packetSize
    have hresult := hlocate.result
    cases hl : (Framing.locate settings.packetSize s).result with
    | error e =>
      rw [hl] at hresult
      simp only [ofSource, hcheck, hl, hresult]
      exact ⟨trivial, hlocate.requests, rfl⟩
    | ok framing =>
      rw [hl] at hresult
      simp only [ofSource, hcheck, hl, hresult]
      exact ⟨trivial, hlocate.requests, ofFraming_map fun _ => rfl⟩

/-- Interruptions of any number at any places cannot be told, except by the
interrupted reads themselves: not from detection and reads behind it, not from
the chunks of a buffer, and not from opening a reader and calling it, whatever
its workers do. -/
theorem interruptions_unseen (workers : Workers) (settings : Settings) (decoder : Decoder P E)
    {s s' : Source} (h : s.Interspersed s') :
    ((detect s).Interspersed (detect s') ∧
      ∀ lengths : List Nat, List.Forall₂ Exchange.Interspersed
        ((detect s).source.readsUpTo lengths) ((detect s').source.readsUpTo lengths)) ∧
    (∀ (count : Nat) (buffer : ChunkBuffer), List.Forall₂ Exchange.Interspersed
      (ChunkBuffer.fills count buffer s) (ChunkBuffer.fills count buffer s')) ∧
    (ofSource workers settings decoder s').notes = (ofSource workers settings decoder s).notes ∧
    Padded Request.Interrupted (ofSource workers settings decoder s).requests
      (ofSource workers settings decoder s').requests ∧
    (∀ refusal, (ofSource workers settings decoder s).result = .error refusal →
      (ofSource workers settings decoder s').result = .error refusal) ∧
    ∀ opened, (ofSource workers settings decoder s).result = .ok opened →
      ∃ opened', (ofSource workers settings decoder s').result = .ok opened' ∧
        Interspersed opened opened' ∧
        ∀ (schedule schedule' : List (List Nat)) (k : Nat) (step step' : Step P E),
          (opened.scheduled schedule)[k]? = some step →
          (opened'.scheduled schedule')[k]? = some step' →
            step'.item = step.item ∧ step'.notes = step.notes ∧
            step'.reader.tally = step.reader.tally ∧
            step'.reader.pending = step.reader.pending ∧
            step'.reader.source.position = step.reader.source.position ∧
            Padded Request.Interrupted step.requests step'.requests := by
  obtain ⟨hnotes, hrequests, hresult⟩ := interspersed_ofSource h workers settings decoder
  refine ⟨⟨h.detect, h.detect.source.readsUpTo⟩, h.fills, hnotes, hrequests, ?_, ?_⟩
  · intro refusal hrefused
    rw [hresult, hrefused]
    rfl
  · intro opened hopened
    rw [hopened] at hresult
    obtain ⟨-, framing, -, -, rfl⟩ := start_of_ofSource hopened
    have hboth : Interspersed (start settings decoder framing
        (Framing.locate settings.packetSize s).source)
        (start settings decoder framing (Framing.locate settings.packetSize s').source) :=
      ⟨rfl, (interspersed_locate h settings.packetSize).source⟩
    refine ⟨_, hresult, hboth, fun schedule schedule' k step step' hk hk' => ?_⟩
    obtain ⟨hitem, hrequests, hnotes, hreader⟩ := (honest_start decoder).scheduled hk
    obtain ⟨hitem', hrequests', hnotes', hreader'⟩ := (honest_start decoder).scheduled hk'
    obtain ⟨hitems, hnoted, hpadded, hleft⟩ := (hboth.afterCalls k).next
    rw [hitem, hitem', hrequests, hrequests', hnotes, hnotes']
    refine ⟨hitems, hnoted, ?_, ?_, ?_, hpadded⟩
    · exact hreader'.tally.trans (hleft.tally.trans hreader.tally.symm)
    · exact hreader'.pending.trans (hleft.pending.trans hreader.pending.symm)
    · rw [hreader.source, hreader'.source]
      exact hleft.source.position

def interruption : Fault := ⟨.interrupted, "try again"⟩

/-- Serves three bytes, meets a fault, and serves the rest. -/
def stammering : Source :=
  { paired with answers := [.serve 3, .fail ⟨.brokenPipe, "gone"⟩] }

/-- The same, interrupted before the bytes, before the fault and after it. -/
def badgered : Source :=
  { paired with
    answers := [.fail interruption, .serve 3, .fail interruption, .fail interruption,
      .fail ⟨.brokenPipe, "gone"⟩, .fail interruption] }

theorem interruptions_unseen_badgered :
    stammering.Interspersed badgered ∧
      (pairedReader.withSource stammering).next.item =
        some (.error (.io (.filling 4) ⟨.brokenPipe, "gone"⟩)) ∧
      ∃ opened', (ofSource .borrowed { packetSize := 2, chunkPackets := 2 } copying
          badgered).result = .ok opened' ∧
        ∀ (schedule schedule' : List (List Nat)) (k : Nat) (step step' : Step Bytes PacketDefect),
          ((pairedReader.withSource stammering).scheduled schedule)[k]? = some step →
          (opened'.scheduled schedule')[k]? = some step' →
            step'.item = step.item ∧ Padded Request.Interrupted step.requests step'.requests := by
  have hpadded : stammering.Interspersed badgered :=
    ⟨rfl, .added rfl (.kept _ (.added rfl (.added rfl (.kept _ (.added rfl .nil)))))⟩
  have hopen : (ofSource .borrowed { packetSize := 2, chunkPackets := 2 } copying
      stammering).result = .ok (pairedReader.withSource stammering) :=
    ofSource_of_given copying rfl (by decide) (by decide)
  have hreads : Source.Reads stammering 4 ([0x47, 0, 0x47] ++ [])
      (some ⟨.brokenPipe, "gone"⟩) { paired with position := 3 } :=
    .served (by decide) (by decide) rfl (.failed (by decide) (by decide) rfl)
  obtain ⟨-, -, -, -, -, hruns⟩ := interruptions_unseen .borrowed
    { packetSize := 2, chunkPackets := 2 } copying hpadded
  obtain ⟨opened', hopen', -, hsame⟩ := hruns _ hopen
  refine ⟨hpadded, (next_of_failing rfl hreads).1, opened', hopen', ?_⟩
  intro schedule schedule' k step step' hk hk'
  obtain ⟨hitem, -, -, -, -, hrequests⟩ := hsame schedule schedule' k step step' hk hk'
  exact ⟨hitem, hrequests⟩

end TransportStream.Reader
