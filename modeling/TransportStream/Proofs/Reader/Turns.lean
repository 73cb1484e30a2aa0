import TransportStream.Proofs.Reader.Interspersed
import TransportStream.Proofs.Source.Foretold

/-!
# How long a call takes

A chunk brings a task and the turn behind it delivers, so two turns are enough for
every call (`nextWithin_two`), and one read loop (`spent_next`). Finitely many
interruptions cannot keep a call waiting (`next_followedBy`).
-/
namespace TransportStream
variable {P E : Type}

namespace Reader

/-- The loop of `next`, given up after so many turns. -/
def nextWithin : Nat → Reader P E → Option (Step P E)
  | 0, _ => none
  | turns + 1, r =>
    match r.pop? with
    | some (outcome, r') => some ⟨some outcome, r', [], []⟩
    | none =>
      match r.refill.queued with
      | .error e => some ⟨some (.error e), r.refill.reader, r.refill.requests, r.refill.notes⟩
      | .ok 0 => some ⟨none, r.refill.reader, r.refill.requests, r.refill.notes⟩
      | .ok (_ + 1) => (nextWithin turns r.refill.reader).map (·.after r.refill)

/-- The same reader, with further answers behind those that its source has ready. -/
def followedBy (r : Reader P E) (later : List Answer) : Reader P E :=
  r.withSource (r.source.followedBy later)

/-- The same reader, whose source answers by the first part of an endless script. -/
def foretold (r : Reader P E) (script : Nat → Answer) (count : Nat) : Reader P E :=
  r.withSource { r.source with answers := Answer.foretold script count }

end Reader

def Step.followedBy (step : Step P E) (later : List Answer) : Step P E :=
  { step with reader := step.reader.followedBy later }

namespace Reader
variable {r : Reader P E}

theorem queued_of_chunk {chunk : Bytes}
    (h : (r.buffer.fill r.source).result.chunk = .ok (some chunk)) :
    ∃ n, r.refill.queued = .ok (n + 1) := by
  obtain ⟨hne, -⟩ := ChunkBuffer.fill_chunk h
  have hsize : 0 < r.packetSize := r.framing.packetSize_pos
  have hqueued : r.refill.queued = .ok (chunk.slices r.packetSize).length := by
    simp only [refill, h, Task.length_ofChunk]
  rw [Bytes.slices_of_ne_nil hsize hne, List.length_cons] at hqueued
  exact ⟨_, hqueued⟩

/-- Behind a refill that has queued a task there is one to deliver. -/
theorem pop?_of_queued {n : Nat} (h : r.refill.queued = .ok (n + 1)) :
    ∃ outcome r', r.refill.reader.pop? = some (outcome, r') := by
  cases hslots : r.refill.reader.backlog.slots with
  | cons slot later => exact ⟨_, _, pop?_of_slots hslots⟩
  | nil =>
    cases hfault : r.intake.result.fault with
    | some fault =>
      rw [refill_of_fault hfault] at h
      cases h
    | none =>
      by_cases hb : r.intake.result.bytes = []
      · rw [refill_of_end hfault hb] at h
        cases h
      · obtain ⟨later, hcut⟩ := cut_of_bytes hb
        rw [refill_of_bytes hfault hb] at hslots
        simp [refilled, queue, Backlog.submit, hcut] at hslots

/-- A call takes two turns at most. -/
theorem nextWithin_two (r : Reader P E) : nextWithin 2 r = some r.next := by
  cases hpop : r.pop? with
  | some taken =>
    rw [next_of_pop? hpop, nextWithin, hpop]
  | none =>
    cases hqueued : r.refill.queued with
    | error e => simp only [next_of_error hpop hqueued, nextWithin, hpop, hqueued]
    | ok count =>
      cases count with
      | zero => simp only [next_of_end hpop hqueued, nextWithin, hpop, hqueued]
      | succ n =>
        obtain ⟨outcome, r', hturn⟩ := pop?_of_queued hqueued
        rw [next_of_queued hpop hqueued, next_of_pop? hturn]
        simp only [nextWithin, hpop, hqueued, hturn, Option.map_some]

theorem spent_next (r : Reader P E) :
    r.source.Spent r.chunkLength r.next.requests r.next.reader.source := by
  have hcall := r.call_next
  generalize r.next = step at hcall
  cases hcall with
  | deliver => exact r.source.spent_nothing r.chunkLength
  | fault | finish | refill => exact r.source.spent_gather r.chunkLength

theorem intake_followedBy (h : r.chunkLength ≤ Answer.replies r.source.answers)
    (later : List Answer) :
    (r.followedBy later).intake =
      { r.intake with source := r.intake.source.followedBy later } :=
  Source.gather_followedBy h later

/-- A call with a reply ready for every byte of a chunk does not depend on what follows. -/
theorem next_followedBy (h : r.chunkLength ≤ Answer.replies r.source.answers)
    (later : List Answer) : (r.followedBy later).next = r.next.followedBy later := by
  have hintake := intake_followedBy h later
  have hresult : (r.followedBy later).intake.result = r.intake.result := by rw [hintake]
  have hreceived : (r.followedBy later).received = r.received.followedBy later := by
    rw [received, hintake]
    rfl
  have hcut : (r.followedBy later).cut = r.cut := by
    rw [cut, hresult]
    rfl
  have hcall := r.call_next
  generalize r.next = step at hcall
  cases hcall with
  | deliver hs =>
    have hcall' : (r.followedBy later).Call _ := .deliver hs
    rw [next_of_call hcall']
    rfl
  | fault hs hf =>
    rw [← hresult] at hf
    have hcall' : (r.followedBy later).Call _ := .fault hs hf
    rw [next_of_call hcall', hreceived, hintake]
    rfl
  | finish hs hf hb =>
    rw [← hresult] at hf hb
    have hcall' : (r.followedBy later).Call _ := .finish hs hf hb
    rw [next_of_call hcall', hreceived, hintake]
    rfl
  | refill hs hf hb =>
    rw [← hresult] at hf hb
    have hcall' : (r.followedBy later).Call _ := .refill hs hf hb
    rw [next_of_call hcall', refilled, hreceived, hcut, hintake]
    rfl

/-- Every call ends. It takes two turns at most, as a chunk that is read queues a
task, which the next turn delivers; it makes no more reads than a chunk has bytes,
interrupted ones apart, and each has room for a byte; and of endlessly many answers
with finitely many interruptions it leaves all but finitely many unheard. -/
theorem next_ends (r : Reader P E) :
    nextWithin 2 r = some r.next ∧
    (∀ chunk, (r.buffer.fill r.source).result.chunk = .ok (some chunk) →
      ∃ n outcome r', r.refill.queued = .ok (n + 1) ∧
        r.refill.reader.pop? = some (outcome, r')) ∧
    r.source.Spent r.chunkLength r.next.requests r.next.reader.source ∧
    r.next.requests.length ≤ r.chunkLength + Answer.interruptions r.source.answers ∧
    ∀ (script : Nat → Answer) (calm : Nat), (∀ n, calm ≤ n → ¬(script n).Interrupting) →
      ∀ more, (r.foretold script (calm + r.chunkLength + more)).next =
        (r.foretold script (calm + r.chunkLength)).next.followedBy
          (Answer.foretold (fun i => script (calm + r.chunkLength + i)) more) := by
  refine ⟨r.nextWithin_two, ?_, r.spent_next, r.spent_next.length_le, ?_⟩
  · intro chunk hchunk
    obtain ⟨n, hqueued⟩ := queued_of_chunk hchunk
    obtain ⟨outcome, r', hpop⟩ := pop?_of_queued hqueued
    exact ⟨n, outcome, r', hqueued, hpop⟩
  · intro script calm hcalm more
    have hreplies : (r.foretold script (calm + r.chunkLength)).chunkLength ≤
        Answer.replies (r.foretold script (calm + r.chunkLength)).source.answers :=
      Answer.le_replies_foretold hcalm r.chunkLength
    rw [← next_followedBy hreplies, foretold, Answer.foretold_add]
    rfl

/-- An interruption, and then for ever a byte and an end of the input by turns. -/
def stuttering (n : Nat) : Answer := if n = 0 then .fail interruption else .serve (n % 2)

theorem next_ends_stuttering :
    (∀ n, 1 ≤ n → ¬(stuttering n).Interrupting) ∧
      ∀ more, (pairedReader.foretold stuttering (1 + 4 + more)).next.item =
        some (.error (.truncated 0 1 2)) := by
  have hcalm : ∀ n, 1 ≤ n → ¬(stuttering n).Interrupting := by
    intro n hn
    rw [stuttering, if_neg (Nat.ne_of_gt hn)]
    exact not_false
  refine ⟨hcalm, fun more => ?_⟩
  obtain ⟨-, -, -, -, hforetold⟩ := next_ends pairedReader
  have hreads : Source.Reads (pairedReader.foretold stuttering 5).source 4 ([0x47] ++ []) none
      { paired with position := 1, answers := [.serve 1, .serve 0] } :=
    .retried (by decide) (by decide) rfl (.served (by decide) (by decide) rfl
      (.ended (by decide) rfl))
  have hslices : Bytes.slices 2 [0x47] = [[0x47]] := by simp [@Bytes.slices_of_ne_nil 2]
  rw [show (1 : Nat) + 4 = 1 + pairedReader.chunkLength from rfl, hforetold stuttering 1 hcalm]
  exact (next_of_chunk rfl hreads hslices).1

end Reader

end TransportStream
