import TransportStream.Proofs.Source.Gathering

/-!
# How many answers a read loop takes

A loop is done before it comes to the answers behind those that it needs at most
(`gather_followedBy`), so endlessly many answers are as good as finitely many.
-/
namespace TransportStream

namespace Answer

instance : DecidablePred Interrupting
  | .fail fault => inferInstanceAs (Decidable fault.Interrupted)
  | .serve _ => inferInstanceAs (Decidable False)

/-- How many answers are interruptions. -/
def interruptions (answers : List Answer) : Nat :=
  answers.countP fun answer => answer.Interrupting

/-- How many answers are not. -/
def replies (answers : List Answer) : Nat :=
  answers.countP fun answer => ¬answer.Interrupting

/-- The first answers of an endless script. -/
def foretold (script : Nat → Answer) (count : Nat) : List Answer := (List.range count).map script

theorem foretold_add (script : Nat → Answer) (count more : Nat) :
    foretold script (count + more) =
      foretold script count ++ foretold (fun i => script (count + i)) more := by
  simp only [foretold, List.range_add, List.map_append, List.map_map, Function.comp_def]

theorem le_replies_foretold {script : Nat → Answer} {calm : Nat}
    (h : ∀ n, calm ≤ n → ¬(script n).Interrupting) (count : Nat) :
    count ≤ replies (foretold script (calm + count)) := by
  have hlater : replies (foretold (fun i => script (calm + i)) count) = count := by
    unfold replies
    rw [List.countP_eq_length.mpr, foretold, List.length_map, List.length_range]
    intro answer hmem
    obtain ⟨i, -, rfl⟩ := List.mem_map.mp hmem
    exact decide_eq_true (h (calm + i) (Nat.le_add_right calm i))
  have hsplit := congrArg replies (foretold_add script calm count)
  unfold replies at hsplit hlater ⊢
  rw [List.countP_append, hlater] at hsplit
  exact hsplit ▸ Nat.le_add_left _ _

end Answer

namespace Source
open Answer

/-- The same source, with further answers behind those that are known. -/
def followedBy (s : Source) (later : List Answer) : Source :=
  { s with answers := s.answers ++ later }

theorem lasting_of_clear {s : Source} {wanted : Nat} {fault : Fault}
    (h : s.clear wanted = .error fault) : ¬fault.Interrupted := by
  unfold clear at h
  split at h
  · cases h
  · rename_i barrier _
    split at h
    · exact Except.error.inj h ▸ barrier.lasting
    · cases h

theorem answers_read (s : Source) (wanted : Nat) :
    ((s.read wanted).2.answers = s.answers ∧
      ¬(Request.read s.position wanted (s.read wanted).1).Interrupted) ∨
    ∃ answer, s.answers = answer :: (s.read wanted).2.answers ∧
      ((Request.read s.position wanted (s.read wanted).1).Interrupted ↔ answer.Interrupting) := by
  cases hclear : s.clear wanted with
  | error fault =>
    refine .inl ⟨by simp only [read, hclear], ?_⟩
    simp only [read, hclear]
    exact lasting_of_clear hclear
  | ok room =>
    cases hanswers : s.answers with
    | nil =>
      refine .inl ⟨by simp only [read, hclear, hanswers, serve], ?_⟩
      simp only [read, hclear, hanswers, serve, Request.Interrupted, not_false_eq_true]
    | cons answer later =>
      refine .inr ⟨answer, ?_, ?_⟩
      · cases answer <;> simp only [read, hclear, hanswers, serve]
      · cases answer <;> simp only [read, hclear, hanswers, serve] <;> rfl

theorem interruptions_read (s : Source) (wanted : Nat) :
    Request.interruptions [.read s.position wanted (s.read wanted).1] +
      interruptions (s.read wanted).2.answers = interruptions s.answers := by
  unfold Request.interruptions interruptions
  obtain ⟨hanswers, hsettled⟩ | ⟨answer, hanswers, hiff⟩ := s.answers_read wanted
  · rw [hanswers, List.countP_singleton]
    simp [hsettled]
  · rw [hanswers, List.countP_singleton, List.countP_cons, Nat.add_comm]
    simp [hiff]

theorem replies_read_of_interrupted {s : Source} {wanted : Nat} {fault : Fault}
    (h : (s.read wanted).1 = .error fault) (hf : fault.Interrupted) :
    replies (s.read wanted).2.answers = replies s.answers := by
  obtain ⟨-, hsettled⟩ | ⟨answer, hanswers, hiff⟩ := s.answers_read wanted
  · rw [h] at hsettled
    exact absurd hf hsettled
  · rw [h] at hiff
    have hinterrupting : answer.Interrupting := hiff.mp hf
    unfold replies
    rw [hanswers, List.countP_cons_of_neg (by simpa using hinterrupting)]

theorem replies_read_ge (s : Source) (wanted : Nat) :
    replies s.answers ≤ replies (s.read wanted).2.answers + 1 := by
  obtain ⟨hanswers, -⟩ | ⟨answer, hanswers, -⟩ := s.answers_read wanted
  · rw [hanswers]
    exact Nat.le_succ _
  · unfold replies
    rw [hanswers, List.countP_cons]
    split <;> omega

theorem answers_ne_nil {s : Source} {wanted : Nat} (hw : wanted ≠ 0)
    (h : wanted ≤ replies s.answers) : s.answers ≠ [] := by
  intro hnil
  rw [hnil] at h
  exact hw (Nat.le_zero.mp h)

/-- A source with an answer ready does not look at what follows. -/
theorem read_followedBy {s : Source} (h : s.answers ≠ []) (wanted : Nat) (later : List Answer) :
    (s.followedBy later).read wanted = ((s.read wanted).1, (s.read wanted).2.followedBy later) := by
  obtain ⟨answer, answers, hanswers⟩ := List.exists_cons_of_ne_nil h
  have hclear : (s.followedBy later).clear wanted = s.clear wanted := rfl
  unfold read
  rw [hclear]
  cases s.clear wanted with
  | error fault => rfl
  | ok room =>
    simp only [followedBy, hanswers, List.cons_append]
    cases answer <;> rfl

theorem interruptions_gather (s : Source) (wanted : Nat) :
    Request.interruptions (s.gather wanted).requests +
      interruptions (s.gather wanted).source.answers = interruptions s.answers := by
  fun_induction gather s wanted with
  | case1 => exact Nat.zero_add _
  | case2 s wanted hw h | case5 s wanted hw fault h hf => exact h ▸ s.interruptions_read wanted
  | case3 s wanted hw b bs h ih | case4 s wanted hw fault h hf ih =>
    rw [← s.interruptions_read wanted, ← ih, ← Nat.add_assoc, h]
    exact congrArg (· + _) List.countP_append

/-- What some reads cost a source: each has room for a byte at least, so many at
most are not interrupted, and the others are the interruptions taken from the answers. -/
structure Spent (s : Source) (limit : Nat) (requests : List Request) (left : Source) : Prop where
  room : ∀ request ∈ requests, ∃ place room answer,
    request = .read place room answer ∧ 0 < room
  settled : Request.settled requests ≤ limit
  interrupted : Request.interruptions requests + interruptions left.answers =
    interruptions s.answers

theorem spent_nothing (s : Source) (limit : Nat) : Spent s limit [] s where
  room := fun _ hmem => absurd hmem List.not_mem_nil
  settled := Nat.zero_le limit
  interrupted := Nat.zero_add _

theorem spent_gather (s : Source) (wanted : Nat) :
    Spent s wanted (s.gather wanted).requests (s.gather wanted).source where
  room := fun _ => (s.gathering_gather wanted).room_pos
  settled := (s.gathering_gather wanted).settled_le
  interrupted := s.interruptions_gather wanted

/-- How many reads it may be at most is known before the first of them. -/
theorem Spent.length_le {s left : Source} {limit : Nat} {requests : List Request}
    (h : Spent s limit requests left) : requests.length ≤ limit + interruptions s.answers := by
  have hsettled := h.settled
  have hinterrupted := h.interrupted
  have hsplit := requests.length_eq_countP_add_countP (fun request => request.Interrupted)
  unfold Request.settled at hsettled
  unfold Request.interruptions at hinterrupted
  simp only [decide_eq_true_eq] at hsplit
  omega

/-- A loop with as many replies ready as it wants bytes does not look at what follows. -/
theorem gather_followedBy {s : Source} {wanted : Nat} (h : wanted ≤ replies s.answers)
    (later : List Answer) :
    (s.followedBy later).gather wanted =
      { s.gather wanted with source := (s.gather wanted).source.followedBy later } := by
  fun_induction gather s wanted with
  | case1 s => exact gather_zero _
  | case2 s wanted hw hread =>
    have hready := answers_ne_nil hw h
    rw [gather_of_end hw (by rw [read_followedBy hready, hread]), read_followedBy hready]
    rfl
  | case3 s wanted hw b bs hread ih =>
    have hready := answers_ne_nil hw h
    have hreplies := s.replies_read_ge wanted
    rw [gather_of_bytes hw (List.cons_ne_nil b bs) (by rw [read_followedBy hready, hread]),
      read_followedBy hready, List.length_cons, ih (by omega)]
    rfl
  | case4 s wanted hw fault hread hf ih =>
    have hready := answers_ne_nil hw h
    rw [gather_of_interrupted hw hf (by rw [read_followedBy hready, hread]),
      read_followedBy hready, ih (replies_read_of_interrupted hread hf ▸ h)]
    rfl
  | case5 s wanted hw fault hread hf =>
    have hready := answers_ne_nil hw h
    rw [gather_of_fault hw hf (by rw [read_followedBy hready, hread]), read_followedBy hready]
    rfl

end Source

end TransportStream
