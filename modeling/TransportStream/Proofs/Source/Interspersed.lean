import TransportStream.ChunkBuffer
import TransportStream.Proofs.Detection
import Mathlib.Data.List.Forall2

/-!
# Interruptions in between

Sources that differ by interruptions padded into their answers (`Padded`) are dealt
with alike by every operation (`Exchange.Interspersed`): one lemma says so of the read
loop, and `Exchange.Interspersed.andThen` of what is put together from it.
-/
namespace TransportStream

/-- The second list is the first one with further elements in between, all of them extra. -/
inductive Padded {α : Type} (extra : α → Prop) : List α → List α → Prop
  | nil : Padded extra [] []
  | kept {list padded : List α} (a : α) : Padded extra list padded →
      Padded extra (a :: list) (a :: padded)
  | added {list padded : List α} {a : α} : extra a → Padded extra list padded →
      Padded extra list (a :: padded)

namespace Padded
variable {α : Type} {extra : α → Prop} {list padded list' padded' : List α}

theorem refl (list : List α) : Padded extra list list := by
  induction list with
  | nil => exact .nil
  | cons a list ih => exact .kept a ih

theorem append (h : Padded extra list padded) (h' : Padded extra list' padded') :
    Padded extra (list ++ list') (padded ++ padded') := by
  induction h with
  | nil => exact h'
  | kept a _ ih => exact .kept a ih
  | added ha _ ih => exact .added ha ih

end Padded

/-- The answer to a read that is going to be tried again. -/
def Answer.Interrupting : Answer → Prop
  | .fail fault => fault.Interrupted
  | .serve _ => False

/-- A read that was interrupted. -/
def Request.Interrupted : Request → Prop
  | .read _ _ (.error fault) => fault.Interrupted
  | .read _ _ (.ok _) | .rewind _ => False

/-- The second source is the first one with interruptions padded into its answers. -/
structure Source.Interspersed (s s' : Source) : Prop where
  same : s' = { s with answers := s'.answers }
  answers : Padded Answer.Interrupting s.answers s'.answers

/-- Two outcomes that differ by interruptions alone. -/
structure Exchange.Interspersed {α : Type} (x x' : Exchange α) : Prop where
  result : x'.result = x.result
  source : x.source.Interspersed x'.source
  requests : Padded Request.Interrupted x.requests x'.requests

namespace Source.Interspersed
variable {s s' : Source}

theorem exists_answers (h : s.Interspersed s') : ∃ answers,
    Padded Answer.Interrupting s.answers answers ∧ s' = { s with answers := answers } :=
  ⟨s'.answers, h.answers, h.same⟩

theorem position (h : s.Interspersed s') : s'.position = s.position := by
  rw [h.same]

theorem read (h : s.Interspersed s') (wanted : Nat) :
    (∃ fault, fault.Interrupted ∧ (s'.read wanted).1 = .error fault ∧
        s.Interspersed (s'.read wanted).2) ∨
      ((s'.read wanted).1 = (s.read wanted).1 ∧
        (s.read wanted).2.Interspersed (s'.read wanted).2) := by
  obtain ⟨answers, hpadded, rfl⟩ := h.exists_answers
  have hclear : ({ s with answers := answers } : Source).clear wanted = s.clear wanted := rfl
  unfold Source.read
  rw [hclear]
  cases s.clear wanted with
  | error fault => exact .inr ⟨rfl, rfl, hpadded⟩
  | ok room =>
    obtain ⟨data, position, own, rewinding, barrier⟩ := s
    dsimp only at hpadded ⊢
    cases hpadded with
    | nil => exact .inr ⟨rfl, rfl, .nil⟩
    | kept answer hlater =>
      cases answer with
      | serve count => exact .inr ⟨rfl, rfl, hlater⟩
      | fail fault => exact .inr ⟨rfl, rfl, hlater⟩
    | @added _ later answer hextra hlater =>
      cases answer with
      | serve count => exact absurd hextra id
      | fail fault => exact .inl ⟨fault, hextra, rfl, rfl, hlater⟩

/-- The read loop takes the same bytes and ends in the same way. -/
theorem gather (h : s.Interspersed s') (wanted : Nat) :
    (s.gather wanted).Interspersed (s'.gather wanted) := by
  fun_induction Source.gather s' wanted generalizing s with
  | case1 s' =>
    rw [gather_zero]
    exact ⟨rfl, h, .nil⟩
  | case2 s' wanted hw hr =>
    rcases h.read wanted with ⟨fault, -, hfault, -⟩ | ⟨hsame, hleft⟩
    · cases hr.symm.trans hfault
    · rw [gather_of_end hw (hsame.symm.trans hr)]
      exact ⟨rfl, hleft, h.position ▸ .refl _⟩
  | case3 s' wanted hw b bs hr ih =>
    rcases h.read wanted with ⟨fault, -, hfault, -⟩ | ⟨hsame, hleft⟩
    · cases hr.symm.trans hfault
    · have hlater := ih hleft
      rw [gather_of_bytes hw (List.cons_ne_nil b bs) (hsame.symm.trans hr)]
      refine ⟨?_, hlater.source, ?_⟩
      · exact congrArg (Intake.prepend (b :: bs)) hlater.result
      · rw [h.position]
        exact .kept _ hlater.requests
  | case4 s' wanted hw fault hr hf ih =>
    rcases h.read wanted with ⟨fault', hf', hfault, hleft⟩ | ⟨hsame, hleft⟩
    · have hlater := ih hleft
      exact ⟨hlater.result, hlater.source, .added hf hlater.requests⟩
    · have hlater := ih hleft
      rw [gather_of_interrupted hw hf (hsame.symm.trans hr)]
      refine ⟨hlater.result, hlater.source, ?_⟩
      rw [h.position]
      exact .kept _ hlater.requests
  | case5 s' wanted hw fault hr hf =>
    rcases h.read wanted with ⟨fault', hf', hfault, -⟩ | ⟨hsame, hleft⟩
    · obtain rfl := Except.error.inj (hr.symm.trans hfault)
      exact absurd hf' hf
    · rw [gather_of_fault hw hf (hsame.symm.trans hr)]
      exact ⟨rfl, hleft, h.position ▸ .refl _⟩

end Source.Interspersed

namespace Exchange.Interspersed
variable {α β ε : Type}

theorem map {x x' : Exchange α} (h : x.Interspersed x') (f : α → β) :
    (x.map f).Interspersed (x'.map f) :=
  ⟨congrArg f h.result, h.source, h.requests⟩

theorem after {x x' : Exchange α} {requests requests' : List Request} (h : x.Interspersed x')
    (hrequests : Padded Request.Interrupted requests requests') :
    (x.after requests).Interspersed (x'.after requests') :=
  ⟨h.result, h.source, hrequests.append h.requests⟩

theorem done {s s' : Source} (h : s.Interspersed s') (result : α) :
    (Exchange.done result s).Interspersed (.done result s') :=
  ⟨rfl, h, .nil⟩

theorem andThen {x x' : Exchange (Except ε α)}
    {next : α → Source → Exchange (Except ε β)} (h : x.Interspersed x')
    (hnext : ∀ a {s s' : Source}, s.Interspersed s' → (next a s).Interspersed (next a s')) :
    (x.andThen next).Interspersed (x'.andThen next) := by
  have hresult := h.result
  cases hx : x.result with
  | error e =>
    rw [hx] at hresult
    rw [andThen_of_error hx, andThen_of_error hresult]
    exact ⟨rfl, h.source, h.requests⟩
  | ok a =>
    rw [hx] at hresult
    rw [andThen_of_ok hx, andThen_of_ok hresult]
    exact (hnext a h.source).after h.requests

end Exchange.Interspersed

namespace Source

/-- Reads for each of the lengths, one after the other. -/
def readsUpTo : List Nat → Source → List (Exchange (Except Fault Bytes))
  | [], _ => []
  | wanted :: later, s => s.readUpTo wanted :: readsUpTo later (s.readUpTo wanted).source

namespace Interspersed
variable {s s' : Source}

theorem readUpTo (h : s.Interspersed s') (wanted : Nat) :
    (s.readUpTo wanted).Interspersed (s'.readUpTo wanted) :=
  (h.gather wanted).map _

theorem readExactly (h : s.Interspersed s') (wanted : Nat) :
    (s.readExactly wanted).Interspersed (s'.readExactly wanted) :=
  (h.gather wanted).map _

theorem readsUpTo (h : s.Interspersed s') (lengths : List Nat) :
    List.Forall₂ Exchange.Interspersed (s.readsUpTo lengths) (s'.readsUpTo lengths) := by
  induction lengths generalizing s s' with
  | nil => exact .nil
  | cons wanted later ih => exact .cons (h.readUpTo wanted) (ih (h.readUpTo wanted).source)

theorem rewind (h : s.Interspersed s') : s.rewind.Interspersed s'.rewind := by
  obtain ⟨answers, hpadded, rfl⟩ := h.exists_answers
  obtain ⟨data, position, own, rewinding, barrier⟩ := s
  cases rewinding with
  | supported | unsupported | failing => exact ⟨rfl, ⟨rfl, hpadded⟩, .refl _⟩

theorem fill (h : s.Interspersed s') (buffer : ChunkBuffer) :
    (buffer.fill s).Interspersed (buffer.fill s') :=
  (h.gather buffer.capacity).map _

theorem fills (h : s.Interspersed s') (count : Nat) (buffer : ChunkBuffer) :
    List.Forall₂ Exchange.Interspersed (ChunkBuffer.fills count buffer s)
      (ChunkBuffer.fills count buffer s') := by
  induction count generalizing buffer s s' with
  | zero => exact .nil
  | succ count ih =>
    have hfill := h.fill buffer
    rw [ChunkBuffer.fills, ChunkBuffer.fills, hfill.result]
    exact .cons hfill (ih hfill.source _)

end Interspersed

end Source

namespace Detection
open Source (Interspersed)
variable {s s' : Source}

theorem interspersed_judgeHead (h : s.Interspersed s') (head : Bytes) :
    (judgeHead head s).Interspersed (judgeHead head s') := by
  by_cases hshort : head.length < 193
  · rw [judgeHead_of_short hshort, judgeHead_of_short hshort]
    exact .done h _
  by_cases haligned : head.headD 0 ≠ 0x47
  · rw [judgeHead_of_unaligned hshort haligned, judgeHead_of_unaligned hshort haligned]
    exact .done h _
  cases hn : nextSync head with
  | some size =>
    rw [judgeHead_of_second hshort haligned hn, judgeHead_of_second hshort haligned hn]
    exact .done h _
  | none =>
    rw [judgeHead_of_single hshort haligned hn, judgeHead_of_single hshort haligned hn]
    refine ((h.readUpTo 12).map _).andThen fun more {s s'} h => ?_
    unfold judgeMore
    cases nextSync (head ++ more) with
    | some size => exact .done h _
    | none => exact .done h _

theorem interspersed_measure (h : s.Interspersed s') :
    (measure s).Interspersed (measure s') := by
  rw [measure_eq, measure_eq]
  exact ((h.readUpTo _).map _).andThen fun head {_ _} h => interspersed_judgeHead h head

theorem interspersed_realign (m : Measure) (h : s.Interspersed s') :
    (realign m s).Interspersed (realign m s') := by
  refine (h.rewind.map _).andThen fun rewound {s s'} h => ?_
  cases rewound with
  | true => exact .done h _
  | false => exact ((h.readExactly _).map _).andThen fun _ {_ _} h => .done h _

end Detection

theorem Source.Interspersed.detect {s s' : Source} (h : s.Interspersed s') :
    (TransportStream.detect s).Interspersed (TransportStream.detect s') :=
  (Detection.interspersed_measure h).andThen fun m {_ _} h =>
    (Detection.interspersed_realign m h).map _

end TransportStream
