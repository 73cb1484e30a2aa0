import TransportStream.Source.Gather

/-!
# The rules of a read loop

`Reads` has one rule for each answer that a read may give. The loop follows the rules
from every source (`gather_reads`), and nothing else does (`Reads.eq_gather`).
-/
namespace TransportStream.Source

/-- From `s`, reading until `wanted` bytes are there takes some bytes, may be
ended by a fault, and leaves a source. -/
inductive Reads : Source → Nat → Bytes → Option Fault → Source → Prop
  | full (s : Source) : Reads s 0 [] none s
  | ended {s : Source} {wanted : Nat} : 0 < wanted → (s.read wanted).1 = .ok [] →
      Reads s wanted [] none (s.read wanted).2
  | served {s left : Source} {wanted : Nat} {bytes more : Bytes} {fault : Option Fault} :
      0 < wanted → bytes ≠ [] → (s.read wanted).1 = .ok bytes →
      Reads (s.read wanted).2 (wanted - bytes.length) more fault left →
      Reads s wanted (bytes ++ more) fault left
  | retried {s left : Source} {wanted : Nat} {bytes : Bytes} {interruption : Fault}
      {fault : Option Fault} :
      0 < wanted → interruption.Interrupted → (s.read wanted).1 = .error interruption →
      Reads (s.read wanted).2 wanted bytes fault left → Reads s wanted bytes fault left
  | failed {s : Source} {wanted : Nat} {fault : Fault} :
      0 < wanted → ¬fault.Interrupted → (s.read wanted).1 = .error fault →
      Reads s wanted [] (some fault) (s.read wanted).2

theorem gather_reads (s : Source) (wanted : Nat) :
    Reads s wanted (s.gather wanted).result.bytes (s.gather wanted).result.fault
      (s.gather wanted).source := by
  fun_induction gather s wanted with
  | case1 => exact .full _
  | case2 s wanted hw h => exact .ended (Nat.pos_of_ne_zero hw) h
  | case3 s wanted hw b bs h ih =>
    rw [Exchange.result_after, Exchange.result_map, Intake.bytes_prepend]
    exact .served (Nat.pos_of_ne_zero hw) (List.cons_ne_nil b bs) h ih
  | case4 s wanted hw fault h hf ih => exact .retried (Nat.pos_of_ne_zero hw) hf h ih
  | case5 s wanted hw fault h hf => exact .failed (Nat.pos_of_ne_zero hw) hf h

theorem Reads.eq_gather {s left : Source} {wanted : Nat} {bytes : Bytes} {fault : Option Fault}
    (h : Reads s wanted bytes fault left) :
    (s.gather wanted).result = ⟨bytes, fault⟩ ∧ (s.gather wanted).source = left := by
  induction h with
  | full s => simp
  | ended hw hr => simp [gather_of_end (Nat.ne_of_gt hw) hr]
  | served hw hb hr _ ih => simp [gather_of_bytes (Nat.ne_of_gt hw) hb hr, ih]
  | retried hw hf hr _ ih => simp [gather_of_interrupted (Nat.ne_of_gt hw) hf hr, ih]
  | failed hw hf hr => simp [gather_of_fault (Nat.ne_of_gt hw) hf hr]

theorem Reads.unique {s left₁ left₂ : Source} {wanted : Nat} {bytes₁ bytes₂ : Bytes}
    {fault₁ fault₂ : Option Fault} (h₁ : Reads s wanted bytes₁ fault₁ left₁)
    (h₂ : Reads s wanted bytes₂ fault₂ left₂) :
    bytes₁ = bytes₂ ∧ fault₁ = fault₂ ∧ left₁ = left₂ := by
  obtain ⟨hresult₁, hleft₁⟩ := h₁.eq_gather
  obtain ⟨hresult₂, hleft₂⟩ := h₂.eq_gather
  have hresult := Intake.mk.inj (hresult₁.symm.trans hresult₂)
  exact ⟨hresult.1, hresult.2, hleft₁.symm.trans hleft₂⟩

end TransportStream.Source
