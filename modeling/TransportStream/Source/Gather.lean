import TransportStream.Source.Exchange

/-!
# Gathering bytes

The one read loop. It asks for exactly what is still missing, tries an interrupted
read again, and stops at an answer of no bytes or at any other fault. The bytes taken
before a fault are gone from the source.
-/
namespace TransportStream

/-- What a read loop took from its source, and the fault that ended it, if one did. -/
structure Intake where
  bytes : Bytes
  fault : Option Fault
  deriving DecidableEq, Repr

namespace Intake

def prepend (bytes : Bytes) (i : Intake) : Intake := { i with bytes := Bytes.join bytes i.bytes }

@[simp] theorem bytes_prepend (bytes : Bytes) (i : Intake) :
    (i.prepend bytes).bytes = bytes ++ i.bytes := Bytes.join_eq _ _

@[simp] theorem prepend_mk (bytes more : Bytes) (fault : Option Fault) :
    prepend bytes ⟨more, fault⟩ = ⟨bytes ++ more, fault⟩ := by
  rw [prepend, Bytes.join_eq]

@[simp] theorem fault_prepend (bytes : Bytes) (i : Intake) :
    (i.prepend bytes).fault = i.fault := rfl

end Intake

namespace Source

def gather (s : Source) (wanted : Nat) : Exchange Intake :=
  if wanted = 0 then ⟨⟨[], none⟩, s, []⟩
  else
    match _h : (s.read wanted).1 with
    | .ok [] => ⟨⟨[], none⟩, (s.read wanted).2, [.read s.position wanted (.ok [])]⟩
    | .ok (b :: bs) =>
      ((s.read wanted).2.gather (wanted - (bs.length + 1))).map (·.prepend (b :: bs))
        |>.after [.read s.position wanted (.ok (b :: bs))]
    | .error fault =>
      if fault.Interrupted then
        ((s.read wanted).2.gather wanted).after [.read s.position wanted (.error fault)]
      else ⟨⟨[], some fault⟩, (s.read wanted).2, [.read s.position wanted (.error fault)]⟩
termination_by s.answers.length + wanted
decreasing_by
  · have := answers_read_le s wanted
    omega
  · have := answers_read_lt _h (by assumption)
    omega

@[simp] theorem gather_zero (s : Source) : s.gather 0 = ⟨⟨[], none⟩, s, []⟩ := by
  rw [gather, if_pos rfl]

theorem gather_of_end {s : Source} {wanted : Nat} (hw : wanted ≠ 0)
    (h : (s.read wanted).1 = .ok []) :
    s.gather wanted =
      ⟨⟨[], none⟩, (s.read wanted).2, [.read s.position wanted (.ok [])]⟩ := by
  rw [gather, if_neg hw]
  split <;> simp_all

theorem gather_of_bytes {s : Source} {wanted : Nat} {bytes : Bytes} (hw : wanted ≠ 0)
    (hb : bytes ≠ []) (h : (s.read wanted).1 = .ok bytes) :
    s.gather wanted =
      (((s.read wanted).2.gather (wanted - bytes.length)).map (·.prepend bytes)).after
        [.read s.position wanted (.ok bytes)] := by
  obtain ⟨b, bs, rfl⟩ := List.exists_cons_of_ne_nil hb
  rw [gather, if_neg hw]
  split <;> simp_all

theorem gather_of_interrupted {s : Source} {wanted : Nat} {fault : Fault} (hw : wanted ≠ 0)
    (hf : fault.Interrupted) (h : (s.read wanted).1 = .error fault) :
    s.gather wanted =
      ((s.read wanted).2.gather wanted).after [.read s.position wanted (.error fault)] := by
  rw [gather, if_neg hw]
  split <;> simp_all

theorem gather_of_fault {s : Source} {wanted : Nat} {fault : Fault} (hw : wanted ≠ 0)
    (hf : ¬fault.Interrupted) (h : (s.read wanted).1 = .error fault) :
    s.gather wanted =
      ⟨⟨[], some fault⟩, (s.read wanted).2, [.read s.position wanted (.error fault)]⟩ := by
  rw [gather, if_neg hw]
  split <;> simp_all

/-- What every read keeps, a loop keeps. -/
theorem gather_keeps (Holds : Source → Prop)
    (hread : ∀ {s : Source} {wanted : Nat}, wanted ≠ 0 → Holds s → Holds (s.read wanted).2)
    {s : Source} (hs : Holds s) (wanted : Nat) : Holds (s.gather wanted).source := by
  fun_induction gather s wanted with
  | case1 => exact hs
  | case2 s wanted hw h => exact hread hw hs
  | case3 s wanted hw b bs h ih => exact ih (hread hw hs)
  | case4 s wanted hw fault h hf ih => exact ih (hread hw hs)
  | case5 s wanted hw fault h hf => exact hread hw hs

@[simp] theorem gather_data (s : Source) (wanted : Nat) :
    (s.gather wanted).source.data = s.data :=
  gather_keeps (fun left => left.data = s.data) (fun _ h => (read_data ..).trans h) rfl wanted

@[simp] theorem rewinding_gather (s : Source) (wanted : Nat) :
    (s.gather wanted).source.rewinding = s.rewinding :=
  gather_keeps (fun left => left.rewinding = s.rewinding)
    (fun _ h => (read_rewinding ..).trans h) rfl wanted

theorem gather_length_le (s : Source) (wanted : Nat) :
    (s.gather wanted).result.bytes.length ≤ wanted := by
  fun_induction gather s wanted with
  | case3 s wanted hw b bs h ih =>
    have := (read_bytes h).1
    simp only [Exchange.result_after, Exchange.result_map, Intake.bytes_prepend,
      List.length_append, List.length_cons] at this ih ⊢
    omega
  | case4 s wanted hw fault h hf ih => exact ih
  | case1 | case2 | case5 => simp

/-- The bytes taken are the next bytes of the data, in order and without a gap. -/
theorem gather_rest (s : Source) (wanted : Nat) :
    s.rest = (s.gather wanted).result.bytes ++ (s.gather wanted).source.rest := by
  fun_induction gather s wanted with
  | case1 => simp
  | case2 s wanted hw h => simpa using read_rest h
  | case3 s wanted hw b bs h ih =>
    rw [read_rest h, ih]
    simp
  | case4 s wanted hw fault h hf ih => simpa [read_error_rest h] using ih
  | case5 s wanted hw fault h hf => simp [read_error_rest h]

/-- Reading `wanted` bytes, or fewer where the input ends early. -/
def readUpTo (s : Source) (wanted : Nat) : Exchange (Except Fault Bytes) :=
  (s.gather wanted).map fun taken =>
    match taken.fault with
    | none => .ok taken.bytes
    | some fault => .error fault

/-- Reading `wanted` bytes and no fewer. -/
def readExactly (s : Source) (wanted : Nat) : Exchange (Except Fault Bytes) :=
  (s.gather wanted).map fun taken =>
    match taken.fault with
    | none => if taken.bytes.length < wanted then .error .endedEarly else .ok taken.bytes
    | some fault => .error fault

end Source

end TransportStream
