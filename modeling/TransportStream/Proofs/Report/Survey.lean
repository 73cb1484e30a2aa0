import TransportStream.Proofs.Outcome
import TransportStream.Report.Basic
import Mathlib.Data.List.Induction

/-!
# What a survey has seen

The packets and the rows of a survey are those of the decoded items, the errors those
of the others.
-/
namespace TransportStream

namespace Outcome
variable {P E : Type}

/-- The packets among some items, in order. -/
def decoded (items : List (Outcome P E)) : List P := items.filterMap Except.toOption

/-- The errors among some items, in order. -/
def failures (items : List (Outcome P E)) : List (ReadError E) :=
  items.filterMap fun
    | .ok _ => none
    | .error e => some e

variable (items : List (Outcome P E))

theorem decoded_append (more : List (Outcome P E)) :
    decoded (items ++ more) = decoded items ++ decoded more := List.filterMap_append

/-- Packets do not know their index. -/
theorem decoded_map_shift (offset : Nat) : decoded (items.map (shift offset)) = decoded items := by
  unfold decoded
  rw [List.filterMap_map]
  congr 1
  funext item
  cases item <;> rfl

@[simp] theorem decoded_concat_ok (packet : P) :
    decoded (items ++ [.ok packet]) = decoded items ++ [packet] := List.filterMap_append

@[simp] theorem decoded_concat_error (e : ReadError E) :
    decoded (items ++ [.error e]) = decoded items :=
  List.filterMap_append.trans (List.append_nil _)

@[simp] theorem failures_concat_ok (packet : P) :
    failures (items ++ [.ok packet]) = failures items :=
  List.filterMap_append.trans (List.append_nil _)

@[simp] theorem failures_concat_error (e : ReadError E) :
    failures (items ++ [.error e]) = failures items ++ [e] := List.filterMap_append

theorem decoded_map_ok (packets : List P) :
    decoded (packets.map fun packet => (.ok packet : Outcome P E)) = packets := by
  induction packets with
  | nil => rfl
  | cons packet later ih => exact congrArg (packet :: ·) ih

theorem failures_map_ok (packets : List P) :
    failures (packets.map fun packet => (.ok packet : Outcome P E)) = [] := by
  induction packets with
  | nil => rfl
  | cons packet later ih => exact ih

theorem error_mem_of_mem_failures {e : ReadError E} (h : e ∈ failures items) :
    .error e ∈ items := by
  obtain ⟨item, hmem, hitem⟩ := List.mem_filterMap.mp h
  cases item with
  | ok packet => cases hitem
  | error e' =>
    obtain rfl := Option.some.inj hitem
    exact hmem

/-- Every item is one or the other. -/
theorem length_decoded_add_failures :
    (decoded items).length + (failures items).length = items.length := by
  induction items using List.reverseRecOn with
  | nil => rfl
  | append_singleton items item ih =>
    cases item with
    | ok packet =>
      rw [decoded_concat_ok, failures_concat_ok, List.length_append, List.length_append, ← ih]
      exact Nat.add_right_comm ..
    | error e =>
      rw [decoded_concat_error, failures_concat_error, List.length_append, List.length_append,
        ← ih]
      exact (Nat.add_assoc ..).symm

end Outcome

/-- An error as a report lists it. -/
def ListedError.ofError (e : ReadError PacketDefect) : ListedError := ⟨e.packetIndex?, e.account⟩

/-- The tracks of all packets with the given headers. -/
def PidTrack.ofHeaders (headers : List Header) : List PidTrack := headers.foldl observeIn []

theorem PidTrack.ofHeaders_concat (headers : List Header) (header : Header) :
    ofHeaders (headers ++ [header]) = observeIn (ofHeaders headers) header :=
  List.foldl_append

namespace Survey

theorem ofItems_concat (items : List (Outcome Packet PacketDefect))
    (item : Outcome Packet PacketDefect) :
    ofItems (items ++ [item]) = (ofItems items).add item :=
  List.foldl_append

/-- The fold, field by field. The errors listed are the first ones of all. -/
theorem ofItems_eq (items : List (Outcome Packet PacketDefect)) :
    ofItems items =
      { packets := (Outcome.decoded items).length
        decodeErrors := (Outcome.failures items).length
        errors := ((Outcome.failures items).take listedErrors).map .ofError
        tracks := PidTrack.ofHeaders ((Outcome.decoded items).map (·.header)) } := by
  induction items using List.reverseRecOn with
  | nil => rfl
  | append_singleton items item ih =>
    rw [ofItems_concat, ih]
    cases item with
    | ok packet =>
      rw [Outcome.decoded_concat_ok, Outcome.failures_concat_ok, List.map_append,
        List.map_singleton, PidTrack.ofHeaders_concat, List.length_append]
      rfl
    | error e =>
      rw [Outcome.decoded_concat_error, Outcome.failures_concat_error, List.length_append,
        List.take_append]
      simp only [add, addError, List.length_map, List.length_take, mk.injEq, true_and, and_true]
      refine ⟨rfl, ?_⟩
      split
      · rename_i hroom
        rw [List.take_of_length_le (l := [e]) (by simp only [List.length_singleton]; omega),
          List.map_append]
        rfl
      · rename_i hfull
        rw [show listedErrors - (Outcome.failures items).length = 0 by omega, List.take_zero,
          List.append_nil]

end Survey

end TransportStream
