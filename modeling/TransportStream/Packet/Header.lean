import TransportStream.Bytes
import TransportStream.Text

/-!
# Packet headers

    byte 1   transport error, unit start, priority, five high bits of the PID
    byte 2   eight low bits of the PID
    byte 3   two bits of scrambling, two of field control, four of the counter
-/
namespace TransportStream

inductive PacketDefect where
  | tooShort (length : Nat)
  | missingSync (found : UInt8)
  | reservedControl (pid : Nat)
  | fieldOverflow (length : UInt8)
  deriving DecidableEq, Repr

namespace PacketDefect
open Text.Hexadecimal

def message : PacketDefect → String
  | .tooShort length => s!"packet too short: {length} bytes, need at least 188"
  | .missingSync found =>
    "packet does not start with sync byte: found " ++ marked .capital 2 found.toNat
  | .reservedControl pid =>
    "reserved adaptation field control on PID " ++ marked .capital 4 pid
  | .fieldOverflow length =>
    s!"adaptation field length {length.toNat} overflows the 184-byte packet body"

end PacketDefect

/-- Which of the two parts, an adaptation field and a payload, follow the header. -/
inductive FieldControl where
  | reserved
  | payload
  | adaptation
  | both
  deriving DecidableEq, Repr

namespace FieldControl

/-- Reads the two low bits. -/
def ofBits (bits : Nat) : FieldControl :=
  match bits % 4 with
  | 1 => .payload
  | 2 => .adaptation
  | 3 => .both
  | _ => .reserved

def toBits : FieldControl → Nat
  | .reserved => 0
  | .payload => 1
  | .adaptation => 2
  | .both => 3

def hasAdaptation (c : FieldControl) : Bool := c == .adaptation || c == .both

def hasPayload (c : FieldControl) : Bool := c == .payload || c == .both

theorem toBits_lt (c : FieldControl) : c.toBits < 4 := by cases c <;> decide

@[simp] theorem ofBits_toBits (c : FieldControl) : ofBits c.toBits = c := by
  cases c <;> rfl

theorem toBits_ofBits (bits : Nat) : (ofBits bits).toBits = bits % 4 := by
  have h : bits % 4 = 0 ∨ bits % 4 = 1 ∨ bits % 4 = 2 ∨ bits % 4 = 3 := by omega
  rcases h with h | h | h | h <;> simp [ofBits, h, toBits]

theorem ofBits_mod (bits : Nat) : ofBits (bits % 4) = ofBits bits := by
  simp [ofBits]

end FieldControl

def syncByte : UInt8 := 0x47

/-- The stream that a packet belongs to. -/
abbrev Pid := Fin 8192

/-- The PID of stuffing packets, which carry no data. -/
def Pid.null : Pid := 0x1FFF

/-- Counts the packets of one PID that carry a payload, modulo 16. -/
abbrev Counter := Fin 16

structure Header where
  transportError : Bool
  unitStart : Bool
  priority : Bool
  pid : Pid
  scrambling : Fin 4
  control : FieldControl
  counter : Counter
  deriving DecidableEq, Repr

namespace Header

def length : Nat := 4

/-- Whether the bit of the given weight is set. -/
def flag (byte : UInt8) (weight : Nat) : Bool := byte.toNat / weight % 2 == 1

def ofFields (first second third : UInt8) : Header where
  transportError := flag first 128
  unitStart := flag first 64
  priority := flag first 32
  pid := ⟨first.toNat % 32 * 256 + second.toNat, by have := second.toNat_lt; omega⟩
  scrambling := ⟨third.toNat / 64, by have := third.toNat_lt; omega⟩
  control := .ofBits (third.toNat / 16)
  counter := ⟨third.toNat % 16, Nat.mod_lt _ (by decide)⟩

def parse : Bytes → Except PacketDefect Header
  | sync :: first :: second :: third :: _ =>
    if sync = syncByte then .ok (ofFields first second third) else .error (.missingSync sync)
  | short => .error (.tooShort short.length)

def firstByte (h : Header) : UInt8 :=
  .ofNat (h.transportError.toNat * 128 + h.unitStart.toNat * 64 + h.priority.toNat * 32 +
    h.pid.val / 256)

def secondByte (h : Header) : UInt8 := .ofNat (h.pid.val % 256)

def thirdByte (h : Header) : UInt8 :=
  .ofNat (h.scrambling.val * 64 + h.control.toBits * 16 + h.counter.val)

/-- The four bytes of a header. -/
def toBytes (h : Header) : Bytes := [syncByte, h.firstByte, h.secondByte, h.thirdByte]

def isNull (h : Header) : Bool := h.pid == Pid.null

theorem toNat_firstByte (h : Header) :
    h.firstByte.toNat = h.transportError.toNat * 128 + h.unitStart.toNat * 64 +
      h.priority.toNat * 32 + h.pid.val / 256 := by
  have := h.pid.isLt
  have := h.transportError.toNat_le
  have := h.unitStart.toNat_le
  have := h.priority.toNat_le
  rw [firstByte, UInt8.toNat_ofNat', Nat.mod_eq_of_lt (by omega)]

theorem toNat_secondByte (h : Header) : h.secondByte.toNat = h.pid.val % 256 := by
  rw [secondByte, UInt8.toNat_ofNat', Nat.mod_eq_of_lt (by omega)]

theorem toNat_thirdByte (h : Header) :
    h.thirdByte.toNat = h.scrambling.val * 64 + h.control.toBits * 16 + h.counter.val := by
  have := h.scrambling.isLt
  have := h.counter.isLt
  have := h.control.toBits_lt
  rw [thirdByte, UInt8.toNat_ofNat', Nat.mod_eq_of_lt (by omega)]

theorem flag_toNat (byte : UInt8) (weight : Nat) :
    (flag byte weight).toNat = byte.toNat / weight % 2 := by
  unfold flag
  have : byte.toNat / weight % 2 < 2 := Nat.mod_lt _ (by decide)
  by_cases h : byte.toNat / weight % 2 = 1
  · simp [h]
  · have : byte.toNat / weight % 2 = 0 := by omega
    simp [this]

theorem flag_eq {byte : UInt8} {weight : Nat} {b : Bool} (h : byte.toNat / weight % 2 = b.toNat) :
    flag byte weight = b := by
  unfold flag
  cases b <;> simp_all

/-- A header is read back from its bytes. -/
theorem ofFields_bytes (h : Header) : ofFields h.firstByte h.secondByte h.thirdByte = h := by
  have h1 := h.toNat_firstByte
  have h2 := h.toNat_secondByte
  have h3 := h.toNat_thirdByte
  have := h.pid.isLt
  have := h.transportError.toNat_le
  have := h.unitStart.toNat_le
  have := h.priority.toNat_le
  have := h.scrambling.isLt
  have := h.counter.isLt
  have := h.control.toBits_lt
  obtain ⟨e, u, p, pid, s, c, k⟩ := h
  simp only at *
  unfold ofFields
  congr 1
  · exact flag_eq (by omega)
  · exact flag_eq (by omega)
  · exact flag_eq (by omega)
  · apply Fin.ext
    simp only
    omega
  · apply Fin.ext
    simp only
    omega
  · rw [← FieldControl.ofBits_mod, show (_ / 16) % 4 = c.toBits by omega,
      FieldControl.ofBits_toBits]
  · apply Fin.ext
    simp only
    omega

/-- The bytes of a header are given back by what was read from them. -/
theorem bytes_ofFields (first second third : UInt8) :
    (ofFields first second third).firstByte = first ∧
      (ofFields first second third).secondByte = second ∧
      (ofFields first second third).thirdByte = third := by
  have := first.toNat_lt
  have := second.toNat_lt
  have := third.toNat_lt
  refine ⟨?_, ?_, ?_⟩ <;> apply UInt8.toNat_inj.mp
  · rw [toNat_firstByte]
    simp only [ofFields, flag_toNat]
    omega
  · rw [toNat_secondByte]
    simp only [ofFields]
    omega
  · rw [toNat_thirdByte]
    simp only [ofFields, FieldControl.toBits_ofBits]
    omega

theorem parse_toBytes (h : Header) (rest : Bytes) : parse (h.toBytes ++ rest) = .ok h := by
  simp [toBytes, parse, ofFields_bytes]

end Header

end TransportStream
