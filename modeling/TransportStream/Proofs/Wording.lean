import TransportStream.Proofs.Detection
import TransportStream.Proofs.Outcome
import TransportStream.Proofs.Packet.Grammar
import Mathlib.Algebra.Ring.Nat

/-!
# What errors say

The texts of the errors and of their causes, word for word and from the outermost on.
What is written of an error is its chain with colons in between.
-/
namespace TransportStream
open Text

namespace Text.Hexadecimal

def Letters.alphabet : Letters → String
  | .small => "0123456789abcdef"
  | .capital => "0123456789ABCDEF"

def digit (letters : Letters) (value : Nat) : Char := letters.alphabet.toList.getD value '0'

/-- A number in `width` digits, the highest first. -/
def written (letters : Letters) (width value : Nat) : String :=
  String.ofList
    ((List.range width).reverse.map fun place => digit letters (value / 16 ^ place % 16))

variable (letters : Letters)

theorem length_written (width value : Nat) : (written letters width value).length = width := by
  rw [written, String.length_ofList, List.length_map, List.length_reverse, List.length_range]

theorem written_succ (width value : Nat) :
    (written letters (width + 1) value).toList =
      (written letters width (value / 16)).toList ++ [digit letters (value % 16)] := by
  simp only [written, String.toList_ofList, List.range_succ_eq_map, List.reverse_cons,
    List.map_append, List.map_singleton, Nat.pow_zero, Nat.div_one, List.map_reverse, List.map_map]
  congr 3
  funext place
  simp only [Function.comp_apply, Nat.pow_succ', Nat.div_div_eq_div_mul]

theorem apply_digitChar {value : Nat} (h : value < 16) :
    letters.apply value.digitChar = digit letters value := by
  have hall : ∀ value < 16, letters.apply value.digitChar = digit letters value := by
    cases letters <;> decide
  exact hall value h

theorem digits_of_le {value : Nat} (h : 16 ≤ value) (width : Nat) :
    digits letters (width + 1) value =
      digits letters width (value / 16) ++ [letters.apply (value % 16).digitChar] := by
  simp only [digits, Nat.toDigits_of_base_le (by decide : 1 < 16) h, List.map_append,
    List.map_singleton, List.length_append, List.length_singleton, List.length_map,
    Nat.add_sub_add_right, List.append_assoc]

theorem digits_of_lt {value : Nat} (h : value < 16) (width : Nat) :
    digits letters width value =
      List.replicate (width - 1) '0' ++ [letters.apply value.digitChar] := by
  simp only [digits, Nat.toDigits_of_lt_base h, List.map_singleton, List.length_singleton]

/-- In a width that holds the number, filling up with zeros leads to the same digits. -/
theorem digits_eq_written {width value : Nat} (hwidth : 0 < width) (hvalue : value < 16 ^ width) :
    digits letters width value = (written letters width value).toList := by
  induction width generalizing value with
  | zero => exact absurd hwidth (Nat.lt_irrefl 0)
  | succ width ih =>
    have hquotient : value / 16 < 16 ^ width :=
      Nat.div_lt_of_lt_mul (by rwa [← Nat.pow_succ'])
    rw [written_succ, ← apply_digitChar letters (Nat.mod_lt value (by decide))]
    rcases Nat.lt_or_ge value 16 with hlt | hle
    · rw [digits_of_lt letters hlt, Nat.mod_eq_of_lt hlt, Nat.div_eq_of_lt hlt, Nat.add_sub_cancel]
      cases width with
      | zero => rfl
      | succ width =>
        rw [← ih (Nat.succ_pos width) (Nat.pow_pos (by decide)),
          digits_of_lt letters (by decide), Nat.add_sub_cancel, List.replicate_succ']
        cases letters <;> rfl
    · have hpos : 0 < width := by
        rcases Nat.eq_zero_or_pos width with rfl | hpos
        · exact absurd hvalue (Nat.not_lt.mpr hle)
        · exact hpos
      rw [digits_of_le letters hle, ih hpos hquotient]

theorem marked_eq_written {width value : Nat} (hwidth : 0 < width) (hvalue : value < 16 ^ width) :
    marked letters width value = "0x" ++ written letters width value := by
  rw [marked, digits_eq_written letters hwidth hvalue, String.ofList_toList]

theorem append_marked (text : String) {width value : Nat} (hwidth : 0 < width)
    (hvalue : value < 16 ^ width) :
    text ++ marked letters width value = text ++ "0x" ++ written letters width value := by
  rw [marked_eq_written letters hwidth hvalue, String.append_assoc]

end Text.Hexadecimal

open Text.Hexadecimal (written)

/-- What is said of a packet that is refused. -/
inductive PacketDefect.Says : PacketDefect → String → Prop
  | tooShort (length : Nat) : Says (.tooShort length)
      s!"packet too short: {length} bytes, need at least 188"
  | missingSync (found : UInt8) : Says (.missingSync found)
      ("packet does not start with sync byte: found 0x" ++ written .capital 2 found.toNat)
  | reservedControl (pid : Pid) : Says (.reservedControl pid.val)
      ("reserved adaptation field control on PID 0x" ++ written .capital 4 pid.val)
  | fieldOverflow (length : UInt8) : Says (.fieldOverflow length)
      s!"adaptation field length {length.toNat} overflows the 184-byte packet body"

/-- What is said of a detection that fails, and of its cause. -/
inductive DetectionError.Chain : DetectionError → List String → Prop
  | missingLeadingSync (needed available : Nat) :
      Chain (.rejected (.missingLeadingSync needed available))
        [s!"missing leading sync: needed {needed} probe bytes, stream held {available}"]
  | notSyncAligned (found : UInt8) : Chain (.rejected (.notSyncAligned found))
      ["stream is not sync aligned: first byte is 0x" ++ written .capital 2 found.toNat ++
        ", expected 0x47"]
  | noSecondSync (window : Nat) : Chain (.rejected (.noSecondSync window))
      [s!"only one sync byte detected in first {window} bytes"]
  | probing (fault : Fault) : Chain (.io (.probing 193) fault)
      ["reading first 193 bytes failed", fault.text]
  | extendingProbe (fault : Fault) : Chain (.io (.extendingProbe 205) fault)
      ["extending probe to 205 bytes failed", fault.text]
  | rewinding (fault : Fault) : Chain (.io .rewinding fault) ["seeking to 0 failed", fault.text]
  | skipping (count : Nat) (fault : Fault) : Chain (.io (.skipping count) fault)
      [s!"reading {count} bytes to sync reader failed", fault.text]

/-- What is said of a read error, and of its cause. -/
inductive ReadError.Chain : ReadError PacketDefect → List String → Prop
  | emptyChunk : Chain (.invalidSettings .emptyChunk)
      ["invalid buffer configuration: chunk_packets must be at least 1"]
  | noWorkers : Chain (.invalidSettings .noWorkers)
      ["invalid buffer configuration: workers must be at least 1"]
  | chunkTooLong : Chain (.invalidSettings .chunkTooLong)
      ["invalid buffer configuration: packet_size * chunk_packets overflows"]
  | rejected {reason : Rejection} {text : String} : DetectionError.Chain (.rejected reason) [text] →
      Chain (.rejected reason) ["auto detecting packet size failed: " ++ text]
  | detecting {step : Operation} {fault : Fault} {text cause : String} :
      DetectionError.Chain (.io step fault) [text, cause] →
      Chain (.io (.detecting step) fault) ["auto detecting packet size failed: " ++ text, cause]
  | filling (count : Nat) (fault : Fault) : Chain (.io (.filling count) fault)
      [s!"reading {count} bytes failed", fault.text]
  | undecodable (index : Nat) {defect : PacketDefect} {text : String} : defect.Says text →
      Chain (.undecodable index defect) [s!"building packet {index} failed", text]
  | truncated (index length expected : Nat) : Chain (.truncated index length expected)
      [s!"packet {index} truncated: {length} of {expected} bytes before end of stream"]
  | workerLost (index : Nat) : Chain (.workerLost index)
      [s!"decode worker for packet {index} exited without a result"]

open Text.Hexadecimal (append_marked)

theorem PacketDefect.Says.message_eq {defect : PacketDefect} {text : String}
    (h : defect.Says text) : defect.message = text := by
  cases h with
  | tooShort | fieldOverflow => rfl
  | missingSync found => exact append_marked _ _ (by decide) found.toNat_lt
  | reservedControl pid =>
    exact append_marked _ _ (by decide) (Nat.lt_trans pid.isLt (by decide))

theorem DetectionError.Chain.account_eq {e : DetectionError} {chain : List String}
    (h : e.Chain chain) : e.account = ": ".intercalate chain := by
  cases h with
  | missingLeadingSync | noSecondSync =>
    rw [String.intercalate_singleton]
    rfl
  | notSyncAligned found =>
    rw [String.intercalate_singleton]
    exact congrArg (· ++ ", expected 0x47") (append_marked _ _ (by decide) found.toNat_lt)
  | probing | extendingProbe | rewinding | skipping =>
    rw [String.intercalate_cons_cons, String.intercalate_singleton]
    rfl

namespace ReadError

theorem account_ofDetection (e : DetectionError) :
    (ofDetection e : ReadError PacketDefect).account =
      "auto detecting packet size failed: " ++ e.account := by
  cases e with
  | rejected reason => rfl
  | io during fault =>
    have haccount : (ofDetection (.io during fault) : ReadError PacketDefect).account =
        "auto detecting packet size failed: " ++ during.message ++ ": " ++ fault.text := rfl
    rw [haccount, DetectionError.account, DetectionError.message]
    simp only [String.append_assoc]

theorem Chain.account_eq {e : ReadError PacketDefect} {chain : List String}
    (h : e.Chain chain) : e.account = ": ".intercalate chain := by
  cases h with
  | emptyChunk | noWorkers | chunkTooLong | truncated | workerLost =>
    rw [String.intercalate_singleton]
    rfl
  | @rejected reason text h =>
    have haccount := h.account_eq
    rw [String.intercalate_singleton] at haccount ⊢
    exact haccount ▸ account_ofDetection (.rejected reason)
  | @detecting step fault text cause h =>
    rw [String.intercalate_cons_append, ← h.account_eq]
    exact account_ofDetection (.io step fault)
  | filling =>
    rw [String.intercalate_cons_cons, String.intercalate_singleton]
    rfl
  | undecodable index h =>
    rw [String.intercalate_cons_cons, String.intercalate_singleton, ← h.message_eq]
    rfl

end ReadError

namespace Detection

theorem exists_chain_of_measure {s : Source} {e : DetectionError}
    (h : (measure s).result = .error e) : ∃ chain, e.Chain chain := by
  rw [measure_eq] at h
  rcases Exchange.result_andThen_eq_error.mp h with hprobe | ⟨head, -, hjudge⟩
  · obtain ⟨fault, -, rfl⟩ := Exchange.result_mapError_eq_error.mp hprobe
    exact ⟨_, .probing fault⟩
  unfold judgeHead at hjudge
  split at hjudge
  · cases hjudge
    exact ⟨_, .missingLeadingSync ..⟩
  split at hjudge
  · cases hjudge
    exact ⟨_, .notSyncAligned _⟩
  split at hjudge
  · cases hjudge
  rcases Exchange.result_andThen_eq_error.mp hjudge with hprobe | ⟨more, -, hmore⟩
  · obtain ⟨fault, -, rfl⟩ := Exchange.result_mapError_eq_error.mp hprobe
    exact ⟨_, .extendingProbe fault⟩
  unfold judgeMore at hmore
  split at hmore
  · cases hmore
  · cases hmore
    exact ⟨_, .noSecondSync _⟩

theorem exists_chain_of_realign {m : Measure} {s : Source} {e : DetectionError}
    (h : (realign m s).result = .error e) : ∃ chain, e.Chain chain := by
  rcases Exchange.result_andThen_eq_error.mp h with hrewind | ⟨rewound, -, hskip⟩
  · obtain ⟨fault, -, rfl⟩ := Exchange.result_mapError_eq_error.mp hrewind
    exact ⟨_, .rewinding fault⟩
  split at hskip
  · cases hskip
  rcases Exchange.result_andThen_eq_error.mp hskip with hread | ⟨bytes, -, hdone⟩
  · obtain ⟨fault, -, rfl⟩ := Exchange.result_mapError_eq_error.mp hread
    exact ⟨_, .skipping _ fault⟩
  · cases hdone

end Detection

theorem DetectionError.Chain.ofDetection {e : DetectionError} {chain : List String}
    (h : e.Chain chain) :
    ∃ message causes, (ReadError.ofDetection e).Chain (message :: causes) := by
  cases h with
  | missingLeadingSync => exact ⟨_, _, .rejected (.missingLeadingSync ..)⟩
  | notSyncAligned => exact ⟨_, _, .rejected (.notSyncAligned _)⟩
  | noSecondSync => exact ⟨_, _, .rejected (.noSecondSync _)⟩
  | probing => exact ⟨_, _, .detecting (.probing _)⟩
  | extendingProbe => exact ⟨_, _, .detecting (.extendingProbe _)⟩
  | rewinding => exact ⟨_, _, .detecting (.rewinding _)⟩
  | skipping => exact ⟨_, _, .detecting (.skipping ..)⟩

theorem exists_chain_of_detect {s : Source} {e : DetectionError}
    (h : (detect s).result = .error e) : ∃ chain, e.Chain chain := by
  rcases Exchange.result_andThen_eq_error.mp h with hmeasure | ⟨m, -, hrealign⟩
  · exact Detection.exists_chain_of_measure hmeasure
  · rw [Exchange.result_map] at hrealign
    cases hresync : (Detection.realign m (Detection.measure s).source).result with
    | ok resync =>
      rw [hresync] at hrealign
      cases hrealign
    | error reason =>
      rw [hresync] at hrealign
      obtain rfl := Except.error.inj hrealign
      exact Detection.exists_chain_of_realign hresync

theorem Packet.exists_says_of_decode {bytes : Bytes} {defect : PacketDefect}
    (h : decode bytes = .error defect) : ∃ text, defect.Says text := by
  cases decode_eq_iff.mp h with
  | tooShort => exact ⟨_, .tooShort _⟩
  | missingSync => exact ⟨_, .missingSync _⟩
  | reservedControl => exact ⟨_, .reservedControl ⟨pidBits bytes, pidBits_lt bytes⟩⟩
  | fieldOverflow => exact ⟨_, .fieldOverflow _⟩

theorem Outcome.exists_chain_of_ofSlice {size index : Nat} {slice : Bytes}
    {e : ReadError PacketDefect} (h : ofSlice Packet.decoder size index slice = .error e) :
    ∃ chain, e.Chain chain := by
  unfold ofSlice at h
  split at h
  · cases h
    exact ⟨_, .truncated ..⟩
  cases hdecode : Packet.decode slice with
  | ok packet =>
    rw [Packet.decoder, hdecode] at h
    cases h
  | error defect =>
    rw [Packet.decoder, hdecode] at h
    obtain rfl := Except.error.inj h
    obtain ⟨text, hsays⟩ := Packet.exists_says_of_decode hdecode
    exact ⟨_, .undecodable index hsays⟩

end TransportStream
