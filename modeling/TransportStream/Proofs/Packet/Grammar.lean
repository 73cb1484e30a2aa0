import TransportStream.Proofs.Packet.Checked

/-!
# The grammar of packets

Which strings are packets (`Accepted`) and what a packet has of its string (`Holds`),
said by indices into the string. A `Course` is an answer with its condition, and
decoding gives no other (`decode_eq_iff`).
-/
namespace TransportStream

namespace FieldControl

theorem hasAdaptation_ofBits (bits : Nat) : (ofBits bits).hasAdaptation = bits.testBit 1 := by
  have hbit (control : FieldControl) : control.hasAdaptation = control.toBits.testBit 1 := by
    cases control <;> decide
  rw [hbit, toBits_ofBits, Nat.testBit_mod_two_pow bits 2 1]
  rfl

theorem hasPayload_ofBits (bits : Nat) : (ofBits bits).hasPayload = bits.testBit 0 := by
  have hbit (control : FieldControl) : control.hasPayload = control.toBits.testBit 0 := by
    cases control <;> decide
  rw [hbit, toBits_ofBits, Nat.testBit_mod_two_pow bits 2 0]
  rfl

theorem eq_reserved_iff (control : FieldControl) :
    control = .reserved ↔ control.hasAdaptation = false ∧ control.hasPayload = false := by
  cases control <;> decide

end FieldControl

namespace Header

theorem hasAdaptation_ofFields (first second third : UInt8) :
    (ofFields first second third).control.hasAdaptation = third.toNat.testBit 5 := by
  rw [ofFields, FieldControl.hasAdaptation_ofBits]
  exact @Nat.testBit_div_two_pow 4 third.toNat 1

theorem hasPayload_ofFields (first second third : UInt8) :
    (ofFields first second third).control.hasPayload = third.toNat.testBit 4 := by
  rw [ofFields, FieldControl.hasPayload_ofBits]
  exact @Nat.testBit_div_two_pow 4 third.toNat 0

theorem toBytes_ofFields (first second third : UInt8) :
    (ofFields first second third).toBytes = [syncByte, first, second, third] := by
  obtain ⟨hfirst, hsecond, hthird⟩ := bytes_ofFields first second third
  rw [toBytes, hfirst, hsecond, hthird]

theorem toBytes_inj {header other : Header} (h : header.toBytes = other.toBytes) :
    header = other := by
  have hparse := parse_toBytes header []
  rw [h, parse_toBytes] at hparse
  exact (Except.ok.inj hparse).symm

end Header

namespace Packet

/-- Whether bit 5 of byte 3 is set. -/
def announcesField (bytes : Bytes) : Bool := (bytes.getD 3 0).toNat.testBit 5

/-- Whether bit 4 of byte 3 is set. -/
def announcesPayload (bytes : Bytes) : Bool := (bytes.getD 3 0).toNat.testBit 4

/-- The five low bits of byte 1, then byte 2. -/
def pidBits (bytes : Bytes) : Nat := (bytes.getD 1 0).toNat % 32 * 256 + (bytes.getD 2 0).toNat

theorem pidBits_lt (bytes : Bytes) : pidBits bytes < 8192 := by
  have := (bytes.getD 2 0).toNat_lt
  unfold pidBits
  omega

/-- How much of the body the adaptation field takes. -/
def fieldExtent (bytes : Bytes) : Nat :=
  if announcesField bytes then 1 + (bytes.getD 4 0).toNat else 0

/-- Long enough, with the sync byte at the front. -/
def Synced (bytes : Bytes) : Prop := 188 ≤ bytes.length ∧ bytes[0]? = some 0x47

instance (bytes : Bytes) : Decidable (Synced bytes) := inferInstanceAs (Decidable (_ ∧ _))

/-- The strings that are packets. -/
structure Accepted (bytes : Bytes) : Prop where
  synced : Synced bytes
  announced : announcesField bytes ∨ announcesPayload bytes
  fits : announcesField bytes → (bytes.getD 4 0).toNat ≤ 183

instance (bytes : Bytes) : Decidable (Accepted bytes) :=
  decidable_of_iff (Synced bytes ∧ (announcesField bytes ∨ announcesPayload bytes) ∧
      (announcesField bytes → (bytes.getD 4 0).toNat ≤ 183))
    ⟨fun ⟨synced, announced, fits⟩ => ⟨synced, announced, fits⟩,
      fun ⟨synced, announced, fits⟩ => ⟨synced, announced, fits⟩⟩

/-- What a packet has of the string that it was decoded from. -/
structure Holds (bytes : Bytes) (packet : Packet) : Prop where
  header : packet.header.toBytes = bytes.take 4
  fieldLength : packet.fieldLength = if announcesField bytes then bytes[4]? else none
  payload : announcesPayload bytes → bytes.slice? (4 + fieldExtent bytes) 188 = some packet.payload
  noPayload : ¬ announcesPayload bytes → packet.payload = []
  trailer : bytes.length = 188 + packet.trailerLength

/-- Enough bytes are a header, the first byte of a body, and the rest of it. -/
theorem exists_of_long {bytes : Bytes} (h : 188 ≤ bytes.length) :
    ∃ sync first second third field rest,
      bytes = sync :: first :: second :: third :: field :: rest ∧ 183 ≤ rest.length := by
  match bytes with
  | sync :: first :: second :: third :: field :: rest =>
    refine ⟨sync, first, second, third, field, rest, rfl, ?_⟩
    simp only [List.length_cons] at h
    omega
  | [] | [_] | [_, _] | [_, _, _] | [_, _, _, _] =>
    simp at h

variable {sync first second third field : UInt8} {rest : Bytes}

/-- The whole decision, over the bytes that it depends on. -/
theorem decode_long (h : 183 ≤ rest.length) :
    decode (sync :: first :: second :: third :: field :: rest) =
      if sync ≠ syncByte then .error (.missingSync sync)
      else
        let header := Header.ofFields first second third
        if third.toNat.testBit 5 = false ∧ third.toNat.testBit 4 = false then
          .error (.reservedControl header.pid.val)
        else if third.toNat.testBit 5 then
          if 183 < field.toNat then .error (.fieldOverflow field)
          else .ok ⟨header, some field,
            if third.toNat.testBit 4 then (rest.take 183).drop field.toNat else [],
            rest.length - 183⟩
        else .ok ⟨header, none, field :: rest.take 183, rest.length - 183⟩ := by
  have hlong : coreLength ≤ (sync :: first :: second :: third :: field :: rest).length := by
    simp only [List.length_cons, coreLength]
    omega
  have hbody : body (sync :: first :: second :: third :: field :: rest) =
      field :: rest.take 183 := rfl
  have htrailer : (sync :: first :: second :: third :: field :: rest).length - coreLength =
      rest.length - 183 := by
    simp only [List.length_cons, coreLength]
    omega
  by_cases hsync : sync = syncByte
  · have hparse : Header.parse (sync :: first :: second :: third :: field :: rest) =
        .ok (.ofFields first second third) := if_pos hsync
    have hreserved := FieldControl.eq_reserved_iff (Header.ofFields first second third).control
    rw [Header.hasAdaptation_ofFields, Header.hasPayload_ofFields] at hreserved
    rw [if_neg (not_not_intro hsync)]
    by_cases hnone : third.toNat.testBit 5 = false ∧ third.toNat.testBit 4 = false
    · rw [if_pos hnone, decode_of_reserved hlong hparse (hreserved.mpr hnone)]
    · rw [if_neg hnone, decode_of_control hlong hparse fun h => hnone (hreserved.mp h), hbody,
        htrailer]
      cases hfield : third.toNat.testBit 5 with
      | true =>
        rw [ofBody_of_field ((Header.hasAdaptation_ofFields ..).trans hfield), List.length_take,
          Nat.min_eq_left h, Header.hasPayload_ofFields]
        rfl
      | false =>
        have hpayload : third.toNat.testBit 4 = true := by simpa [hfield] using hnone
        rw [ofBody_of_no_field ((Header.hasAdaptation_ofFields ..).trans hfield),
          Header.hasPayload_ofFields, if_pos hpayload]
        rfl
  · have hparse : Header.parse (sync :: first :: second :: third :: field :: rest) =
        .error (.missingSync sync) := if_neg hsync
    rw [if_pos hsync, decode_of_parse_error hlong hparse]

theorem Synced.sync_eq (h : Synced (sync :: first :: second :: third :: field :: rest)) :
    sync = syncByte := Option.some.inj h.2

theorem holds_of_field (h : 183 ≤ rest.length) (hfield : third.toNat.testBit 5 = true)
    (hfits : field.toNat ≤ 183) :
    Holds (syncByte :: first :: second :: third :: field :: rest)
      ⟨.ofFields first second third, some field,
        if third.toNat.testBit 4 then (rest.take 183).drop field.toNat else [],
        rest.length - 183⟩ where
  header := Header.toBytes_ofFields first second third
  fieldLength := (if_pos hfield).symm
  payload hpayload := by
    have hpayload : third.toNat.testBit 4 = true := hpayload
    have hextent : fieldExtent (syncByte :: first :: second :: third :: field :: rest) =
        1 + field.toNat := if_pos hfield
    rw [hextent, if_pos hpayload, Bytes.slice?_of_le (by omega), ← Nat.add_assoc,
      Nat.add_comm _ field.toNat]
    · rfl
    · simp only [List.length_cons]
      omega
  noPayload hpayload := if_neg hpayload
  trailer := by
    simp only [List.length_cons]
    omega

theorem holds_of_no_field (h : 183 ≤ rest.length) (hfield : third.toNat.testBit 5 = false)
    (hpayload : third.toNat.testBit 4 = true) :
    Holds (syncByte :: first :: second :: third :: field :: rest)
      ⟨.ofFields first second third, none, field :: rest.take 183, rest.length - 183⟩ where
  header := Header.toBytes_ofFields first second third
  fieldLength := (if_neg (Bool.eq_false_iff.mp hfield)).symm
  payload _ := by
    have hextent : fieldExtent (syncByte :: first :: second :: third :: field :: rest) = 0 :=
      if_neg (Bool.eq_false_iff.mp hfield)
    rw [hextent, Bytes.slice?_of_le (by decide)]
    · rfl
    · simp only [List.length_cons]
      omega
  noPayload hno := absurd hpayload hno
  trailer := by
    simp only [List.length_cons]
    omega

/-- A string holds one packet at most. -/
theorem Holds.unique {bytes : Bytes} {packet other : Packet} (h : Holds bytes packet)
    (h' : Holds bytes other) : packet = other := by
  have hheader : packet.header = other.header := Header.toBytes_inj (h.header.trans h'.header.symm)
  have hfield : packet.fieldLength = other.fieldLength := h.fieldLength.trans h'.fieldLength.symm
  have htrailer : packet.trailerLength = other.trailerLength :=
    Nat.add_left_cancel (h.trailer.symm.trans h'.trailer)
  have hpayload : packet.payload = other.payload := by
    by_cases hannounced : announcesPayload bytes
    · exact Option.some.inj ((h.payload hannounced).symm.trans (h'.payload hannounced))
    · rw [h.noPayload hannounced, h'.noPayload hannounced]
  cases packet
  cases other
  simp_all

/-- What a string comes to: the courses of decoding, each with its condition. -/
inductive Course (bytes : Bytes) : Except PacketDefect Packet → Prop
  | tooShort (hshort : bytes.length < 188) : Course bytes (.error (.tooShort bytes.length))
  | missingSync {found : UInt8} (hlong : 188 ≤ bytes.length) (hfound : bytes[0]? = some found)
      (hne : found ≠ 0x47) : Course bytes (.error (.missingSync found))
  | reservedControl (hsynced : Synced bytes) (hfield : ¬ announcesField bytes)
      (hpayload : ¬ announcesPayload bytes) :
      Course bytes (.error (.reservedControl (pidBits bytes)))
  | fieldOverflow {length : UInt8} (hsynced : Synced bytes) (hfield : announcesField bytes)
      (hlength : bytes[4]? = some length) (hbeyond : 183 < length.toNat) :
      Course bytes (.error (.fieldOverflow length))
  | packet {packet : Packet} (haccepted : Accepted bytes) (hholds : Holds bytes packet) :
      Course bytes (.ok packet)

/-- Decoding takes one of the courses. -/
theorem course_decode (bytes : Bytes) : Course bytes (decode bytes) := by
  rcases Nat.lt_or_ge bytes.length 188 with hshort | hlong
  · rw [decode_of_short hshort]
    exact .tooShort hshort
  obtain ⟨sync, first, second, third, field, rest, rfl, hrest⟩ := exists_of_long hlong
  rw [decode_long hrest]
  by_cases hsync : sync = syncByte
  · subst hsync
    have hsynced : Synced (syncByte :: first :: second :: third :: field :: rest) := ⟨hlong, rfl⟩
    rw [if_neg (not_not_intro rfl)]
    by_cases hnone : third.toNat.testBit 5 = false ∧ third.toNat.testBit 4 = false
    · rw [if_pos hnone]
      exact .reservedControl hsynced (Bool.not_eq_true _ ▸ hnone.1) (Bool.not_eq_true _ ▸ hnone.2)
    rw [if_neg hnone]
    cases hfield : third.toNat.testBit 5 with
    | true =>
      rw [if_pos rfl]
      by_cases hbeyond : 183 < field.toNat
      · rw [if_pos hbeyond]
        exact .fieldOverflow hsynced hfield rfl hbeyond
      · rw [if_neg hbeyond]
        have hfits : field.toNat ≤ 183 := Nat.le_of_not_lt hbeyond
        exact .packet ⟨hsynced, .inl hfield, fun _ => hfits⟩ (holds_of_field hrest hfield hfits)
    | false =>
      have hpayload : third.toNat.testBit 4 = true := by simpa [hfield] using hnone
      exact .packet ⟨hsynced, .inr hpayload, fun h => absurd (hfield.symm.trans h) nofun⟩
        (holds_of_no_field hrest hfield hpayload)
  · rw [if_pos hsync]
    exact .missingSync hlong rfl hsync

theorem Accepted.exists_packet {bytes : Bytes} (h : Accepted bytes) :
    ∃ packet, decode bytes = .ok packet ∧ Holds bytes packet := by
  generalize hdecode : decode bytes = answer
  cases hdecode ▸ course_decode bytes with
  | tooShort hshort => exact absurd h.synced.1 (Nat.not_le.mpr hshort)
  | missingSync _ hfound hne =>
    exact absurd (Option.some.inj (hfound.symm.trans h.synced.2)) hne
  | reservedControl _ hfield hpayload => exact (h.announced.elim hfield hpayload).elim
  | fieldOverflow _ hfield hlength hbeyond =>
    have hfits := h.fits hfield
    rw [List.getD_eq_getElem?_getD, hlength] at hfits
    exact absurd hfits (Nat.not_le.mpr hbeyond)
  | packet _ hholds => exact ⟨_, rfl, hholds⟩

theorem Course.decode_eq {bytes : Bytes} {answer : Except PacketDefect Packet}
    (h : Course bytes answer) : decode bytes = answer := by
  cases h with
  | tooShort hshort => exact decode_of_short hshort
  | missingSync hlong hfound hne =>
    obtain ⟨sync, first, second, third, field, rest, rfl, hrest⟩ := exists_of_long hlong
    obtain rfl := Option.some.inj hfound
    rw [decode_long hrest]
    exact if_pos hne
  | reservedControl hsynced hfield hpayload =>
    obtain ⟨sync, first, second, third, field, rest, rfl, hrest⟩ := exists_of_long hsynced.1
    have hnone : third.toNat.testBit 5 = false ∧ third.toNat.testBit 4 = false :=
      ⟨Bool.eq_false_iff.mpr hfield, Bool.eq_false_iff.mpr hpayload⟩
    rw [decode_long hrest, if_neg (not_not_intro hsynced.sync_eq), if_pos hnone]
    rfl
  | fieldOverflow hsynced hfield hlength hbeyond =>
    obtain ⟨sync, first, second, third, field, rest, rfl, hrest⟩ := exists_of_long hsynced.1
    obtain rfl := Option.some.inj hlength
    have hfield : third.toNat.testBit 5 = true := hfield
    rw [decode_long hrest, if_neg (not_not_intro hsynced.sync_eq)]
    simp [hfield, hbeyond]
  | packet haccepted hholds =>
    obtain ⟨other, hdecode, hother⟩ := haccepted.exists_packet
    rw [hdecode, hother.unique hholds]

section Courses
variable {bytes : Bytes}

theorem decode_eq_iff {answer : Except PacketDefect Packet} :
    decode bytes = answer ↔ Course bytes answer :=
  ⟨fun h => h ▸ course_decode bytes, Course.decode_eq⟩

theorem decode_eq_tooShort_iff {length : Nat} : decode bytes = .error (.tooShort length) ↔
    bytes.length < 188 ∧ length = bytes.length := by
  rw [decode_eq_iff]
  constructor
  · intro h
    cases h with | tooShort hshort => exact ⟨hshort, rfl⟩
  · rintro ⟨hshort, rfl⟩
    exact .tooShort hshort

theorem decode_eq_missingSync_iff {found : UInt8} : decode bytes = .error (.missingSync found) ↔
    188 ≤ bytes.length ∧ bytes[0]? = some found ∧ found ≠ 0x47 := by
  rw [decode_eq_iff]
  constructor
  · intro h
    cases h with | missingSync hlong hfound hne => exact ⟨hlong, hfound, hne⟩
  · rintro ⟨hlong, hfound, hne⟩
    exact .missingSync hlong hfound hne

theorem decode_eq_reservedControl_iff {stream : Nat} :
    decode bytes = .error (.reservedControl stream) ↔
      Synced bytes ∧ ¬ announcesField bytes ∧ ¬ announcesPayload bytes ∧
        stream = pidBits bytes := by
  rw [decode_eq_iff]
  constructor
  · intro h
    cases h with
    | reservedControl hsynced hfield hpayload => exact ⟨hsynced, hfield, hpayload, rfl⟩
  · rintro ⟨hsynced, hfield, hpayload, rfl⟩
    exact .reservedControl hsynced hfield hpayload

theorem decode_eq_fieldOverflow_iff {length : UInt8} :
    decode bytes = .error (.fieldOverflow length) ↔
      Synced bytes ∧ announcesField bytes ∧ bytes[4]? = some length ∧ 183 < length.toNat := by
  rw [decode_eq_iff]
  constructor
  · intro h
    cases h with
    | fieldOverflow hsynced hfield hlength hbeyond =>
      exact ⟨hsynced, hfield, hlength, hbeyond⟩
  · rintro ⟨hsynced, hfield, hlength, hbeyond⟩
    exact .fieldOverflow hsynced hfield hlength hbeyond

theorem decode_eq_ok_iff {packet : Packet} :
    decode bytes = .ok packet ↔ Accepted bytes ∧ Holds bytes packet := by
  rw [decode_eq_iff]
  constructor
  · intro h
    cases h with | packet haccepted hholds => exact ⟨haccepted, hholds⟩
  · rintro ⟨haccepted, hholds⟩
    exact .packet haccepted hholds

/-- The payload takes what the field leaves of the body. -/
theorem Holds.length_payload {packet : Packet} (h : Holds bytes packet)
    (hannounced : announcesPayload bytes) : packet.payload.length = 184 - fieldExtent bytes := by
  have hlength := Bytes.length_of_slice? (h.payload hannounced)
  omega

theorem Holds.length_payload_le {packet : Packet} (h : Holds bytes packet) :
    packet.payload.length ≤ 184 := by
  by_cases hannounced : announcesPayload bytes
  · rw [h.length_payload hannounced]
    exact Nat.sub_le ..
  · rw [h.noPayload hannounced]
    exact Nat.zero_le _

end Courses

/-- The courses of decoding, each with the condition under which it is taken, and what a packet
has of its string; no byte is asked for that the string does not have. -/
theorem decode_grammar (bytes : Bytes) :
    decode? bytes = some (decode bytes) ∧
    (∀ length, decode bytes = .error (.tooShort length) ↔
      bytes.length < 188 ∧ length = bytes.length) ∧
    (∀ found, decode bytes = .error (.missingSync found) ↔
      188 ≤ bytes.length ∧ bytes[0]? = some found ∧ found ≠ 0x47) ∧
    (∀ stream, decode bytes = .error (.reservedControl stream) ↔
      Synced bytes ∧ ¬ announcesField bytes ∧ ¬ announcesPayload bytes ∧ stream = pidBits bytes) ∧
    (∀ length, decode bytes = .error (.fieldOverflow length) ↔
      Synced bytes ∧ announcesField bytes ∧ bytes[4]? = some length ∧ 183 < length.toNat) ∧
    ((∃ packet, decode bytes = .ok packet) ↔ Accepted bytes) ∧
    ∀ packet, decode bytes = .ok packet → Holds bytes packet ∧
      (announcesPayload bytes → packet.payload.length = 184 - fieldExtent bytes) := by
  refine ⟨decode?_eq bytes, fun length => decode_eq_tooShort_iff,
    fun found => decode_eq_missingSync_iff, fun stream => decode_eq_reservedControl_iff,
    fun length => decode_eq_fieldOverflow_iff, ⟨?_, ?_⟩, fun packet h => ?_⟩
  · rintro ⟨packet, h⟩
    exact (decode_eq_ok_iff.mp h).1
  · intro h
    obtain ⟨packet, hdecode, -⟩ := h.exists_packet
    exact ⟨packet, hdecode⟩
  · obtain ⟨-, hholds⟩ := decode_eq_ok_iff.mp h
    exact ⟨hholds, hholds.length_payload⟩

/-- An adaptation field of seven bytes, a payload, and a trailer of four bytes. -/
def fielded : Bytes := [0x47, 0x41, 0x00, 0x35, 7] ++ List.replicate 187 0xFF

theorem decode_grammar_fielded : ∃ packet, decode fielded = .ok packet ∧
    packet.fieldLength = some 7 ∧ packet.payload.length = 176 ∧ packet.trailerLength = 4 := by
  have haccepted : Accepted fielded := by decide +kernel
  have htotal : fielded.length = 188 + 4 := by decide +kernel
  obtain ⟨-, -, -, -, -, haccepts, hheld⟩ := decode_grammar fielded
  obtain ⟨packet, hdecode⟩ := haccepts.mpr haccepted
  obtain ⟨hholds, hlength⟩ := hheld packet hdecode
  have htrailer : packet.trailerLength = 4 :=
    Nat.add_left_cancel (hholds.trailer.symm.trans htotal)
  exact ⟨packet, hdecode, hholds.fieldLength, hlength (by decide), htrailer⟩

end Packet

end TransportStream
