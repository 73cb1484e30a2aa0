import TransportStream.Proofs.Packet.Grammar

/-!
# What a packet keeps of its string

Packets are equal just when their strings agree in length, bit fields, length of the
adaptation field and payload (`packet_eq_iff_agree`).
-/
namespace TransportStream

namespace Bytes
variable {bytes other piece : Bytes} {start stop : Nat}

/-- Strings have one prefix just when they have the same bytes in it. -/
theorem take_eq_take_iff_getElem? :
    bytes.take stop = other.take stop ↔ ∀ i < stop, bytes[i]? = other[i]? := by
  constructor
  · intro h i hi
    rw [← List.getElem?_take_of_lt hi, h, List.getElem?_take_of_lt hi]
  · intro h
    apply List.ext_getElem?
    intro i
    rw [List.getElem?_take, List.getElem?_take]
    split
    · exact h i ‹_›
    · rfl

/-- A range depends on nothing that lies outside of it. -/
theorem slice?_congr (hlength : bytes.length = other.length)
    (h : ∀ i, start ≤ i → i < stop → bytes[i]? = other[i]?) :
    bytes.slice? start stop = other.slice? start stop := by
  have hpiece : (bytes.take stop).drop start = (other.take stop).drop start := by
    apply List.ext_getElem?
    intro i
    rw [List.getElem?_drop, List.getElem?_drop, List.getElem?_take, List.getElem?_take]
    split
    · exact h _ (Nat.le_add_right ..) ‹_›
    · rfl
  rw [slice?, slice?, hlength, hpiece]

theorem getElem?_eq_of_slice? (h : bytes.slice? start stop = some piece)
    (h' : other.slice? start stop = some piece) {i : Nat} (hstart : start ≤ i) (hstop : i < stop) :
    bytes[i]? = other[i]? := by
  obtain ⟨offset, rfl⟩ := Nat.exists_eq_add_of_le hstart
  rw [← getElem?_of_slice? h hstop, ← getElem?_of_slice? h' hstop]

end Bytes

namespace Packet
variable {bytes other : Bytes} {packet another : Packet}

theorem announcesField_congr (h : bytes[3]? = other[3]?) :
    announcesField bytes = announcesField other := by
  simp only [announcesField, List.getD_eq_getElem?_getD, h]

theorem announcesPayload_congr (h : bytes[3]? = other[3]?) :
    announcesPayload bytes = announcesPayload other := by
  simp only [announcesPayload, List.getD_eq_getElem?_getD, h]

theorem fieldExtent_congr (h : bytes[3]? = other[3]?)
    (hfield : announcesField bytes → bytes[4]? = other[4]?) :
    fieldExtent bytes = fieldExtent other := by
  rw [fieldExtent, fieldExtent, ← announcesField_congr h]
  split
  · rw [List.getD_eq_getElem?_getD, List.getD_eq_getElem?_getD, hfield ‹_›]
  · rfl

/-- Two strings have in common what decoding keeps of the first. -/
structure Agree (bytes other : Bytes) : Prop where
  length : bytes.length = other.length
  header : ∀ i, 1 ≤ i → i ≤ 3 → bytes[i]? = other[i]?
  field : announcesField bytes → bytes[4]? = other[4]?
  payload : announcesPayload bytes →
    ∀ i, 4 + fieldExtent bytes ≤ i → i < 188 → bytes[i]? = other[i]?

theorem Agree.third (h : Agree bytes other) : bytes[3]? = other[3]? :=
  h.header 3 (by decide) (Nat.le_refl 3)

/-- What a string holds, another holds that agrees with it and has the same first byte. -/
theorem Holds.congr (h : Holds bytes packet) (hagree : Agree bytes other)
    (hsync : bytes[0]? = other[0]?) : Holds other packet where
  header := by
    rw [h.header, Bytes.take_eq_take_iff_getElem?]
    intro i hi
    rcases Nat.eq_zero_or_pos i with rfl | hpos
    · exact hsync
    · exact hagree.header i hpos (Nat.le_of_lt_succ hi)
  fieldLength := by
    rw [h.fieldLength, ← announcesField_congr hagree.third]
    split
    · exact hagree.field ‹_›
    · rfl
  payload hannounced := by
    rw [← announcesPayload_congr hagree.third] at hannounced
    rw [← fieldExtent_congr hagree.third hagree.field, ← h.payload hannounced]
    exact (Bytes.slice?_congr hagree.length (hagree.payload hannounced)).symm
  noPayload hannounced := by
    rw [← announcesPayload_congr hagree.third] at hannounced
    exact h.noPayload hannounced
  trailer := hagree.length ▸ h.trailer

theorem Accepted.congr (h : Accepted bytes) (hagree : Agree bytes other)
    (hsync : bytes[0]? = other[0]?) : Accepted other where
  synced := ⟨hagree.length ▸ h.synced.1, hsync ▸ h.synced.2⟩
  announced := by
    rw [← announcesField_congr hagree.third, ← announcesPayload_congr hagree.third]
    exact h.announced
  fits hfield := by
    rw [← announcesField_congr hagree.third] at hfield
    rw [List.getD_eq_getElem?_getD, ← hagree.field hfield, ← List.getD_eq_getElem?_getD]
    exact h.fits hfield

/-- Strings that hold one packet agree. -/
theorem Holds.agree (h : Holds bytes packet) (h' : Holds other packet) : Agree bytes other := by
  have hheader : ∀ i < 4, bytes[i]? = other[i]? :=
    Bytes.take_eq_take_iff_getElem?.mp (h.header.symm.trans h'.header)
  have hthird : bytes[3]? = other[3]? := hheader 3 (by decide)
  have hfield : announcesField bytes → bytes[4]? = other[4]? := by
    intro hannounced
    have hlength := h.fieldLength.symm.trans h'.fieldLength
    rwa [← announcesField_congr hthird, if_pos hannounced, if_pos hannounced] at hlength
  refine ⟨h.trailer.trans h'.trailer.symm, fun i _ hi => hheader i (Nat.lt_succ_of_le hi), hfield,
    fun hannounced i hstart hstop => ?_⟩
  have hpiece := h'.payload (announcesPayload_congr hthird ▸ hannounced)
  rw [← fieldExtent_congr hthird hfield] at hpiece
  exact Bytes.getElem?_eq_of_slice? (h.payload hannounced) hpiece hstart hstop

/-- Packets are equal just when their strings agree, and any string that agrees with that of a
packet, and starts with the sync byte as it does, is decoded to the same packet. -/
theorem packet_eq_iff_agree (h : decode bytes = .ok packet) (h' : decode other = .ok another) :
    (packet = another ↔ Agree bytes other) ∧
      ∀ changed, bytes[0]? = changed[0]? → Agree bytes changed → decode changed = .ok packet := by
  obtain ⟨haccepted, hholds⟩ := decode_eq_ok_iff.mp h
  obtain ⟨haccepted', hholds'⟩ := decode_eq_ok_iff.mp h'
  refine ⟨⟨?_, fun hagree => ?_⟩, fun changed hsync hagree => ?_⟩
  · rintro rfl
    exact hholds.agree hholds'
  · have hsync : bytes[0]? = other[0]? := haccepted.synced.2.trans haccepted'.synced.2.symm
    exact (hholds.congr hagree hsync).unique hholds'
  · exact decode_eq_ok_iff.mpr ⟨haccepted.congr hagree hsync, hholds.congr hagree hsync⟩

/-- An adaptation field of seven bytes and no payload, with everything behind byte 4 the same. -/
def stuffed (filler : UInt8) : Bytes :=
  0x47 :: 0x41 :: 0x00 :: 0x25 :: 7 :: List.replicate 187 filler

theorem decode_stuffed (filler : UInt8) :
    decode (stuffed filler) = .ok ⟨.ofFields 0x41 0x00 0x25, some 7, [], 4⟩ := by
  have hrest : (List.replicate 187 filler).length = 187 := List.length_replicate
  refine (decode_long (by omega)).trans ?_
  rw [hrest]
  rfl

theorem packet_eq_iff_agree_stuffed : Agree (stuffed 0xFF) (stuffed 0x00) ∧
    stuffed 0xFF ≠ stuffed 0x00 :=
  ⟨(packet_eq_iff_agree (decode_stuffed 0xFF) (decode_stuffed 0x00)).1.mp rfl,
    fun h => absurd (congrArg (fun bytes => bytes[5]?) h) (by decide)⟩

end Packet

end TransportStream
