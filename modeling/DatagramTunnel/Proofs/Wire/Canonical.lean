import DatagramTunnel.Proofs.Wire.Reading

/-!
# One datagram for each frame

Each frame has one written form, and nothing else is read as that frame.  `Frame.decode_eq_ok_iff`
says both at once: a datagram is read as a frame exactly if the frame writes that datagram and its
total length, should it announce one, fits into the field.  So the datagrams that can be read and
the frames that fit correspond one to one.

The half that is new here goes from the datagram to the frame: a field holds every number that its
bytes can write, so the bytes can be recovered from the number that was read.
-/

namespace DatagramTunnel.Wire

/-! ## Fields that are read and written again -/

/-- A field of at most four bytes is written as it was read. -/
theorem encode_ofNat_decode {field : Bytes} (h : field.length ≤ seqSize) :
    LittleEndian.encode field.length (UInt32.ofNat (LittleEndian.decode field)).toNat = field := by
  have hlt : LittleEndian.decode field < 2 ^ 32 :=
    calc LittleEndian.decode field
      _ < 256 ^ field.length := LittleEndian.decode_lt field
      _ ≤ 256 ^ seqSize := Nat.pow_le_pow_right (by decide) h
      _ = 2 ^ 32 := by decide
  rw [UInt32.toNat_ofNat', Nat.mod_eq_of_lt hlt, LittleEndian.encode_decode]

/-- The sequence number that was read writes the bytes it was read from. -/
theorem seqField_readSeq {fields : Bytes} (h : seqSize ≤ fields.length) :
    seqField (readSeq fields) = fields.take seqSize := by
  have hlen : (fields.take seqSize).length = seqSize := List.length_take_of_le h
  have hback := encode_ofNat_decode (Nat.le_of_eq hlen)
  rw [hlen] at hback
  exact hback

/-- So does the total length. -/
theorem totalField_readTotal {fields : Bytes} (h : seqSize + totalSize ≤ fields.length) :
    totalField (readTotal fields) = (fields.drop seqSize).take totalSize := by
  have hlen : ((fields.drop seqSize).take totalSize).length = totalSize := by
    refine List.length_take_of_le ?_
    rw [List.length_drop]
    omega
  have hshort : ((fields.drop seqSize).take totalSize).length ≤ seqSize := by
    rw [hlen]
    decide
  have hback := encode_ofNat_decode hshort
  rw [hlen] at hback
  exact hback

/-- Three bytes hold no total length that would not fit. -/
theorem readTotal_le (fields : Bytes) : (readTotal fields).toNat ≤ maxTotal := by
  have hlt : LittleEndian.decode ((fields.drop seqSize).take totalSize) < 256 ^ totalSize :=
    calc LittleEndian.decode ((fields.drop seqSize).take totalSize)
      _ < 256 ^ ((fields.drop seqSize).take totalSize).length := LittleEndian.decode_lt _
      _ ≤ 256 ^ totalSize := Nat.pow_le_pow_right (by decide) (List.length_take_le _ _)
  have hwidth : 256 ^ totalSize = maxTotal + 1 := by decide
  have hsmall : maxTotal < 2 ^ 32 := by decide
  rw [readTotal, UInt32.toNat_ofNat', Nat.mod_eq_of_lt (by omega)]
  omega

theorem readNonce_eq_ok {body : Bytes} {nonce : Nonce} (h : readNonce body = .ok nonce) :
    nonce.bytes = body := by
  unfold readNonce at h
  split at h
  · exact Except.ok.inj h ▸ rfl
  · cases h

theorem map_readNonce_eq_ok {body : Bytes} {build : Nonce → Frame} {f : Frame}
    (h : (readNonce body).map build = .ok f) :
    ∃ nonce : Nonce, f = build nonce ∧ nonce.bytes = body := by
  cases hread : readNonce body with
  | error cause =>
    rw [hread] at h
    cases h
  | ok nonce =>
    rw [hread] at h
    exact ⟨nonce, (Except.ok.inj h).symm, readNonce_eq_ok hread⟩

/-- The sequence number and what follows it make up the fields. -/
theorem seqField_append_drop {fields : Bytes} (h : seqSize ≤ fields.length) :
    seqField (readSeq fields) ++ fields.drop seqSize = fields := by
  rw [seqField_readSeq h, List.take_append_drop]

namespace Frame

/-- A frame that the rules of a kind read is of that kind, fits, and has the fields it was read
from. -/
theorem ofFields_eq_ok {kind : Kind} {fields : Bytes} {f : Frame}
    (hlen : kind.headerSize ≤ kindSize + fields.length) (h : ofFields kind fields = .ok f) :
    f.kind = kind ∧ f.fields = fields ∧ f.Fits := by
  have hseq : seqHeaderSize ≤ kindSize + fields.length → seqSize ≤ fields.length := fun hle =>
    Nat.le_of_add_le_add_left hle
  cases kind with
  | hello =>
    obtain rfl := Except.ok.inj h
    exact ⟨rfl, rfl, trivial⟩
  | ping =>
    obtain ⟨nonce, rfl, hbytes⟩ := map_readNonce_eq_ok h
    exact ⟨rfl, hbytes, trivial⟩
  | pong =>
    obtain ⟨nonce, rfl, hbytes⟩ := map_readNonce_eq_ok h
    exact ⟨rfl, hbytes, trivial⟩
  | only =>
    obtain rfl := Except.ok.inj h
    exact ⟨rfl, seqField_append_drop (hseq hlen), trivial⟩
  | middle =>
    obtain rfl := Except.ok.inj h
    exact ⟨rfl, seqField_append_drop (hseq hlen), trivial⟩
  | last =>
    obtain rfl := Except.ok.inj h
    exact ⟨rfl, seqField_append_drop (hseq hlen), trivial⟩
  | first =>
    obtain rfl := Except.ok.inj h
    have hboth : seqSize + totalSize ≤ fields.length := by
      simp only [Kind.headerSize, firstHeaderSize, seqHeaderSize] at hlen
      omega
    refine ⟨rfl, ?_, readTotal_le fields⟩
    show seqField (readSeq fields) ++
      (totalField (readTotal fields) ++ fields.drop (seqSize + totalSize)) = fields
    rw [totalField_readTotal hboth, ← List.drop_drop, List.take_append_drop,
      seqField_append_drop (hseq (Nat.le_trans (by decide) hlen))]
  | ack =>
    dsimp only [ofFields] at h
    split at h
    · rename_i hnone
      obtain rfl := Except.ok.inj h
      have hback := seqField_append_drop (hseq hlen)
      rw [hnone, List.append_nil] at hback
      exact ⟨rfl, hback, trivial⟩
    · cases h
  | pipe =>
    dsimp only [ofFields] at h
    split at h
    · obtain rfl := Except.ok.inj h
      exact ⟨rfl, rfl, trivial⟩
    · cases h

/-- A datagram is read as a frame exactly if the frame writes it and the wire carries the frame
without loss. -/
theorem decode_eq_ok_iff {datagram : Bytes} {f : Frame} :
    decode datagram = .ok f ↔ f.encode = datagram ∧ f.Fits := by
  constructor
  · intro h
    unfold decode at h
    split at h
    · cases h
    · rename_i byte fields
      split at h
      · cases h
      · rename_i kind hkind
        split at h
        · cases h
        · rename_i hlen
          rw [List.length_cons, Nat.not_lt, Nat.add_comm] at hlen
          obtain ⟨hkind', hfields, hfits⟩ := ofFields_eq_ok hlen h
          rw [encode_eq_cons, hkind', hfields, Kind.ofByte?_eq_some_iff.1 hkind]
          exact ⟨rfl, hfits⟩
  · rintro ⟨rfl, hfits⟩
    exact decode_encode_of_fits hfits

/-- The frame fits unless it announces more than three bytes can write. -/
theorem fits_of_total_lt {f : Frame}
    (h : ∀ seq total payload, f = .data ⟨seq, .first total, payload⟩ → total.toNat < 2 ^ 24) :
    f.Fits := by
  cases f with
  | data fragment =>
    obtain ⟨seq, position, payload⟩ := fragment
    cases position with
    | first total =>
      have hlt := h seq total payload rfl
      have hwidth : maxTotal + 1 = 2 ^ 24 := by decide
      show total.toNat ≤ maxTotal
      omega
    | _ => trivial
  | _ => trivial

/-- Writing and reading undo each other, but for the high bits of a total length that is too wide
for its field; the length of a datagram is known before it is written, and writing it into a buffer
leaves alone what the buffer holds. -/
theorem written_form_unique :
    (∀ f : Frame,
      (∀ seq total payload, f = .data ⟨seq, .first total, payload⟩ → total.toNat < 2 ^ 24) →
        decode f.encode = .ok f) ∧
      (∀ seq total payload, decode (data ⟨seq, .first total, payload⟩).encode =
        .ok (.data ⟨seq, .first (UInt32.ofNat (total.toNat % 2 ^ 24)), payload⟩)) ∧
      (∀ datagram f, decode datagram = .ok f → f.encode = datagram) ∧
      (∀ f : Frame, f.encode.length = f.wireLength) ∧
      (∀ fragment : Fragment, fragment.wireLength = (data fragment).wireLength) ∧
      ∀ (buffer : Bytes) (f : Frame), encodeInto buffer f = buffer ++ f.encode := by
  refine ⟨fun f h => decode_encode_of_fits (fits_of_total_lt h), fun seq total payload => ?_,
    fun datagram f h => (decode_eq_ok_iff.1 h).1, length_encode, fun _ => rfl,
    fun buffer f => List.append_assoc buffer f.header f.body⟩
  have hwidth : 256 ^ totalSize = 2 ^ 24 := by decide
  rw [decode_encode, onWire, Position.onWire, hwidth]

/-- A total length of one more than the field holds is read as nought; the length of a packet of
five bytes is read as it was. -/
theorem written_form_unique_wide :
    decode (data ⟨7, .first (UInt32.ofNat (2 ^ 24)), [1]⟩).encode =
        .ok (.data ⟨7, .first 0, [1]⟩) ∧
      decode (data ⟨7, .first 5, [1]⟩).encode = .ok (.data ⟨7, .first 5, [1]⟩) := by
  obtain ⟨hexact, hwide, -⟩ := written_form_unique
  refine ⟨hwide 7 (UInt32.ofNat (2 ^ 24)) [1], hexact _ ?_⟩
  rintro seq total payload heq
  cases heq
  decide

end Frame

end DatagramTunnel.Wire
