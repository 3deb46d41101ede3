import DatagramTunnel.Proofs.Wire.Canonical

/-!
# Which datagrams are frames, and what is wrong with the others

`InGrammar` are the datagrams that the wire documentation allows, and `Fault` names what is wrong
with any other.  `Frame.reads_grammar` says that reading accepts exactly the first and answers
exactly with the second.

The header of a datagram is read field by field.  `Frame.decodeGuarded?` does so with a check at
every step: it has no result where a slice or a field reaches past the end of the bytes that it is
taken from.  It never comes to that, and it reads the frames that `Frame.decode` reads.
-/

namespace DatagramTunnel.Wire

/-! ## The grammar -/

/-- What the wire documentation allows. -/
inductive InGrammar : Bytes → Prop
  | frame {kind : Kind} {fields : Bytes}
    (header : kind.headerSize ≤ (kind.byte :: fields).length)
    (nonce : kind = .ping ∨ kind = .pong → (kind.byte :: fields).length = 65)
    (ack : kind = .ack → (kind.byte :: fields).length = 5) : InGrammar (kind.byte :: fields)

/-- What is wrong with a datagram. Each fault leaves room for those after it only where it does not
occur itself. -/
inductive Fault : Bytes → FrameError → Prop
  | empty : Fault [] .empty
  | unknownKind {byte : UInt8} (fields : Bytes) (other : ∀ kind : Kind, kind.byte ≠ byte) :
    Fault (byte :: fields) (.unknownKind byte)
  | tooShort {kind : Kind} {fields : Bytes}
    (short : (kind.byte :: fields).length < kind.headerSize) :
    Fault (kind.byte :: fields)
      (.tooShort kind kind.headerSize (kind.byte :: fields).length)
  | nonceLength {kind : Kind} {body : Bytes} (probe : kind = .ping ∨ kind = .pong)
    (length : (kind.byte :: body).length ≠ 65) :
    Fault (kind.byte :: body) (.nonceLength body.length)
  | trailingBytes {fields extra : Bytes} (complete : (Kind.ack.byte :: fields).length = 5)
    (more : extra ≠ []) :
    Fault (Kind.ack.byte :: (fields ++ extra)) (.trailingBytes .ack extra.length)

/-! ## Reading with checks -/

/-- The first `count` bytes and the others; there is no result if there are fewer. -/
def splitAt? (count : Nat) (bytes : Bytes) : Option (Bytes × Bytes) :=
  if count ≤ bytes.length then some (bytes.take count, bytes.drop count) else none

/-- Reads a number of `width` bytes, and leaves what follows it. -/
def readNumber? (width : Nat) (cursor : Bytes) : Option (Nat × Bytes) := do
  let (field, rest) ← splitAt? width cursor
  return (LittleEndian.decode field, rest)

namespace Frame

/-- A data frame whose header has nothing but a sequence number. -/
def dataOf? (position : Position) (cursor body : Bytes) : Option (Except FrameError Frame) := do
  let (seq, _) ← readNumber? seqSize cursor
  return .ok (.data ⟨UInt32.ofNat seq, position, body⟩)

/-- Reads the frame of a known kind from the fields of its header and its body. -/
def ofParts? (kind : Kind) (cursor body : Bytes) : Option (Except FrameError Frame) :=
  match kind with
  | .hello => some (.ok (.hello body))
  | .ping => some ((readNonce body).map .ping)
  | .pong => some ((readNonce body).map .pong)
  | .only => dataOf? .only cursor body
  | .last => dataOf? .last cursor body
  | .middle => dataOf? .middle cursor body
  | .first => do
    let (seq, rest) ← readNumber? seqSize cursor
    let (total, _) ← readNumber? totalSize rest
    return .ok (.data ⟨UInt32.ofNat seq, .first (UInt32.ofNat total), body⟩)
  | .ack => do
    if body ≠ [] then return .error (.trailingBytes .ack body.length)
    let (seq, _) ← readNumber? seqSize cursor
    return .ok (.ack (UInt32.ofNat seq))
  | .pipe => do
    let (id, _) ← readNumber? 1 cursor
    return .ok (.pipe (UInt8.ofNat id) body)

/-- Reads one datagram. The fields are read from the header alone. -/
def decodeGuarded? (datagram : Bytes) : Option (Except FrameError Frame) :=
  match datagram with
  | [] => some (.error .empty)
  | b :: _ =>
    match Kind.ofByte? b with
    | none => some (.error (.unknownKind b))
    | some kind => do
      if datagram.length < kind.headerSize then
        return .error (.tooShort kind kind.headerSize datagram.length)
      let (header, body) ← splitAt? kind.headerSize datagram
      let (_, cursor) ← splitAt? kindSize header
      ofParts? kind cursor body

end Frame

/-! ## No step fails -/

theorem splitAt?_eq_some {count : Nat} {bytes : Bytes} (h : count ≤ bytes.length) :
    splitAt? count bytes = some (bytes.take count, bytes.drop count) := if_pos h

theorem readNumber?_eq_some {width : Nat} {cursor : Bytes} (h : width ≤ cursor.length) :
    readNumber? width cursor =
      some (LittleEndian.decode (cursor.take width), cursor.drop width) := by
  rw [readNumber?, splitAt?_eq_some h]
  rfl

/-- The sequence number is read from the header, whatever the body is. -/
theorem readSeq_header {cursor : Bytes} (body : Bytes) (h : seqSize ≤ cursor.length) :
    readSeq (cursor ++ body) = UInt32.ofNat (LittleEndian.decode (cursor.take seqSize)) := by
  rw [readSeq, List.take_append_of_le_length h]

/-- So is the total length. -/
theorem readTotal_header {cursor : Bytes} (body : Bytes)
    (h : seqSize + totalSize ≤ cursor.length) :
    readTotal (cursor ++ body) =
      UInt32.ofNat (LittleEndian.decode ((cursor.drop seqSize).take totalSize)) := by
  have hrest : totalSize ≤ (cursor.drop seqSize).length := by
    rw [List.length_drop]
    omega
  rw [readTotal, List.drop_append_of_le_length (by omega), List.take_append_of_le_length hrest]

namespace Frame

/-- The fields of a header have the bytes that the kind asks for, so all of them can be read, and
what is read is what the rules of the kind read. -/
theorem ofParts?_eq {kind : Kind} {cursor : Bytes} (body : Bytes)
    (h : kindSize + cursor.length = kind.headerSize) :
    ofParts? kind cursor body = some (ofFields kind (cursor ++ body)) := by
  cases kind with
  | hello | ping | pong =>
    have hnil : cursor = [] := List.eq_nil_of_length_eq_zero (by simpa [Kind.headerSize] using h)
    rw [hnil]
    rfl
  | only | last | middle =>
    have hlen : cursor.length = seqSize := Nat.add_left_cancel h
    rw [ofParts?, dataOf?, readNumber?_eq_some (Nat.le_of_eq hlen.symm), ofFields,
      readSeq_header body (Nat.le_of_eq hlen.symm), List.drop_left' hlen]
    rfl
  | first =>
    have hlen : cursor.length = seqSize + totalSize := by
      simp only [Kind.headerSize, firstHeaderSize, seqHeaderSize] at h
      omega
    have hrest : totalSize ≤ (cursor.drop seqSize).length := by
      rw [List.length_drop]
      omega
    have hread := readNumber?_eq_some hrest
    rw [ofParts?, readNumber?_eq_some (by omega), ofFields, readSeq_header body (by omega),
      readTotal_header body (Nat.le_of_eq hlen.symm), List.drop_left' hlen]
    simp only [Option.bind_eq_bind, Option.bind_some, hread]
    rfl
  | ack =>
    have hlen : cursor.length = seqSize := Nat.add_left_cancel h
    have hdrop : (cursor ++ body).drop seqSize = body := List.drop_left' hlen
    cases body with
    | nil =>
      rw [ofParts?, ofFields, hdrop, readNumber?_eq_some (Nat.le_of_eq hlen.symm),
        readSeq_header [] (Nat.le_of_eq hlen.symm)]
      rfl
    | cons b rest =>
      rw [ofParts?, ofFields, hdrop]
      rfl
  | pipe =>
    have hlen : cursor.length = 1 := Nat.add_left_cancel h
    obtain ⟨id, rfl⟩ := List.length_eq_one_iff.1 hlen
    have hid : UInt8.ofNat (LittleEndian.decode [id]) = id := by
      simp [LittleEndian.decode]
    rw [ofParts?, readNumber?_eq_some (Nat.le_of_eq hlen.symm)]
    simp only [Option.bind_eq_bind, Option.bind_some, List.take_succ_cons, List.take_zero, hid]
    rfl

/-- No check of a reading fails, and with the checks a datagram is read as without them. -/
theorem decodeGuarded?_eq (datagram : Bytes) :
    decodeGuarded? datagram = some (decode datagram) := by
  cases datagram with
  | nil => rfl
  | cons b fields =>
    rw [decodeGuarded?, decode]
    cases hkind : Kind.ofByte? b with
    | none => rfl
    | some kind =>
      by_cases hshort : (b :: fields).length < kind.headerSize
      · simp only [if_pos hshort]
        rfl
      · have hheader : kind.headerSize ≤ (b :: fields).length := Nat.not_lt.1 hshort
        obtain ⟨size, hsize⟩ : ∃ size, kind.headerSize = kindSize + size :=
          Nat.exists_eq_add_of_le (by cases kind <;> decide)
        have hcursor : kindSize + (fields.take size).length = kind.headerSize := by
          rw [List.length_cons, hsize, kindSize] at hheader
          rw [List.length_take_of_le (by omega), hsize]
        have hparts := ofParts?_eq (fields.drop size) hcursor
        rw [List.take_append_drop] at hparts
        have hsplit : splitAt? kind.headerSize (b :: fields) =
            some (b :: fields.take size, fields.drop size) := by
          rw [splitAt?_eq_some hheader, hsize, kindSize, Nat.add_comm, List.take_succ_cons,
            List.drop_succ_cons]
        have hbyte : splitAt? kindSize (b :: fields.take size) = some ([b], fields.take size) := by
          rw [splitAt?_eq_some (Nat.succ_le_succ (Nat.zero_le _))]
          rfl
        simp only [if_neg hshort, hsplit, Option.bind_eq_bind, Option.bind_some, hbyte, hparts]

end Frame

/-! ## Which fault a datagram has -/

theorem map_readNonce_eq_error_iff {body : Bytes} {build : Nonce → Frame} {cause : FrameError} :
    (readNonce body).map build = .error cause ↔
      body.length ≠ nonceSize ∧ cause = .nonceLength body.length := by
  by_cases hlen : body.length = nonceSize
  · rw [readNonce, dif_pos hlen]
    constructor
    · intro h
      cases h
    · intro h
      exact absurd hlen h.1
  · rw [readNonce, dif_neg hlen]
    exact ⟨fun h => ⟨hlen, (Except.error.inj h).symm⟩, fun h => congrArg Except.error h.2.symm⟩

/-- The bytes of an acknowledgement after its sequence number are surplus. -/
theorem Fault.of_more {fields : Bytes}
    (header : Kind.ack.headerSize ≤ (Kind.ack.byte :: fields).length)
    (more : fields.drop seqSize ≠ []) :
    Fault (Kind.ack.byte :: fields) (.trailingBytes .ack (fields.drop seqSize).length) := by
  have hfields : (fields.take seqSize).length = seqSize :=
    List.length_take_of_le (Nat.le_of_succ_le_succ header)
  have hfault := Fault.trailingBytes (congrArg Nat.succ hfields) more
  rwa [List.take_append_drop] at hfault

namespace Frame

/-- What the rules of a kind find fault with, where there are bytes enough for the header: a probe
whose body is no nonce, and an acknowledgement with a body. -/
theorem ofFields_eq_error_iff {kind : Kind} {fields : Bytes} {cause : FrameError}
    (hlen : kind.headerSize ≤ kindSize + fields.length) :
    ofFields kind fields = .error cause ↔
      ((kind = .ping ∨ kind = .pong) ∧ fields.length ≠ nonceSize ∧
          cause = .nonceLength fields.length) ∨
        (kind = .ack ∧ fields.drop seqSize ≠ [] ∧
          cause = .trailingBytes .ack (fields.drop seqSize).length) := by
  cases kind with
  | hello | only | first | last | middle => simp [ofFields]
  | ping | pong => simp [ofFields, map_readNonce_eq_error_iff]
  | ack =>
    cases hdrop : fields.drop seqSize with
    | nil => simp [ofFields, hdrop]
    | cons b rest => simp [ofFields, hdrop, eq_comm]
  | pipe =>
    cases fields with
    | nil => simp [Kind.headerSize, pipeHeaderSize, kindSize] at hlen
    | cons id payload => simp [ofFields]

theorem decode_of_other {b : UInt8} {fields : Bytes} (other : ∀ kind : Kind, kind.byte ≠ b) :
    decode (b :: fields) = .error (.unknownKind b) := by
  rw [decode, Kind.ofByte?_eq_none_iff.2 other]

theorem decode_of_short {kind : Kind} {fields : Bytes}
    (short : (kind.byte :: fields).length < kind.headerSize) :
    decode (kind.byte :: fields) =
      .error (.tooShort kind kind.headerSize (kind.byte :: fields).length) := by
  rw [decode, Kind.ofByte?_byte]
  exact if_pos short

/-- Reading fails with the fault of the datagram, and with no other. -/
theorem decode_eq_error_iff {datagram : Bytes} {cause : FrameError} :
    decode datagram = .error cause ↔ Fault datagram cause := by
  constructor
  · intro h
    cases datagram with
    | nil =>
      cases h
      exact .empty
    | cons b fields =>
      by_cases hother : ∀ kind : Kind, kind.byte ≠ b
      · rw [decode_of_other hother] at h
        cases h
        exact .unknownKind fields hother
      obtain ⟨kind, rfl⟩ : ∃ kind : Kind, kind.byte = b := by simpa using hother
      by_cases hshort : (kind.byte :: fields).length < kind.headerSize
      · rw [decode_of_short hshort] at h
        cases h
        exact .tooShort hshort
      have hlen := Nat.not_lt.1 hshort
      rw [decode_cons hlen, ofFields_eq_error_iff (by simpa [kindSize, Nat.add_comm] using hlen)]
        at h
      obtain ⟨hprobe, hnonce, rfl⟩ | ⟨rfl, hmore, rfl⟩ := h
      · exact .nonceLength hprobe fun heq => hnonce (Nat.succ.inj heq)
      · exact .of_more hlen hmore
  · intro h
    cases h with
    | empty => rfl
    | unknownKind fields other => exact decode_of_other other
    | tooShort short => exact decode_of_short short
    | @nonceLength kind body probe length =>
      have hheader : kind.headerSize = kindSize := by
        rcases probe with rfl | rfl <;> rfl
      have hlen : kind.headerSize ≤ kindSize + body.length := hheader ▸ Nat.le_add_right _ _
      rw [decode_cons (by simpa [kindSize, Nat.add_comm] using hlen), ofFields_eq_error_iff hlen]
      exact .inl ⟨probe, fun heq => length (congrArg Nat.succ heq), rfl⟩
    | @trailingBytes fields extra complete more =>
      have hfields : fields.length = seqSize := Nat.succ.inj complete
      have hlen : Kind.ack.headerSize ≤ kindSize + (fields ++ extra).length := by
        rw [List.length_append, hfields, ← Nat.add_assoc]
        exact Nat.le_add_right _ _
      rw [decode_cons (by simpa [kindSize, Nat.add_comm] using hlen), ofFields_eq_error_iff hlen,
        List.drop_left' hfields]
      exact .inr ⟨rfl, more, rfl⟩

/-- Reading has a result for what the documentation allows, and for nothing else. -/
theorem decode_eq_ok_iff_inGrammar {datagram : Bytes} :
    (∃ f, decode datagram = .ok f) ↔ InGrammar datagram := by
  constructor
  · rintro ⟨f, h⟩
    have hfree : ∀ cause, ¬ Fault datagram cause := fun cause hfault => by
      rw [decode_eq_error_iff.2 hfault] at h
      cases h
    cases datagram with
    | nil => exact absurd .empty (hfree _)
    | cons b fields =>
      obtain ⟨kind, rfl⟩ : ∃ kind : Kind, kind.byte = b :=
        Classical.byContradiction fun hother =>
          hfree _ (.unknownKind fields (not_exists.1 hother))
      have hheader := Nat.not_lt.1 fun hshort => hfree _ (.tooShort hshort)
      refine .frame hheader (fun hprobe => ?_) fun hack => ?_
      · exact Classical.byContradiction fun hlen => hfree _ (.nonceLength hprobe hlen)
      · subst hack
        have hdrop : fields.drop seqSize = [] :=
          Classical.byContradiction fun hmore => hfree _ (.of_more hheader hmore)
        have hle : fields.length ≤ seqSize := List.drop_eq_nil_iff.1 hdrop
        exact Nat.le_antisymm (Nat.succ_le_succ hle) hheader
  · rintro ⟨header, nonce, ack⟩
    rename_i kind fields
    rw [decode_cons header]
    cases hread : ofFields kind fields with
    | ok f => exact ⟨f, rfl⟩
    | error cause =>
      rw [ofFields_eq_error_iff (by simpa [kindSize, Nat.add_comm] using header)] at hread
      obtain ⟨hprobe, hnonce, -⟩ | ⟨hack, hmore, -⟩ := hread
      · exact absurd (Nat.succ.inj (nonce hprobe)) hnonce
      · have hfields : fields.length = seqSize := Nat.succ.inj (ack hack)
        exact absurd (List.drop_of_length_le (Nat.le_of_eq hfields)) hmore

/-- Reading accepts what the wire documentation allows and nothing else, names what is wrong with
any other datagram, and takes no byte of a field from outside the header. -/
theorem reads_grammar (datagram : Bytes) :
    ((∃ f, decode datagram = .ok f) ↔ InGrammar datagram) ∧
      (∀ cause, decode datagram = .error cause ↔ Fault datagram cause) ∧
      decodeGuarded? datagram = some (decode datagram) :=
  ⟨decode_eq_ok_iff_inGrammar, fun _ => decode_eq_error_iff, decodeGuarded?_eq datagram⟩

/-- A first frame that ends within its total length is cut short. -/
example : decode [17, 1, 0, 0, 0, 9] = .error (.tooShort .first 8 6) := by decide

end Frame

end DatagramTunnel.Wire
