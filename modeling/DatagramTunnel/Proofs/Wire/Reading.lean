import DatagramTunnel.Wire.Parser
import Mathlib.Algebra.Ring.Nat

/-!
# Reading what was written

A datagram that `Frame.encode` wrote is read back by `Frame.decode`, up to one loss: the total
length of a first frame has three bytes on the wire, so its higher bits are gone.  `Frame.onWire`
is the frame that arrives, `Frame.decode_encode` says that reading yields exactly it, and
`Frame.decode_encode_of_fits` that a frame whose total length fits arrives as it was.
-/

namespace DatagramTunnel

/-! ## Numbers of a fixed width -/

namespace LittleEndian

theorem decode_lt (bytes : Bytes) : decode bytes < 256 ^ bytes.length := by
  induction bytes with
  | nil => simp [decode]
  | cons b rest ih =>
    have hb : b.toNat < 256 := b.toNat_lt
    rw [decode, List.length_cons, Nat.pow_succ]
    omega

/-- A field holds its number modulo the width. -/
theorem decode_encode (width n : Nat) : decode (encode width n) = n % 256 ^ width := by
  induction width generalizing n with
  | zero => simp [encode, decode, Nat.mod_one]
  | succ width ih =>
    have hb : (UInt8.ofNat (n % 256)).toNat = n % 256 := by
      rw [UInt8.toNat_ofNat']
      exact Nat.mod_eq_of_lt (Nat.mod_lt n (by decide))
    rw [encode, decode, ih, hb, Nat.pow_succ', Nat.mod_mul]

end LittleEndian

namespace Wire

/-! ## What the fields hold -/

/-- The position as the wire carries it. -/
def Position.onWire : Position → Position
  | .first total => .first (UInt32.ofNat (total.toNat % 256 ^ totalSize))
  | position => position

/-- The frame as the wire carries it: the total length of a first frame keeps its three low
bytes. -/
def Frame.onWire : Frame → Frame
  | .data f => .data { f with position := f.position.onWire }
  | frame => frame

/-- Whether the total length, if the position announces one, fits into its field. -/
def Position.Fits : Position → Prop
  | .first total => total.toNat ≤ maxTotal
  | _ => True

/-- Whether the wire carries the frame without loss. -/
def Frame.Fits : Frame → Prop
  | .data f => f.position.Fits
  | _ => True

theorem Position.onWire_of_fits {p : Position} (h : p.Fits) : p.onWire = p := by
  cases p with
  | first total =>
    have hlt : total.toNat < 256 ^ totalSize := by
      have hle : total.toNat ≤ maxTotal := h
      simp only [maxTotal, totalSize] at hle ⊢
      omega
    rw [Position.onWire, Nat.mod_eq_of_lt hlt, UInt32.ofNat_toNat]
  | only => rfl
  | middle => rfl
  | last => rfl

theorem Frame.onWire_of_fits {f : Frame} (h : f.Fits) : f.onWire = f := by
  cases f with
  | data fragment =>
    have hp : fragment.position.Fits := h
    rw [Frame.onWire, Position.onWire_of_fits hp]
  | _ => rfl

@[simp] theorem length_seqField (seq : UInt32) : (seqField seq).length = seqSize := by
  simp [seqField]

@[simp] theorem length_totalField (total : UInt32) : (totalField total).length = totalSize := by
  simp [totalField]

/-- The sequence number is read back, whatever follows it. -/
@[simp] theorem readSeq_append (seq : UInt32) (rest : Bytes) :
    readSeq (seqField seq ++ rest) = seq := by
  have hlt : seq.toNat < 256 ^ seqSize := seq.toNat_lt
  rw [readSeq, List.take_left' (length_seqField seq), seqField, LittleEndian.decode_encode,
    Nat.mod_eq_of_lt hlt, UInt32.ofNat_toNat]

@[simp] theorem drop_seqField (seq : UInt32) (rest : Bytes) :
    (seqField seq ++ rest).drop seqSize = rest :=
  List.drop_left' (length_seqField seq)

/-- The total length is read back modulo the width of its field. -/
@[simp] theorem readTotal_append (seq total : UInt32) (rest : Bytes) :
    readTotal (seqField seq ++ (totalField total ++ rest)) =
      UInt32.ofNat (total.toNat % 256 ^ totalSize) := by
  rw [readTotal, drop_seqField, List.take_left' (length_totalField total), totalField,
    LittleEndian.decode_encode]

theorem drop_fields (seq total : UInt32) (rest : Bytes) :
    (seqField seq ++ (totalField total ++ rest)).drop (seqSize + totalSize) = rest := by
  rw [← List.drop_drop, drop_seqField, List.drop_left' (length_totalField total)]

theorem readNonce_bytes (nonce : Nonce) : readNonce nonce.bytes = .ok nonce := by
  rw [readNonce, dif_pos nonce.length_bytes]

/-! ## The round trip -/

/-- What follows the kind byte. -/
def Frame.fields : Frame → Bytes
  | .hello token => token
  | .ping nonce => nonce.bytes
  | .pong nonce => nonce.bytes
  | .data ⟨seq, .first total, payload⟩ => seqField seq ++ (totalField total ++ payload)
  | .data ⟨seq, _, payload⟩ => seqField seq ++ payload
  | .ack seq => seqField seq
  | .pipe id payload => id :: payload

theorem Frame.encode_eq_cons (f : Frame) : f.encode = f.kind.byte :: f.fields := by
  cases f with
  | data fragment =>
    obtain ⟨seq, position, payload⟩ := fragment
    cases position <;>
      simp [Frame.encode, Frame.header, Fragment.header, Frame.body, Frame.kind, Frame.fields,
        Position.kind]
  | _ => simp [Frame.encode, Frame.header, Frame.body, Frame.kind, Frame.fields]

/-- The rules of a kind read the fields of a frame of that kind. -/
theorem Frame.ofFields_fields (f : Frame) : Frame.ofFields f.kind f.fields = .ok f.onWire := by
  cases f with
  | hello token => rfl
  | ping nonce =>
    show (readNonce nonce.bytes).map Frame.ping = _
    rw [readNonce_bytes]
    rfl
  | pong nonce =>
    show (readNonce nonce.bytes).map Frame.pong = _
    rw [readNonce_bytes]
    rfl
  | data fragment =>
    obtain ⟨seq, position, payload⟩ := fragment
    cases position with
    | first total =>
      simp [Frame.ofFields, Frame.fields, Frame.kind, Position.kind, drop_fields, Frame.onWire,
        Position.onWire]
    | _ =>
      simp [Frame.ofFields, Frame.fields, Frame.kind, Position.kind, Frame.onWire,
        Position.onWire]
  | ack seq =>
    have hdrop : (seqField seq).drop seqSize = [] := by
      simpa only [List.append_nil] using drop_seqField seq []
    have hread : readSeq (seqField seq) = seq := by
      simpa only [List.append_nil] using readSeq_append seq []
    simp only [Frame.kind, Frame.fields, Frame.ofFields, hdrop, hread, Frame.onWire]
  | pipe id payload => rfl

/-- A datagram of a known kind that holds at least its header is read by the rules of that
kind. -/
theorem Frame.decode_cons {kind : Kind} {fields : Bytes}
    (h : kind.headerSize ≤ (kind.byte :: fields).length) :
    Frame.decode (kind.byte :: fields) = Frame.ofFields kind fields := by
  have hlen : ¬ (kind.byte :: fields).length < kind.headerSize := Nat.not_lt.2 h
  rw [Frame.decode, Kind.ofByte?_byte]
  simp only [if_neg hlen]

/-- Reading a written datagram yields the frame that the wire carries. -/
theorem Frame.decode_encode (f : Frame) : Frame.decode f.encode = .ok f.onWire := by
  have hlen : f.kind.headerSize ≤ f.encode.length := by
    rw [Frame.encode, List.length_append, Frame.length_header]
    exact Nat.le_add_right _ _
  rw [Frame.encode_eq_cons] at hlen ⊢
  rw [Frame.decode_cons hlen, Frame.ofFields_fields]

/-- A frame whose total length fits arrives as it was written. -/
theorem Frame.decode_encode_of_fits {f : Frame} (h : f.Fits) : Frame.decode f.encode = .ok f := by
  rw [Frame.decode_encode, Frame.onWire_of_fits h]

end Wire

end DatagramTunnel
