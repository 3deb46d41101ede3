/-!
# Byte strings

Datagrams, packets and payloads are byte lists. Numbers on the wire are little-endian and have a
fixed width: `LittleEndian.encode width n` keeps the low `8 * width` bits of `n`, and
`LittleEndian.decode` reads such a field back. `encode_decode` says that a field is determined by
the number it writes.
-/

namespace DatagramTunnel

/-- A string of bytes: a datagram, a packet, or a part of one. -/
abbrev Bytes := List UInt8

namespace LittleEndian

/-- The `width` low bytes of `n`, least significant first. -/
def encode : Nat → Nat → Bytes
  | 0, _ => []
  | width + 1, n => UInt8.ofNat (n % 256) :: encode width (n / 256)

/-- The number written by these bytes, least significant first. -/
def decode : Bytes → Nat
  | [] => 0
  | b :: rest => b.toNat + 256 * decode rest

@[simp] theorem length_encode (width n : Nat) : (encode width n).length = width := by
  induction width generalizing n with
  | zero => rfl
  | succ width ih => simp [encode, ih]

/-- Every byte string is the field of the number it writes. -/
theorem encode_decode (bytes : Bytes) : encode bytes.length (decode bytes) = bytes := by
  induction bytes with
  | nil => rfl
  | cons b rest ih =>
    have hb : b.toNat < 256 := b.toNat_lt
    rw [List.length_cons, decode, encode]
    have hlow : (b.toNat + 256 * decode rest) % 256 = b.toNat := by omega
    have hhigh : (b.toNat + 256 * decode rest) / 256 = decode rest := by omega
    rw [hlow, hhigh, ih, UInt8.ofNat_toNat]

end LittleEndian

end DatagramTunnel
