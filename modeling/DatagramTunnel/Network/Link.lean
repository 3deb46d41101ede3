import DatagramTunnel.Bytes

/-!
# Lossy links

A link carries datagrams in one direction and loses, doubles and swaps some of them by fixed rules,
which go by the running number of the datagram. `pass_of_isClear` says that a link without rules
hands on each datagram as it comes.
-/

namespace DatagramTunnel.Network

/-- One direction of a path. A period of zero switches its rule off. -/
structure Link where
  /-- So many datagrams are lost at first. -/
  dropFirst : Nat := 0
  /-- Each datagram whose number this divides is lost. -/
  dropEvery : Nat := 0
  /-- Each datagram whose number this divides comes out twice. -/
  dupEvery : Nat := 0
  /-- Each datagram whose number this divides is held back until another has come out. -/
  reorderEvery : Nat := 0
  /-- Everything is lost from now on. -/
  isCut : Bool := false
  /-- How many datagrams have been put in. -/
  passed : Nat := 0
  /-- The datagram held back. -/
  held : Option Bytes := none
  deriving DecidableEq, Repr

/-- Whether a rule of this period is on and picks the datagram of this number. -/
def picks (period number : Nat) : Bool := period != 0 && number % period == 0

namespace Link

/-- Loses everything from now on. -/
def cut (l : Link) : Link := { l with isCut := true }

/-- Whether the datagram of this number is lost. -/
def loses (l : Link) (number : Nat) : Bool :=
  l.isCut || number ≤ l.dropFirst || picks l.dropEvery number

/-- Puts one datagram in: what comes out, and the link afterwards. -/
def pass (l : Link) (datagram : Bytes) : List Bytes × Link :=
  let number := l.passed + 1
  let l' := { l with passed := number }
  if l.loses number then ([], l')
  else if picks l.reorderEvery number && l.held.isNone then
    ([], { l' with held := some datagram })
  else
    let copies := if picks l.dupEvery number then [datagram, datagram] else [datagram]
    (copies ++ l.held.toList, { l' with held := none })

/-- Puts datagrams in one after the other. -/
def passAll (l : Link) : List Bytes → List Bytes × Link
  | [] => ([], l)
  | datagram :: rest =>
    let (out, l') := l.pass datagram
    let (outs, l'') := l'.passAll rest
    (out ++ outs, l'')

/-- Whether no rule is on and nothing is held back. -/
def isClear (l : Link) : Bool :=
  l.dropFirst == 0 && l.dropEvery == 0 && l.dupEvery == 0 && l.reorderEvery == 0 && !l.isCut &&
    l.held.isNone

theorem pass_of_isClear {l : Link} (h : l.isClear) (datagram : Bytes) :
    l.pass datagram = ([datagram], { l with passed := l.passed + 1 }) := by
  simp only [isClear, Bool.and_eq_true, beq_iff_eq, Bool.not_eq_true', Option.isNone_iff_eq_none]
    at h
  obtain ⟨⟨⟨⟨⟨hfirst, hdrop⟩, hdup⟩, hreorder⟩, hcut⟩, hheld⟩ := h
  simp [pass, loses, picks, hfirst, hdrop, hdup, hreorder, hcut, hheld]

end Link

end DatagramTunnel.Network
