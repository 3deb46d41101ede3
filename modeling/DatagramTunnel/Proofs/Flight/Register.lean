import DatagramTunnel.Proofs.Flight.Orderly
import Mathlib.Data.List.Induction

/-!
# A send queue kept in maps

A send queue lists its frames in flight, and its schedule in ascending order.  A `Register` is the
same queue kept step by step.  A frame has no instants before it is sent; the frames in flight stand
under their numbers and the transmissions under their instants and orders, both in maps; and a tick
takes one overdue transmission after the other off the schedule, sends its frame again if there is
one, and then one waiting frame after the other for the first time.  What an insertion displaces in
the schedule is noted.

`Mirrors` says that a register holds what a queue holds, and that nothing was displaced in its
schedule.  Every call keeps it so, and both answer alike or both have no result: `mirrors_callAll`,
`Mirrors.tick` and `Mirrors.acknowledge`.
-/

namespace DatagramTunnel.Flight

open Std

/-! ## Computations that go alike -/

/-- Both have results, and these are so related, or neither has one, for the same reason. -/
inductive Alike {β γ : Type} (R : β → γ → Prop) :
    Except TimeError β → Except TimeError γ → Prop where
  | ok {b : β} {c : γ} (related : R b c) : Alike R (.ok b) (.ok c)
  | error (cause : TimeError) : Alike R (.error cause) (.error cause)

namespace Alike

variable {β γ β' γ' : Type} {R : β → γ → Prop} {S : β' → γ' → Prop}

theorem refl (x : Except TimeError β) : Alike Eq x x := by
  cases x with
  | ok b => exact .ok rfl
  | error cause => exact .error cause

theorem bind {x : Except TimeError β} {y : Except TimeError γ} {f : β → Except TimeError β'}
    {g : γ → Except TimeError γ'} (h : Alike R x y)
    (hnext : ∀ b c, y = .ok c → R b c → Alike S (f b) (g c)) : Alike S (x >>= f) (y >>= g) := by
  cases h with
  | ok related => exact hnext _ _ rfl related
  | error cause => exact .error cause

end Alike

/-! ## Transmissions in a map -/

/-- Transmissions under their instants and orders: the numbers of their frames. -/
abbrev Agenda := TreeMap (Nat × Nat) UInt32 lexOrd.compare

namespace Agenda

theorem size_erase_lt {a : Agenda} {key : Nat × Nat} (h : key ∈ a) :
    (a.erase key).size < a.size := by
  have hfull : a.isEmpty = false := TreeMap.isEmpty_eq_false_iff_exists_mem.2 ⟨key, h⟩
  rw [TreeMap.isEmpty_eq_size_eq_zero, beq_eq_false_iff_ne] at hfull
  rw [TreeMap.size_erase, if_pos (TreeMap.contains_iff_mem.2 h)]
  exact Nat.sub_one_lt hfull

/-- Takes overdue transmissions off, the earliest first: the numbers of their frames, and what is
left. -/
def takeOverdue (now timeout : Nat) (a : Agenda) : Except TimeError (List UInt32 × Agenda) :=
  match hfirst : a.minKey? with
  | none => .ok ([], a)
  | some key => do
    have hmem : key ∈ a := (TreeMap.minKey?_eq_some_iff_mem_and_forall.1 hfirst).1
    let deadline ← later key.1 timeout
    if now < deadline then return ([], a)
    else
      let (late, left) ← takeOverdue now timeout (a.erase key)
      return (a[key] :: late, left)
termination_by a.size
decreasing_by exact size_erase_lt hmem

/-- The map has the transmissions that the schedule lists. -/
def Lists (a : Agenda) (s : Schedule) : Prop :=
  ∀ sentAt order seq, a[(sentAt, order)]? = some seq ↔ ⟨sentAt, order, seq⟩ ∈ s

variable {a : Agenda} {s : Schedule}

theorem lists_empty : Lists {} [] := fun sentAt order seq => by
  rw [TreeMap.getElem?_emptyc]
  exact iff_of_false nofun List.not_mem_nil

/-- Nothing stands where a transmission with an order of its own is entered. -/
theorem Lists.vacant (h : a.Lists s) {order : Nat} (hnew : ∀ x ∈ s, x.order ≠ order)
    (sentAt : Nat) : a[(sentAt, order)]? = none := by
  rw [Option.eq_none_iff_forall_ne_some]
  exact fun seq hseq => hnew _ ((h sentAt order seq).1 hseq) rfl

theorem Lists.insert (h : a.Lists s) {order : Nat} (hnew : ∀ x ∈ s, x.order ≠ order)
    (sentAt : Nat) (seq : UInt32) :
    Lists (a.insert (sentAt, order) seq) (s.insert ⟨sentAt, order, seq⟩) := by
  intro sentAt' order' seq'
  rw [TreeMap.getElem?_insert, Schedule.mem_insert_iff hnew, ← h]
  by_cases hkey : (sentAt, order) = (sentAt', order')
  · obtain ⟨rfl, rfl⟩ := Prod.mk.inj hkey
    rw [if_pos ReflCmp.compare_self, h.vacant hnew]
    simp [eq_comm]
  · rw [if_neg (mt LawfulEqCmp.eq_of_compare hkey)]
    refine (or_iff_right fun hentry => hkey ?_).symm
    obtain ⟨rfl, rfl, -⟩ := Entry.mk.inj hentry
    rfl

theorem Lists.erase (h : a.Lists s) (sentAt order : Nat) :
    Lists (a.erase (sentAt, order)) (s.erase sentAt order) := by
  intro sentAt' order' seq'
  rw [TreeMap.getElem?_erase, Schedule.mem_erase_iff, ← h]
  by_cases hkey : (sentAt, order) = (sentAt', order')
  · obtain ⟨rfl, rfl⟩ := Prod.mk.inj hkey
    rw [if_pos ReflCmp.compare_self]
    exact iff_of_false nofun fun hother => hother.2 ⟨rfl, rfl⟩
  · rw [if_neg (mt LawfulEqCmp.eq_of_compare hkey)]
    exact (and_iff_left fun hsame => hkey (Prod.ext hsame.1.symm hsame.2.symm)).symm

theorem isLE_compare_of_before {x y : Entry} (h : x.before y = true) :
    (lexOrd.compare (x.sentAt, x.order) (y.sentAt, y.order)).isLE = true := by
  show ((compare x.sentAt y.sentAt).then (compare x.order y.order)).isLE = true
  simp only [Entry.before, Bool.or_eq_true, Bool.and_eq_true, decide_eq_true_eq, beq_iff_eq] at h
  rcases h with hlt | ⟨heq, hlt⟩
  · rw [Nat.compare_eq_lt.2 hlt]
    rfl
  · rw [Nat.compare_eq_eq.2 heq, Nat.compare_eq_lt.2 hlt]
    rfl

/-- The first transmission of a schedule is the earliest on the map. -/
theorem Lists.minKey? {x : Entry} (h : a.Lists (x :: s)) (hsorted : Schedule.Sorted (x :: s)) :
    TreeMap.minKey? a = some (x.sentAt, x.order) := by
  have hfirst : a[(x.sentAt, x.order)]? = some x.seq := (h _ _ _).2 List.mem_cons_self
  refine TreeMap.minKey?_eq_some_iff_mem_and_forall.2
    ⟨(TreeMap.getElem?_eq_some_iff.1 hfirst).1, fun key hkey => ?_⟩
  have hentry := (h key.1 key.2 a[key]).1 (TreeMap.getElem?_eq_some_getElem hkey)
  rcases List.mem_cons.1 hentry with hsame | hlater
  · have hself : key = (x.sentAt, x.order) := by rw [← hsame]
    rw [hself]
    exact ReflCmp.isLE_rfl
  · exact isLE_compare_of_before ((List.pairwise_cons.1 hsorted).1 _ hlater)

/-- Without the first transmission the map has the others. -/
theorem Lists.tail {x : Entry} (h : a.Lists (x :: s)) (hsorted : Schedule.Sorted (x :: s)) :
    Lists (a.erase (x.sentAt, x.order)) s := by
  have hothers : Schedule.erase (x :: s) x.sentAt x.order = s := by
    refine (List.filter_cons_of_neg (by simp [Entry.hasKey])).trans ?_
    refine List.filter_eq_self.2 fun y hy => ?_
    have hbefore := (List.pairwise_cons.1 hsorted).1 y hy
    simp only [Entry.before, Entry.hasKey, Bool.or_eq_true, Bool.and_eq_true, decide_eq_true_eq,
      beq_iff_eq, Bool.not_eq_true', ← Bool.not_eq_true] at hbefore ⊢
    omega
  exact hothers ▸ h.erase x.sentAt x.order

theorem takeOverdue_of_none (now timeout : Nat) (hfirst : TreeMap.minKey? a = none) :
    a.takeOverdue now timeout = .ok ([], a) := by
  rw [takeOverdue]
  split
  · rfl
  · rename_i key hsome
    cases hfirst.symm.trans hsome

theorem takeOverdue_of_some (now timeout : Nat) {key : Nat × Nat} {seq : UInt32}
    (hfirst : TreeMap.minKey? a = some key) (hseq : a[key]? = some seq) :
    a.takeOverdue now timeout = do
      let deadline ← later key.1 timeout
      if now < deadline then return ([], a)
      else
        let (late, left) ← takeOverdue now timeout (a.erase key)
        return (seq :: late, left) := by
  obtain ⟨hmem, rfl⟩ := TreeMap.getElem?_eq_some_iff.1 hseq
  rw [takeOverdue]
  split
  · rename_i hnone
    rw [hnone] at hfirst
    cases hfirst
  · rename_i key' hfirst'
    cases hfirst'.symm.trans hfirst
    rfl

/-- What is taken off the map one after the other is what is taken off the schedule, and the map has
what the schedule has left. -/
theorem Lists.takeOverdue (h : a.Lists s) (hsorted : s.Sorted) (now timeout : Nat) :
    Alike (fun taken taken' => taken.1 = taken'.1.map Entry.seq ∧ taken.2.Lists taken'.2)
      (a.takeOverdue now timeout) (s.takeOverdue now timeout) := by
  -- the map shrinks with the schedule, whose first transmission is the earliest on the map
  induction s generalizing a with
  | nil =>
    have hempty : TreeMap.minKey? a = none := by
      refine Option.eq_none_iff_forall_ne_some.2 fun key hkey => ?_
      have hmem := (TreeMap.minKey?_eq_some_iff_mem_and_forall.1 hkey).1
      exact List.not_mem_nil ((h key.1 key.2 a[key]).1 (TreeMap.getElem?_eq_some_getElem hmem))
    rw [takeOverdue_of_none now timeout hempty]
    exact .ok ⟨rfl, h⟩
  | cons x rest ih =>
    have hseq : a[(x.sentAt, x.order)]? = some x.seq := (h _ _ _).2 List.mem_cons_self
    rw [takeOverdue_of_some now timeout (h.minKey? hsorted) hseq, Schedule.takeOverdue]
    refine .bind (.refl (later x.sentAt timeout)) fun deadline _ _ hsame => ?_
    subst hsame
    by_cases hlate : now < deadline
    · rw [if_pos hlate, if_pos hlate]
      exact .ok ⟨rfl, h⟩
    · rw [if_neg hlate, if_neg hlate]
      refine .bind (ih (h.tail hsorted) (List.pairwise_cons.1 hsorted).2) fun _ _ _ hrest => ?_
      exact .ok ⟨congrArg (x.seq :: ·) hrest.1, hrest.2⟩

end Agenda

/-! ## The register -/

/-- A data frame on a register, sent or not. -/
structure Item where
  seq : UInt32
  /-- The encoded frame. -/
  datagram : Bytes
  firstSentAt : Option Nat := none
  lastSentAt : Option Nat := none
  /-- Counted modulo `2 ^ 32`. -/
  transmissions : UInt32 := 0
  /-- The place of the latest transmission among all transmissions. -/
  order : Nat := 0
  deriving DecidableEq, Repr

/-- Data frames on their way to the peer. -/
structure Register where
  /-- The number of frames that may be in flight. -/
  window : Nat
  unsent : List Item := []
  inFlight : HashMap UInt32 Item := {}
  schedule : Agenda := {}
  /-- The place that the next transmission gets. -/
  nextOrder : Nat := 0
  /-- The numbers that insertions into the schedule displaced. -/
  displaced : List UInt32 := []

namespace Register

def enqueue (r : Register) (seq : UInt32) (datagram : Bytes) : Register :=
  { r with unsent := r.unsent ++ [{ seq, datagram }] }

/-- Enters a transmission of the frame that is in flight under a number from then on. -/
def transmit (r : Register) (now : Nat) (seq : UInt32) (f : Item) : Register :=
  { r with
    inFlight := r.inFlight.insert seq { f with lastSentAt := some now, order := r.nextOrder }
    schedule := r.schedule.insert (now, r.nextOrder) seq
    nextOrder := r.nextOrder + 1
    displaced := r.displaced ++ r.schedule[(now, r.nextOrder)]?.toList }

/-- Sends a frame again; a number that is not in flight only uses up an order. -/
def resend (r : Register) (now : Nat) (seq : UInt32) : List Bytes × Register :=
  match r.inFlight[seq]? with
  | none => ([], { r with nextOrder := r.nextOrder + 1 })
  | some f => ([f.datagram], r.transmit now seq { f with transmissions := f.transmissions + 1 })

def resendAll (now : Nat) : List UInt32 → Register → List Bytes × Register
  | [], r => ([], r)
  | seq :: rest, r =>
    let (out, r') := r.resend now seq
    let (outs, r'') := resendAll now rest r'
    (out ++ outs, r'')

/-- Sends unsent frames while fewer are in flight than may be. -/
def fill (now : Nat) : List Item → Register → List Bytes × Register
  | [], r => ([], { r with unsent := [] })
  | f :: rest, r =>
    if r.inFlight.size < r.window then
      let (outs, r') := fill now rest
        (r.transmit now f.seq { f with firstSentAt := some now, transmissions := 1 })
      (f.datagram :: outs, r')
    else ([], { r with unsent := f :: rest })

def emit (r : Register) (now : Nat) (late : List UInt32) : Emission × Register :=
  let (again, r₁) := resendAll now late r
  let (fresh, r₂) := fill now r₁.unsent r₁
  ({ datagrams := again ++ fresh, admitted := fresh.length, retransmitted := again.length }, r₂)

def tick (r : Register) (now timeout : Nat) : Except TimeError (Emission × Register) := do
  let (late, left) ← r.schedule.takeOverdue now timeout
  return { r with schedule := left }.emit now late

/-- Takes an acknowledged frame off. A frame without instants would be taken out of flight, and its
transmission left on the schedule. -/
def acknowledge (r : Register) (seq : UInt32) (now : Nat) : Option Nat × Register :=
  match r.inFlight[seq]? with
  | none => (none, r)
  | some f =>
    let r' := { r with inFlight := r.inFlight.erase seq }
    match f.firstSentAt, f.lastSentAt with
    | some first, some last =>
      (some (elapsed now first), { r' with schedule := r.schedule.erase (last, f.order) })
    | _, _ => (none, r')

def clear (r : Register) : Register := { r with unsent := [], inFlight := {}, schedule := {} }

def call (r : Register) : SendQueue.Call → Except TimeError Register
  | .enqueue seq datagram => .ok (r.enqueue seq datagram)
  | .tick now timeout => do
    let (_, r') ← r.tick now timeout
    return r'
  | .acknowledge seq now => .ok (r.acknowledge seq now).2
  | .clear => .ok r.clear

def callAll (r : Register) (calls : List SendQueue.Call) : Except TimeError Register :=
  calls.foldlM call r

end Register

/-! ## What a register has in common with a queue -/

/-- The frame on a register. -/
def Waiting.item (w : Waiting) : Item := { seq := w.seq, datagram := w.datagram }

/-- The frame on a register, with both its instants. -/
def Sent.item (f : Sent) : Item where
  seq := f.seq
  datagram := f.datagram
  firstSentAt := some f.firstSentAt
  lastSentAt := some f.lastSentAt
  transmissions := f.transmissions
  order := f.order

namespace Register

/-- The register holds what the queue holds, and its schedule has lost nothing to an insertion. -/
structure Mirrors (r : Register) (q : SendQueue) : Prop where
  window : r.window = q.window
  unsent : r.unsent = q.waiting.map Waiting.item
  inFlight : ∀ seq, r.inFlight[seq]? = (q.find? seq).map Sent.item
  size : r.inFlight.size = q.inFlight.length
  schedule : r.schedule.Lists q.schedule
  nextOrder : r.nextOrder = q.nextOrder
  displaced : r.displaced = []

variable {r : Register} {q : SendQueue} {late : List UInt32}

theorem Mirrors.mem_iff (h : r.Mirrors q) {seq : UInt32} :
    seq ∈ r.inFlight ↔ q.isInFlight seq = true := by
  rw [HashMap.mem_iff_isSome_getElem?, h.inFlight, Option.isSome_map, SendQueue.isInFlight]

theorem Mirrors.withSchedule (h : r.Mirrors q) {a : Agenda} {s : Schedule} (ha : a.Lists s) :
    Mirrors { r with schedule := a } { q with schedule := s } :=
  ⟨h.window, h.unsent, h.inFlight, h.size, ha, h.nextOrder, h.displaced⟩

theorem Mirrors.withWaiting (h : r.Mirrors q) (frames : List Waiting) :
    Mirrors { r with unsent := frames.map Waiting.item } { q with waiting := frames } :=
  ⟨h.window, rfl, h.inFlight, h.size, h.schedule, h.nextOrder, h.displaced⟩

/-- A transmission of a frame that the queue has in flight as well from then on. The next order is
new to the schedule, so the transmission displaces nothing there. -/
theorem Mirrors.transmit (h : r.Mirrors q) (hq : q.Tracked late) {now : Nat} {seq : UInt32}
    {f : Item} {fs : List Sent}
    (hfind : ∀ other, (fs.find? fun g => g.seq == other).map Sent.item =
      if seq = other then some { f with lastSentAt := some now, order := q.nextOrder }
      else (q.find? other).map Sent.item)
    (hlength : fs.length =
      if q.isInFlight seq then q.inFlight.length else q.inFlight.length + 1) :
    (r.transmit now seq f).Mirrors { q with
      inFlight := fs
      schedule := q.schedule.insert ⟨now, q.nextOrder, seq⟩
      nextOrder := q.nextOrder + 1 } := by
  have hnew : ∀ x ∈ q.schedule, x.order ≠ q.nextOrder := fun x hx => Nat.ne_of_lt (hq.fresh x hx)
  have hvacant := h.schedule.vacant hnew now
  refine ⟨h.window, h.unsent, fun other => ?_, ?_, ?_, congrArg Nat.succ h.nextOrder, ?_⟩
  · refine Eq.trans ?_ (hfind other).symm
    rw [Register.transmit, HashMap.getElem?_insert, h.inFlight, h.nextOrder]
    simp only [beq_iff_eq]
  · refine Eq.trans ?_ hlength.symm
    rw [Register.transmit, HashMap.size_insert, h.size]
    exact if_congr h.mem_iff rfl rfl
  · rw [Register.transmit, h.nextOrder]
    exact h.schedule.insert hnew now seq
  · rw [Register.transmit, h.nextOrder, hvacant, h.displaced]
    rfl

theorem Mirrors.resend (h : r.Mirrors q) (hq : q.Tracked late) (now : Nat) (seq : UInt32) :
    (r.resend now seq).1 = (q.resend now seq).1 ∧
      (r.resend now seq).2.Mirrors (q.resend now seq).2 := by
  have hmap := h.inFlight seq
  rw [Register.resend]
  cases hfind : q.find? seq with
  | none =>
    rw [hfind] at hmap
    rw [hmap, SendQueue.resend_of_missing hfind]
    exact ⟨rfl, h.window, h.unsent, h.inFlight, h.size, h.schedule, congrArg Nat.succ h.nextOrder,
      h.displaced⟩
  | some f =>
    obtain ⟨hf, hseq⟩ := SendQueue.find?_mem hfind
    have hagain := SendQueue.find?_resend q now seq
    rw [hfind] at hmap
    rw [SendQueue.resend_of_find hfind] at hagain ⊢
    rw [hmap]
    refine ⟨rfl, h.transmit hq (fun other => ?_) ?_⟩
    · refine (congrArg (Option.map Sent.item) (hagain other)).trans ?_
      by_cases hother : seq = other
      · subst hother
        rw [if_pos rfl, hfind, Option.map_some, Option.map_some, SendQueue.repeated_of_eq hseq]
        rfl
      · rw [if_neg hother, Option.map_map]
        cases hfind' : q.find? other with
        | none => rfl
        | some g =>
          have hne : g.seq ≠ seq := (SendQueue.find?_mem hfind').2 ▸ Ne.symm hother
          rw [Option.map_some, Function.comp_apply, SendQueue.repeated_of_ne hne]
          rfl
    · rw [if_pos (SendQueue.isInFlight_iff.2 ⟨f, hf, hseq⟩), List.length_map]

theorem Mirrors.resendAll (h : r.Mirrors q) (hq : q.Tracked late) (now : Nat) :
    (Register.resendAll now late r).1 = (SendQueue.resendAll now late q).1 ∧
      (Register.resendAll now late r).2.Mirrors (SendQueue.resendAll now late q).2 := by
  induction late generalizing r q with
  | nil => exact ⟨rfl, h⟩
  | cons seq rest ih =>
    obtain ⟨hout, hnext⟩ := h.resend hq now seq
    obtain ⟨houts, hlast⟩ := ih hnext (hq.resend now)
    exact ⟨congrArg₂ (· ++ ·) hout houts, hlast⟩

theorem Mirrors.sendFirst (h : r.Mirrors q) (hq : q.Tracked []) (now : Nat) (w : Waiting) :
    (r.transmit now w.seq { w.item with firstSentAt := some now, transmissions := 1 }).Mirrors
      (q.sendFirst now w) := by
  refine h.transmit hq (fun other => ?_) ?_
  · refine (congrArg (Option.map Sent.item) (q.find?_sendFirst now w other)).trans ?_
    split <;> rfl
  · rw [List.length_append, List.length_singleton]
    split
    · rename_i hflight
      obtain ⟨f, hf, hseq⟩ := SendQueue.isInFlight_iff.1 hflight
      exact SendQueue.length_others hq.distinct hf hseq
    · rename_i hflight
      have hnone : ∀ f ∈ q.inFlight, f.seq ≠ w.seq := fun f hf hseq =>
        hflight (SendQueue.isInFlight_iff.2 ⟨f, hf, hseq⟩)
      rw [SendQueue.others_eq_self hnone]

theorem Mirrors.fill (h : r.Mirrors q) (hq : q.Tracked []) (now : Nat) (frames : List Waiting) :
    (Register.fill now (frames.map Waiting.item) r).1 = (SendQueue.fill now frames q).1 ∧
      (Register.fill now (frames.map Waiting.item) r).2.Mirrors
        (SendQueue.fill now frames q).2 := by
  induction frames generalizing r q with
  | nil => exact ⟨rfl, h.withWaiting []⟩
  | cons w rest ih =>
    have hsize : r.inFlight.size < r.window ↔ q.inFlight.length < q.window := by
      rw [h.size, h.window]
    rw [List.map_cons, Register.fill]
    by_cases hroom : q.inFlight.length < q.window
    · obtain ⟨houts, hlast⟩ := ih (h.sendFirst hq now w) (hq.sendFirst now w)
      rw [if_pos (hsize.2 hroom), SendQueue.fill_of_room hroom]
      exact ⟨congrArg (w.datagram :: ·) houts, hlast⟩
    · rw [if_neg (mt hsize.1 hroom), SendQueue.fill_of_full hroom]
      exact ⟨rfl, h.withWaiting (w :: rest)⟩

theorem Mirrors.emit (h : r.Mirrors q) (hq : q.Tracked late) (now : Nat) :
    (r.emit now late).1 = (q.emit now late).1 ∧
      (r.emit now late).2.Mirrors (q.emit now late).2 := by
  let emission (again fresh : List Bytes) : Emission :=
    { datagrams := again ++ fresh, admitted := fresh.length, retransmitted := again.length }
  obtain ⟨hagain, h₁⟩ := h.resendAll hq now
  obtain ⟨hfresh, h₂⟩ := h₁.fill (hq.resendAll now) now _
  rw [← h₁.unsent] at hfresh h₂
  exact ⟨congrArg₂ emission hagain hfresh, h₂⟩

/-- A tick puts the same on the wire, or fails on both sides. -/
theorem Mirrors.tick (h : r.Mirrors q) (hq : q.Tracked []) (now timeout : Nat) :
    Alike (fun result result' => result.1 = result'.1 ∧ result.2.Mirrors result'.2)
      (r.tick now timeout) (q.tick now timeout) := by
  have hagenda := h.schedule.takeOverdue hq.sorted now timeout
  refine .bind hagenda fun ⟨late, left⟩ taken' htake hsame => ?_
  obtain rfl : (q.schedule.overdue now timeout, q.schedule.pending now timeout) = taken' := by
    rw [Schedule.takeOverdue_eq] at htake
    split at htake
    · exact Except.ok.inj htake
    · cases htake
  obtain ⟨hlate, hleft⟩ := hsame
  obtain rfl : late = (q.schedule.overdue now timeout).map Entry.seq := hlate
  exact .ok ((h.withSchedule hleft).emit (hq.takeOverdue now timeout) now)

/-- An acknowledgement yields the same. -/
theorem Mirrors.acknowledge (h : r.Mirrors q) (hq : q.Tracked []) (seq : UInt32) (now : Nat) :
    (r.acknowledge seq now).1 = (q.acknowledge? seq now).map Prod.fst ∧
      (r.acknowledge seq now).2.Mirrors (((q.acknowledge? seq now).map Prod.snd).getD q) := by
  have hmap := h.inFlight seq
  rw [Register.acknowledge, SendQueue.acknowledge?]
  cases hfind : q.find? seq with
  | none =>
    rw [hfind] at hmap
    rw [hmap]
    exact ⟨rfl, h⟩
  | some f =>
    rw [hfind] at hmap
    rw [hmap]
    refine ⟨rfl, h.window, h.unsent, fun other => ?_, ?_, h.schedule.erase _ _, h.nextOrder,
      h.displaced⟩
    · refine HashMap.getElem?_erase.trans ?_
      refine Eq.trans ?_ (congrArg (Option.map Sent.item) SendQueue.find?_others).symm
      simp only [beq_iff_eq, h.inFlight]
      split <;> rfl
    · obtain ⟨hf, hseq⟩ := SendQueue.find?_mem hfind
      have hflight : seq ∈ r.inFlight := h.mem_iff.2 (SendQueue.isInFlight_iff.2 ⟨f, hf, hseq⟩)
      have hothers := SendQueue.length_others hq.distinct hf hseq
      refine HashMap.size_erase.trans ?_
      rw [if_pos hflight, h.size, ← hothers]
      rfl

theorem Mirrors.call (h : r.Mirrors q) (hq : q.Tracked []) (c : SendQueue.Call) :
    Alike Mirrors (r.call c) (q.call c) := by
  cases c with
  | enqueue seq datagram =>
    refine .ok ⟨h.window, ?_, h.inFlight, h.size, h.schedule, h.nextOrder, h.displaced⟩
    have happend : List.map Waiting.item (q.waiting ++ [⟨seq, datagram⟩]) =
        q.waiting.map Waiting.item ++ [{ seq := seq, datagram := datagram }] := List.map_append
    exact (congrArg (· ++ [_]) h.unsent).trans happend.symm
  | tick now timeout => exact (h.tick hq now timeout).bind fun _ _ _ hsame => .ok hsame.2
  | acknowledge seq now => exact .ok (h.acknowledge hq seq now).2
  | clear =>
    exact .ok ⟨h.window, rfl, fun seq => HashMap.getElem?_empty, HashMap.size_empty,
      Agenda.lists_empty, h.nextOrder, h.displaced⟩

theorem Mirrors.new (window : Nat) : Mirrors { window } { window } :=
  ⟨rfl, rfl, fun _ => HashMap.getElem?_empty, HashMap.size_empty, Agenda.lists_empty, rfl, rfl⟩

theorem Mirrors.callAll (h : r.Mirrors q) (hq : q.Tracked []) (calls : List SendQueue.Call) :
    Alike Mirrors (r.callAll calls) (q.callAll calls) := by
  induction calls generalizing r q with
  | nil => exact .ok h
  | cons c rest ih =>
    rw [Register.callAll, List.foldlM_cons, SendQueue.callAll_cons]
    exact .bind (h.call hq c) fun r' q' hcall hnext =>
      ih hnext (SendQueue.eq_after hcall ▸ hq.after c)

end Register

end DatagramTunnel.Flight
