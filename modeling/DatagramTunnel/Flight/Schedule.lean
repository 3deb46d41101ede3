import DatagramTunnel.Bytes
import DatagramTunnel.Time

/-!
# The retransmission schedule

Every transmission enters the schedule at its instant, and those of one instant in the order in
which they were made. The schedule is a list of entries that ascends by this key, which is
`Sorted`; `insert` and `erase` keep it so.

`takeOverdue` looks at one entry after the other until it finds one that is not overdue, and fails
when the deadline of an entry that it looks at is no instant. `takeOverdue_eq` says what it takes:
the entries are parted into `overdue` and `pending` if the schedule is `InReach`.
-/

namespace DatagramTunnel.Flight

/-- One transmission of the frame numbered `seq`. -/
structure Entry where
  sentAt : Nat
  /-- Tells apart the transmissions of one instant. -/
  order : Nat
  seq : UInt32
  deriving DecidableEq, Repr

namespace Entry

/-- Whether this transmission comes before that one. -/
def before (a b : Entry) : Bool :=
  a.sentAt < b.sentAt || (a.sentAt == b.sentAt && a.order < b.order)

/-- Whether the entry is the one made at this instant and in this order. -/
def hasKey (e : Entry) (sentAt order : Nat) : Bool := e.sentAt == sentAt && e.order == order

end Entry

/-- Transmissions, earliest first. -/
abbrev Schedule := List Entry

namespace Schedule

/-- Ascending by instant, then by order. -/
def Sorted (s : Schedule) : Prop := s.Pairwise fun a b => a.before b

/-- Adds a transmission at its place; one with the same key gives way to it. -/
def insert (e : Entry) : Schedule → Schedule
  | [] => [e]
  | x :: rest =>
    if e.before x then e :: x :: rest
    else if x.hasKey e.sentAt e.order then e :: rest
    else x :: insert e rest

/-- Removes the transmission with this key. -/
def erase (s : Schedule) (sentAt order : Nat) : Schedule :=
  s.filter fun e => !e.hasKey sentAt order

/-- Takes off the transmissions that are at least `timeout` old, from the earliest on: these, and
what is left. -/
def takeOverdue (now timeout : Nat) : Schedule → Except TimeError (Schedule × Schedule)
  | [] => .ok ([], [])
  | e :: rest => do
    let deadline ← later e.sentAt timeout
    if now < deadline then return ([], e :: rest)
    else
      let (due, left) ← takeOverdue now timeout rest
      return (e :: due, left)

/-- The transmissions from the earliest on that are at least `timeout` old. -/
def overdue (s : Schedule) (now timeout : Nat) : Schedule :=
  s.takeWhile fun e => e.sentAt + timeout ≤ now

/-- What `overdue` leaves. -/
def pending (s : Schedule) (now timeout : Nat) : Schedule :=
  s.dropWhile fun e => e.sentAt + timeout ≤ now

/-- The deadlines of what is overdue and of the first entry that is not are instants. -/
def InReach (s : Schedule) (now timeout : Nat) : Prop :=
  ∀ e ∈ s.overdue now timeout ++ (s.pending now timeout).take 1,
    e.sentAt + timeout ≤ lastInstant

instance (s : Schedule) (now timeout : Nat) : Decidable (s.InReach now timeout) :=
  inferInstanceAs (Decidable (∀ e ∈ _, _))

theorem inReach_cons_of_due {e : Entry} {now timeout : Nat} (h : e.sentAt + timeout ≤ now)
    (rest : Schedule) :
    InReach (e :: rest) now timeout ↔
      e.sentAt + timeout ≤ lastInstant ∧ InReach rest now timeout := by
  simp [InReach, overdue, pending, h]

theorem inReach_cons_of_pending {e : Entry} {now timeout : Nat} (h : now < e.sentAt + timeout)
    (rest : Schedule) :
    InReach (e :: rest) now timeout ↔ e.sentAt + timeout ≤ lastInstant := by
  simp [InReach, overdue, pending, Nat.not_le.2 h]

/-- A schedule is in reach if all its deadlines are instants. -/
theorem inReach_of_forall {s : Schedule} {timeout : Nat}
    (h : ∀ e ∈ s, e.sentAt + timeout ≤ lastInstant) (now : Nat) : s.InReach now timeout := by
  intro e he
  rcases List.mem_append.1 he with he | he
  · exact h e ((List.takeWhile_sublist _).subset he)
  · exact h e ((List.dropWhile_sublist _).subset (List.mem_of_mem_take he))

/-- The entries that are overdue are parted from the others, unless a deadline is no instant. -/
theorem takeOverdue_eq (s : Schedule) (now timeout : Nat) :
    s.takeOverdue now timeout =
      if s.InReach now timeout then .ok (s.overdue now timeout, s.pending now timeout)
      else .error .outOfReach := by
  induction s with
  | nil => rfl
  | cons e rest ih =>
    by_cases hreach : e.sentAt + timeout ≤ lastInstant
    · rw [takeOverdue, later_of_le hreach]
      by_cases hdue : e.sentAt + timeout ≤ now
      · have hrest := inReach_cons_of_due hdue rest
        by_cases h : InReach rest now timeout <;>
          simp [bind, Except.bind, pure, Except.pure, Nat.not_lt.2 hdue, ih, hrest, hreach, h,
            overdue, pending, hdue]
      · have hlate : now < e.sentAt + timeout := Nat.lt_of_not_le hdue
        rw [if_pos ((inReach_cons_of_pending hlate rest).2 hreach)]
        simp [bind, Except.bind, hlate, overdue, pending, hdue, pure, Except.pure]
    · have hout : ¬ InReach (e :: rest) now timeout := by
        by_cases hdue : e.sentAt + timeout ≤ now
        · exact fun h => hreach ((inReach_cons_of_due hdue rest).1 h).1
        · exact fun h => hreach ((inReach_cons_of_pending (Nat.lt_of_not_le hdue) rest).1 h)
      rw [takeOverdue, later_of_lt (Nat.lt_of_not_le hreach), if_neg hout]
      rfl

theorem overdue_append_pending (s : Schedule) (now timeout : Nat) :
    s.overdue now timeout ++ s.pending now timeout = s :=
  List.takeWhile_append_dropWhile

theorem mem_insert {e x : Entry} {s : Schedule} (h : x ∈ insert e s) : x = e ∨ x ∈ s := by
  induction s with
  | nil => simpa [insert] using h
  | cons y rest ih =>
    unfold insert at h
    split at h
    · simpa using h
    · split at h
      · rcases List.mem_cons.1 h with rfl | h
        · exact .inl rfl
        · exact .inr (List.mem_cons_of_mem _ h)
      · rcases List.mem_cons.1 h with rfl | h
        · exact .inr List.mem_cons_self
        · rcases ih h with rfl | h
          · exact .inl rfl
          · exact .inr (List.mem_cons_of_mem _ h)

theorem Sorted.insert {s : Schedule} (h : s.Sorted) (e : Entry) : (Schedule.insert e s).Sorted := by
  induction s with
  | nil => simp [Schedule.insert, Sorted]
  | cons y rest ih =>
    obtain ⟨hy, hrest⟩ := List.pairwise_cons.1 h
    unfold Schedule.insert
    split
    · rename_i hlt
      refine List.pairwise_cons.2 ⟨fun x hx => ?_, h⟩
      rcases List.mem_cons.1 hx with rfl | hx
      · exact hlt
      · have := hy x hx
        simp only [Entry.before, Bool.or_eq_true, Bool.and_eq_true, decide_eq_true_eq,
          beq_iff_eq] at hlt this ⊢
        omega
    · split
      · rename_i hkey
        refine List.pairwise_cons.2 ⟨fun x hx => ?_, hrest⟩
        have := hy x hx
        simp only [Entry.hasKey, Entry.before, Bool.or_eq_true, Bool.and_eq_true,
          decide_eq_true_eq, beq_iff_eq] at hkey this ⊢
        omega
      · rename_i hge hkey
        refine List.pairwise_cons.2 ⟨fun x hx => ?_, ih hrest⟩
        rcases mem_insert hx with rfl | hx
        · simp only [Entry.hasKey, Entry.before, Bool.or_eq_true, Bool.and_eq_true,
            decide_eq_true_eq, beq_iff_eq] at hge hkey ⊢
          omega
        · exact hy x hx

theorem Sorted.erase {s : Schedule} (h : s.Sorted) (sentAt order : Nat) :
    (s.erase sentAt order).Sorted :=
  List.Pairwise.filter _ h

end Schedule

end DatagramTunnel.Flight
