import DatagramTunnel.Flight.Schedule

/-!
# What the schedule holds

The schedule is kept sorted, so the overdue transmissions, which are read off its front, are all
that are overdue: `mem_overdue_iff`.  An entry whose place in the order of transmissions is new
displaces no other, `mem_insert_iff`, and no entry occurs twice, `Sorted.nodup`.
-/

namespace DatagramTunnel.Flight

theorem Entry.not_before_self (e : Entry) : e.before e = false := by
  simp [Entry.before]

theorem Entry.sentAt_le_of_before {a b : Entry} (h : a.before b = true) : a.sentAt ≤ b.sentAt := by
  simp only [Entry.before, Bool.or_eq_true, Bool.and_eq_true, decide_eq_true_eq, beq_iff_eq] at h
  omega

namespace Schedule

/-- An entry that is made in an order of its own joins those that are there. -/
theorem mem_insert_iff {e x : Entry} {s : Schedule} (hnew : ∀ y ∈ s, y.order ≠ e.order) :
    x ∈ Schedule.insert e s ↔ x = e ∨ x ∈ s := by
  induction s with
  | nil => simp [Schedule.insert]
  | cons y rest ih =>
    have hkey : y.hasKey e.sentAt e.order = false := by
      have := hnew y List.mem_cons_self
      simp [Entry.hasKey, this]
    unfold Schedule.insert
    split
    · exact List.mem_cons
    · rw [if_neg (by simp [hkey]), List.mem_cons,
        ih fun z hz => hnew z (List.mem_cons_of_mem y hz), List.mem_cons]
      exact or_left_comm

theorem mem_erase_iff {x : Entry} {s : Schedule} {sentAt order : Nat} :
    x ∈ s.erase sentAt order ↔ x ∈ s ∧ ¬ (x.sentAt = sentAt ∧ x.order = order) := by
  rw [Schedule.erase, List.mem_filter]
  refine and_congr_right fun _ => ?_
  simp only [Entry.hasKey, Bool.not_eq_true', ← Bool.not_eq_true, Bool.and_eq_true, beq_iff_eq]

theorem Sorted.nodup {s : Schedule} (h : s.Sorted) : s.Nodup := by
  refine List.Pairwise.imp (fun {a b} hab => ?_) h
  rintro rfl
  rw [Entry.not_before_self] at hab
  cases hab

theorem Sorted.pending {s : Schedule} (h : s.Sorted) (now timeout : Nat) :
    (s.pending now timeout).Sorted :=
  List.Pairwise.sublist (List.dropWhile_sublist _) h

/-- Everything that is overdue stands before everything that is not. -/
theorem mem_overdue_iff {s : Schedule} (h : s.Sorted) {x : Entry} {now timeout : Nat} :
    x ∈ s.overdue now timeout ↔ x ∈ s ∧ x.sentAt + timeout ≤ now := by
  induction s with
  | nil => simp [Schedule.overdue]
  | cons y rest ih =>
    obtain ⟨hy, hrest⟩ := List.pairwise_cons.1 h
    unfold Schedule.overdue at ih ⊢
    by_cases hdue : y.sentAt + timeout ≤ now
    · rw [List.takeWhile_cons_of_pos (by simpa using hdue), List.mem_cons, ih hrest, List.mem_cons]
      constructor
      · rintro (rfl | ⟨hx, hxdue⟩)
        · exact ⟨.inl rfl, hdue⟩
        · exact ⟨.inr hx, hxdue⟩
      · rintro ⟨rfl | hx, hxdue⟩
        · exact .inl rfl
        · exact .inr ⟨hx, hxdue⟩
    · rw [List.takeWhile_cons_of_neg (by simpa using hdue)]
      constructor
      · intro hx
        exact absurd hx List.not_mem_nil
      · rintro ⟨hx, hxdue⟩
        rcases List.mem_cons.1 hx with rfl | hx
        · exact absurd hxdue hdue
        · have hle := Entry.sentAt_le_of_before (hy x hx)
          omega

theorem mem_pending_iff {s : Schedule} (h : s.Sorted) {x : Entry} {now timeout : Nat} :
    x ∈ s.pending now timeout ↔ x ∈ s ∧ now < x.sentAt + timeout := by
  have hsplit := overdue_append_pending s now timeout
  have hnodup : (s.overdue now timeout ++ s.pending now timeout).Nodup := by
    rw [hsplit]
    exact h.nodup
  have hmem : x ∈ s ↔ x ∈ s.overdue now timeout ∨ x ∈ s.pending now timeout := by
    rw [← List.mem_append, hsplit]
  constructor
  · intro hx
    refine ⟨hmem.2 (.inr hx), Nat.lt_of_not_le fun hdue => ?_⟩
    have hover := (mem_overdue_iff h).2 ⟨hmem.2 (.inr hx), hdue⟩
    exact (List.nodup_append.1 hnodup).2.2 x hover x hx rfl
  · rintro ⟨hx, hlate⟩
    rcases hmem.1 hx with hover | hpend
    · have hdue := ((mem_overdue_iff h).1 hover).2
      omega
    · exact hpend

end Schedule

end DatagramTunnel.Flight
