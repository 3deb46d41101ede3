import DatagramTunnel.Proofs.Packet.Ordering

/-!
# A window and its past

A window forgets what it has released, and judges a number that is not held by its distance from the
cursor alone: less than half the circle ahead the frame is new, otherwise it is taken for one that
was released before.  `Recorded w start admitted released` ties a window to what it has done since
it began at `start`, whatever arrived: no stream is assumed, and frames may come under any numbers.

`Recorded.duplicate_iff` says when the window is right in calling a number a duplicate.  It errs on
the numbers that are at least half the circle ahead of the cursor and have not come round to it
since the beginning.  `Minds.duplicate` says that it does not err on a frame that it took in, as
long as it has released less than half the circle since.
-/

namespace DatagramTunnel.Packet.ReorderWindow

open Wire

variable {w w' : ReorderWindow} {start seq : UInt32} {admitted released : List Fragment}
  {f : Fragment}

/-- The window has taken in the frames `admitted` so far, and released the frames `released`. -/
structure Recorded (w : ReorderWindow) (start : UInt32) (admitted released : List Fragment) :
    Prop where
  cursor_eq : w.cursor = start + UInt32.ofNat released.length
  consecutive : ConsecutiveFrom start released
  released_admitted : ∀ f ∈ released, f ∈ admitted
  held_admitted : ∀ f ∈ w.held, f ∈ admitted
  /-- A frame that was taken in was less than half the circle ahead of the cursor. -/
  near : ∀ f ∈ admitted, ∃ index < released.length + 2 ^ 31, f.seq = start + UInt32.ofNat index

/-! ## Numbers and places -/

theorem eq_add_ofNat_sub (start seq : UInt32) : seq = start + UInt32.ofNat (seq - start).toNat := by
  rw [UInt32.ofNat_toNat, UInt32.add_comm, UInt32.sub_add_cancel]

theorem toNat_sub_le {index : Nat} (h : seq = start + UInt32.ofNat index) :
    (seq - start).toNat ≤ index := by
  have hplace : seq - start = UInt32.ofNat index := by
    rw [h, UInt32.add_comm, UInt32.add_sub_cancel]
  rw [hplace, UInt32.toNat_ofNat']
  exact Nat.mod_le index _

/-- What the window takes in is less than half the circle ahead. -/
theorem ahead_lt_of_accepted (h : w.classify seq = .accepted) : w.ahead seq < 2 ^ 31 := by
  by_contra hbehind
  rw [classify, if_pos (by omega)] at h
  cases h

/-- What is taken in is within reach, and nothing is held under its number. -/
theorem free_of_accepted {seq : UInt32} (h : w.classify seq = .accepted) :
    w.ahead seq < min w.size (2 ^ 31) ∧ w.find? seq = none := by
  have hnear := ahead_lt_of_accepted h
  unfold classify at h
  rw [if_neg (by omega)] at h
  by_cases hfar : w.size ≤ w.ahead seq
  · rw [if_pos hfar] at h
    cases h
  rw [if_neg hfar] at h
  refine ⟨Nat.lt_min.2 ⟨Nat.lt_of_not_le hfar, hnear⟩, ?_⟩
  cases hfind : w.find? seq with
  | none => rfl
  | some f => simp [hfind] at h

/-- What the window calls a duplicate is behind the cursor or held. -/
theorem behind_or_held_of_duplicate (h : w.classify seq = .duplicate) :
    2 ^ 31 ≤ w.ahead seq ∨ ∃ f ∈ w.held, f.seq = seq := by
  have hhalf : 1 <<< 31 = 2 ^ 31 := by decide
  unfold classify at h
  rw [hhalf] at h
  by_cases hbehind : 2 ^ 31 ≤ w.ahead seq
  · exact .inl hbehind
  · right
    rw [if_neg hbehind] at h
    split at h
    · cases h
    · split at h
      · rename_i hheld
        obtain ⟨f, hf⟩ := Option.isSome_iff_exists.1 hheld
        exact ⟨f, find?_mem hf⟩
      · cases h

/-! ## What the window does -/

namespace Recorded

/-- A window that has just begun has no past. -/
theorem new (size : Nat) (start : UInt32) : Recorded { size, cursor := start } start [] [] where
  cursor_eq := (UInt32.add_zero start).symm
  consecutive := .nil start
  released_admitted _ hf := hf
  held_admitted _ hf := hf
  near _ hf := absurd hf List.not_mem_nil

theorem clear (h : w.Recorded start admitted released) : w.clear.Recorded start admitted released :=
  { h with held_admitted := fun _ hf => absurd hf List.not_mem_nil }

/-- A frame that the window takes in has a place less than half the circle ahead. -/
theorem place_of_accepted (h : w.Recorded start admitted released)
    (hacc : w.classify seq = .accepted) :
    ∃ index < released.length + 2 ^ 31, seq = start + UInt32.ofNat index := by
  refine ⟨released.length + w.ahead seq, ?_, ?_⟩
  · have hnear := ahead_lt_of_accepted hacc
    omega
  · have hseq := eq_add_ofNat_sub w.cursor seq
    rw [h.cursor_eq, UInt32.add_assoc, ← UInt32.ofNat_add, ← h.cursor_eq] at hseq
    exact hseq

theorem insert (h : w.Recorded start admitted released) (f : Fragment) :
    (w.insert f).2.Recorded start
      (admitted ++ if w.classify f.seq = .accepted then [f] else []) released := by
  by_cases hacc : w.classify f.seq = .accepted
  · rw [if_pos hacc, insert_accepted hacc]
    refine ⟨h.cursor_eq, h.consecutive, ?_, ?_, ?_⟩
    · exact fun g hg => List.mem_append_left _ (h.released_admitted g hg)
    · intro g hg
      rcases List.mem_cons.1 hg with rfl | hg
      · simp
      · exact List.mem_append_left _ (h.held_admitted g hg)
    · intro g hg
      rcases List.mem_append.1 hg with hg | hg
      · exact h.near g hg
      · rw [List.mem_singleton] at hg
        subst hg
        exact h.place_of_accepted hacc
  · rw [if_neg hacc, insert_refused hacc, List.append_nil]
    exact h

/-- A release moves the cursor on by one. -/
theorem pop (h : w.Recorded start admitted released) (hpop : w.pop? = some (f, w')) :
    w'.Recorded start admitted (released ++ [f]) := by
  obtain ⟨hmem, hseq, rfl⟩ := pop?_eq_some hpop
  have hone : (released ++ [f]).length = released.length + 1 := List.length_append
  refine ⟨?_, ?_, ?_, ?_, ?_⟩
  · show w.cursor + 1 = _
    rw [hone, h.cursor_eq, UInt32.ofNat_add, UInt32.add_assoc]
    simp
  · refine h.consecutive.append fun index hindex => ?_
    have hzero : index = 0 := by simpa using hindex
    subst hzero
    simpa [h.cursor_eq] using hseq
  · intro g hg
    rcases List.mem_append.1 hg with hg | hg
    · exact h.released_admitted g hg
    · rw [List.mem_singleton] at hg
      exact hg ▸ h.held_admitted f hmem
  · exact fun g hg => h.held_admitted g (List.mem_filter.1 hg).1
  · intro g hg
    obtain ⟨index, hindex, hplace⟩ := h.near g hg
    exact ⟨index, by omega, hplace⟩

/-! ## What the window says -/

/-- A number that was taken in is less than half the circle ahead of the last release. -/
theorem toNat_sub_lt (h : w.Recorded start admitted released) (hf : f ∈ admitted) :
    (f.seq - start).toNat < released.length + 2 ^ 31 := by
  obtain ⟨index, hindex, hplace⟩ := h.near f hf
  exact Nat.lt_of_le_of_lt (toNat_sub_le hplace) hindex

/-- A number behind the cursor has been released, unless it is still ahead as seen from the start.
-/
theorem released_of_behind (h : w.Recorded start admitted released) (hbehind : 2 ^ 31 ≤ w.ahead seq)
    (hnear : (seq - start).toNat < released.length + 2 ^ 31) : ∃ f ∈ released, f.seq = seq := by
  have hseq := eq_add_ofNat_sub start seq
  have hbound : (seq - start).toNat < 2 ^ 32 := (seq - start).toNat_lt
  have hlt : (seq - start).toNat < released.length := by
    by_contra hle
    have hahead := ahead_of_le h.cursor_eq hseq (Nat.le_of_not_lt hle) (by omega)
    omega
  refine ⟨released[(seq - start).toNat], List.getElem_mem hlt, ?_⟩
  rw [h.consecutive _ hlt]
  exact hseq.symm

/-- A number that is called a duplicate has been released or is held, if it is less than half the
circle ahead of the last release, and only then. -/
theorem duplicate_iff (h : w.Recorded start admitted released)
    (hdup : w.classify seq = .duplicate) :
    (∃ f ∈ released ++ w.held, f.seq = seq) ↔ (seq - start).toNat < released.length + 2 ^ 31 := by
  constructor
  · rintro ⟨f, hf, rfl⟩
    rcases List.mem_append.1 hf with hf | hf
    · exact h.toNat_sub_lt (h.released_admitted f hf)
    · exact h.toNat_sub_lt (h.held_admitted f hf)
  · intro hnear
    rcases behind_or_held_of_duplicate hdup with hbehind | ⟨f, hf, hseq⟩
    · obtain ⟨f, hf, hseq⟩ := h.released_of_behind hbehind hnear
      exact ⟨f, List.mem_append_left _ hf, hseq⟩
    · exact ⟨f, List.mem_append_right _ hf, hseq⟩

/-- So a number that is acknowledged has been taken in, now or earlier, under the same condition. -/
theorem acknowledged_iff (h : w.Recorded start admitted released)
    (hack : (w.classify f.seq).acknowledged = true) :
    (∃ g ∈ admitted ++ if w.classify f.seq = .accepted then [f] else [], g.seq = f.seq) ↔
      (f.seq - start).toNat < released.length + 2 ^ 31 := by
  constructor
  · rintro ⟨g, hg, hseq⟩
    rw [← hseq]
    exact (h.insert f).toNat_sub_lt hg
  · intro hnear
    cases hclass : w.classify f.seq with
    | accepted => exact ⟨f, by simp, rfl⟩
    | duplicate =>
      obtain ⟨g, hg, hseq⟩ := (h.duplicate_iff hclass).2 hnear
      refine ⟨g, List.mem_append_left _ ?_, hseq⟩
      rcases List.mem_append.1 hg with hg | hg
      · exact h.released_admitted g hg
      · exact h.held_admitted g hg
    | outOfWindow =>
      rw [hclass] at hack
      cases hack

end Recorded

/-! ## A frame that was taken in -/

/-- The window took in a frame `place` numbers ahead of the cursor, which stood at `start` then, and
has released `count` frames since. -/
structure Minds (w : ReorderWindow) (start : UInt32) (place count : Nat) : Prop where
  cursor_eq : w.cursor = start + UInt32.ofNat count
  near : place < min w.size (2 ^ 31)
  /-- Until its turn comes a frame of its number is held. -/
  held : count ≤ place → ∃ f ∈ w.held, f.seq = start + UInt32.ofNat place

namespace Minds

variable {place count : Nat}

theorem of_accepted (h : w.classify f.seq = .accepted) :
    (w.insert f).2.Minds w.cursor (w.ahead f.seq) 0 := by
  refine ⟨?_, ?_, fun _ => ?_⟩
  · rw [insert_snd_cursor]
    exact (UInt32.add_zero w.cursor).symm
  · rw [insert_snd_size]
    exact (free_of_accepted h).1
  · rw [insert_accepted h]
    exact ⟨f, List.mem_cons_self, eq_add_ofNat_sub w.cursor f.seq⟩

theorem insert (h : w.Minds start place count) (f : Fragment) :
    (w.insert f).2.Minds start place count := by
  by_cases hacc : w.classify f.seq = .accepted
  · rw [insert_accepted hacc]
    refine ⟨h.cursor_eq, h.near, fun hle => ?_⟩
    obtain ⟨g, hg, hseq⟩ := h.held hle
    exact ⟨g, List.mem_cons_of_mem f hg, hseq⟩
  · rw [insert_refused hacc]
    exact h

theorem pop (h : w.Minds start place count) (hpop : w.pop? = some (f, w')) :
    w'.Minds start place (count + 1) := by
  obtain ⟨-, -, rfl⟩ := pop?_eq_some hpop
  refine ⟨?_, h.near, fun hle => ?_⟩
  · show w.cursor + 1 = _
    rw [h.cursor_eq, UInt32.ofNat_add, UInt32.add_assoc]
    rfl
  · obtain ⟨g, hg, hseq⟩ := h.held (by omega)
    have hnear := h.near
    have hne : g.seq ≠ w.cursor := by
      intro heq
      rw [hseq, h.cursor_eq, UInt32.add_right_inj] at heq
      have hnat := congrArg UInt32.toNat heq
      rw [UInt32.toNat_ofNat', UInt32.toNat_ofNat', Nat.mod_eq_of_lt (by omega),
        Nat.mod_eq_of_lt (by omega)] at hnat
      omega
    exact ⟨g, List.mem_filter.2 ⟨hg, by simp [hne]⟩, hseq⟩

/-- While fewer than half of all numbers have been released, the frame is known again. -/
theorem duplicate (h : w.Minds start place count) (hmoved : count < 2 ^ 31) :
    w.classify (start + UInt32.ofNat place) = .duplicate := by
  have hnear := h.near
  by_cases hgone : place < count
  · exact classify_behind h.cursor_eq rfl hgone (by omega)
  · obtain ⟨g, hg, hseq⟩ := h.held (by omega)
    have hfound : (w.find? (start + UInt32.ofNat place)).isSome = true := by
      rw [Option.isSome_iff_ne_none]
      exact fun hnone => find?_eq_none_iff.1 hnone g hg hseq
    rw [classify_ahead h.cursor_eq rfl (by omega) (by omega), if_neg (by omega), if_pos hfound]

end Minds

end DatagramTunnel.Packet.ReorderWindow
