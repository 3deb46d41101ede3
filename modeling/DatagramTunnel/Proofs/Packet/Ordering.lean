import DatagramTunnel.Packet.ReorderWindow
import DatagramTunnel.Proofs.Packet.Pieces

/-!
# The window in unbounded numbers

The window compares numbers modulo `2 ^ 32`.  Frames that are numbered one after the other have an
index as well, and as long as the frame and the cursor are less than half the circle apart, the
window decides as if it compared the indices: `classify_behind` and `classify_ahead`.

`Ordered w start stream admitted count` ties a window to the stream it reads: the first `count`
frames have been released, everything released or held has been admitted, and nothing is admitted
that is not in the stream.  `Ordered.insert` and `Ordered.pop` say that arrivals and releases keep
it.
-/

namespace DatagramTunnel.Packet

open Wire

namespace ReorderWindow

/-! ## Distances -/

theorem ahead_of_le {w : ReorderWindow} {start seq : UInt32} {count index : Nat}
    (hcursor : w.cursor = start + UInt32.ofNat count) (hseq : seq = start + UInt32.ofNat index)
    (hle : count ≤ index) (hnear : index - count < 2 ^ 32) : w.ahead seq = index - count := by
  have hstart : start.toNat < 2 ^ 32 := start.toNat_lt
  rw [ahead, hcursor, hseq, UInt32.toNat_sub, UInt32.toNat_add, UInt32.toNat_add,
    UInt32.toNat_ofNat', UInt32.toNat_ofNat']
  omega

theorem ahead_of_lt {w : ReorderWindow} {start seq : UInt32} {count index : Nat}
    (hcursor : w.cursor = start + UInt32.ofNat count) (hseq : seq = start + UInt32.ofNat index)
    (hlt : index < count) (hnear : count - index < 2 ^ 32) :
    w.ahead seq = 2 ^ 32 - (count - index) := by
  have hstart : start.toNat < 2 ^ 32 := start.toNat_lt
  rw [ahead, hcursor, hseq, UInt32.toNat_sub, UInt32.toNat_add, UInt32.toNat_add,
    UInt32.toNat_ofNat', UInt32.toNat_ofNat']
  omega

/-- A frame at most half the circle behind the cursor is a duplicate. -/
theorem classify_behind {w : ReorderWindow} {start seq : UInt32} {count index : Nat}
    (hcursor : w.cursor = start + UInt32.ofNat count) (hseq : seq = start + UInt32.ofNat index)
    (hlt : index < count) (hnear : count - index ≤ 2 ^ 31) : w.classify seq = .duplicate := by
  have hahead := ahead_of_lt hcursor hseq hlt (by omega)
  rw [classify, if_pos (by omega)]

/-- A frame less than half the circle ahead of the cursor is judged by its distance and by what is
held. -/
theorem classify_ahead {w : ReorderWindow} {start seq : UInt32} {count index : Nat}
    (hcursor : w.cursor = start + UInt32.ofNat count) (hseq : seq = start + UInt32.ofNat index)
    (hle : count ≤ index) (hnear : index - count < 2 ^ 31) :
    w.classify seq =
      if w.size ≤ index - count then .outOfWindow
      else if (w.find? seq).isSome then .duplicate else .accepted := by
  have hahead := ahead_of_le hcursor hseq hle (by omega)
  rw [classify, if_neg (by omega), hahead]

/-! ## Arrival and release -/

@[simp] theorem insert_fst (w : ReorderWindow) (f : Fragment) :
    (w.insert f).1 = w.classify f.seq := by
  unfold insert
  cases w.classify f.seq <;> rfl

theorem insert_accepted {w : ReorderWindow} {f : Fragment} (h : w.classify f.seq = .accepted) :
    (w.insert f).2 = { w with held := f :: w.held } := by
  simp [insert, h]

/-- A frame that is not taken in leaves the window as it was. -/
theorem insert_refused {w : ReorderWindow} {f : Fragment} (h : w.classify f.seq ≠ .accepted) :
    (w.insert f).2 = w := by
  unfold insert
  cases hc : w.classify f.seq with
  | accepted => exact absurd hc h
  | duplicate => rfl
  | outOfWindow => rfl

@[simp] theorem insert_snd_cursor (w : ReorderWindow) (f : Fragment) :
    (w.insert f).2.cursor = w.cursor := by
  by_cases h : w.classify f.seq = .accepted
  · rw [insert_accepted h]
  · rw [insert_refused h]

@[simp] theorem insert_snd_size (w : ReorderWindow) (f : Fragment) :
    (w.insert f).2.size = w.size := by
  by_cases h : w.classify f.seq = .accepted
  · rw [insert_accepted h]
  · rw [insert_refused h]

theorem find?_mem {w : ReorderWindow} {seq : UInt32} {f : Fragment} (h : w.find? seq = some f) :
    f ∈ w.held ∧ f.seq = seq :=
  ⟨List.mem_of_find?_eq_some h, by simpa using List.find?_some h⟩

theorem find?_eq_none_iff {w : ReorderWindow} {seq : UInt32} :
    w.find? seq = none ↔ ∀ f ∈ w.held, f.seq ≠ seq := by
  simp [find?]

theorem pop?_eq_none_iff {w : ReorderWindow} : w.pop? = none ↔ ∀ f ∈ w.held, f.seq ≠ w.cursor := by
  rw [pop?, Option.map_eq_none_iff, find?_eq_none_iff]

/-- A release yields the held frame at the cursor and moves the cursor on. -/
theorem pop?_eq_some {w w' : ReorderWindow} {f : Fragment} (h : w.pop? = some (f, w')) :
    f ∈ w.held ∧ f.seq = w.cursor ∧ w' = { w with
      cursor := w.cursor + 1
      held := w.held.filter fun g => !(g.seq == w.cursor) } := by
  obtain ⟨g, hfind, hpair⟩ := Option.map_eq_some_iff.1 h
  obtain ⟨rfl, rfl⟩ := Prod.mk.inj hpair
  obtain ⟨hmem, hseq⟩ := find?_mem hfind
  exact ⟨hmem, hseq, rfl⟩

/-- Each release leaves fewer frames held. -/
theorem length_held_lt_of_pop? {w w' : ReorderWindow} {f : Fragment}
    (h : w.pop? = some (f, w')) : w'.held.length < w.held.length := by
  obtain ⟨hmem, hseq, rfl⟩ := pop?_eq_some h
  have hne : w.held.filter (fun g => !(g.seq == w.cursor)) ≠ w.held := by
    intro heq
    have := List.filter_eq_self.1 heq f hmem
    simp [hseq] at this
  exact Nat.lt_of_le_of_ne (List.length_filter_le _ _) fun hlen =>
    hne (List.filter_sublist.eq_of_length hlen)

/-! ## A window and its stream -/

/-- The window has released the first `count` frames of the stream, and everything it released or
holds has been admitted from it. -/
structure Ordered (w : ReorderWindow) (start : UInt32) (stream admitted : List Fragment)
    (count : Nat) : Prop where
  cursor_eq : w.cursor = start + UInt32.ofNat count
  count_le : count ≤ stream.length
  released : ∀ f ∈ stream.take count, f ∈ admitted
  held_admitted : ∀ f ∈ w.held, f ∈ admitted
  admitted_mem : ∀ f ∈ admitted, f ∈ stream

/-- Nothing that was admitted has been forgotten. -/
def Remembers (w : ReorderWindow) (stream admitted : List Fragment) (count : Nat) : Prop :=
  ∀ f ∈ admitted, f ∈ stream.take count ∨ f ∈ w.held

variable {w w' : ReorderWindow} {start : UInt32} {stream admitted : List Fragment} {count : Nat}

/-- The stream may grow at its end. -/
theorem Ordered.extend (h : w.Ordered start stream admitted count) (more : List Fragment) :
    w.Ordered start (stream ++ more) admitted count := by
  refine ⟨h.cursor_eq, ?_, ?_, h.held_admitted, ?_⟩
  · exact Nat.le_trans h.count_le (by simp)
  · rw [List.take_append_of_le_length h.count_le]
    exact h.released
  · exact fun f hf => List.mem_append_left _ (h.admitted_mem f hf)

theorem Remembers.extend (h : w.Remembers stream admitted count) (hle : count ≤ stream.length)
    (more : List Fragment) : w.Remembers (stream ++ more) admitted count := by
  intro f hf
  rw [List.take_append_of_le_length hle]
  exact h f hf

theorem Ordered.clear (h : w.Ordered start stream admitted count) :
    w.clear.Ordered start stream admitted count :=
  ⟨h.cursor_eq, h.count_le, h.released, fun _ hf => absurd hf List.not_mem_nil, h.admitted_mem⟩

/-- What the window says to a frame of the stream, by the index of the frame. -/
theorem Ordered.classify_eq (h : w.Ordered start stream admitted count)
    (hnum : ConsecutiveFrom start stream) (hlen : stream.length ≤ 2 ^ 31) {index : Nat}
    (hindex : index < stream.length) :
    w.classify stream[index].seq =
      if index < count then .duplicate
      else if w.size ≤ index - count then .outOfWindow
      else if (w.find? stream[index].seq).isSome then .duplicate else .accepted := by
  have hle := h.count_le
  by_cases hlt : index < count
  · rw [if_pos hlt]
    exact classify_behind h.cursor_eq (hnum index hindex) hlt (by omega)
  · rw [if_neg hlt]
    exact classify_ahead h.cursor_eq (hnum index hindex) (by omega) (by omega)

/-- Up to the next frame that is due, every frame of the stream is acknowledged. -/
theorem Ordered.acknowledged_of_le (h : w.Ordered start stream admitted count)
    (hnum : ConsecutiveFrom start stream) (hlen : stream.length ≤ 2 ^ 31) (hsize : 0 < w.size)
    {index : Nat} (hindex : index < stream.length) (hle : index ≤ count) :
    (w.classify stream[index].seq).acknowledged = true := by
  rw [h.classify_eq hnum hlen hindex]
  by_cases hlt : index < count
  · rw [if_pos hlt]
    rfl
  · have hnear : ¬ w.size ≤ index - count := by omega
    rw [if_neg hlt, if_neg hnear]
    split <;> rfl

/-- A frame of the stream that the window acknowledges has been admitted, now or earlier, and the
window stays in order. -/
theorem Ordered.insert (h : w.Ordered start stream admitted count)
    (hnum : ConsecutiveFrom start stream) (hlen : stream.length ≤ 2 ^ 31) {f : Fragment}
    (hf : f ∈ stream) :
    (w.insert f).2.Ordered start stream
        (admitted ++ if w.classify f.seq = .accepted then [f] else []) count ∧
      ((w.classify f.seq).acknowledged = true →
        f ∈ admitted ++ if w.classify f.seq = .accepted then [f] else []) := by
  by_cases hacc : w.classify f.seq = .accepted
  · rw [if_pos hacc, insert_accepted hacc]
    refine ⟨⟨h.cursor_eq, h.count_le, ?_, ?_, ?_⟩, fun _ => by simp⟩
    · exact fun g hg => List.mem_append_left _ (h.released g hg)
    · intro g hg
      rcases List.mem_cons.1 hg with rfl | hg
      · simp
      · exact List.mem_append_left _ (h.held_admitted g hg)
    · intro g hg
      rcases List.mem_append.1 hg with hg | hg
      · exact h.admitted_mem g hg
      · rw [List.mem_singleton] at hg
        exact hg ▸ hf
  · rw [if_neg hacc, insert_refused hacc, List.append_nil]
    refine ⟨h, fun hack => ?_⟩
    obtain ⟨index, hindex, rfl⟩ := List.getElem_of_mem hf
    have hclass := h.classify_eq hnum hlen hindex
    rw [hclass] at hacc hack
    by_cases hlt : index < count
    · exact h.released _ (List.mem_take_iff_getElem.2 ⟨index, by omega, rfl⟩)
    · rw [if_neg hlt] at hacc hack
      by_cases hfar : w.size ≤ index - count
      · rw [if_pos hfar] at hack
        cases hack
      · rw [if_neg hfar] at hacc hack
        by_cases hheld : (w.find? stream[index].seq).isSome = true
        · -- the number is held, and in the stream it belongs to this frame alone
          obtain ⟨g, hg⟩ := Option.isSome_iff_exists.1 hheld
          obtain ⟨hmem, hseq⟩ := find?_mem hg
          have hadm := h.held_admitted g hmem
          rw [← hnum.eq_of_seq_eq (by omega) (h.admitted_mem g hadm) hf hseq]
          exact hadm
        · rw [if_neg hheld] at hacc
          exact absurd rfl hacc

theorem Remembers.insert (h : w.Remembers stream admitted count) (f : Fragment) :
    (w.insert f).2.Remembers stream
      (admitted ++ if w.classify f.seq = .accepted then [f] else []) count := by
  intro g hg
  by_cases hacc : w.classify f.seq = .accepted
  · rw [insert_accepted hacc]
    rw [if_pos hacc] at hg
    rcases List.mem_append.1 hg with hg | hg
    · exact (h g hg).imp_right (List.mem_cons_of_mem f)
    · rw [List.mem_singleton] at hg
      exact .inr (hg ▸ List.mem_cons_self)
  · rw [insert_refused hacc]
    rw [if_neg hacc, List.append_nil] at hg
    exact h g hg

/-- What a window releases is the next frame of its stream. -/
theorem Ordered.pop (h : w.Ordered start stream admitted count)
    (hnum : ConsecutiveFrom start stream) (hlen : stream.length < 2 ^ 32) {f : Fragment}
    (hpop : w.pop? = some (f, w')) :
    (∃ hcount : count < stream.length, f = stream[count]) ∧
      w'.Ordered start stream admitted (count + 1) := by
  obtain ⟨hmem, hseq, rfl⟩ := pop?_eq_some hpop
  have hadm := h.held_admitted f hmem
  obtain ⟨index, hindex, rfl⟩ := List.getElem_of_mem (h.admitted_mem f hadm)
  have hle := h.count_le
  have hcount : index = count := by
    rw [hnum index hindex, h.cursor_eq, UInt32.add_right_inj] at hseq
    have hnat := congrArg UInt32.toNat hseq
    rw [UInt32.toNat_ofNat', UInt32.toNat_ofNat', Nat.mod_eq_of_lt (by omega),
      Nat.mod_eq_of_lt (by omega)] at hnat
    exact hnat
  subst hcount
  refine ⟨⟨hindex, rfl⟩, ⟨?_, hindex, ?_, ?_, h.admitted_mem⟩⟩
  · show w.cursor + 1 = _
    rw [h.cursor_eq, UInt32.ofNat_add, UInt32.add_assoc]
    rfl
  · intro g hg
    rw [List.take_succ_eq_append_getElem hindex] at hg
    rcases List.mem_append.1 hg with hg | hg
    · exact h.released g hg
    · rw [List.mem_singleton] at hg
      exact hg ▸ hadm
  · exact fun g hg => h.held_admitted g (List.mem_filter.1 hg).1

theorem Remembers.pop (h : w.Remembers stream admitted count)
    (hord : w.Ordered start stream admitted count) (hnum : ConsecutiveFrom start stream)
    (hlen : stream.length < 2 ^ 32) {f : Fragment} (hpop : w.pop? = some (f, w')) :
    w'.Remembers stream admitted (count + 1) := by
  obtain ⟨⟨hcount, rfl⟩, -⟩ := hord.pop hnum hlen hpop
  obtain ⟨hmem, hseq, rfl⟩ := pop?_eq_some hpop
  intro g hg
  rw [List.take_succ_eq_append_getElem hcount]
  rcases h g hg with htaken | hheld
  · exact .inl (List.mem_append_left _ htaken)
  · by_cases heq : g.seq = w.cursor
    · left
      have hsame := hnum.eq_of_seq_eq (Nat.le_of_lt hlen) (hord.admitted_mem g hg)
        (List.getElem_mem hcount) (heq.trans hseq.symm)
      rw [hsame]
      exact List.mem_append_right _ (List.mem_singleton_self _)
    · right
      exact List.mem_filter.2 ⟨hheld, by simp [heq]⟩

/-- If nothing can be released, the frame at the cursor has not been admitted. -/
theorem Remembers.not_admitted (h : w.Remembers stream admitted count)
    (hord : w.Ordered start stream admitted count) (hnum : ConsecutiveFrom start stream)
    (hlen : stream.length ≤ 2 ^ 32) (hpop : w.pop? = none) (hcount : count < stream.length) :
    stream[count] ∉ admitted := by
  intro hadm
  rcases h _ hadm with htaken | hheld
  · obtain ⟨index, hindex, heq⟩ := List.getElem_of_mem htaken
    rw [List.length_take] at hindex
    rw [List.getElem_take] at heq
    have hsame := hnum.index_unique hlen (by omega) hcount (congrArg Fragment.seq heq)
    omega
  · refine pop?_eq_none_iff.1 hpop _ hheld ?_
    rw [hnum count hcount, hord.cursor_eq]

end ReorderWindow

end DatagramTunnel.Packet
