import DatagramTunnel.Proofs.Packet.Ordering
import Mathlib.Algebra.Ring.Int.Defs
import Mathlib.Data.Set.Insert

/-!
# The window on the line of integers

Frames have places on the line of all integers, and the number of a place is its remainder modulo
`2 ^ 32`.  `StandsAt w cursor places` says that the window waits for the frame at `cursor` and holds
those at `places`; arrivals and releases keep it.  On the line it is plain what a window should say
to a frame at some place, and `Judges` says that it does say so.

The window sees the number only, and tells what is ahead from what is behind by the sign of a
difference of 32 bits.  So it is right about the places less than half the circle ahead of the
cursor and at most half the circle behind it (`judges_of_near`), and takes the next half of the
circle for frames that it has released long ago (`duplicate_of_far`).
-/

namespace DatagramTunnel.Packet

open Wire

/-- The number of a place. -/
abbrev number (place : Int) : UInt32 := UInt32.ofInt place

theorem toNat_number (place : Int) : ((number place).toNat : Int) = place % 2 ^ 32 := by
  rw [number, UInt32.ofInt, UInt32.toNat_ofNat']
  omega

/-- Places less than a full circle apart have different numbers. -/
theorem number_inj {place other : Int} (hless : place - other < 2 ^ 32)
    (hmore : other - place < 2 ^ 32) (h : number place = number other) : place = other := by
  have hplace := toNat_number place
  rw [h, toNat_number] at hplace
  omega

theorem number_succ (place : Int) : number (place + 1) = number place + 1 := by
  apply UInt32.toNat_inj.1
  have hone : (1 : UInt32).toNat = 1 := rfl
  have hplace := toNat_number place
  have hnext := toNat_number (place + 1)
  rw [UInt32.toNat_add, hone]
  omega

namespace ReorderWindow

variable {w w' : ReorderWindow} {cursor place : Int} {places : Set Int} {f : Fragment}

/-- The window waits for the frame at `cursor`, and holds one frame for each of `places`. -/
structure StandsAt (w : ReorderWindow) (cursor : Int) (places : Set Int) : Prop where
  cursor_eq : w.cursor = number cursor
  within : ∀ place ∈ places, cursor ≤ place ∧ place < cursor + w.size
  held_place : ∀ f ∈ w.held, ∃ place ∈ places, f.seq = number place
  place_held : ∀ place ∈ places, ∃ f ∈ w.held, f.seq = number place

/-- What the window says to the frame `f`, which has this place, is right: the frame is a duplicate
if its place has been passed or is held, it is taken in if the window reaches that far, and
otherwise it is not acknowledged and must come again. -/
structure Judges (w : ReorderWindow) (cursor : Int) (places : Set Int) (place : Int)
    (f : Fragment) : Prop where
  duplicate_iff : (w.insert f).1 = .duplicate ↔ place < cursor ∨ place ∈ places
  accepted_iff : (w.insert f).1 = .accepted ↔
    cursor ≤ place ∧ place < cursor + w.size ∧ place ∉ places
  outOfWindow_iff : (w.insert f).1 = .outOfWindow ↔ cursor + w.size ≤ place
  unacknowledged_iff : (w.insert f).1.acknowledged = false ↔ cursor + w.size ≤ place

namespace StandsAt

/-! ## Distances -/

theorem ahead_eq (h : w.StandsAt cursor places) (place : Int) :
    (w.ahead (number place) : Int) = (place - cursor) % 2 ^ 32 := by
  have hplace := toNat_number place
  have hcursor := toNat_number cursor
  rw [ahead, h.cursor_eq, UInt32.toNat_sub]
  omega

/-- What is held is less than a full circle ahead, so it is found by its number. -/
theorem find?_isSome_iff (h : w.StandsAt cursor places) (hsize : w.size ≤ 2 ^ 32)
    (hle : cursor ≤ place) (hlt : place < cursor + w.size) :
    (w.find? (number place)).isSome = true ↔ place ∈ places := by
  rw [find?, List.find?_isSome]
  constructor
  · rintro ⟨f, hf, hseq⟩
    obtain ⟨other, hother, hnumber⟩ := h.held_place f hf
    obtain ⟨hle', hlt'⟩ := h.within other hother
    rw [beq_iff_eq, hnumber] at hseq
    exact number_inj (by omega) (by omega) hseq ▸ hother
  · intro hplace
    obtain ⟨f, hf, hseq⟩ := h.place_held place hplace
    exact ⟨f, hf, beq_iff_eq.2 hseq⟩

/-! ## What the window says -/

theorem classify_behind (h : w.StandsAt cursor places) (hnear : cursor - 2 ^ 31 ≤ place)
    (hlt : place < cursor) : w.classify (number place) = .duplicate := by
  have hahead := h.ahead_eq place
  rw [classify, if_pos (by omega)]

/-- Half the circle ahead of the cursor looks like half the circle behind it. -/
theorem duplicate_of_far (h : w.StandsAt cursor places) (hfar : cursor + 2 ^ 31 ≤ place)
    (hround : place < cursor + 2 ^ 32) : w.classify (number place) = .duplicate := by
  have hahead := h.ahead_eq place
  rw [classify, if_pos (by omega)]

theorem classify_ahead (h : w.StandsAt cursor places) (hle : cursor ≤ place)
    (hnear : place < cursor + 2 ^ 31) :
    w.classify (number place) =
      if cursor + w.size ≤ place then .outOfWindow
      else if (w.find? (number place)).isSome then .duplicate else .accepted := by
  have hahead := h.ahead_eq place
  have hreach : w.size ≤ w.ahead (number place) ↔ cursor + w.size ≤ place := by omega
  simp only [classify, if_neg (show ¬ 1 <<< 31 ≤ w.ahead (number place) by omega), hreach]

/-- At most half the circle behind the cursor, and less than half of it ahead, the window is
right. -/
theorem judges_of_near (h : w.StandsAt cursor places) (hsize : w.size ≤ 2 ^ 32)
    (hseq : f.seq = number place) (hlow : cursor - 2 ^ 31 ≤ place)
    (hhigh : place < cursor + 2 ^ 31) : w.Judges cursor places place f := by
  have hfst : (w.insert f).1 = w.classify (number place) := by rw [insert_fst, hseq]
  have hwithin := h.within place
  rcases Int.lt_or_le place cursor with hlt | hle
  · rw [h.classify_behind hlow hlt] at hfst
    constructor <;> rw [hfst] <;> simp [Admission.acknowledged] <;> omega
  · rw [h.classify_ahead hle hhigh] at hfst
    rcases Int.lt_or_le place (cursor + w.size) with hin | hout
    · rw [if_neg (by omega)] at hfst
      have hfind := h.find?_isSome_iff hsize hle hin
      by_cases hheld : place ∈ places
      · rw [if_pos (hfind.2 hheld)] at hfst
        constructor <;> rw [hfst] <;> simp [Admission.acknowledged, hheld] <;> omega
      · rw [if_neg (fun hsome => hheld (hfind.1 hsome))] at hfst
        constructor <;> rw [hfst] <;> simp [Admission.acknowledged, hheld] <;> omega
    · rw [if_pos hout] at hfst
      have hheld : place ∉ places := fun hmem => by
        have := (hwithin hmem).2
        omega
      constructor <;> rw [hfst] <;> simp [Admission.acknowledged, hheld] <;> omega

/-- The window is right about the places up to the end of the circle ahead of it exactly as far as
half of the circle. -/
theorem judges_iff (h : w.StandsAt cursor places) (hsize : w.size ≤ 2 ^ 31)
    (hseq : f.seq = number place) (hlow : cursor - 2 ^ 31 ≤ place)
    (hround : place < cursor + 2 ^ 32) :
    w.Judges cursor places place f ↔ place < cursor + 2 ^ 31 := by
  constructor
  · intro hjudges
    refine Int.lt_of_not_ge fun hfar => ?_
    have hout := hjudges.outOfWindow_iff.2 (by omega)
    rw [insert_fst, hseq, h.duplicate_of_far hfar hround] at hout
    cases hout
  · exact h.judges_of_near (by omega) hseq hlow

/-! ## Arrivals and releases -/

/-- A new window waits for the first frame of all and holds nothing. -/
theorem fresh (size : Nat) : StandsAt { size } 0 ∅ :=
  ⟨rfl, fun _ hplace => absurd hplace (Set.notMem_empty _), fun _ hf => absurd hf List.not_mem_nil,
    fun _ hplace => absurd hplace (Set.notMem_empty _)⟩

theorem clear (h : w.StandsAt cursor places) : w.clear.StandsAt cursor ∅ :=
  ⟨h.cursor_eq, fun _ hplace => absurd hplace (Set.notMem_empty _),
    fun _ hf => absurd hf List.not_mem_nil, fun _ hplace => absurd hplace (Set.notMem_empty _)⟩

/-- A frame that is taken in has a place in the reach of the window. -/
theorem insert (h : w.StandsAt cursor places) (f : Fragment) :
    ∃ places', (w.insert f).2.StandsAt cursor places' := by
  by_cases hacc : w.classify f.seq = .accepted
  · have hreach : w.ahead f.seq < w.size := by
      unfold classify at hacc
      split at hacc
      · cases hacc
      · split at hacc
        · cases hacc
        · omega
    have hseq : f.seq = number (cursor + w.ahead f.seq) := by
      apply UInt32.toNat_inj.1
      have hplace := toNat_number (cursor + w.ahead f.seq)
      have hcursor := toNat_number cursor
      have hbound := f.seq.toNat_lt
      rw [ahead, h.cursor_eq, UInt32.toNat_sub] at hplace ⊢
      omega
    rw [insert_accepted hacc]
    refine ⟨Insert.insert (cursor + w.ahead f.seq) places, h.cursor_eq, ?_, ?_, ?_⟩
    · rintro place (rfl | hplace)
      · show cursor ≤ _ ∧ _ < cursor + (w.size : Int)
        omega
      · exact h.within place hplace
    · intro g hg
      rcases List.mem_cons.1 hg with rfl | hg
      · exact ⟨_, Set.mem_insert _ _, hseq⟩
      · obtain ⟨place, hplace, hnumber⟩ := h.held_place g hg
        exact ⟨place, Set.mem_insert_of_mem _ hplace, hnumber⟩
    · rintro place (rfl | hplace)
      · exact ⟨f, List.mem_cons_self, hseq⟩
      · obtain ⟨g, hg, hnumber⟩ := h.place_held place hplace
        exact ⟨g, List.mem_cons_of_mem f hg, hnumber⟩
  · rw [insert_refused hacc]
    exact ⟨places, h⟩

/-- A release moves the window on by one place. -/
theorem pop (h : w.StandsAt cursor places) (hsize : w.size ≤ 2 ^ 32)
    (hpop : w.pop? = some (f, w')) : w'.StandsAt (cursor + 1) (places \ {cursor}) := by
  obtain ⟨-, -, rfl⟩ := pop?_eq_some hpop
  have hother : ∀ place ∈ places, place = cursor ↔ number place = w.cursor := by
    intro place hplace
    obtain ⟨hle, hlt⟩ := h.within place hplace
    rw [h.cursor_eq]
    exact ⟨congrArg number, number_inj (by omega) (by omega)⟩
  refine ⟨?_, ?_, ?_, ?_⟩
  · show w.cursor + 1 = _
    rw [h.cursor_eq, number_succ]
  · rintro place ⟨hplace, hne⟩
    obtain ⟨hle, hlt⟩ := h.within place hplace
    have hne' : place ≠ cursor := hne
    show _ ∧ place < cursor + 1 + (w.size : Int)
    omega
  · intro g hg
    obtain ⟨hheld, hne⟩ := List.mem_filter.1 hg
    obtain ⟨place, hplace, hnumber⟩ := h.held_place g hheld
    refine ⟨place, ⟨hplace, fun heq => ?_⟩, hnumber⟩
    have hcursor := (hother place hplace).1 heq
    simp [hnumber, hcursor] at hne
  · rintro place ⟨hplace, hne⟩
    obtain ⟨g, hg, hnumber⟩ := h.place_held place hplace
    refine ⟨g, List.mem_filter.2 ⟨hg, ?_⟩, hnumber⟩
    have hcursor : number place ≠ w.cursor := fun heq => hne ((hother place hplace).2 heq)
    simp [hnumber, hcursor]

end StandsAt

end ReorderWindow

end DatagramTunnel.Packet
