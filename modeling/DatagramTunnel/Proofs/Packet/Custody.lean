import DatagramTunnel.Proofs.Packet.Releases
import Mathlib.Data.List.Nodup
import Mathlib.Data.List.Perm.Subperm

/-!
# What a window has in its custody

A window is called in any order: frames are inserted, the frame at the cursor is popped, the window
is cleared.  Nothing is assumed of the frames; two that differ may come under one number.

`journal` keeps the calls, each with the window it was made on.  A frame is entrusted to the window
from the insert that accepted it to its release, unless a clear comes first, and in between no other
frame of its number is accepted: `Entrusted`.  What a window holds is what is entrusted to it, so a
frame that is released is the one that was last accepted under its number.  `releases_in_order` is
the account of any calls, with the order of the releases and the space that they need.
-/

namespace DatagramTunnel.Packet.ReorderWindow

open Wire

/-- A call on a window that stands alone. -/
inductive Call where
  | insert (f : Fragment)
  | pop
  | clear
  deriving DecidableEq, Repr

/-- The window after one call. -/
def call (w : ReorderWindow) : Call → ReorderWindow
  | .insert f => (w.insert f).2
  | .pop => (w.pop?.map Prod.snd).getD w
  | .clear => w.clear

/-- The window after calls one after the other. -/
def callAll (w : ReorderWindow) (calls : List Call) : ReorderWindow := calls.foldl call w

/-- One call that was made. -/
structure Entry where
  /-- The window that it was made on. -/
  before : ReorderWindow
  call : Call
  deriving DecidableEq, Repr

namespace Entry

/-- The frame that the call took in, if it did. -/
def accepted? (e : Entry) : Option Fragment :=
  match e.call with
  | .insert f => if (e.before.insert f).1 = .accepted then some f else none
  | .pop | .clear => none

/-- The frame that the call released, if it did. -/
def released? (e : Entry) : Option Fragment :=
  match e.call with
  | .pop => e.before.pop?.map Prod.fst
  | .insert _ | .clear => none

/-- The call leaves a frame where it is: the frame is held, and nothing of its number is taken in or
released. -/
structure Spares (e : Entry) (f : Fragment) : Prop where
  held : e.before.find? f.seq = some f
  not_clear : e.call ≠ .clear
  accepted_ne : ∀ g, e.accepted? = some g → g.seq ≠ f.seq
  released_ne : ∀ g, e.released? = some g → g.seq ≠ f.seq

end Entry

/-- The calls that were made, one after the other. -/
def journal (w : ReorderWindow) : List Call → List Entry
  | [] => []
  | c :: rest => ⟨w, c⟩ :: (w.call c).journal rest

/-- The frame was taken in, and every call since has left it where it is. -/
def Entrusted (entries : List Entry) (f : Fragment) : Prop :=
  ∃ past entry later, entries = past ++ entry :: later ∧ entry.accepted? = some f ∧
    ∀ e ∈ later, e.Spares f

/-- The frames that are held have numbers of their own, all of them within reach of the cursor. -/
structure Tidy (w : ReorderWindow) : Prop where
  near : ∀ f ∈ w.held, w.ahead f.seq < min w.size (2 ^ 31)
  distinct : (w.held.map Fragment.seq).Nodup

variable {w : ReorderWindow} {f g : Fragment} {entries : List Entry} {e : Entry} {start : UInt32}

/-! ## One call -/

section OneCall

variable (w : ReorderWindow) (f : Fragment)

@[simp] theorem Entry.accepted?_insert : (⟨w, .insert f⟩ : Entry).accepted? =
    if w.classify f.seq = .accepted then some f else none := by
  simp only [accepted?, insert_fst]

@[simp] theorem Entry.accepted?_pop : (⟨w, .pop⟩ : Entry).accepted? = none := rfl

@[simp] theorem Entry.accepted?_clear : (⟨w, .clear⟩ : Entry).accepted? = none := rfl

@[simp] theorem Entry.released?_insert : (⟨w, .insert f⟩ : Entry).released? = none := rfl

@[simp] theorem Entry.released?_pop :
    (⟨w, .pop⟩ : Entry).released? = w.pop?.map Prod.fst := rfl

@[simp] theorem Entry.released?_clear : (⟨w, .clear⟩ : Entry).released? = none := rfl

end OneCall

@[simp] theorem call_insert (w : ReorderWindow) (f : Fragment) :
    w.call (.insert f) = (w.insert f).2 := rfl

@[simp] theorem call_clear (w : ReorderWindow) : w.call .clear = w.clear := rfl

theorem call_pop_of_none (h : w.pop? = none) : w.call .pop = w := by
  rw [call, h]
  rfl

theorem call_pop_of_some {w' : ReorderWindow} (h : w.pop? = some (f, w')) : w.call .pop = w' := by
  rw [call, h]
  rfl

@[simp] theorem call_size (w : ReorderWindow) (c : Call) : (w.call c).size = w.size := by
  cases c with
  | insert f => exact insert_snd_size w f
  | pop =>
    cases hpop : w.pop? with
    | none => rw [call_pop_of_none hpop]
    | some step =>
      obtain ⟨-, -, hnext⟩ := pop?_eq_some hpop
      rw [call_pop_of_some hpop, hnext]
  | clear => rfl

theorem callAll_size (w : ReorderWindow) (calls : List Call) : (w.callAll calls).size = w.size := by
  induction calls generalizing w with
  | nil => rfl
  | cons c rest ih => exact (ih (w.call c)).trans (call_size w c)

/-! ## The journal -/

/-- An entry of the journal was made on the window that the calls before it left. -/
theorem journal_split {calls : List Call} {early late : List Entry}
    (h : w.journal calls = early ++ e :: late) :
    ∃ before, w.journal before = early ∧ e.before = w.callAll before := by
  induction calls generalizing w early with
  | nil => simp [journal] at h
  | cons c rest ih =>
    cases early with
    | nil =>
      obtain ⟨rfl, -⟩ := List.cons.inj h
      exact ⟨[], rfl, rfl⟩
    | cons first early =>
      obtain ⟨rfl, hrest⟩ := List.cons.inj h
      obtain ⟨before, rfl, hbefore⟩ := ih hrest
      exact ⟨c :: before, rfl, hbefore⟩

/-- One more call entrusts the frame that it takes in, and leaves entrusted what it spares. -/
theorem entrusted_concat :
    Entrusted (entries ++ [e]) f ↔
      e.accepted? = some f ∨ Entrusted entries f ∧ e.Spares f := by
  constructor
  · rintro ⟨past, entry, later, heq, hacc, hlater⟩
    rcases List.eq_nil_or_concat later with rfl | ⟨later, last, rfl⟩
    · obtain ⟨-, rfl⟩ := List.append_inj' heq rfl |>.imp_right List.singleton_inj.1
      exact .inl hacc
    · rw [List.concat_eq_append] at heq hlater
      rw [← List.cons_append, ← List.append_assoc] at heq
      obtain ⟨rfl, hlast⟩ := List.append_inj' heq rfl
      obtain rfl := List.singleton_inj.1 hlast
      refine .inr ⟨⟨past, entry, later, rfl, hacc, fun x hx => ?_⟩, ?_⟩
      · exact hlater x (List.mem_append_left _ hx)
      · exact hlater e (List.mem_append_right _ (List.mem_singleton_self e))
  · rintro (hacc | ⟨⟨past, entry, later, rfl, hacc, hlater⟩, hspares⟩)
    · exact ⟨entries, e, [], rfl, hacc, fun x hx => absurd hx List.not_mem_nil⟩
    · refine ⟨past, entry, later ++ [e], by simp, hacc, fun x hx => ?_⟩
      rcases List.mem_append.1 hx with hx | hx
      · exact hlater x hx
      · exact List.mem_singleton.1 hx ▸ hspares

/-! ## Tidiness -/

theorem Tidy.find?_of_mem (h : w.Tidy) (hf : f ∈ w.held) : w.find? f.seq = some f := by
  obtain ⟨g, hfind⟩ : ∃ g, w.find? f.seq = some g := by
    by_contra hnone
    exact find?_eq_none_iff.1 (Option.eq_none_iff_forall_ne_some.2 (not_exists.1 hnone)) f hf rfl
  obtain ⟨hg, hseq⟩ := find?_mem hfind
  rw [hfind, List.inj_on_of_nodup_map h.distinct hg hf hseq]

/-- Numbers other than the cursor come nearer by one when the cursor moves on. -/
theorem ahead_succ {w' : ReorderWindow} (hcursor : w'.cursor = w.cursor + 1) {seq : UInt32}
    (hne : seq ≠ w.cursor) : w'.ahead seq + 1 = w.ahead seq := by
  have hseq : seq.toNat < 2 ^ 32 := seq.toNat_lt
  have hlt : w.cursor.toNat < 2 ^ 32 := w.cursor.toNat_lt
  have hnat : seq.toNat ≠ w.cursor.toNat := fun h => hne (UInt32.toNat_inj.1 h)
  rw [ahead, ahead, hcursor, UInt32.toNat_sub, UInt32.toNat_sub, UInt32.toNat_add, UInt32.toNat_one]
  omega

theorem Tidy.call (h : w.Tidy) (c : Call) : (w.call c).Tidy := by
  cases c with
  | insert f =>
    by_cases hacc : w.classify f.seq = .accepted
    · obtain ⟨hnear, hfree⟩ := free_of_accepted hacc
      rw [call_insert, insert_accepted hacc]
      refine ⟨fun g hg => ?_, ?_⟩
      · rcases List.mem_cons.1 hg with rfl | hg
        · exact hnear
        · exact h.near g hg
      · refine List.nodup_cons.2 ⟨fun hmem => ?_, h.distinct⟩
        obtain ⟨g, hg, hseq⟩ := List.mem_map.1 hmem
        exact find?_eq_none_iff.1 hfree g hg hseq
    · rw [call_insert, insert_refused hacc]
      exact h
  | pop =>
    cases hpop : w.pop? with
    | none =>
      rw [call_pop_of_none hpop]
      exact h
    | some step =>
      obtain ⟨f, w'⟩ := step
      obtain ⟨-, -, hnext⟩ := pop?_eq_some hpop
      have hcursor : w'.cursor = w.cursor + 1 := congrArg cursor hnext
      have hsize : w'.size = w.size := by rw [hnext]
      have hheld : w'.held = w.held.filter fun g => !(g.seq == w.cursor) := congrArg held hnext
      rw [call_pop_of_some hpop]
      refine ⟨fun g hg => ?_, hheld ▸ h.distinct.sublist (List.filter_sublist.map _)⟩
      rw [hheld, List.mem_filter] at hg
      have hne : g.seq ≠ w.cursor := by simpa using hg.2
      have hstep := ahead_succ hcursor hne
      have hnear := h.near g hg.1
      rw [hsize]
      omega
  | clear => exact ⟨fun _ hf => absurd hf List.not_mem_nil, List.nodup_nil⟩

/-- Numbers of their own that are within reach leave room for no more frames than the window has. -/
theorem Tidy.length_held_le (h : w.Tidy) : w.held.length ≤ w.size := by
  have hnodup : (w.held.map fun f => w.ahead f.seq).Nodup := by
    have hinj : Function.Injective w.ahead := fun _ _ heq =>
      (UInt32.sub_left_inj _).1 (UInt32.toNat_inj.1 heq)
    have hmap := h.distinct.map hinj
    rwa [List.map_map] at hmap
  have hsub : (w.held.map fun f => w.ahead f.seq) ⊆ List.range w.size := by
    intro n hn
    obtain ⟨f, hf, rfl⟩ := List.mem_map.1 hn
    exact List.mem_range.2 (Nat.lt_of_lt_of_le (h.near f hf) (Nat.min_le_left _ _))
  simpa using (hnodup.subperm hsub).length_le

/-! ## Custody -/

/-- After one call the window holds what the call took in, and what it held and the call spared. -/
theorem mem_held_call (h : w.Tidy) (c : Call) :
    f ∈ (w.call c).held ↔
      (⟨w, c⟩ : Entry).accepted? = some f ∨ f ∈ w.held ∧ (⟨w, c⟩ : Entry).Spares f := by
  cases c with
  | insert g =>
    by_cases hacc : w.classify g.seq = .accepted
    · have hfree := find?_eq_none_iff.1 (free_of_accepted hacc).2
      rw [call_insert, insert_accepted hacc, List.mem_cons, Entry.accepted?_insert, if_pos hacc,
        Option.some_inj, eq_comm]
      refine or_congr_right ⟨fun hf => ⟨hf, h.find?_of_mem hf, nofun, fun x hx hseq => ?_, nofun⟩,
        fun hf => hf.1⟩
      rw [Entry.accepted?_insert, if_pos hacc, Option.some_inj] at hx
      exact hfree f hf (hx ▸ hseq).symm
    · rw [call_insert, insert_refused hacc, Entry.accepted?_insert, if_neg hacc]
      refine ⟨fun hf => .inr ⟨hf, h.find?_of_mem hf, nofun, fun x hx => ?_, nofun⟩,
        fun hor => hor.elim nofun And.left⟩
      rw [Entry.accepted?_insert, if_neg hacc] at hx
      cases hx
  | pop =>
    rw [Entry.accepted?_pop, or_iff_right nofun]
    cases hpop : w.pop? with
    | none =>
      rw [call_pop_of_none hpop]
      refine ⟨fun hf => ⟨hf, h.find?_of_mem hf, nofun, nofun, fun x hx => ?_⟩, And.left⟩
      rw [Entry.released?_pop, hpop] at hx
      cases hx
    | some step =>
      obtain ⟨g, w'⟩ := step
      have hreleased : (⟨w, .pop⟩ : Entry).released? = some g := by
        rw [Entry.released?_pop, hpop]
        rfl
      obtain ⟨-, hseq, hnext⟩ := pop?_eq_some hpop
      rw [call_pop_of_some hpop, hnext, List.mem_filter]
      refine and_congr_right fun hf => ⟨fun hne => ?_, fun hspares => ?_⟩
      · refine ⟨h.find?_of_mem hf, nofun, nofun, fun x hx heq => ?_⟩
        rw [hreleased, Option.some_inj] at hx
        subst hx
        rw [← heq, hseq] at hne
        simp at hne
      · have hne := hspares.released_ne g hreleased
        rw [hseq] at hne
        simpa using hne.symm
  | clear =>
    refine ⟨fun hf => absurd hf List.not_mem_nil, ?_⟩
    rintro (hnone | ⟨-, hspares⟩)
    · cases hnone
    · exact absurd rfl hspares.not_clear

/-- The window and its past: it is tidy, it began at `start`, what it took in and released is in the
journal, and it holds what is entrusted to it. -/
structure Kept (w : ReorderWindow) (start : UInt32) (entries : List Entry) : Prop where
  tidy : w.Tidy
  recorded : w.Recorded start (entries.filterMap Entry.accepted?)
    (entries.filterMap Entry.released?)
  mem_held : ∀ f, f ∈ w.held ↔ Entrusted entries f

theorem Kept.new (size : Nat) (start : UInt32) : Kept { size, cursor := start } start [] := by
  refine ⟨⟨fun _ hf => absurd hf List.not_mem_nil, List.nodup_nil⟩, .new size start, fun f => ?_⟩
  simp [Entrusted]

theorem Kept.call (h : w.Kept start entries) (c : Call) :
    (w.call c).Kept start (entries ++ [⟨w, c⟩]) := by
  refine ⟨h.tidy.call c, ?_, fun f => ?_⟩
  · rw [List.filterMap_append, List.filterMap_append]
    cases c with
    | insert f =>
      have hnext := h.recorded.insert f
      by_cases hacc : w.classify f.seq = .accepted
      · simpa [List.filterMap_cons, hacc] using hnext
      · simpa [List.filterMap_cons, hacc] using hnext
    | pop =>
      cases hpop : w.pop? with
      | none => simpa [List.filterMap_cons, call_pop_of_none hpop, hpop] using h.recorded
      | some step =>
        have hnext := h.recorded.pop hpop
        simpa [List.filterMap_cons, call_pop_of_some hpop, hpop] using hnext
    | clear => simpa [List.filterMap_cons] using h.recorded.clear
  · rw [entrusted_concat, ← h.mem_held, mem_held_call h.tidy]

theorem Kept.callAll (h : w.Kept start entries) (calls : List Call) :
    (w.callAll calls).Kept start (entries ++ w.journal calls) := by
  induction calls generalizing w entries with
  | nil =>
    rw [journal, List.append_nil]
    exact h
  | cons c rest ih =>
    rw [journal, List.append_cons]
    exact ih (h.call c)

/-- What a call releases is in its window's custody. -/
theorem Kept.entrusted_of_released (h : e.before.Kept start entries) (hout : e.released? = some f) :
    Entrusted entries f := by
  obtain ⟨before, c⟩ := e
  cases c with
  | pop =>
    rw [Entry.released?_pop, Option.map_eq_some_iff] at hout
    obtain ⟨⟨g, w'⟩, hpop, rfl⟩ := hout
    exact (h.mem_held g).1 (pop?_eq_some hpop).1
  | insert g => cases hout
  | clear => cases hout

/-- Whatever is called, a window releases consecutive numbers, each with the frame that was last
accepted under it since the last clear, of which no other frame has taken the place; it holds
what is still entrusted to it, all of it within reach of the cursor and under numbers of its own, so
no more frames than its size; an insert that accepts nothing changes nothing; and a pop fails if the
frame at the cursor is not there, and only then. -/
theorem releases_in_order (size : Nat) (start : UInt32) (calls : List Call) :
    let w := callAll { size, cursor := start } calls
    let entries := journal { size, cursor := start } calls
    (ConsecutiveFrom start (entries.filterMap Entry.released?) ∧
        w.cursor = start + UInt32.ofNat (entries.filterMap Entry.released?).length) ∧
      (∀ early e late f, entries = early ++ e :: late → e.released? = some f →
        Entrusted early f) ∧
      (∀ f, f ∈ w.held ↔ Entrusted entries f) ∧
      ((∀ f ∈ w.held, w.ahead f.seq < min size (2 ^ 31)) ∧ (w.held.map Fragment.seq).Nodup ∧
        w.held.length ≤ size) ∧
      (∀ f, (w.insert f).1 ≠ .accepted → (w.insert f).2 = w) ∧
      (w.pop? = none ↔ w.find? w.cursor = none) := by
  intro w entries
  have hkept : w.Kept start entries := (Kept.new size start).callAll calls
  have hsize : w.size = size := callAll_size _ calls
  refine ⟨⟨hkept.recorded.consecutive, hkept.recorded.cursor_eq⟩, ?_, hkept.mem_held,
    ⟨fun f hf => ?_, hkept.tidy.distinct, ?_⟩, fun f hf => ?_, ?_⟩
  · intro early e late f hsplit hout
    obtain ⟨before, rfl, hbefore⟩ := journal_split hsplit
    have hearly := (Kept.new size start).callAll before
    rw [← hbefore, List.nil_append] at hearly
    exact hearly.entrusted_of_released hout
  · exact hsize ▸ hkept.tidy.near f hf
  · exact hsize ▸ hkept.tidy.length_held_le
  · rw [insert_fst] at hf
    exact insert_refused hf
  · rw [pop?_eq_none_iff, find?_eq_none_iff]

/-- Three frames come under the number after the wrap. The first is lost to the clear and the last
finds the number taken, so the one in the middle is released. -/
theorem releases_in_order_disputed :
    let calls : List Call := [.insert ⟨0, .only, [1]⟩, .clear, .insert ⟨0, .only, [2]⟩,
      .insert ⟨0, .only, [3]⟩, .insert ⟨4294967295, .only, [4]⟩, .pop, .pop]
    let entries := journal { size := 2, cursor := 4294967295 } calls
    entries.filterMap Entry.released? = [⟨4294967295, .only, [4]⟩, ⟨0, .only, [2]⟩] ∧
      ConsecutiveFrom 4294967295 (entries.filterMap Entry.released?) ∧
      Entrusted (entries.take 6) ⟨0, .only, [2]⟩ := by
  intro calls entries
  obtain ⟨⟨hconsecutive, -⟩, horigin, -⟩ := releases_in_order 2 4294967295 calls
  refine ⟨by decide, hconsecutive, ?_⟩
  exact horigin _ entries[6] [] _ (by decide) (by decide)

end DatagramTunnel.Packet.ReorderWindow
