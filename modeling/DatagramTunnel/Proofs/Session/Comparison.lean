import DatagramTunnel.Proofs.Packet.Places
import DatagramTunnel.Proofs.Session.History

/-!
# How far ahead a peer can be

While the frame at the cursor is missing, a peer can have sent frames far beyond it: all that the
window takes in besides, and then as many as it may have in flight.  The rules for settings bound
the window by half the circle of numbers, and the frames in flight by the window, but not the two
together.  So the last frames that such a peer can send may be more than half the circle ahead, and
the window, which compares numbers, takes them for frames that it has released long ago.

`window_judges_iff` says that these are the only frames about which the window is wrong, and for
which settings there are none.  Every window that an endpoint comes to stands at some place of the
line, so this covers all of them.
-/

namespace DatagramTunnel.Session

open Flight Packet Wire

/-- The place is at most half the circle behind the cursor, and no further ahead than a peer with
these settings can send while the frame at the cursor is missing. -/
structure Settings.InReach (s : Settings) (cursor place : Int) : Prop where
  behind : cursor - 2 ^ 31 ≤ place
  ahead : place ≤ cursor + s.reorderWindow + s.maxInFlight - 2

namespace Settings

variable {s : Settings} {cursor place : Int}

theorem reorderWindow_lt (h : s.validate = .ok ()) : s.reorderWindow < 2 ^ 31 :=
  Nat.lt_of_le_of_lt (sound_of_validate h).reorderWindow (by decide)

/-- What is in reach is less than a full circle ahead. -/
theorem InReach.lt (h : s.InReach cursor place) (hvalid : s.validate = .ok ()) :
    place < cursor + 2 ^ 32 := by
  have hahead := h.ahead
  have hwindow := reorderWindow_lt hvalid
  have hflight := (sound_of_validate hvalid).window
  omega

end Settings

namespace Endpoint

variable {α σ : Type} [Add α] [Sub α] [Mul α] [Seconds α]

/-- The window of an endpoint stands where the frames end that it has read. -/
theorem standsAt_run {settings : Settings} {token : Bytes} {transform : Transform σ} {secret : σ}
    {nonces : Nat → Nonce} {e₀ e : Endpoint α σ} {ops : List Operation} {answers : List Answer}
    (hcreate : create settings token transform secret nonces = .ok e₀)
    (hrun : e₀.performAll ops = .ok (answers, e)) :
    e.inlet.window.size = settings.reorderWindow ∧
      ∃ places, e.inlet.window.StandsAt (e₀.history reads ops).length places := by
  have hsize := Settings.reorderWindow_lt (create_eq_ok hcreate).1
  refine window_run
    (P := fun w _ released => w.size = settings.reorderWindow ∧
      ∃ places, w.StandsAt released.length places)
    ?_ ?_ ?_ hcreate ⟨rfl, ∅, .fresh settings.reorderWindow⟩ hrun
  · rintro w admitted released f ⟨hsame, places, hplaces⟩
    exact ⟨(ReorderWindow.insert_snd_size w f).trans hsame, hplaces.insert f⟩
  · rintro w w' admitted released f ⟨hsame, places, hplaces⟩ hpop
    have hnext := hplaces.pop (by omega) hpop
    obtain ⟨-, -, rfl⟩ := ReorderWindow.pop?_eq_some hpop
    refine ⟨hsame, places \ {(released.length : Int)}, ?_⟩
    have hone : ((released ++ [f]).length : Int) = released.length + 1 := by simp
    rw [hone]
    exact hnext
  · rintro w admitted released ⟨hsame, places, hplaces⟩
    exact ⟨hsame, ∅, hplaces.clear⟩

/-- With valid settings the window is right about a frame in reach precisely if it is less than half
the circle ahead, and all frames in reach are so near precisely if the window and the frames in
flight together exceed half the circle by at most one.  Every window that an endpoint comes to
stands somewhere on the line. -/
theorem window_judges_iff {settings : Settings} (hvalid : settings.validate = .ok ()) :
    (∀ {w : ReorderWindow} {cursor place : Int} {places : Set Int} {f : Fragment},
      w.size = settings.reorderWindow → w.StandsAt cursor places → f.seq = number place →
        settings.InReach cursor place →
          (w.Judges cursor places place f ↔ place < cursor + 2 ^ 31)) ∧
      ((∀ {w : ReorderWindow} {cursor place : Int} {places : Set Int} {f : Fragment},
        w.size = settings.reorderWindow → w.StandsAt cursor places → f.seq = number place →
          settings.InReach cursor place → w.Judges cursor places place f) ↔
        settings.reorderWindow + settings.maxInFlight ≤ 2 ^ 31 + 1) ∧
      ∀ {token : Bytes} {transform : Transform σ} {secret : σ} {nonces : Nat → Nonce}
        {e₀ e : Endpoint α σ} {ops : List Operation} {answers : List Answer},
        create settings token transform secret nonces = .ok e₀ →
          e₀.performAll ops = .ok (answers, e) →
            e.inlet.window.size = settings.reorderWindow ∧
              ∃ places, e.inlet.window.StandsAt (e₀.history reads ops).length places := by
  have hsize := Settings.reorderWindow_lt hvalid
  have hjudges : ∀ {w : ReorderWindow} {cursor place : Int} {places : Set Int} {f : Fragment},
      w.size = settings.reorderWindow → w.StandsAt cursor places → f.seq = number place →
        settings.InReach cursor place →
          (w.Judges cursor places place f ↔ place < cursor + 2 ^ 31) :=
    fun hsame hstands hseq hreach =>
      hstands.judges_iff (by omega) hseq hreach.behind (hreach.lt hvalid)
  refine ⟨hjudges, ⟨fun hall => ?_, fun hnear {w cursor place places f} hsame hstands hseq hreach =>
    ?_⟩, standsAt_run⟩
  · -- the furthest place in reach of a new window
    let furthest : Int := settings.reorderWindow + settings.maxInFlight - 2
    have hfew := (Settings.sound_of_validate hvalid).maxInFlight
    have hmore := (Settings.sound_of_validate hvalid).window
    have hreach : settings.InReach 0 furthest := ⟨by omega, by omega⟩
    have hstands : ReorderWindow.StandsAt { size := settings.reorderWindow } 0 ∅ :=
      .fresh settings.reorderWindow
    have hlt := (hjudges (f := ⟨number furthest, .only, []⟩) rfl hstands rfl hreach).1
      (hall rfl hstands rfl hreach)
    omega
  · have hahead := hreach.ahead
    exact (hjudges hsame hstands hseq hreach).2 (by omega)

/-- A window that waits for the last number of all and holds the frame after it: that frame is a
duplicate, and the furthest frame in reach is not acknowledged. -/
theorem window_judges_iff_wrapped :
    Settings.validate {} = .ok () ∧
      (ReorderWindow.insert ⟨1024, 4294967295, [⟨0, .only, [5]⟩]⟩ ⟨0, .only, [6]⟩).1 =
        .duplicate ∧
      (ReorderWindow.insert ⟨1024, 4294967295, [⟨0, .only, [5]⟩]⟩ ⟨1071, .only, [7]⟩).1 =
        .outOfWindow := by
  have hvalid : Settings.validate {} = .ok () := eq_ok_of_toOption (by decide +kernel)
  have hstands : ReorderWindow.StandsAt ⟨1024, 4294967295, [⟨0, .only, [5]⟩]⟩ (2 ^ 32 - 1)
      {2 ^ 32} := by
    refine ⟨by decide, ?_, ?_, ?_⟩
    · rintro place rfl
      decide
    · intro f hf
      rw [List.mem_singleton] at hf
      exact ⟨2 ^ 32, rfl, by rw [hf]; decide⟩
    · rintro place rfl
      exact ⟨_, List.mem_cons_self, by decide⟩
  have hjudges : ∀ (place : Int) (f : Fragment), f.seq = number place →
      Settings.InReach {} (2 ^ 32 - 1) place →
        ReorderWindow.Judges ⟨1024, 4294967295, [⟨0, .only, [5]⟩]⟩ (2 ^ 32 - 1) {2 ^ 32} place f :=
    fun place f hseq hreach =>
      (window_judges_iff (α := Rat) (σ := Unit) hvalid).2.1.2 (by decide) rfl hstands hseq hreach
  refine ⟨hvalid, ?_, ?_⟩
  · exact (hjudges (2 ^ 32) _ (by decide) ⟨by decide, by decide⟩).duplicate_iff.2 (.inr rfl)
  · have hfar := hjudges (2 ^ 32 + 1071) ⟨1071, .only, [7]⟩ (by decide) ⟨by decide, by decide⟩
    exact hfar.outOfWindow_iff.2 (by decide)

/-- With the widest window and three frames in flight, the furthest frame in reach of a new window
is half the circle ahead, and it is taken for a duplicate. -/
theorem window_misjudges_furthest :
    Settings.validate { maxInFlight := 3, reorderWindow := 2147483647 } = .ok () ∧
      Settings.InReach { maxInFlight := 3, reorderWindow := 2147483647 } 0 2147483648 ∧
      ReorderWindow.StandsAt { size := 2147483647 } 0 ∅ ∧
      (ReorderWindow.insert { size := 2147483647 } ⟨number 2147483648, .only, [5]⟩).1 =
        .duplicate ∧
      ¬ ReorderWindow.Judges { size := 2147483647 } 0 ∅ 2147483648
        ⟨number 2147483648, .only, [5]⟩ := by
  refine ⟨eq_ok_of_toOption (by decide +kernel), ⟨by decide, by decide⟩, .fresh _, by decide, ?_⟩
  intro hjudges
  have hsaid := hjudges.duplicate_iff.1 (by decide)
  simp at hsaid

end Endpoint

end DatagramTunnel.Session
