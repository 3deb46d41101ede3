import DatagramTunnel.Proofs.Packet.Reassembly
import DatagramTunnel.Proofs.Session.Lifecycle

/-!
# Violations while frames are read

A data frame may release many others, and each of them may reveal faults and complete a packet,
which is handed over or cannot be unwrapped.  `openingAll` lists all that the frames come to, with
no limit on the violations: a `Mark` for every fault and every packet.  `streak marks` is how many
faults there have been since the last packet, and `Trips limit past marks early` says that there are
`limit` faults in a row with the one that comes after `early`.

The endpoint looks at the limit after every fault, also between two faults of one frame.  `Judged`
is what the readings come to with the limit: everything, or what precedes the fault that trips it.
`onData_judged` says so of a data frame, from the same for one fault, one packet and one frame.
-/

namespace DatagramTunnel.Session

open Flight Packet Wire

namespace Endpoint

open ReorderWindow (popMany)
open Assembler (pushAll_cons)

variable {α σ : Type}

/-! ## Faults and packets -/

/-- How many faults there have been since the last packet. -/
def streak (marks : List Mark) : Nat := (marks.reverse.takeWhile (· == .fault)).length

/-- The packets among the marks, as events. -/
def packetsOf (marks : List Mark) : List Event := (marks.filterMap Mark.content?).map .packet

/-- With the fault that comes after `early` there are `limit` in a row, for the first time. -/
structure Trips (limit : Nat) (past marks early : List Mark) : Prop where
  fault : early ++ [.fault] <+: marks
  full : streak (past ++ early) + 1 = limit
  below : ∀ first, first <+: early → streak (past ++ first) < limit

/-- What unwrapping comes to, and the private state after it. -/
def unwrapping (t : Transform σ) (secret : σ) (packet : Bytes) : List Mark × σ :=
  match t.unwrap secret packet with
  | (.ok content, secret) => ([.packet content], secret)
  | (.error _, secret) => ([.fault], secret)

/-- What one frame comes to that the assembler has read, and the private state after it. -/
def opening (t : Transform σ) (secret : σ) (out : Assembled) : List Mark × σ :=
  let faults := out.errors.map fun _ => Mark.fault
  match out.packet with
  | none => (faults, secret)
  | some packet => (faults ++ (unwrapping t secret packet).1, (unwrapping t secret packet).2)

/-- What frames come to that the assembler has read one after the other. -/
def openingAll (t : Transform σ) (secret : σ) : List Assembled → List Mark
  | [] => []
  | out :: rest => (opening t secret out).1 ++ openingAll t (opening t secret out).2 rest

variable {limit : Nat} {past marks early : List Mark} {e e' e'' : Endpoint α σ}

@[simp] theorem streak_concat_fault (marks : List Mark) :
    streak (marks ++ [.fault]) = streak marks + 1 := by
  simp [streak]

@[simp] theorem streak_concat_packet (marks : List Mark) (content : Bytes) :
    streak (marks ++ [.packet content]) = 0 := by
  simp [streak]

theorem packetsOf_append (first second : List Mark) :
    packetsOf (first ++ second) = packetsOf first ++ packetsOf second := by
  simp [packetsOf]

namespace Trips

/-- The limit is not reached twice. -/
theorem unique {other : List Mark} (h : Trips limit past marks early)
    (h' : Trips limit past marks other) : early = other := by
  -- the fault after the shorter of the two would come before the end of the longer
  have hlonger : ∀ {first second : List Mark}, Trips limit past marks first →
      Trips limit past marks second → ¬ first.length < second.length := by
    intro first second hfirst hsecond hlt
    have hinside : first ++ [.fault] <+: second :=
      List.prefix_of_prefix_length_le hfirst.fault
        ((List.prefix_append _ _).trans hsecond.fault) (by simpa using Nat.succ_le_of_lt hlt)
    have hbelow := hsecond.below _ hinside
    rw [← List.append_assoc, streak_concat_fault, hfirst.full] at hbelow
    exact Nat.lt_irrefl _ hbelow
  have hlen : early.length = other.length :=
    Nat.le_antisymm (Nat.le_of_not_lt (hlonger h' h)) (Nat.le_of_not_lt (hlonger h h'))
  exact (List.prefix_of_prefix_length_le ((List.prefix_append _ _).trans h.fault)
    ((List.prefix_append _ _).trans h'.fault) (Nat.le_of_eq hlen)).eq_of_length hlen

/-- What comes after the fault does not matter. -/
theorem append (h : Trips limit past marks early) (more : List Mark) :
    Trips limit past (marks ++ more) early :=
  ⟨h.fault.trans (List.prefix_append _ _), h.full, h.below⟩

end Trips

/-! ## Reading -/

/-- What reading does to an endpoint that is up and has the marks `past` behind it, if it comes to
`marks` when nothing stops it: all of them, and the connection stays up, or those before the fault
that trips the limit, and the connection ends. -/
inductive Judged (limit : Nat) (past marks : List Mark) (secret : σ) (e : Endpoint α σ) :
    Endpoint α σ → Prop
  | calm {e' : Endpoint α σ} (up : e'.phase = .established)
    (count : e'.violations = streak (past ++ marks))
    (below : ∀ first, first <+: marks → streak (past ++ first) < limit)
    (events : e'.events = e.events ++ packetsOf marks) (secret_eq : e'.secret = secret) :
    Judged limit past marks secret e e'
  | tripped {e' : Endpoint α σ} (early : List Mark) (trips : Trips limit past marks early)
    (phase : e'.phase = .closing) (emptied : e'.Emptied)
    (events : e'.events = e.events ++ packetsOf early ++ [.down (.protocolViolations limit)]) :
    Judged limit past marks secret e e'

/-- A prefix of two lists together ends in the first or in the second. -/
theorem prefix_append_cases {γ : Type} {first l more : List γ} (h : first <+: l ++ more) :
    first <+: l ∨ ∃ rest, first = l ++ rest ∧ rest <+: more := by
  obtain ⟨tail, htail⟩ := h
  rcases List.append_eq_append_iff.1 htail with ⟨rest, rfl, -⟩ | ⟨rest, rfl, rfl⟩
  · exact .inl (List.prefix_append _ _)
  · exact .inr ⟨rest, rfl, List.prefix_append _ _⟩

/-- What holds along both parts holds along both together. -/
theorem below_append {more : List Mark}
    (h : ∀ first, first <+: marks → streak (past ++ first) < limit)
    (h' : ∀ first, first <+: more → streak (past ++ marks ++ first) < limit) :
    ∀ first, first <+: marks ++ more → streak (past ++ first) < limit := by
  intro first hfirst
  rcases prefix_append_cases hfirst with hin | ⟨rest, rfl, hrest⟩
  · exact h first hin
  · rw [← List.append_assoc]
    exact h' rest hrest

/-- What holds before and after one mark holds along it. -/
theorem below_singleton {mark : Mark} (h : streak past < limit)
    (h' : streak (past ++ [mark]) < limit) :
    ∀ first, first <+: [mark] → streak (past ++ first) < limit := by
  intro first hfirst
  rcases List.prefix_cons_iff.1 hfirst with rfl | ⟨rest, rfl, hrest⟩
  · rw [List.append_nil]
    exact h
  · rw [List.prefix_nil.1 hrest]
    exact h'

namespace Judged

variable {secret secret' : σ} {more : List Mark}

/-- Reading goes on while the connection is up. -/
theorem trans (h : Judged limit past marks secret e e') (hup : e'.phase = .established)
    (next : Judged limit (past ++ marks) more secret' e' e'') :
    Judged limit past (marks ++ more) secret' e e'' := by
  cases h with
  | calm _ _ below events _ =>
    cases next with
    | calm up' count' below' events' secret_eq' =>
      refine .calm up' ?_ (below_append below below') ?_ secret_eq'
      · rw [count', List.append_assoc]
      · rw [events', events, packetsOf_append, List.append_assoc]
    | tripped early trips phase emptied events' =>
      refine .tripped (marks ++ early) ⟨?_, ?_, ?_⟩ phase emptied ?_
      · rw [List.append_assoc]
        exact (List.prefix_append_right_inj marks).2 trips.fault
      · rw [← List.append_assoc]
        exact trips.full
      · exact below_append below trips.below
      · rw [events', events, packetsOf_append, List.append_assoc e.events]
  | tripped _ _ phase _ _ => simp [phase] at hup

/-- Nothing more is read once the connection has ended. -/
theorem of_down (h : Judged limit past marks secret e e') (hdown : e'.phase ≠ .established)
    (more : List Mark) : Judged limit past (marks ++ more) secret' e e' := by
  cases h with
  | calm up => exact absurd up hdown
  | tripped early trips phase emptied events =>
    exact .tripped early (trips.append more) phase emptied events

/-- Only the events of the endpoint matter that reading begins with. -/
theorem congr (h : Judged limit past marks secret e e') (hevents : e''.events = e.events) :
    Judged limit past marks secret e'' e' := by
  cases h with
  | calm up count below events secret_eq =>
    exact .calm up count below (hevents ▸ events) secret_eq
  | tripped early trips phase emptied events =>
    exact .tripped early trips phase emptied (hevents ▸ events)

end Judged

/-- What holds between two readings: the connection is up, and the count is the streak. -/
structure Ready (limit : Nat) (past : List Mark) (e : Endpoint α σ) : Prop where
  up : e.phase = .established
  limit_eq : e.settings.maxProtocolViolations = limit
  count : e.violations = streak past
  below : streak past < limit

theorem Ready.refl (h : e.Ready limit past) : Judged limit past [] e.secret e e := by
  refine .calm h.up ?_ (fun first hfirst => ?_) (List.append_nil _).symm rfl
  · rw [List.append_nil]
    exact h.count
  · rw [List.prefix_nil.1 hfirst, List.append_nil]
    exact h.below

theorem violation_eq (e : Endpoint α σ) :
    e.violation = if e.settings.maxProtocolViolations ≤ e.violations + 1 then
      e.recordFault.goDown (.protocolViolations (e.violations + 1)) else e.recordFault := rfl

theorem violation_of_down (h : e.phase ≠ .established) : e.violation = e.recordFault := by
  have hdown (reason : Outage) : e.recordFault.goDown reason = e.recordFault := if_neg h
  rw [violation_eq, hdown, ite_self]

/-- A fault ends the connection exactly if it is the last that the limit admits. -/
theorem violation_judged (h : e.Ready limit past) :
    Judged limit past [.fault] e.secret e e.violation := by
  have hbelow := h.below
  rw [violation_eq, h.limit_eq, h.count]
  by_cases hfull : limit ≤ streak past + 1
  · have hreach : streak past + 1 = limit := Nat.le_antisymm hbelow hfull
    have hup : e.recordFault.phase = .established := h.up
    rw [if_pos hfull, hreach, goDown, if_pos hup]
    refine .tripped [] ⟨List.prefix_rfl, ?_, fun first hfirst => ?_⟩ rfl (finish_emptied _ _) ?_
    · rw [List.append_nil]
      exact hreach
    · rw [List.prefix_nil.1 hfirst, List.append_nil]
      exact hbelow
    · rw [packetsOf, List.filterMap_nil, List.map_nil, List.append_nil]
      rfl
  · have hcount : e.recordFault.violations = streak (past ++ [.fault]) :=
      (congrArg Nat.succ h.count).trans (streak_concat_fault past).symm
    rw [if_neg hfull]
    refine .calm h.up hcount (below_singleton hbelow ?_) (List.append_nil _).symm rfl
    rw [streak_concat_fault]
    exact Nat.lt_of_not_le hfull

/-- Faults that are counted after the end leave it as it is. -/
theorem Judged.foldl_of_down {secret : σ} (h : Judged limit past marks secret e e')
    (hdown : e'.phase ≠ .established) (errors : List AssemblyError) :
    Judged limit past marks secret e (errors.foldl (fun e _ => e.violation) e') := by
  induction errors generalizing e' with
  | nil => exact h
  | cons error errors ih =>
    have hsame : e'.violation = e'.recordFault := violation_of_down hdown
    rw [List.foldl_cons, hsame]
    refine ih ?_ hdown
    cases h with
    | calm up => exact absurd up hdown
    | tripped early trips phase emptied events =>
      obtain ⟨houtbox, hwaiting, hflight, hschedule, hheld, hslot⟩ := emptied
      exact .tripped early trips phase ⟨houtbox, hwaiting, hflight, hschedule, hheld, hslot⟩ events

/-- The endpoint is ready again if it is still up. -/
theorem Judged.ready {secret : σ} (h : Judged limit past marks secret e e')
    (hup : e'.phase = .established) (hlimit : e'.settings.maxProtocolViolations = limit) :
    e'.Ready limit (past ++ marks) ∧ e'.secret = secret := by
  cases h with
  | calm _ count below _ secret_eq =>
    exact ⟨⟨hup, hlimit, count, below marks List.prefix_rfl⟩, secret_eq⟩
  | tripped _ _ phase => simp [phase] at hup

theorem foldl_violation_judged (h : e.Ready limit past) (errors : List AssemblyError) :
    Judged limit past (errors.map fun _ => .fault) e.secret e
      (errors.foldl (fun e _ => e.violation) e) := by
  induction errors generalizing e past with
  | nil => exact h.refl
  | cons error errors ih =>
    have hfirst := violation_judged h
    rw [List.foldl_cons, List.map_cons, ← List.singleton_append]
    by_cases hup : e.violation.phase = .established
    · have hsettings := (violation_move e).constants.1
      obtain ⟨hready, hsecret⟩ := hfirst.ready hup (hsettings ▸ h.limit_eq)
      have hrest := ih hready
      rw [hsecret] at hrest
      exact hfirst.trans hup hrest
    · exact (hfirst.of_down hup _).foldl_of_down hup errors

/-- A packet is handed over, or it is a fault that it is not unwrapped. -/
theorem deliver_judged (h : e.Ready limit past) (packet : Bytes) :
    Judged limit past (unwrapping e.transform e.secret packet).1
      (unwrapping e.transform e.secret packet).2 e (e.deliver packet) := by
  unfold deliver unwrapping
  generalize e.transform.unwrap e.secret packet = result
  obtain ⟨opened, secret⟩ := result
  cases opened with
  | ok content =>
    have hpos : streak (past ++ [.packet content]) < limit := by
      rw [streak_concat_packet]
      exact Nat.zero_lt_of_lt h.below
    exact .calm h.up (streak_concat_packet past content).symm (below_singleton h.below hpos) rfl rfl
  | error cause =>
    have hready : Ready limit past { e with secret := secret } :=
      ⟨h.up, h.limit_eq, h.count, h.below⟩
    exact (violation_judged hready).congr rfl

/-- The faults of a frame come first, then its packet. -/
theorem absorb_judged (h : e.Ready limit past) (out : Assembled) :
    Judged limit past (opening e.transform e.secret out).1
      (opening e.transform e.secret out).2 e (e.absorb out) := by
  have hfaults := foldl_violation_judged h out.errors
  obtain ⟨marks, hmove⟩ := foldl_violation_move out.errors e
  obtain ⟨hsettings, -, htransform⟩ := hmove.constants
  unfold absorb opening
  dsimp only
  generalize out.errors.foldl (fun e _ => e.violation) e = e₁ at *
  by_cases hup : e₁.phase = .established
  · rw [if_pos hup]
    cases out.packet with
    | none => exact hfaults
    | some packet =>
      obtain ⟨hready, hsecret⟩ := hfaults.ready hup (hsettings ▸ h.limit_eq)
      have hpacket := deliver_judged hready packet
      rw [htransform, hsecret] at hpacket
      exact hfaults.trans hup hpacket
  · rw [if_neg hup]
    cases out.packet with
    | none => exact hfaults
    | some packet => exact hfaults.of_down hup _

/-- Reading what the window releases comes to what the assembler makes of it. -/
theorem drainInlet_judged (h : e.Ready limit past) (count : Nat) :
    ∃ secret, Judged limit past (openingAll e.transform e.secret
      (e.inlet.assembler.pushAll (e.inlet.window.popMany count).1).1) secret e
        (drainInlet count e) := by
  induction count generalizing e past with
  | zero => exact ⟨e.secret, h.refl⟩
  | succ count ih =>
    rw [popMany]
    cases hpop : e.inlet.window.pop? with
    | none =>
      rw [drainInlet, if_pos h.up, hpop]
      exact ⟨e.secret, h.refl⟩
    | some released =>
      obtain ⟨f, window⟩ := released
      have hadvanced : Ready limit past (e.advanced f window) :=
        ⟨h.up, h.limit_eq, h.count, h.below⟩
      have hfirst := absorb_judged hadvanced (e.inlet.assembler.push f).1
      obtain ⟨marks, hmove⟩ := absorb_move (e.advanced f window) (e.inlet.assembler.push f).1
      obtain ⟨hsettings, -, htransform⟩ := hmove.constants
      replace hfirst : Judged limit past _ _ e _ := hfirst.congr rfl
      rw [drainInlet_of_pop? h.up hpop]
      dsimp only
      rw [pushAll_cons, openingAll]
      generalize (e.advanced f window).absorb (e.inlet.assembler.push f).1 = e₁ at *
      by_cases hup : e₁.phase = .established
      · obtain ⟨hready, hsecret⟩ := hfirst.ready hup (hsettings ▸ h.limit_eq)
        have hinlet := (hmove.data (isTerminal_of_established hup)).2.2.2
        obtain ⟨secret, hrest⟩ := ih hready
        rw [hinlet, htransform, hsecret] at hrest
        exact ⟨secret, hfirst.trans hup hrest⟩
      · rw [drainInlet_of_down hup]
        exact ⟨e.secret, hfirst.of_down hup _⟩

/-- A data frame comes to what the inlet makes of it. -/
theorem onData_judged (h : e.Ready limit past) (f : Fragment) :
    ∃ secret, Judged limit past (openingAll e.transform e.secret (e.inlet.offer f).2.1) secret e
      (e.onData f) := by
  have heq := e.offered_eq f
  have hready : Ready limit past (e.offered f) := by
    rw [heq]
    exact ⟨h.up, h.limit_eq, h.count, h.below⟩
  obtain ⟨secret, hjudged⟩ := drainInlet_judged hready (e.inlet.window.insert f).2.held.length
  rw [offered_window, offered_assembler] at hjudged
  rw [onData_eq]
  refine ⟨secret, ?_⟩
  have htransform : (e.offered f).transform = e.transform := by rw [heq]
  have hsecret : (e.offered f).secret = e.secret := by rw [heq]
  rw [htransform, hsecret] at hjudged
  exact hjudged.congr (by rw [heq])

end Endpoint

end DatagramTunnel.Session
