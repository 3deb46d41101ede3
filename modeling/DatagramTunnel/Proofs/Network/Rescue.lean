import DatagramTunnel.Proofs.Network.Path
import DatagramTunnel.Proofs.Session.Pacing

/-!
# A lost HELLO strands nobody

Of two ends that say HELLO, one may hear the other without being heard.  The end that is left behind
repeats its HELLO, and the other one may swallow that too: because it takes this HELLO for the first
one and has no reason to answer it, or because it has said HELLO itself less than half an interval
ago.  After either, the next repetition is answered, since the last HELLO of the other end is by
then a whole interval old.  So two repetitions are enough, `second_hello_establishes`.

From the first repetition on nothing may be lost any more: on a `Prompt` path, whatever is posted is
delivered before time moves on.  What was sent earlier may still arrive, at any time, or never.
-/

namespace DatagramTunnel.Session

open Flight Wire

/-- What is left to deliver after the call. -/
def Operation.pickUp (pending : List Bytes) : Operation → List Bytes
  | .receive datagram _ => pending.erase datagram
  | _ => pending

/-- A datagram waits until it is received. -/
theorem Operation.mem_pickUp (op : Operation) {pending : List Bytes} {datagram : Bytes}
    (h : datagram ∈ pending) :
    datagram ∈ op.pickUp pending ∨ ∃ now, op = .receive datagram now := by
  cases op with
  | receive other now =>
    by_cases hsame : datagram = other
    · exact .inr ⟨now, hsame ▸ rfl⟩
    · exact .inl ((List.mem_erase_of_ne hsame).2 h)
  | _ => exact .inl h

namespace Endpoint

variable {α σ : Type} {e e' : Endpoint α σ} {op : Operation} {answer : Answer}

/-- The endpoint has said no HELLO after this instant. -/
def SaidBy (e : Endpoint α σ) (t : Nat) : Prop := ∀ last, e.lastHello = some last → last ≤ t

namespace SaidBy

variable {t : Nat}

theorem silent (h : e.SaidBy t) (hsilent : Silent e e') : e'.SaidBy t :=
  fun last hlast => h last (hsilent.lastHello ▸ hlast)

theorem helloDue (h : e.SaidBy t) {now gap : Nat} (hgap : t + gap ≤ now) :
    e.helloDue now gap = true := by
  cases hlast : e.lastHello with
  | none => rw [Endpoint.helloDue, hlast]
  | some last =>
    have hle := h last hlast
    exact (helloDue_iff hlast now gap).2 (by omega)

theorem perform [Add α] [Sub α] [Mul α] [Seconds α] (h : e.SaidBy t) (hdata : HoldsData e.queue)
    (hpast : ∀ now, op.instant? = some now → now ≤ t)
    (hperform : e.perform op = .ok (answer, e')) : e'.SaidBy t := by
  rcases perform_hello hdata hperform with ⟨now, hgreets⟩ | hsilent
  · intro last hlast
    obtain rfl := Option.some.inj (hgreets.lastHello.symm.trans hlast)
    exact hpast now hgreets.instant
  · exact h.silent hsilent

end SaidBy

variable [Add α] [Sub α] [Mul α] [Seconds α]

/-- A tick at which a HELLO is due repeats it, unless it gives the handshake up. -/
theorem tick_due {now : Nat} (hphase : e.phase = .connecting)
    (hstarted : e.handshakeStarted ≠ none)
    (hdue : e.helloDue now e.settings.helloInterval = true)
    (h : e.perform (.tick now) = .ok (answer, e')) (hopen : e'.phase.isTerminal = false) :
    e' = e.sendHello now := by
  obtain ⟨started, hsome⟩ := Option.ne_none_iff_exists'.1 hstarted
  obtain ⟨e₁, htick, hpair⟩ := bind_eq_ok h
  obtain ⟨-, rfl⟩ := Prod.mk.inj (Except.ok.inj hpair)
  rw [tick, hphase] at htick
  have hresult : e.tickHandshake now = e₁ := Except.ok.inj htick
  rw [tickHandshake, hsome] at hresult
  dsimp only at hresult
  rw [if_pos hdue] at hresult
  split at hresult
  · rw [fail, if_pos hphase] at hresult
    rw [← hresult] at hopen
    cases hopen
  · exact hresult.symm

/-- Hearing a HELLO with its own token leaves an endpoint up, unless it has ended.  If it was up
before and a HELLO was due, it has answered. -/
theorem hears_hello {now : Nat}
    (h : e.perform (.receive (Frame.hello e.token).encode now) = .ok (answer, e'))
    (hopen : e'.phase.isTerminal = false) :
    e'.phase = .established ∧ (e.phase = .established →
      e.helloDue now (e.settings.helloInterval / 2) = true →
        e.postedSince e' = [(Frame.hello e.token).encode]) := by
  obtain ⟨e₁, hreceive, hpair⟩ := bind_eq_ok h
  obtain ⟨-, rfl⟩ := Prod.mk.inj (Except.ok.inj hpair)
  cases hphase : e.phase with
  | connecting =>
    rw [receive_hello hphase] at hreceive
    obtain rfl := Except.ok.inj hreceive
    exact ⟨rfl, nofun⟩
  | established =>
    rw [receive_late_hello hphase] at hreceive
    obtain rfl := Except.ok.inj hreceive
    split
    · exact ⟨hphase, fun _ _ => List.drop_left⟩
    · rename_i hearly
      exact ⟨hphase, fun _ hdue => absurd hdue hearly⟩
  | closing | closed =>
    have hsame : e₁ = e := by
      rw [receive, hphase] at hreceive
      exact (Except.ok.inj hreceive).symm
    rw [hsame, hphase] at hopen
    cases hopen

end Endpoint

end DatagramTunnel.Session

namespace DatagramTunnel.Network

open Flight Session Wire

/-! ## Prompt delivery -/

/-- A path that delivers whatever is posted at the instant at which it is posted. -/
structure Prompt (α σ β τ : Type) where
  path : Path α σ β τ
  /-- The instant of the latest call. -/
  now : Nat
  /-- What the near end has posted at this instant and the far end has not received. -/
  fromNear : List Bytes := []
  fromFar : List Bytes := []

namespace Prompt

variable {α σ β τ : Type}

/-- Time does not run backwards, and it stands still while anything is to be delivered. -/
def Follows (p : Prompt α σ β τ) (now : Nat) : Prop :=
  p.now ≤ now ∧ (now = p.now ∨ p.fromNear = [] ∧ p.fromFar = [])

instance (p : Prompt α σ β τ) (now : Nat) : Decidable (p.Follows now) :=
  inferInstanceAs (Decidable (_ ∧ _))

/-- While something is to be delivered, time stands still. -/
theorem Follows.eq_of_mem {p : Prompt α σ β τ} {now : Nat} {datagram : Bytes} (h : p.Follows now)
    (hmem : datagram ∈ p.fromFar) : now = p.now := by
  rcases h.2 with hsame | ⟨-, hnil⟩
  · exact hsame
  · rw [hnil] at hmem
    cases hmem

variable [Add α] [Sub α] [Mul α] [Seconds α] [Add β] [Sub β] [Mul β] [Seconds β]

/-- Lets one end make a call, if the path and the time permit it. -/
def act (p : Prompt α σ β τ) (side : Side) (op : Operation) : Option (Prompt α σ β τ) :=
  let now := op.instant?.getD p.now
  if p.Follows now then
    (p.path.act side op).map fun s =>
      match side with
      | .near =>
        { path := s, now
          fromNear := p.fromNear ++ p.path.near.endpoint.postedSince s.near.endpoint
          fromFar := op.pickUp p.fromFar }
      | .far =>
        { path := s, now
          fromNear := op.pickUp p.fromNear
          fromFar := p.fromFar ++ p.path.far.endpoint.postedSince s.far.endpoint }
  else none

/-- Lets the ends make calls one after the other. -/
def run (p : Prompt α σ β τ) : List (Side × Operation) → Option (Prompt α σ β τ)
  | [] => some p
  | (side, op) :: rest => (p.act side op).bind fun p' => p'.run rest

/-- Neither connection has ended. -/
structure Open (p : Prompt α σ β τ) : Prop where
  near : p.path.near.endpoint.phase.isTerminal = false
  far : p.path.far.endpoint.phase.isTerminal = false

variable {p p' : Prompt α σ β τ} {side : Side} {op : Operation}

/-- What a call of the near end does. -/
structure NearAct (p p' : Prompt α σ β τ) (op : Operation) : Prop where
  follows : p.Follows p'.now
  now_eq : p'.now = op.instant?.getD p.now
  far_eq : p'.path.far = p.path.far
  fromNear_eq :
    p'.fromNear = p.fromNear ++ p.path.near.endpoint.postedSince p'.path.near.endpoint
  fromFar_eq : p'.fromFar = op.pickUp p.fromFar
  perform : ∃ answer, p.path.near.endpoint.perform op = .ok (answer, p'.path.near.endpoint)

/-- What a call of the far end does. -/
structure FarAct (p p' : Prompt α σ β τ) (op : Operation) : Prop where
  follows : p.Follows p'.now
  now_eq : p'.now = op.instant?.getD p.now
  near_eq : p'.path.near = p.path.near
  fromNear_eq : p'.fromNear = op.pickUp p.fromNear
  fromFar_eq :
    p'.fromFar = p.fromFar ++ p.path.far.endpoint.postedSince p'.path.far.endpoint
  perform : ∃ answer, p.path.far.endpoint.perform op = .ok (answer, p'.path.far.endpoint)

theorem act_near (h : p.act .near op = some p') : NearAct p p' op := by
  unfold act at h
  dsimp only at h
  split at h
  · rename_i hfollows
    obtain ⟨s, hact, rfl⟩ := Option.map_eq_some_iff.1 h
    obtain ⟨q, -, hperform, rfl⟩ := Path.act_near hact
    obtain ⟨answer, endpoint, hcall, rfl⟩ := Party.exists_of_perform hperform
    exact ⟨hfollows, rfl, rfl, rfl, rfl, answer, hcall⟩
  · cases h

theorem act_far (h : p.act .far op = some p') : FarAct p p' op := by
  unfold act at h
  dsimp only at h
  split at h
  · rename_i hfollows
    obtain ⟨s, hact, rfl⟩ := Option.map_eq_some_iff.1 h
    obtain ⟨q, -, hperform, rfl⟩ := Path.act_far hact
    obtain ⟨answer, endpoint, hcall, rfl⟩ := Party.exists_of_perform hperform
    exact ⟨hfollows, rfl, rfl, rfl, rfl, answer, hcall⟩
  · cases h

theorem act_path (h : p.act side op = some p') : p.path.act side op = some p'.path := by
  unfold act at h
  dsimp only at h
  split at h
  · obtain ⟨s, hact, rfl⟩ := Option.map_eq_some_iff.1 h
    cases side <;> exact hact
  · cases h

/-- A connection that is open after a call was open before it. -/
theorem Open.of_act (hopen : p'.Open) (h : p.act side op = some p') : p.Open := by
  cases side with
  | near =>
    obtain ⟨answer, hperform⟩ := (act_near h).perform
    refine ⟨((Endpoint.perform_outcome hperform).phase hopen.near).1, ?_⟩
    rw [← (act_near h).far_eq]
    exact hopen.far
  | far =>
    obtain ⟨answer, hperform⟩ := (act_far h).perform
    refine ⟨?_, ((Endpoint.perform_outcome hperform).phase hopen.far).1⟩
    rw [← (act_far h).near_eq]
    exact hopen.near

theorem Open.of_run {script : List (Side × Operation)} (hopen : p'.Open)
    (hrun : p.run script = some p') : p.Open := by
  induction script generalizing p with
  | nil => exact Option.some.inj hrun ▸ hopen
  | cons call rest ih =>
    obtain ⟨p₁, hact, hrest⟩ := Option.bind_eq_some_iff.1 hrun
    exact (ih hrest).of_act hact

/-- What every call keeps that ends neither connection, holds after a run that ends neither. -/
theorem run_induct {P : Prompt α σ β τ → Prop} {script : List (Side × Operation)}
    (near : ∀ {p p' op}, P p → p'.Open → p.act .near op = some p' → P p')
    (far : ∀ {p p' op}, P p → p'.Open → p.act .far op = some p' → P p')
    (start : P p) (hopen : p'.Open) (hrun : p.run script = some p') : P p' := by
  induction script generalizing p with
  | nil => exact Option.some.inj hrun ▸ start
  | cons call rest ih =>
    obtain ⟨side, op⟩ := call
    obtain ⟨p₁, hact, hrest⟩ := Option.bind_eq_some_iff.1 hrun
    have hopen₁ : p₁.Open := hopen.of_run hrest
    cases side with
    | near => exact ih (near start hopen₁ hact) hrest
    | far => exact ih (far start hopen₁ hact) hrest

/-- The far end, once up, stays up. -/
theorem far_up_of_run {script : List (Side × Operation)}
    (hup : p.path.far.endpoint.phase = .established) (hopen : p'.Open)
    (hrun : p.run script = some p') : p'.path.far.endpoint.phase = .established := by
  refine run_induct (P := fun p => p.path.far.endpoint.phase = .established)
    (fun hup _ hact => ?_) (fun hup hopen hact => ?_) hup hopen hrun
  · rw [(act_near hact).far_eq]
    exact hup
  · obtain ⟨answer, hperform⟩ := (act_far hact).perform
    exact ((Endpoint.perform_outcome hperform).phase hopen.far).2 hup

end Prompt

/-! ## The two ends -/

section Ends

variable {α σ β τ : Type}

/-- Both ends have these settings, present this token, and queue nothing but data. -/
structure Matched (s : Path α σ β τ) (settings : Settings) (token : Bytes) : Prop where
  settings_eq : s.near.endpoint.settings = settings
  settings_eq' : s.far.endpoint.settings = settings
  token_eq : s.near.endpoint.token = token
  token_eq' : s.far.endpoint.token = token
  data : HoldsData s.near.endpoint.queue
  data' : HoldsData s.far.endpoint.queue

variable {a : Endpoint α σ} {b : Endpoint β τ} {s s' : Path α σ β τ} {settings : Settings}
  {token : Bytes} {transform : Transform σ} {transform' : Transform τ}

theorem Matched.start (ha : a.New settings token transform) (hb : b.New settings token transform') :
    Matched { near := { endpoint := a }, far := { endpoint := b } } settings token :=
  ⟨ha.settings_eq, hb.settings_eq, ha.token_eq, hb.token_eq, ha.holdsData, hb.holdsData⟩

variable [Add α] [Sub α] [Mul α] [Seconds α] [Add β] [Sub β] [Mul β] [Seconds β]

theorem Matched.act {side : Side} {op : Operation} (h : Matched s settings token)
    (hact : s.act side op = some s') : Matched s' settings token := by
  rcases Path.act_cases hact with ⟨p, -, hperform, rfl⟩ | ⟨p, -, hperform, rfl⟩
  · obtain ⟨answer, endpoint, hcall, rfl⟩ := Party.perform_eq_ok hperform
    obtain ⟨hsettings, htoken, -⟩ := hcall.constants
    exact ⟨hsettings.trans h.settings_eq, h.settings_eq', htoken.trans h.token_eq, h.token_eq',
      (hcall.acknowledgements h.data).1, h.data'⟩
  · obtain ⟨answer, endpoint, hcall, rfl⟩ := Party.perform_eq_ok hperform
    obtain ⟨hsettings, htoken, -⟩ := hcall.constants
    exact ⟨h.settings_eq, hsettings.trans h.settings_eq', h.token_eq, htoken.trans h.token_eq',
      h.data, (hcall.acknowledgements h.data').1⟩

/-- When all calls of a run were made by some instant, so were the HELLOs of the near end said. -/
theorem Matched.run {t : Nat} {script : List (Side × Operation)} (h : Matched s settings token)
    (hsaid : s.near.endpoint.SaidBy t)
    (hpast : ∀ call ∈ script, ∀ now, call.2.instant? = some now → now ≤ t)
    (hrun : s.run script = some s') :
    Matched s' settings token ∧ s'.near.endpoint.SaidBy t := by
  induction script generalizing s with
  | nil => exact Option.some.inj hrun ▸ ⟨h, hsaid⟩
  | cons call rest ih =>
    obtain ⟨side, op⟩ := call
    obtain ⟨s₁, hact, hrest⟩ := Option.bind_eq_some_iff.1 hrun
    refine ih (h.act hact) ?_ (fun call hcall => hpast call (List.mem_cons_of_mem _ hcall)) hrest
    cases side with
    | near =>
      obtain ⟨p, -, hperform, rfl⟩ := Path.act_near hact
      obtain ⟨answer, endpoint, hcall, rfl⟩ := Party.exists_of_perform hperform
      exact hsaid.perform h.data (hpast _ List.mem_cons_self) hcall
    | far =>
      obtain ⟨p, -, -, rfl⟩ := Path.act_far hact
      exact hsaid

end Ends

/-! ## What the far end can hope for -/

variable {α σ β τ : Type} {settings : Settings} {token : Bytes}

/-- Why the far end comes up: it is up, or a HELLO is on its way to it, or the near end, which has
said none since an instant, has a reason to say one. -/
inductive Hope (p : Prompt α σ β τ) (token : Bytes) (t : Nat) (reason : Prop) : Prop
  | up (up : p.path.far.endpoint.phase = .established)
  | coming (hello : (Frame.hello token).encode ∈ p.fromNear)
  | owed (old : p.path.near.endpoint.SaidBy t) (reason : reason)

namespace Hope

variable {p p' : Prompt α σ β τ} {op : Operation} {t : Nat} {reason reason' : Prop}

/-- The near end keeps the hope up while it is silent if it keeps its reason. -/
theorem near [Add α] [Sub α] [Mul α] [Seconds α] (h : Hope p token t reason)
    (hmatched : Matched p.path settings token) (hcall : Prompt.NearAct p p' op)
    (hreason : p.path.near.endpoint.SaidBy t → reason →
      (Frame.hello token).encode ∉ p'.fromNear → reason') : Hope p' token t reason' := by
  obtain ⟨answer, hperform⟩ := hcall.perform
  cases h with
  | up up => exact .up (hcall.far_eq ▸ up)
  | coming hello =>
    exact .coming (hcall.fromNear_eq ▸ List.mem_append_left _ hello)
  | owed old reason =>
    by_cases hhello : (Frame.hello token).encode ∈ p'.fromNear
    · exact .coming hhello
    · refine .owed ?_ (hreason old reason hhello)
      rcases Endpoint.perform_hello hmatched.data hperform with ⟨now, hgreets⟩ | hsilent
      · refine absurd ?_ hhello
        rw [hcall.fromNear_eq, hgreets.postedSince_eq, hmatched.token_eq]
        exact List.mem_append_right _ (List.mem_singleton_self _)
      · exact old.silent hsilent

/-- A HELLO on its way to the far end brings it up when it arrives. -/
theorem far [Add β] [Sub β] [Mul β] [Seconds β] (h : Hope p token t reason)
    (hmatched : Matched p.path settings token) (hcall : Prompt.FarAct p p' op) (hopen : p'.Open)
    (hreason : p.path.near.endpoint.SaidBy t → reason → reason') : Hope p' token t reason' := by
  obtain ⟨answer, hperform⟩ := hcall.perform
  cases h with
  | up up => exact .up (((Endpoint.perform_outcome hperform).phase hopen.far).2 up)
  | coming hello =>
    rcases op.mem_pickUp hello with hlater | ⟨now, rfl⟩
    · exact .coming (hcall.fromNear_eq ▸ hlater)
    · rw [← hmatched.token_eq'] at hperform
      exact .up (Endpoint.hears_hello hperform hopen.far).1
  | owed old reason =>
    exact .owed (hcall.near_eq ▸ old) (hreason old reason)

end Hope

/-! ## One repetition, and another -/

section Repetitions

variable {α σ β τ : Type} {p p' : Prompt α σ β τ} {op : Operation} {settings : Settings}
  {token : Bytes} {t : Nat}

/-- The far end has repeated its HELLO at `t`: the near end is up, or will be before time moves
on. -/
structure Once (p : Prompt α σ β τ) (settings : Settings) (token : Bytes) (t : Nat) : Prop where
  matched : Matched p.path settings token
  since : t ≤ p.now
  started : p.path.far.endpoint.handshakeStarted ≠ none
  last : ∃ last, p.path.far.endpoint.lastHello = some last ∧ t ≤ last
  hope : Hope p token t (p.path.near.endpoint.phase = .established ∨
    (Frame.hello token).encode ∈ p.fromFar ∧ p.now = t)

/-- The far end has repeated its HELLO once more, at least an interval later: the near end is up,
and has still to hear it. -/
structure Twice (p : Prompt α σ β τ) (settings : Settings) (token : Bytes) (t : Nat) : Prop where
  matched : Matched p.path settings token
  since : t + settings.helloInterval ≤ p.now
  hope : Hope p token t (p.path.near.endpoint.phase = .established ∧
    (Frame.hello token).encode ∈ p.fromFar)

/-- Where nothing is left to deliver, the far end is up. -/
theorem Twice.up (h : Twice p settings token t) (hnear : p.fromNear = []) (hfar : p.fromFar = []) :
    p.path.far.endpoint.phase = .established := by
  cases h.hope with
  | up up => exact up
  | coming hello =>
    rw [hnear] at hello
    cases hello
  | owed _ reason =>
    obtain ⟨-, hmem⟩ := reason
    rw [hfar] at hmem
    cases hmem

variable [Add α] [Sub α] [Mul α] [Seconds α] [Add β] [Sub β] [Mul β] [Seconds β]

theorem Once.near (h : Once p settings token t) (hopen : p'.Open)
    (hact : p.act .near op = some p') : Once p' settings token t := by
  have hcall := Prompt.act_near hact
  obtain ⟨answer, hperform⟩ := hcall.perform
  have hphase := (Endpoint.perform_outcome hperform).phase hopen.near
  refine ⟨h.matched.act (Prompt.act_path hact), Nat.le_trans h.since hcall.follows.1,
    hcall.far_eq ▸ h.started, hcall.far_eq ▸ h.last, h.hope.near h.matched hcall ?_⟩
  rintro - (hup | ⟨hmem, hnow⟩) -
  · exact .inl (hphase.2 hup)
  · rcases op.mem_pickUp hmem with hlater | ⟨now, rfl⟩
    · exact .inr ⟨hcall.fromFar_eq ▸ hlater, (hcall.follows.eq_of_mem hmem).trans hnow⟩
    · rw [← h.matched.token_eq] at hperform
      exact .inl (Endpoint.hears_hello hperform hopen.near).1

theorem Once.far (h : Once p settings token t) (hopen : p'.Open)
    (hact : p.act .far op = some p') : Once p' settings token t := by
  have hcall := Prompt.act_far hact
  obtain ⟨answer, hperform⟩ := hcall.perform
  have hsince := Nat.le_trans h.since hcall.follows.1
  have hhello : p'.path.far.endpoint.handshakeStarted ≠ none ∧
      ∃ last, p'.path.far.endpoint.lastHello = some last ∧ t ≤ last := by
    rcases Endpoint.perform_hello h.matched.data' hperform with ⟨now, hgreets⟩ | hsilent
    · have hnow : p'.now = now := by rw [hcall.now_eq, hgreets.instant, Option.getD_some]
      exact ⟨hgreets.started h.started, now, hgreets.lastHello, hnow ▸ hsince⟩
    · rw [hsilent.handshakeStarted, hsilent.lastHello]
      exact ⟨h.started, h.last⟩
  refine ⟨h.matched.act (Prompt.act_path hact), hsince, hhello.1, hhello.2,
    h.hope.far h.matched hcall hopen ?_⟩
  rintro - (hup | ⟨hmem, hnow⟩)
  · exact .inl (hcall.near_eq ▸ hup)
  · exact .inr ⟨hcall.fromFar_eq ▸ List.mem_append_left _ hmem,
      (hcall.follows.eq_of_mem hmem).trans hnow⟩

theorem Twice.near (h : Twice p settings token t) (hopen : p'.Open)
    (hact : p.act .near op = some p') : Twice p' settings token t := by
  have hcall := Prompt.act_near hact
  obtain ⟨answer, hperform⟩ := hcall.perform
  have hphase := (Endpoint.perform_outcome hperform).phase hopen.near
  have hsince := Nat.le_trans h.since hcall.follows.1
  refine ⟨h.matched.act (Prompt.act_path hact), hsince, h.hope.near h.matched hcall ?_⟩
  rintro hold ⟨hup, hmem⟩ hquiet
  refine ⟨hphase.2 hup, ?_⟩
  rcases op.mem_pickUp hmem with hlater | ⟨now, rfl⟩
  · exact hcall.fromFar_eq ▸ hlater
  · -- the last HELLO of the near end is an interval old, so it answers this one
    have hnow : p'.now = now := hcall.now_eq
    rw [← h.matched.token_eq] at hperform
    have hposted := (Endpoint.hears_hello hperform hopen.near).2 hup (hold.helloDue (by
      rw [h.matched.settings_eq]
      omega))
    refine absurd ?_ hquiet
    rw [hcall.fromNear_eq, hposted, h.matched.token_eq]
    exact List.mem_append_right _ (List.mem_singleton_self _)

theorem Twice.far (h : Twice p settings token t) (hopen : p'.Open)
    (hact : p.act .far op = some p') : Twice p' settings token t := by
  have hcall := Prompt.act_far hact
  refine ⟨h.matched.act (Prompt.act_path hact), Nat.le_trans h.since hcall.follows.1,
    h.hope.far h.matched hcall hopen ?_⟩
  rintro - ⟨hup, hmem⟩
  exact ⟨hcall.near_eq ▸ hup, hcall.fromFar_eq ▸ List.mem_append_left _ hmem⟩

/-- A tick of the far end at which a HELLO is due puts one on the way. -/
theorem Prompt.repeats (hmatched : Matched p.path settings token)
    (hphase : p.path.far.endpoint.phase = .connecting)
    (hstarted : p.path.far.endpoint.handshakeStarted ≠ none)
    (hdue : p.path.far.endpoint.helloDue t settings.helloInterval = true) (hopen : p'.Open)
    (hact : p.act .far (.tick t) = some p') :
    p'.path.far.endpoint = p.path.far.endpoint.sendHello t ∧
      (Frame.hello token).encode ∈ p'.fromFar := by
  have hcall := act_far hact
  obtain ⟨answer, hperform⟩ := hcall.perform
  rw [← hmatched.settings_eq'] at hdue
  have hhello := Endpoint.tick_due hphase hstarted hdue hperform hopen.far
  have hposted : p.path.far.endpoint.postedSince (p.path.far.endpoint.sendHello t) =
      [(Frame.hello p.path.far.endpoint.token).encode] := List.drop_left
  refine ⟨hhello, ?_⟩
  rw [hcall.fromFar_eq, hhello, hposted, hmatched.token_eq']
  exact List.mem_append_right _ (List.mem_singleton_self _)

theorem Once.start {s : Path α σ β τ} (hmatched : Matched s settings token)
    (hsaid : s.near.endpoint.SaidBy t) (hphase : s.far.endpoint.phase = .connecting)
    (hstarted : s.far.endpoint.handshakeStarted ≠ none)
    (hdue : s.far.endpoint.helloDue t settings.helloInterval = true) (hopen : p'.Open)
    (hact : Prompt.act { path := s, now := t } .far (.tick t) = some p') :
    Once p' settings token t := by
  have hcall := Prompt.act_far hact
  obtain ⟨hhello, hmem⟩ := Prompt.repeats hmatched hphase hstarted hdue hopen hact
  have hnow : p'.now = t := hcall.now_eq
  refine ⟨hmatched.act (Prompt.act_path hact), Nat.le_of_eq hnow.symm, ?_,
    ⟨t, congrArg Endpoint.lastHello hhello, Nat.le_refl t⟩,
    .owed (hcall.near_eq ▸ hsaid) (.inr ⟨hmem, hnow⟩)⟩
  rw [hhello]
  exact hstarted

theorem Once.again {t' : Nat} (h : Once p settings token t) (hinterval : 0 < settings.helloInterval)
    (hphase : p.path.far.endpoint.phase = .connecting)
    (hdue : p.path.far.endpoint.helloDue t' settings.helloInterval = true) (hopen : p'.Open)
    (hact : p.act .far (.tick t') = some p') : Twice p' settings token t := by
  have hcall := Prompt.act_far hact
  have hmem := (Prompt.repeats h.matched hphase h.started hdue hopen hact).2
  have hnow : p'.now = t' := hcall.now_eq
  obtain ⟨last, hlast, hle⟩ := h.last
  have hgap := (Endpoint.helloDue_iff hlast t' _).1 hdue
  refine ⟨h.matched.act (Prompt.act_path hact), by omega,
    h.hope.far h.matched hcall hopen ?_⟩
  rintro - (hup | ⟨hwaits, hold⟩)
  · exact ⟨hcall.near_eq ▸ hup, hmem⟩
  · -- the HELLO of `t` would have had to be delivered before the tick
    have hstill := hcall.follows.eq_of_mem hwaits
    omega

end Repetitions

variable {α σ β τ : Type} [Add α] [Sub α] [Mul α] [Seconds α] [Add β] [Sub β] [Mul β] [Seconds β]
  {a : Endpoint α σ} {b : Endpoint β τ} {s : Path α σ β τ} {settings : Settings} {token : Bytes}
  {transform : Transform σ} {transform' : Transform τ}

/-- Whatever two ends with the same settings and the same token have done and lost by `t`: if the
far one, which has started its handshake, repeats its HELLO at `t` and once more at `t'`, and from
`t` on all that is posted is delivered at once, the far end is up when the datagrams of `t'` have
been exchanged, unless one of the connections has ended by then. -/
theorem second_hello_establishes {secret : σ} {secret' : τ} {nonces nonces' : Nat → Nonce}
    {t t' : Nat} {past between after : List (Side × Operation)} {p p' : Prompt α σ β τ}
    (ha : Endpoint.create settings token transform secret nonces = .ok a)
    (hb : Endpoint.create settings token transform' secret' nonces' = .ok b)
    (hpast : Path.run { near := { endpoint := a }, far := { endpoint := b } } past = some s)
    (hearlier : ∀ call ∈ past, ∀ now, call.2.instant? = some now → now ≤ t)
    (hphase : s.far.endpoint.phase = .connecting)
    (hstarted : s.far.endpoint.handshakeStarted ≠ none)
    (hdue : s.far.endpoint.helloDue t settings.helloInterval = true)
    (hfirst : Prompt.run { path := s, now := t } ((.far, .tick t) :: between) = some p)
    (hdue' : p.path.far.endpoint.phase = .connecting →
      p.path.far.endpoint.helloDue t' settings.helloInterval = true)
    (hsecond : p.run ((.far, .tick t') :: after) = some p')
    (hnear : p'.fromNear = []) (hfar : p'.fromFar = []) (hopen : p'.Open) :
    p'.path.far.endpoint.phase = .established := by
  have hnew := Endpoint.create_new ha
  have hnew' := Endpoint.create_new hb
  have hsilent : a.SaidBy t := fun last hlast => by
    rw [hnew.lastHello_eq] at hlast
    cases hlast
  obtain ⟨hmatched, hsaid⟩ := (Matched.start hnew hnew').run hsilent hearlier hpast
  -- the first repetition, and what happens until the second
  have honce : Once p settings token t := by
    have hopen₁ := hopen.of_run hsecond
    obtain ⟨p₁, hact, hbetween⟩ := Option.bind_eq_some_iff.1 hfirst
    have hstart := Once.start hmatched hsaid hphase hstarted hdue (hopen₁.of_run hbetween) hact
    exact Prompt.run_induct Once.near Once.far hstart hopen₁ hbetween
  -- the second one, and what happens then
  obtain ⟨p₂, hact, hafter⟩ := Option.bind_eq_some_iff.1 hsecond
  have hopen₂ := hopen.of_run hafter
  by_cases hconnecting : p.path.far.endpoint.phase = .connecting
  · have hpos := Settings.helloInterval_pos (Endpoint.create_eq_ok ha).1
    have htwice := honce.again hpos hconnecting (hdue' hconnecting) hopen₂ hact
    exact (Prompt.run_induct Twice.near Twice.far htwice hopen hafter).up hnear hfar
  · have hup : p.path.far.endpoint.phase = .established := by
      have hlives := (hopen.of_run hsecond).far
      cases hother : p.path.far.endpoint.phase with
      | connecting => exact absurd hother hconnecting
      | established => rfl
      | closing | closed =>
        rw [hother] at hlives
        cases hlives
    exact Prompt.far_up_of_run hup hopen hsecond

/-- Both first HELLOs are lost, the near end comes up by the second HELLO of the far one and does
not answer it, and the third one is answered. -/
theorem second_hello_establishes_late : ∃ (a b : Endpoint Rat Unit) (s : Path Rat Unit Rat Unit)
    (p p' : Prompt Rat Unit Rat Unit),
      Path.run { near := { endpoint := a }, far := { endpoint := b } }
        [(.near, .connect 0), (.far, .connect 0), (.near, .pollTransmit), (.far, .pollTransmit)] =
          some s ∧
      Prompt.run { path := s, now := nanosPerSecond }
        [(.far, .tick nanosPerSecond), (.far, .pollTransmit),
          (.near, .receive (Frame.hello [7]).encode nanosPerSecond)] = some p ∧
      p.path.far.endpoint.phase = .connecting ∧ p.fromNear = [] ∧ p.fromFar = [] ∧
      p.run [(.far, .tick (2 * nanosPerSecond)), (.far, .pollTransmit),
        (.near, .receive (Frame.hello [7]).encode (2 * nanosPerSecond)), (.near, .pollTransmit),
        (.far, .receive (Frame.hello [7]).encode (2 * nanosPerSecond))] = some p' ∧
      p'.path.far.endpoint.phase = .established := by
  have htrial : ((Endpoint.blank {} [7]).toOption.any fun a =>
      (Endpoint.blank {} [7]).toOption.any fun b =>
      (Path.run { near := { endpoint := a }, far := { endpoint := b } }
        [(.near, .connect 0), (.far, .connect 0), (.near, .pollTransmit),
          (.far, .pollTransmit)]).any fun s =>
      (Prompt.run { path := s, now := nanosPerSecond }
        [(.far, .tick nanosPerSecond), (.far, .pollTransmit),
          (.near, .receive (Frame.hello [7]).encode nanosPerSecond)]).any fun p =>
      (p.run [(.far, .tick (2 * nanosPerSecond)), (.far, .pollTransmit),
        (.near, .receive (Frame.hello [7]).encode (2 * nanosPerSecond)), (.near, .pollTransmit),
        (.far, .receive (Frame.hello [7]).encode (2 * nanosPerSecond))]).any fun p' =>
      decide ((s.far.endpoint.phase = .connecting ∧ s.far.endpoint.handshakeStarted ≠ none ∧
          s.far.endpoint.helloDue nanosPerSecond nanosPerSecond = true) ∧
        (p.path.far.endpoint.phase = .connecting ∧ p.fromNear = [] ∧ p.fromFar = [] ∧
          p.path.far.endpoint.helloDue (2 * nanosPerSecond) nanosPerSecond = true) ∧
        p'.fromNear = [] ∧ p'.fromFar = [] ∧
          p'.path.near.endpoint.phase.isTerminal = false ∧
          p'.path.far.endpoint.phase.isTerminal = false)) = true := by decide +kernel
  simp only [Option.any_eq_true, decide_eq_true_eq] at htrial
  obtain ⟨a, ha, b, hb, s, hpast, p, hfirst, p', hsecond, hstart, hmiddle, hend⟩ := htrial
  obtain ⟨hphase, hstarted, hdue⟩ := hstart
  obtain ⟨hconnecting, hnear, hfar, hdue'⟩ := hmiddle
  obtain ⟨hnear', hfar', hopen, hopen'⟩ := hend
  exact ⟨a, b, s, p, p', hpast, hfirst, hconnecting, hnear, hfar, hsecond,
    second_hello_establishes (eq_ok_of_toOption ha) (eq_ok_of_toOption hb) hpast (by decide) hphase
      hstarted hdue hfirst (fun _ => hdue') hsecond hnear' hfar' ⟨hopen, hopen'⟩⟩

end DatagramTunnel.Network
