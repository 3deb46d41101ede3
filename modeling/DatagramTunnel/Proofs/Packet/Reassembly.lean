import DatagramTunnel.Packet.Assembler
import DatagramTunnel.Proofs.Packet.Pieces

/-!
# Reading the frames of packets

An assembler that is idle and reads the frames of packets in order returns those packets and
reports no fault.  `CarriesAll.read_take` says so of every moment: after any number of frames the
packets returned so far are a prefix of those that the frames carry.  `CarriesAll.read_all` adds
that after all frames every packet has been returned and the assembler is idle again.
-/

namespace DatagramTunnel.Packet

open Wire

/-- The packets that reading frames returned. -/
def packetsOf (outs : List Assembled) : List Bytes := outs.filterMap Assembled.packet

/-- The faults that reading frames revealed. -/
def faultsOf (outs : List Assembled) : List AssemblyError := outs.flatMap Assembled.errors

@[simp] theorem packetsOf_nil : packetsOf [] = [] := rfl

@[simp] theorem packetsOf_append (first second : List Assembled) :
    packetsOf (first ++ second) = packetsOf first ++ packetsOf second := List.filterMap_append

@[simp] theorem packetsOf_cons (out : Assembled) (rest : List Assembled) :
    packetsOf (out :: rest) = out.packet.toList ++ packetsOf rest := by
  cases h : out.packet <;> simp [packetsOf, h]

@[simp] theorem faultsOf_nil : faultsOf [] = [] := rfl

@[simp] theorem faultsOf_append (first second : List Assembled) :
    faultsOf (first ++ second) = faultsOf first ++ faultsOf second := List.flatMap_append

@[simp] theorem faultsOf_cons (out : Assembled) (rest : List Assembled) :
    faultsOf (out :: rest) = out.errors ++ faultsOf rest := List.flatMap_cons

namespace Assembler

@[simp] theorem pushAll_nil (a : Assembler) : a.pushAll [] = ([], a) := rfl

@[simp] theorem pushAll_cons (a : Assembler) (f : Fragment) (rest : List Fragment) :
    a.pushAll (f :: rest) =
      ((a.push f).1 :: ((a.push f).2.pushAll rest).1, ((a.push f).2.pushAll rest).2) := rfl

/-- Reading frames in two parts is reading them at once. -/
theorem pushAll_append (a : Assembler) (front back : List Fragment) :
    a.pushAll (front ++ back) =
      ((a.pushAll front).1 ++ ((a.pushAll front).2.pushAll back).1,
        ((a.pushAll front).2.pushAll back).2) := by
  induction front generalizing a with
  | nil => rfl
  | cons f front ih => simp only [List.cons_append, pushAll_cons, ih]

/-- Reading one frame more. -/
theorem pushAll_take_succ (a : Assembler) {frames : List Fragment} {count : Nat}
    (h : count < frames.length) :
    a.pushAll (frames.take (count + 1)) =
      ((a.pushAll (frames.take count)).1 ++
          [((a.pushAll (frames.take count)).2.push frames[count]).1],
        ((a.pushAll (frames.take count)).2.push frames[count]).2) := by
  rw [List.take_succ_eq_append_getElem h, pushAll_append]
  rfl

end Assembler

/-- A reading that returned `packets`, revealed no fault and left the assembler at `slot`. -/
structure Reads (limit : Nat) (start : Slot) (frames : List Fragment) (packets : List Bytes)
    (slot : Slot) : Prop where
  packets_eq : packetsOf (Assembler.pushAll ⟨limit, start⟩ frames).1 = packets
  faults_eq : faultsOf (Assembler.pushAll ⟨limit, start⟩ frames).1 = []
  assembler_eq : (Assembler.pushAll ⟨limit, start⟩ frames).2 = ⟨limit, slot⟩

namespace Reads

variable {limit : Nat}

theorem nil (limit : Nat) (slot : Slot) : Reads limit slot [] [] slot := ⟨rfl, rfl, rfl⟩

theorem append {start middle slot : Slot} {front back : List Fragment}
    {early late : List Bytes} (hfront : Reads limit start front early middle)
    (hback : Reads limit middle back late slot) :
    Reads limit start (front ++ back) (early ++ late) slot := by
  have hstate := hfront.assembler_eq
  refine ⟨?_, ?_, ?_⟩
  · rw [Assembler.pushAll_append, packetsOf_append, hstate, hfront.packets_eq, hback.packets_eq]
  · rw [Assembler.pushAll_append, faultsOf_append, hstate, hfront.faults_eq, hback.faults_eq]
    rfl
  · rw [Assembler.pushAll_append, hstate, hback.assembler_eq]

/-- A step that reports no fault is a reading of one frame. -/
theorem single {start slot : Slot} {f : Fragment} (packet : Option Bytes)
    (h : Assembler.push ⟨limit, start⟩ f = ({ packet := packet }, ⟨limit, slot⟩)) :
    Reads limit start [f] packet.toList slot := by
  refine ⟨?_, ?_, ?_⟩ <;> simp [h]

/-- A frame that holds a whole packet returns it. -/
theorem only {f : Fragment} (h : f.position = .only) :
    Reads limit .idle [f] [f.payload] .idle := by
  refine single (some f.payload) ?_
  simp [Assembler.push, h, Assembler.interruption]

/-- A first frame opens its packet. -/
theorem first {f : Fragment} {total : UInt32} (h : f.position = .first total)
    (hlimit : total.toNat ≤ limit) (hroom : f.payload.length ≤ total.toNat) :
    Reads limit .idle [f] [] (.collecting (.ofFirst f.seq total.toNat f.payload)) := by
  refine single none ?_
  simp [Assembler.push, h, Assembler.interruption, Assembler.openSlot, Nat.not_lt.2 hlimit,
    Nat.not_lt.2 hroom]

/-- A middle frame extends the open packet. -/
theorem middle {p : OpenPacket} {f : Fragment} (h : f.position = .middle)
    (hroom : (p.extend f.payload).received ≤ p.announced) :
    Reads limit (.collecting p) [f] [] (.collecting (p.extend f.payload)) := by
  refine single none ?_
  simp [Assembler.push, h, Assembler.resume, Assembler.continueSlot, Nat.not_lt.2 hroom]

/-- A last frame that brings the announced length returns the packet. -/
theorem last {p : OpenPacket} {f : Fragment} (h : f.position = .last)
    (hfull : (p.extend f.payload).received = p.announced) :
    Reads limit (.collecting p) [f] [(p.extend f.payload).bytes] .idle := by
  refine single (some (p.extend f.payload).bytes) ?_
  simp [Assembler.push, h, Assembler.resume, Assembler.continueSlot, hfull]

/-- Reading one frame more is a step of the assembler. -/
theorem next {frames : List Fragment} {early later : List Bytes} {start slot slot' : Slot}
    {count : Nat} (hcount : count < frames.length)
    (h : Reads limit start (frames.take count) early slot)
    (h' : Reads limit start (frames.take (count + 1)) later slot') :
    (Assembler.push ⟨limit, slot⟩ frames[count]).1.errors = [] ∧
      later = early ++ (Assembler.push ⟨limit, slot⟩ frames[count]).1.packet.toList ∧
      (Assembler.push ⟨limit, slot⟩ frames[count]).2 = ⟨limit, slot'⟩ := by
  have hstep := Assembler.pushAll_take_succ ⟨limit, start⟩ hcount
  rw [h.assembler_eq] at hstep
  have hpackets := h'.packets_eq
  have hfaults := h'.faults_eq
  have hassembler := h'.assembler_eq
  rw [hstep] at hpackets hfaults hassembler
  refine ⟨?_, ?_, hassembler⟩
  · rw [faultsOf_append, h.faults_eq] at hfaults
    simpa using hfaults
  · rw [packetsOf_append, h.packets_eq] at hpackets
    simpa using hpackets.symm

end Reads

@[simp] theorem OpenPacket.bytes_extend (p : OpenPacket) (payload : Bytes) :
    (p.extend payload).bytes = p.bytes ++ payload := by
  simp [OpenPacket.bytes, OpenPacket.extend]

@[simp] theorem OpenPacket.bytes_ofFirst (seq : UInt32) (announced : Nat) (payload : Bytes) :
    (OpenPacket.ofFirst seq announced payload).bytes = payload := by
  simp [OpenPacket.bytes, OpenPacket.ofFirst]

theorem OpenPacket.received_extend (p : OpenPacket) (payload : Bytes) :
    (p.extend payload).received = p.received + payload.length := rfl

/-- Middle frames that stay within the announced length are collected. -/
theorem Reads.middles (limit : Nat) (p : OpenPacket) {middles : List Fragment}
    (hpos : ∀ f ∈ middles, f.position = .middle)
    (hroom : p.received + (middles.map Fragment.payload).flatten.length ≤ p.announced) :
    ∃ q : OpenPacket, Reads limit (.collecting p) middles [] (.collecting q) ∧
      q.announced = p.announced ∧
      q.bytes = p.bytes ++ (middles.map Fragment.payload).flatten := by
  induction middles generalizing p with
  | nil => exact ⟨p, Reads.nil limit _, rfl, by simp⟩
  | cons f rest ih =>
    rw [List.map_cons, List.flatten_cons, List.length_append, ← Nat.add_assoc] at hroom
    have hstep : Reads limit (.collecting p) [f] [] (.collecting (p.extend f.payload)) := by
      refine Reads.middle (hpos f List.mem_cons_self) ?_
      rw [OpenPacket.received_extend]
      omega
    obtain ⟨q, hq, hannounced, hbytes⟩ :=
      ih (p.extend f.payload) (fun g hg => hpos g (List.mem_cons_of_mem f hg)) hroom
    refine ⟨q, hstep.append hq, hannounced, ?_⟩
    rw [hbytes, OpenPacket.bytes_extend, List.map_cons, List.flatten_cons, List.append_assoc]

/-- The first frame and middle frames that stay within the announced length leave the packet
open. -/
theorem Reads.collects {limit : Nat} {first : Fragment} {middles : List Fragment} {total : UInt32}
    (opens : first.position = .first total) (hlimit : total.toNat ≤ limit)
    (continues : ∀ f ∈ middles, f.position = .middle)
    (hroom : first.payload.length + (middles.map Fragment.payload).flatten.length ≤ total.toNat) :
    ∃ q : OpenPacket, Reads limit .idle (first :: middles) [] (.collecting q) ∧
      q.announced = total.toNat ∧
      q.bytes = first.payload ++ (middles.map Fragment.payload).flatten := by
  have hopen : Reads limit .idle [first] []
      (.collecting (.ofFirst first.seq total.toNat first.payload)) :=
    Reads.first opens hlimit (by omega)
  obtain ⟨q, hq, hannounced, hbytes⟩ :=
    Reads.middles limit (.ofFirst first.seq total.toNat first.payload) continues hroom
  refine ⟨q, hopen.append hq, hannounced, ?_⟩
  rw [hbytes, OpenPacket.bytes_ofFirst]

/-- The frames of a packet within the limit return it, and only with the last of them. -/
theorem Carries.reads {packet : Bytes} {frames : List Fragment} {limit : Nat}
    (h : Carries packet frames) (hlimit : packet.length ≤ limit) :
    Reads limit .idle frames [packet] .idle ∧
      ∀ count < frames.length, ∃ slot, Reads limit .idle (frames.take count) [] slot := by
  cases h with
  | whole position payload =>
    subst payload
    refine ⟨.only position, fun count hcount => ⟨.idle, ?_⟩⟩
    have hzero : count = 0 := by
      rw [List.length_singleton] at hcount
      omega
    subst hzero
    exact .nil limit .idle
  | @spread first last middles total opens announced continues ends payloads =>
    have hlen := congrArg List.length payloads
    simp only [List.length_append] at hlen
    have htotal : total.toNat ≤ limit := announced ▸ hlimit
    refine ⟨?_, fun count hcount => ?_⟩
    · obtain ⟨q, hq, hannounced, hbytes⟩ := Reads.collects opens htotal continues (by omega)
      have hfull : (q.extend last.payload).received = q.announced := by
        rw [← OpenPacket.length_bytes, OpenPacket.bytes_extend, hbytes, hannounced, announced,
          ← payloads, List.append_assoc]
      have hlast : Reads limit (.collecting q) [last] [(q.extend last.payload).bytes] .idle :=
        Reads.last ends hfull
      rw [OpenPacket.bytes_extend, hbytes, List.append_assoc, payloads] at hlast
      exact hq.append hlast
    · cases count with
      | zero => exact ⟨.idle, .nil limit .idle⟩
      | succ count =>
        simp only [List.length_cons, List.length_append, List.length_nil] at hcount
        have hfewer : ((middles.take count).map Fragment.payload).flatten.length ≤
            (middles.map Fragment.payload).flatten.length := by
          have hsplit := congrArg (fun fs => (fs.map Fragment.payload).flatten.length)
            (List.take_append_drop count middles)
          simp only [List.map_append, List.flatten_append, List.length_append] at hsplit
          omega
        have hmiddle : ∀ f ∈ middles.take count, f.position = .middle :=
          fun f hf => continues f (List.mem_of_mem_take hf)
        obtain ⟨q, hq, -, -⟩ := Reads.collects opens htotal hmiddle (by omega)
        refine ⟨.collecting q, ?_⟩
        rw [List.take_succ_cons, List.take_append_of_le_length (by omega)]
        exact hq

/-- After all frames every packet has been returned, and the assembler is idle. -/
theorem CarriesAll.read_all {packets : List Bytes} {frames : List Fragment} {limit : Nat}
    (h : CarriesAll packets frames) (hlimit : ∀ p ∈ packets, p.length ≤ limit) :
    Reads limit .idle frames packets .idle := by
  induction h with
  | nil => exact .nil limit .idle
  | @cons packet packets frames rest head _ ih =>
    have hhead := (head.reads (hlimit packet List.mem_cons_self)).1
    exact hhead.append (ih fun p hp => hlimit p (List.mem_cons_of_mem packet hp))

/-- After any number of frames no fault has been reported, and the packets returned are a prefix of
those that the frames carry. -/
theorem CarriesAll.read_take {packets : List Bytes} {frames : List Fragment} {limit : Nat}
    (h : CarriesAll packets frames) (hlimit : ∀ p ∈ packets, p.length ≤ limit) (count : Nat) :
    ∃ early slot, Reads limit .idle (frames.take count) early slot ∧ early <+: packets := by
  induction h generalizing count with
  | nil =>
    rw [List.take_nil]
    exact ⟨[], .idle, .nil limit .idle, List.prefix_refl _⟩
  | @cons packet packets frames rest head tail ih =>
    obtain ⟨hwhole, hpart⟩ := head.reads (hlimit packet List.mem_cons_self)
    by_cases hcount : count < frames.length
    · obtain ⟨slot, hslot⟩ := hpart count hcount
      refine ⟨[], slot, ?_, List.nil_prefix⟩
      rw [List.take_append_of_le_length (Nat.le_of_lt hcount)]
      exact hslot
    · obtain ⟨early, slot, hearly, hinitial⟩ :=
        ih (fun p hp => hlimit p (List.mem_cons_of_mem packet hp)) (count - frames.length)
      refine ⟨packet :: early, slot, ?_, (List.prefix_cons_inj packet).2 hinitial⟩
      rw [List.take_append, List.take_of_length_le (Nat.le_of_not_lt hcount)]
      exact hwhole.append hearly

end DatagramTunnel.Packet
