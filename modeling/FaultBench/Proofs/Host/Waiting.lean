import FaultBench.Proofs.Host.Delays
import FaultBench.Proofs.Host.Reading

/-! Calls on a link, one after another: packets, and the wait for a reset, which reads packets one
by one in the time that is left to it. What they see together is what the bytes that they read
hold. -/
namespace FaultBench.Host
open Wire

namespace Reached

variable {α : Type} (entries : List Log.Entry) (r : Reached α)

@[simp] lemma logged_nil : r.logged [] = r := rfl

@[simp] lemma result_logged : (r.logged entries).result = r.result := rfl

@[simp] lemma link_logged : (r.logged entries).link = r.link := rfl

@[simp] lemma log_logged : (r.logged entries).log = entries ++ r.log := rfl

@[simp] lemma logged_logged (first : List Log.Entry) :
    (r.logged entries).logged first = r.logged (first ++ entries) := by
  simp [logged]

end Reached

namespace Link

variable {wanted : Packet → Bool} {deadline : ℕ} {reading : Bool} {s : Serial} {a : Assembler}

/-- What is logged of a frame's reading that is no packet. -/
def remarks : Option (Except FrameError Packet) → List Log.Entry
  | some (.error .empty) => []
  | some (.error e) => [logBadFrame e]
  | _ => []

/-- A byte ends listening if it completes a packet that is wanted. -/
lemma listen_byte (hopen : (!reading && decide (deadline ≤ s.clock)) = false) (b : UInt8)
    (items : List Arrival) :
    listen wanted deadline reading s a (.byte b :: items) =
      let s := { s with clock := s.clock + s.byteTime }
      let later := listen wanted deadline false s (a.push b).2 items
      match (a.push b).1 with
      | some (.ok p) =>
        if wanted p then (heard (.ok (some p)) s (a.push b).2 items).logged [logPacket p]
        else later.logged [logPacket p, logIgnored p]
      | answer => later.logged (remarks answer) := by
  simp only [listen, hopen, Bool.false_eq_true, if_false]
  rcases a.push b with ⟨_ | e | p, a'⟩
  · rfl
  · cases e <;> rfl
  · rfl

/-- What a line held before has no part in listening. -/
lemma listen_incoming (reading : Bool) (s : Serial) (a : Assembler) (before items : List Arrival) :
    listen wanted deadline reading { s with incoming := before } a items =
      listen wanted deadline reading s a items := by
  induction items generalizing reading s a with
  | nil => rfl
  | cons x items ih =>
    cases hopen : !reading && decide (deadline ≤ s.clock) with
    | true =>
      simp only [listen, hopen, if_true]
      rfl
    | false =>
      cases x with
      | byte b =>
        have hlater := ih false { s with clock := s.clock + s.byteTime } (a.push b).2
        rw [listen_byte hopen, listen_byte (s := { s with incoming := before }) hopen]
        dsimp only at hlater ⊢
        rw [hlater]
        rfl
      | stall time =>
        simp only [listen, hopen]
        exact ih false { s with clock := s.clock + time } a
      | pause time =>
        simp only [listen, hopen]
        exact ih true { s with clock := s.clock + time } a
      | hangUp =>
        simp only [listen, hopen]
        rfl
      | failure e =>
        simp only [listen, hopen]
        rfl

/-- Behind any packet: listening ends if it is wanted, and goes on otherwise. -/
def goOn (wanted : Packet → Bool) (deadline : ℕ) (r : Reached (Option Packet)) :
    Reached (Option Packet) :=
  match r.result with
  | .ok (some p) =>
    if wanted p then r
    else (listen wanted deadline false r.link.serial r.link.assembler
      r.link.serial.incoming).logged (r.log ++ [logIgnored p])
  | _ => r

lemma goOn_logged (entries : List Log.Entry) (r : Reached (Option Packet)) :
    goOn wanted deadline (r.logged entries) = (goOn wanted deadline r).logged entries := by
  simp only [goOn, Reached.result_logged]
  split
  · split
    · rfl
    · simp [List.append_assoc]
  · rfl

/-- To listen for some packets is to listen for any, and to go on. -/
theorem listen_eq_goOn (reading : Bool) (s : Serial) (a : Assembler) (items : List Arrival) :
    listen wanted deadline reading s a items =
      goOn wanted deadline (listen (fun _ => true) deadline reading s a items) := by
  induction items generalizing reading s a with
  | nil => rfl
  | cons x items ih =>
    cases hopen : !reading && decide (deadline ≤ s.clock) with
    | true =>
      simp only [listen, hopen, if_true]
      rfl
    | false =>
      cases x with
      | byte b =>
        rw [listen_byte hopen, listen_byte hopen]
        dsimp only
        split
        · next p hp =>
          rw [if_pos rfl]
          simp only [goOn, heard, Reached.result_logged, Reached.link_logged]
          split
          · rfl
          · exact congrArg (Reached.logged _) (listen_incoming false
              { s with clock := s.clock + s.byteTime } (a.push b).2 items items).symm
        · rw [ih, goOn_logged]
      | stall time =>
        simp only [listen, hopen]
        exact ih false { s with clock := s.clock + time } a
      | pause time =>
        simp only [listen, hopen]
        exact ih true { s with clock := s.clock + time } a
      | hangUp =>
        simp only [listen, hopen]
        rfl
      | failure e =>
        simp only [listen, hopen]
        rfl

/-- To read in the time that is left is to listen up to the deadline, also when it has passed. -/
lemma readPacket_left (l : Link) (deadline : ℕ) :
    l.readPacket (deadline - l.serial.clock) =
      listen (fun _ => true) deadline false l.serial l.assembler l.serial.incoming := by
  obtain hlate | htime := Nat.le_total deadline l.serial.clock
  · rw [Nat.sub_eq_zero_of_le hlate, readPacket, await]
    cases l.serial.incoming with
    | nil => simp [listen, Serial.silentUntil, hlate]
    | cons x items => simp [listen, hlate]
  · rw [readPacket, await, Nat.add_sub_cancel' htime]

/-- A packet takes something off the line. -/
lemma length_incoming_lt {l : Link} {timeout : ℕ} {p : Packet}
    (h : (l.readPacket timeout).result = .ok (some p)) :
    (l.readPacket timeout).link.serial.incoming.length < l.serial.incoming.length := by
  obtain ⟨front, rest, silent, hsplit, htook⟩ := listen_took (fun _ => true)
    (l.serial.clock + timeout) false l.serial l.assembler l.serial.incoming
  obtain ⟨passed, -, -, hheard⟩ := htook.packets
  obtain ⟨-, before, rfl, -⟩ := hheard p h
  have hrest : (l.readPacket timeout).link.serial.incoming = rest :=
    congrArg (·.serial.incoming) htook.link
  rw [hrest, hsplit]
  simp
  omega

/-- Packets are read one by one, each in the time that is left, up to one that is wanted: what is
seen of them, and what it comes to. -/
def readUntil (wanted : Packet → Bool) (deadline : ℕ) (l : Link) :
    List Packet × Reached (Option Packet) :=
  let r := l.readPacket (deadline - l.serial.clock)
  match h : r.result with
  | .ok (some p) =>
    if wanted p then ([p], r)
    else
      have := length_incoming_lt h
      let later := readUntil wanted deadline r.link
      (p :: later.1, later.2.logged (r.log ++ [logIgnored p]))
  | _ => ([], r)
termination_by l.serial.incoming.length

/-- Reading packets one by one comes to what listening for the wanted ones comes to. -/
theorem readUntil_snd (l : Link) :
    (l.readUntil wanted deadline).2 =
      listen wanted deadline false l.serial l.assembler l.serial.incoming := by
  fun_induction readUntil wanted deadline l with
  | case1 l r p h hw =>
    rw [listen_eq_goOn, ← readPacket_left, goOn, h]
    simp only [hw, if_true]
    rfl
  | case2 l r p h hw hshort later ih =>
    rw [listen_eq_goOn, ← readPacket_left, goOn, h]
    simp only [hw, Bool.false_eq_true, if_false]
    exact congrArg (Reached.logged _) ih
  | case3 l r h =>
    rw [listen_eq_goOn, ← readPacket_left, goOn]
    split
    · next p hp => exact absurd hp (h p)
    · rfl

end Link

/-- What a call is for: any packet, or the one that announces a reset. -/
inductive Aim where
  | packet
  | reset
  deriving DecidableEq, Repr

def Aim.wanted : Aim → Packet → Bool
  | .packet => fun _ => true
  | .reset => Link.isReset

structure Call where
  aim : Aim
  timeout : ℕ
  deriving DecidableEq, Repr

namespace Link

/-- A call: the packets that are seen in it, and the one with which it returns. -/
def carryOut (l : Link) : Call → List Packet × Reached (Option Packet)
  | ⟨.packet, timeout⟩ => (heardOf (l.readPacket timeout).result, l.readPacket timeout)
  | ⟨.reset, timeout⟩ => l.readUntil isReset (l.serial.clock + timeout)

lemma carryOut_snd (l : Link) (c : Call) : (l.carryOut c).2 = l.await c.aim.wanted c.timeout := by
  obtain ⟨_ | _, timeout⟩ := c
  · rfl
  · exact l.readUntil_snd

/-- The wait for a reset tells whether one was found among the packets read one by one. -/
theorem awaitReset_eq (l : Link) (timeout : ℕ) :
    l.awaitReset timeout = (l.carryOut ⟨.reset, timeout⟩).2.map Option.isSome := by
  rw [carryOut_snd]
  rfl

/-- What a single packet takes off the line holds just that packet. -/
lemma readPacket_packets (l : Link) (timeout : ℕ) :
    ∃ taken, l.serial.incoming = taken ++ (l.readPacket timeout).link.serial.incoming ∧
      heardOf (l.readPacket timeout).result = l.assembler.packets (bytesOf taken) ∧
      (l.readPacket timeout).link.assembler = (l.assembler.pushAll (bytesOf taken)).2 := by
  obtain ⟨front, rest, silent, hsplit, htook⟩ := listen_took (fun _ => true)
    (l.serial.clock + timeout) false l.serial l.assembler l.serial.incoming
  obtain ⟨passed, hpassed, hpackets, -⟩ := htook.packets
  have hnone : passed = [] := List.eq_nil_iff_forall_not_mem.mpr fun p hp =>
    Bool.noConfusion (hpassed p hp)
  have hlink : (l.readPacket timeout).link = _ := htook.link
  rw [hnone, List.nil_append] at hpackets
  rw [hlink]
  exact ⟨front, hsplit, hpackets.symm, rfl⟩

/-- Reading packet by packet sees the packets of all that it takes off the line. -/
lemma readUntil_packets (l : Link) :
    ∃ taken,
      l.serial.incoming = taken ++ (l.readUntil wanted deadline).2.link.serial.incoming ∧
      (l.readUntil wanted deadline).1 = l.assembler.packets (bytesOf taken) := by
  fun_induction readUntil wanted deadline l with
  | case1 l r p h hw =>
    obtain ⟨taken, hsplit, hpackets, -⟩ := l.readPacket_packets (deadline - l.serial.clock)
    refine ⟨taken, hsplit, ?_⟩
    rw [← hpackets, h]
    rfl
  | case2 l r p h hw hshort later ih =>
    obtain ⟨first, hfirst, hone, hassembler⟩ := l.readPacket_packets (deadline - l.serial.clock)
    obtain ⟨others, hothers, hmore⟩ := ih
    refine ⟨first ++ others, ?_, ?_⟩
    · rw [hfirst, List.append_assoc]
      exact congrArg (first ++ ·) hothers
    · rw [bytesOf_append, Assembler.packets_append, ← hone, ← hassembler, h]
      exact congrArg (p :: ·) hmore
  | case3 l r h =>
    obtain ⟨taken, hsplit, hpackets, -⟩ := l.readPacket_packets (deadline - l.serial.clock)
    refine ⟨taken, hsplit, ?_⟩
    rw [← hpackets]
    rcases hr : (l.readPacket (deadline - l.serial.clock)).result with _ | _ | p
    · rfl
    · rfl
    · exact absurd hr (h p)

/-- Every call takes items off the front of the line, begins its reads before its deadline, and sees
the packets of the bytes that it takes. -/
theorem carryOut_took (l : Link) (c : Call) :
    ∃ taken rest silent, l.serial.incoming = taken ++ rest ∧
      Took c.aim.wanted (l.serial.clock + c.timeout) false l.serial l.assembler (l.carryOut c).2
        taken rest silent ∧
      (l.carryOut c).1 = l.assembler.packets (bytesOf taken) := by
  have hpackets : ∃ taken, l.serial.incoming = taken ++ (l.carryOut c).2.link.serial.incoming ∧
      (l.carryOut c).1 = l.assembler.packets (bytesOf taken) := by
    obtain ⟨_ | _, timeout⟩ := c
    · obtain ⟨taken, hsplit, hpackets, -⟩ := l.readPacket_packets timeout
      exact ⟨taken, hsplit, hpackets⟩
    · exact l.readUntil_packets
  obtain ⟨taken, hsplit, hseen⟩ := hpackets
  obtain ⟨front, rest, silent, hfront, htook⟩ := listen_took c.aim.wanted
    (l.serial.clock + c.timeout) false l.serial l.assembler l.serial.incoming
  rw [carryOut_snd] at hsplit ⊢
  have hrest : (l.await c.aim.wanted c.timeout).link.serial.incoming = rest :=
    congrArg (·.serial.incoming) htook.link
  rw [hrest, hfront] at hsplit
  rw [← List.append_cancel_right hsplit] at hseen
  exact ⟨front, rest, silent, hfront, htook, hseen⟩

/-- Calls one after another: all packets that are seen in them, and the link behind the last. -/
def carryOutAll (l : Link) : List Call → List Packet × Link
  | [] => ([], l)
  | c :: calls =>
    let later := carryOutAll (l.carryOut c).2.link calls
    ((l.carryOut c).1 ++ later.1, later.2)

lemma carryOutAll_took (l : Link) (calls : List Call) :
    ∃ taken, l.serial.incoming = taken ++ (l.carryOutAll calls).2.serial.incoming ∧
      (l.carryOutAll calls).1 = l.assembler.packets (bytesOf taken) := by
  induction calls generalizing l with
  | nil => exact ⟨[], rfl, rfl⟩
  | cons c calls ih =>
    obtain ⟨first, rest, silent, hsplit, htook, hseen⟩ := l.carryOut_took c
    obtain ⟨others, hothers, hmore⟩ := ih (l.carryOut c).2.link
    simp only [carryOutAll]
    rw [htook.link] at hothers hmore ⊢
    refine ⟨first ++ others, ?_, ?_⟩
    · rw [hsplit, List.append_assoc]
      exact congrArg (first ++ ·) hothers
    · rw [bytesOf_append, Assembler.packets_append, hseen, hmore]

lemma readUntil_fst (wanted : Packet → Bool) (deadline : ℕ) (l : Link) :
    (l.readUntil wanted deadline).1 =
      match (listen (fun _ => true) deadline false l.serial l.assembler
          l.serial.incoming).result with
      | .ok (some p) => p :: if wanted p then [] else
          ((listen (fun _ => true) deadline false l.serial l.assembler
            l.serial.incoming).link.readUntil wanted deadline).1
      | _ => [] := by
  rw [← readPacket_left]
  fun_cases readUntil wanted deadline l with
  | case1 r p h hw =>
    rw [show (l.readPacket _).result = _ from h]
    simp only [hw, if_true]
  | case2 r p h hw =>
    rw [show (l.readPacket _).result = _ from h]
    simp only [hw, if_false, Bool.false_eq_true]
    rfl
  | case3 r h =>
    split
    · next p hp => exact absurd hp (h p)
    · rfl

/-- Links that are alike see the same packets one by one. -/
lemma Alike.sees {l l' : Link} (h : l.Alike l') (wanted : Packet → Bool) (deadline : ℕ) :
    (l.readUntil wanted deadline).1 = (l'.readUntil wanted deadline).1 := by
  obtain ⟨hresult, hlink⟩ := h.hears (fun _ => true) deadline
  rw [readUntil_fst wanted deadline l, readUntil_fst wanted deadline l', ← hresult]
  split
  · next p hp =>
    have hshort : (listen (fun _ => true) deadline false l.serial l.assembler
        l.serial.incoming).link.serial.incoming.length < l.serial.incoming.length := by
      rw [← readPacket_left] at hp ⊢
      exact length_incoming_lt hp
    rw [hlink.sees wanted deadline]
  · rfl
termination_by l.serial.incoming.length

lemma isReset_iff {p : Packet} : isReset p ↔ p.cmd = Command.reset.byte := by
  rw [isReset, decide_eq_true_iff, command?_eq_some_iff]

/-- The wait for a reset: it tells of a reset if that is the last packet it sees, and gives up only
when its time has passed. -/
theorem awaitReset_result (l : Link) (timeout : ℕ) :
    ((l.awaitReset timeout).result = .ok true ↔ ∃ earlier p,
      (l.carryOut ⟨.reset, timeout⟩).1 = earlier ++ [p] ∧ p.cmd = Command.reset.byte) ∧
    ((l.awaitReset timeout).result = .ok false →
      l.serial.clock + timeout ≤ (l.awaitReset timeout).link.serial.clock) := by
  obtain ⟨taken, rest, silent, hsplit, htook, hseen⟩ := l.carryOut_took ⟨.reset, timeout⟩
  obtain ⟨passed, hpassed, hpackets, hheard⟩ := htook.packets
  have hlate := htook.late
  have hothers : ¬ ∃ earlier p, passed = earlier ++ [p] ∧ p.cmd = Command.reset.byte := by
    rintro ⟨earlier, p, rfl, hp⟩
    have hignored : isReset p = false := hpassed p (by simp)
    rw [isReset_iff.mpr hp] at hignored
    cases hignored
  rw [awaitReset_eq, hseen, hpackets]
  simp only [Reached.map]
  generalize (l.carryOut ⟨.reset, timeout⟩).2.result = result at *
  rcases result with e | _ | p
  · simp only [heardOf, List.append_nil]
    exact ⟨⟨nofun, fun h => absurd h hothers⟩, nofun⟩
  · simp only [heardOf, List.append_nil]
    exact ⟨⟨nofun, fun h => absurd h hothers⟩, fun _ => hlate rfl⟩
  · have hp : isReset p := (hheard p rfl).1
    exact ⟨⟨fun _ => ⟨passed, p, rfl, isReset_iff.mp hp⟩, fun _ => rfl⟩, nofun⟩

/-- Links that are alike see the same in calls that end at the same time. -/
theorem Alike.carryOut {l l' : Link} (h : l.Alike l') (aim : Aim) {timeout timeout' : ℕ}
    (hdeadline : l.serial.clock + timeout = l'.serial.clock + timeout') :
    (l.carryOut ⟨aim, timeout⟩).1 = (l'.carryOut ⟨aim, timeout'⟩).1 ∧
      (l.carryOut ⟨aim, timeout⟩).2.result = (l'.carryOut ⟨aim, timeout'⟩).2.result ∧
      (l.carryOut ⟨aim, timeout⟩).2.link.Alike (l'.carryOut ⟨aim, timeout'⟩).2.link := by
  have hheard := h.hears aim.wanted (l.serial.clock + timeout)
  have hends : (l.carryOut ⟨aim, timeout⟩).2.result = (l'.carryOut ⟨aim, timeout'⟩).2.result ∧
      (l.carryOut ⟨aim, timeout⟩).2.link.Alike (l'.carryOut ⟨aim, timeout'⟩).2.link := by
    rw [carryOut_snd, carryOut_snd, await, await, ← hdeadline]
    exact hheard
  refine ⟨?_, hends⟩
  cases aim with
  | packet => exact congrArg heardOf hends.1
  | reset =>
    simp only [Link.carryOut]
    rw [← hdeadline]
    exact h.sees isReset _

/-- Calls on a new link lose no packet and see none twice: together they see the packets of all
bytes that they read. Each begins its reads before its deadline, reads up to the end of the packet
with which it returns, and gives up only behind the deadline. Reads that fail for a time only take
time. -/
theorem calls_see_packets :
    (∀ (s : Serial) (calls : List Call),
      ∃ read, s.incoming = read ++ (carryOutAll ⟨s, {}⟩ calls).2.serial.incoming ∧
        (carryOutAll ⟨s, {}⟩ calls).1 = packets (bytesOf read)) ∧
    (∀ (l : Link) (c : Call), ∃ taken rest silent, l.serial.incoming = taken ++ rest ∧
      Took c.aim.wanted (l.serial.clock + c.timeout) false l.serial l.assembler (l.carryOut c).2
        taken rest silent ∧
      (l.carryOut c).1 = l.assembler.packets (bytesOf taken)) ∧
    (∀ (l : Link) (timeout : ℕ),
      l.readPacket timeout = (l.carryOut ⟨.packet, timeout⟩).2 ∧
      (l.carryOut ⟨.packet, timeout⟩).1 = heardOf (l.readPacket timeout).result ∧
      ((l.readPacket timeout).result = .ok none →
        l.serial.clock + timeout ≤ (l.readPacket timeout).link.serial.clock)) ∧
    (∀ (l : Link) (timeout : ℕ),
      l.awaitReset timeout = (l.carryOut ⟨.reset, timeout⟩).2.map Option.isSome ∧
      ((l.awaitReset timeout).result = .ok true ↔ ∃ earlier p,
        (l.carryOut ⟨.reset, timeout⟩).1 = earlier ++ [p] ∧ p.cmd = Command.reset.byte) ∧
      ((l.awaitReset timeout).result = .ok false →
        l.serial.clock + timeout ≤ (l.awaitReset timeout).link.serial.clock)) ∧
    (∀ (l l' : Link) (aim : Aim) (timeout timeout' : ℕ), l.Alike l' →
      l.serial.clock + timeout = l'.serial.clock + timeout' →
      (l.carryOut ⟨aim, timeout⟩).1 = (l'.carryOut ⟨aim, timeout'⟩).1 ∧
      (l.carryOut ⟨aim, timeout⟩).2.result = (l'.carryOut ⟨aim, timeout'⟩).2.result ∧
      (l.carryOut ⟨aim, timeout⟩).2.link.Alike (l'.carryOut ⟨aim, timeout'⟩).2.link) := by
  refine ⟨fun s calls => ?_, carryOut_took, fun l timeout => ⟨rfl, rfl, ?_⟩,
    fun l timeout => ⟨awaitReset_eq l timeout, awaitReset_result l timeout⟩,
    fun l l' aim timeout timeout' h => h.carryOut aim⟩
  · simp only [packets_eq]
    exact carryOutAll_took ⟨s, {}⟩ calls
  · obtain ⟨taken, rest, silent, -, htook, -⟩ := l.carryOut_took ⟨.packet, timeout⟩
    exact htook.late

/-- A reset marker behind a read that timed out, and without it at the time it took. -/
theorem calls_see_packets_stalled :
    Alike ⟨{ incoming := [.stall 5000, .byte 0x72, .byte 0] }, {}⟩
        ⟨{ clock := 5000, incoming := [.byte 0x72, .byte 0] }, {}⟩ ∧
      (awaitReset ⟨{ incoming := [.stall 5000, .byte 0x72, .byte 0] }, {}⟩ 9000).result = .ok true ∧
      (∃ earlier p, (carryOut ⟨{ incoming := [.stall 5000, .byte 0x72, .byte 0] }, {}⟩
        ⟨.reset, 9000⟩).1 = earlier ++ [p] ∧ p.cmd = Command.reset.byte) ∧
      (carryOut ⟨{ incoming := [.stall 5000, .byte 0x72, .byte 0] }, {}⟩ ⟨.reset, 9000⟩).1 =
        (carryOut ⟨{ clock := 5000, incoming := [.byte 0x72, .byte 0] }, {}⟩ ⟨.reset, 4000⟩).1 := by
  have hreset : (awaitReset ⟨{ incoming := [.stall 5000, .byte 0x72, .byte 0] }, {}⟩ 9000).result =
      .ok true := by decide
  have halike := alike_stall {} {} 5000 [.byte 0x72, .byte 0]
  exact ⟨halike, hreset, (calls_see_packets.2.2.2.1 _ 9000).2.1.mp hreset,
    (calls_see_packets.2.2.2.2 _ _ .reset 9000 4000 halike rfl).1⟩

end Link
end FaultBench.Host
