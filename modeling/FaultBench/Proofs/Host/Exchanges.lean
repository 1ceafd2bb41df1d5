import FaultBench.Proofs.Host.Exchange

/-! Exchange after exchange on a link of any kind: what they come to, where the port fails, and what
was sent until then. -/
namespace FaultBench.Host
open Wire

/-- The bytes of a start. -/
def startBytes : List UInt8 := [0x73, 0]

namespace Serial

@[simp] lemma sent_answered (s : Serial) (b : UInt8) : (s.answered b).sent = s.sent := by
  rw [answered]
  split
  · rfl
  · split <;> rfl

/-- Whatever answers at the other end. -/
lemma sent_write {s t : Serial} {b : UInt8} (h : s.write b = .ok t) : t.sent = s.sent ++ [b] := by
  rw [write] at h
  split at h
  · cases h
  · cases h
    exact sent_answered _ b

lemma sent_send {s : Serial} {bytes : List UInt8} (h : (s.send bytes).1 = .ok ()) :
    (s.send bytes).2.sent = s.sent ++ bytes := by
  induction bytes generalizing s with
  | nil => simp [send]
  | cons b rest ih =>
    cases hwrite : s.write b with
    | error e =>
      rw [send, hwrite] at h
      cases h
    | ok t =>
      simp only [send, hwrite] at h ⊢
      rw [ih h, sent_write hwrite, List.append_assoc]
      rfl

lemma sent_prefix_send (s : Serial) (bytes : List UInt8) : s.sent <+: (s.send bytes).2.sent := by
  induction bytes generalizing s with
  | nil => exact List.prefix_rfl
  | cons b rest ih =>
    cases hwrite : s.write b with
    | error e => simp [send, hwrite]
    | ok t =>
      simp only [send, hwrite]
      have hsent : s.sent <+: t.sent := by
        rw [sent_write hwrite]
        exact List.prefix_append _ _
      exact hsent.trans (ih t)

end Serial

namespace Link

variable {l : Link} {ack limit : ℕ} {response : Response} {e : LinkError}

/-- Nothing is sent while the host listens. -/
lemma sent_listen (wanted : Packet → Bool) (deadline : ℕ) (reading : Bool) (serial : Serial)
    (a : Assembler) (items : List Arrival) :
    (listen wanted deadline reading serial a items).link.serial.sent = serial.sent := by
  fun_induction listen wanted deadline reading serial a items with
  -- The ends of listening, and the steps that listen on.
  | case1 | case2 | case5 | case6 | case10 => rfl
  | _ => assumption

lemma sent_readPacket (l : Link) (timeout : ℕ) :
    (l.readPacket timeout).link.serial.sent = l.serial.sent := sent_listen _ _ _ _ _ _

lemma sent_awaitReset (l : Link) (timeout : ℕ) :
    (l.awaitReset timeout).link.serial.sent = l.serial.sent := sent_listen _ _ _ _ _ _

lemma sent_respond (limit : ℕ) (heard : Option Packet) (l : Link) :
    (respond limit heard l).link.serial.sent = l.serial.sent := by
  cases heard with
  | none => rfl
  | some p =>
    rw [respond]
    split
    · exact l.sent_readPacket limit
    · rfl
    · rfl

/-- An exchange sends its start, as far as the line takes it, and nothing else. -/
lemma sent_cycle_eq (l : Link) (ack limit : ℕ) :
    (l.cycle ack limit).link.serial.sent = l.sendStart.link.serial.sent := by
  rw [cycle, Reached.andThen]
  split
  · rfl
  · rw [Reached.andThen]
    split
    · exact sent_readPacket _ _
    · exact (sent_respond _ _ _).trans (sent_readPacket _ _)

lemma sent_prefix_cycle (l : Link) (ack limit : ℕ) :
    l.serial.sent <+: (l.cycle ack limit).link.serial.sent := by
  rw [sent_cycle_eq]
  exact l.serial.sent_prefix_send (Packet.bare Command.start.byte).encode

/-- An exchange that comes to a response sent one start. -/
lemma sent_cycle (h : (l.cycle ack limit).result = .ok response) :
    (l.cycle ack limit).link.serial.sent = l.serial.sent ++ startBytes := by
  rw [sent_cycle_eq]
  cases hsend : (l.serial.send (Packet.bare Command.start.byte).encode).1 with
  | error e =>
    have hstart : l.sendStart.result = .error (.startFailed e) :=
      congrArg (Except.mapError LinkError.startFailed) hsend
    rw [cycle, Reached.andThen, hstart] at h
    cases h
  | ok u => exact Serial.sent_send hsend

end Link

/-- Exchanges one after the other: the responses, each with the time that it took, and whether the
port failed in the end. -/
structure Exchanges where
  responses : List (Response × ℕ)
  result : Except LinkError Unit
  link : Link

namespace Link

/-- A number of exchanges, or fewer if the port fails. -/
def exchange (ack limit : ℕ) (l : Link) : ℕ → Exchanges
  | 0 => ⟨[], .ok (), l⟩
  | more + 1 =>
    match (l.cycle ack limit).result with
    | .error e => ⟨[], .error e, (l.cycle ack limit).link⟩
    | .ok response =>
      let later := (l.cycle ack limit).link.exchange ack limit more
      let time := (l.cycle ack limit).link.serial.clock - l.serial.clock
      { later with responses := (response, time) :: later.responses }

variable {l : Link} {ack limit n : ℕ} {e : LinkError}

lemma exchange_completed (h : (l.exchange ack limit n).result = .ok ()) :
    (l.exchange ack limit n).responses.length = n ∧
      (l.exchange ack limit n).link.serial.sent =
        l.serial.sent ++ (List.replicate n startBytes).flatten := by
  induction n generalizing l with
  | zero => simp [exchange]
  | succ n ih =>
    cases hcycle : (l.cycle ack limit).result with
    | error e =>
      rw [exchange, hcycle] at h
      cases h
    | ok response =>
      simp only [exchange, hcycle] at h ⊢
      obtain ⟨hlength, hsent⟩ := ih h
      refine ⟨congrArg (· + 1) hlength, ?_⟩
      rw [hsent, sent_cycle hcycle, List.append_assoc, List.replicate_succ, List.flatten_cons]

/-- A port that fails does so in the exchange behind the last one that came to a response. -/
lemma exchange_failed (h : (l.exchange ack limit n).result = .error e) :
    (l.exchange ack limit n).responses.length < n ∧
      ∃ last, l.exchange ack limit (l.exchange ack limit n).responses.length =
        ⟨(l.exchange ack limit n).responses, .ok (), last⟩ ∧
      (last.cycle ack limit).result = .error e := by
  induction n generalizing l with
  | zero => cases h
  | succ n ih =>
    cases hcycle : (l.cycle ack limit).result with
    | error e' =>
      simp only [exchange, hcycle] at h ⊢
      cases h
      exact ⟨Nat.zero_lt_succ n, l, rfl, hcycle⟩
    | ok response =>
      simp only [exchange, hcycle] at h ⊢
      obtain ⟨hlength, last, hbefore, hfailed⟩ := ih h
      refine ⟨Nat.succ_lt_succ hlength, last, ?_, hfailed⟩
      simp only [List.length_cons, exchange, hcycle, hbefore]

end Link
end FaultBench.Host
