import FaultBench.Host.Session
import FaultBench.Proofs.Host.Listening

/-! One exchange of the host with a target on a line that loses nothing, and the record of it in a
sink that takes everything. -/
namespace FaultBench.Host
open Wire

namespace Serial

/-- Writes and flushes succeed, and nothing answers them by itself. -/
structure Accepting (s : Serial) : Prop where
  writes : s.writesLeft = none
  flushes : s.flushFails = false
  quiet : s.responder = none

lemma Accepting.send {s : Serial} (h : s.Accepting) (bytes : List UInt8) :
    s.send bytes = (.ok (), { s with sent := s.sent ++ bytes }) := by
  obtain ⟨incoming, clock, byteTime, writesLeft, flushFails, sent, responder⟩ := s
  obtain ⟨rfl, rfl, rfl⟩ := h
  induction bytes generalizing sent with
  | nil => simp [Serial.send]
  | cons b rest ih => simp [Serial.send, Serial.write, Serial.answered, ih]

/-- The line delivers these bytes, and each packet of them within its limit. -/
structure Delivers (s : Serial) (bytes : List UInt8) (limits : List ℕ) : Prop where
  lossless : Lossless s.incoming
  bytes_eq : bytesOf s.incoming = bytes
  onTime : OnTime s.clock (packetTimes s.byteTime s.clock {} s.incoming) limits

end Serial

namespace Link

variable {l : Link} (ack limit : ℕ)

/-- The link behind a start. What was pending of a frame is forgotten. -/
def started (l : Link) : Link :=
  ⟨{ l.serial with sent := l.serial.sent ++ (Packet.bare Command.start.byte).encode }, {}⟩

/-- An exchange is the wait for the acknowledgment and what follows from it. -/
lemma cycle_eq (h : l.serial.Accepting) :
    (l.cycle ack limit).result = ((l.started.readPacket ack).andThen (respond limit)).result ∧
      (l.cycle ack limit).link = ((l.started.readPacket ack).andThen (respond limit)).link := by
  have hstart : l.sendStart = ⟨.ok (), l.started, []⟩ := by
    rw [sendStart, h.send]
    rfl
  rw [cycle, hstart]
  exact ⟨rfl, rfl⟩

/-- A packet that is wanted and in time is heard, and the line goes on to deliver what is behind
it. -/
lemma await_on_time (wanted : Packet → Bool) {s : Serial} {timeout : ℕ} {limits : List ℕ}
    {p : Packet} {bytes more : List UInt8} (hs : s.Delivers bytes (timeout :: limits))
    (hp : Assembler.next {} bytes = some (p, more)) (hw : wanted p) :
    ∃ rest t, (await ⟨s, {}⟩ wanted timeout).result = .ok (some p) ∧
      (await ⟨s, {}⟩ wanted timeout).link = ⟨{ s with clock := t, incoming := rest }, {}⟩ ∧
      Serial.Delivers { s with clock := t, incoming := rest } more limits := by
  obtain ⟨hl, rfl, htimes⟩ := hs
  obtain ⟨t, ts, ht⟩ := packetTimes_of_next s.byteTime s.clock hp
  rw [ht] at htimes
  obtain ⟨rest, hresult, hlink, hbytes, hrest, htail⟩ :=
    listen_on_time false hl hp hw ht htimes.1
  exact ⟨rest, t, hresult, hlink, hrest, hbytes, by rw [htail]; exact htimes.2⟩

/-- An acknowledgment and a response that are both in time decide an exchange. -/
theorem cycle_on_time (h : l.serial.Accepting) {p q : Packet} {bytes m more : List UInt8}
    {limits : List ℕ} (hs : l.serial.Delivers bytes (ack :: limit :: limits))
    (hp : Assembler.next {} bytes = some (p, m)) (hack : p.command? = some .start)
    (hq : Assembler.next {} m = some (q, more)) :
    ∃ rest t, (l.cycle ack limit).result = .ok (response (some q)) ∧
      (l.cycle ack limit).link =
        ⟨{ l.started.serial with clock := t, incoming := rest }, {}⟩ ∧
      Serial.Delivers { l.started.serial with clock := t, incoming := rest } more limits := by
  obtain ⟨hresult, hlink⟩ := cycle_eq ack limit h
  rw [hresult, hlink]
  have hstarted : l.started.serial.Delivers bytes (ack :: limit :: limits) :=
    ⟨hs.lossless, hs.bytes_eq, hs.onTime⟩
  obtain ⟨behind, t, hread, hthere, hbehind⟩ :=
    await_on_time (fun _ => true) hstarted hp rfl
  obtain ⟨rest, u, hread', hthere', hrest⟩ :=
    await_on_time (fun _ => true) hbehind hq rfl
  have hpacket : (l.started.readPacket ack).result = .ok (some p) := hread
  have hthere : (l.started.readPacket ack).link = _ := hthere
  simp only [Reached.andThen, hpacket, hthere, respond, hack]
  exact ⟨rest, u, congrArg (Except.map response) hread', hthere', hrest⟩

/-- On a line that stays open reading a packet takes items off the front, and what is heard was
the first packet of the bytes. -/
lemma readPacket_lossless (l : Link) (timeout : ℕ) (hl : Lossless l.serial.incoming) :
    ∃ front rest clock assembler heard, l.serial.incoming = front ++ rest ∧
      (l.readPacket timeout).result = .ok heard ∧
      (l.readPacket timeout).link = ⟨{ l.serial with clock, incoming := rest }, assembler⟩ ∧
      ∀ p, heard = some p →
        l.assembler.next (bytesOf l.serial.incoming) = some (p, bytesOf rest) ∧ assembler = {} := by
  obtain ⟨front, rest, clock, assembler, heard, hsplit, hresult, hlink⟩ :=
    listen_lossless false (fun _ => true) (l.serial.clock + timeout) l.serial l.assembler hl
  refine ⟨front, rest, clock, assembler, heard, hsplit, hresult, hlink, fun p hp => ?_⟩
  subst hp
  have hnext := next_of_listen false hl hresult
  rw [hlink] at hnext
  exact hnext

/-- What an exchange that tells how a run ended reads first: an acknowledgment with `m` behind it,
and there a report `q` with `rest` behind it. -/
structure Heard (bytes m : List UInt8) (q : Packet) (rest : List UInt8) : Prop where
  acknowledged : ∃ p, Assembler.next {} bytes = some (p, m) ∧ p.command? = some .start
  reported : Assembler.next {} m = some (q, rest)
  decisive : (response (some q)).category = .noFault ∨ (response (some q)).category = .fault

/-- On a line that stays open an exchange always comes to a response, and one that tells how a run
ended follows from the bytes alone. -/
theorem cycle_lossless (h : l.serial.Accepting) (hl : Lossless l.serial.incoming) :
    ∃ front rest clock assembler r, l.serial.incoming = front ++ rest ∧
      (l.cycle ack limit).result = .ok r ∧
      (l.cycle ack limit).link =
        ⟨{ l.started.serial with clock, incoming := rest }, assembler⟩ ∧
      (r.category = .noFault ∨ r.category = .fault → ∃ m q,
        Heard (bytesOf l.serial.incoming) m q (bytesOf rest) ∧ response (some q) = r) := by
  obtain ⟨hresult, hlink⟩ := cycle_eq ack limit h
  rw [hresult, hlink]
  obtain ⟨front, behind, clock, a, heard, hsplit, hread, hthere, hheard⟩ :=
    l.started.readPacket_lossless ack hl
  simp only [Reached.andThen, hread, hthere]
  cases heard with
  | none =>
    exact ⟨front, behind, clock, a, .crash .ackTimeout, hsplit, rfl, rfl,
      by simp [Response.category]⟩
  | some p =>
    obtain ⟨hp, rfl⟩ := hheard p rfl
    by_cases hack : p.command? = some .start
    · have hbehind : Lossless behind := by
        change Lossless l.started.serial.incoming at hl
        rw [hsplit] at hl
        exact ((lossless_append _ _).mp hl).2
      obtain ⟨front', rest, clock', a', answer, hsplit', hread', hthere', hanswer⟩ :=
        readPacket_lossless ⟨{ l.started.serial with clock, incoming := behind }, {}⟩ limit hbehind
      simp only [respond, hack]
      refine ⟨front ++ front', rest, clock', a', response answer, ?_,
        congrArg (Except.map response) hread', hthere', fun hcategory => ?_⟩
      · change l.started.serial.incoming = _
        rw [hsplit, show behind = front' ++ rest from hsplit', List.append_assoc]
      · cases answer with
        | none => simp [response, Response.category] at hcategory
        | some q => exact ⟨_, q, ⟨⟨p, hp, hack⟩, (hanswer q rfl).1, hcategory⟩, rfl⟩
    · obtain ⟨r, hrespond, hr⟩ : ∃ r, (respond limit (some p)
          ⟨{ l.started.serial with clock, incoming := behind }, {}⟩) = ⟨.ok r, _, []⟩ ∧
          ¬ (r.category = .noFault ∨ r.category = .fault) := by
        rw [respond]
        split
        · next h => exact absurd h hack
        · exact ⟨.reset, rfl, by simp [Response.category]⟩
        · exact ⟨.crash (.unexpected p.cmd), rfl, by simp [Response.category]⟩
      rw [hrespond]
      exact ⟨front, behind, clock, {}, r, hsplit, rfl, rfl, fun h => absurd h hr⟩

end Link
end FaultBench.Host
