import FaultBench.Proofs.Host.Exchanges
import FaultBench.Proofs.Host.Reading

/-! What an exchange comes to when its time is enough for all that arrives: the first two packets
decide, whatever else is among the bytes. -/
namespace FaultBench.Host
open Wire

/-- What a packet behind the acknowledgment tells. -/
def report (p : Packet) : Response :=
  if p.cmd = Command.finish.byte then .expected
  else if p.cmd = Command.fault.byte then .fault p.payload
  else if p.cmd = Command.reset.byte then .reset
  else .crash (.unexpected p.cmd)

/-- What the packets that arrive in an exchange tell. -/
def classify : List Packet → Response
  | [] => .crash .ackTimeout
  | p :: more =>
    if p.cmd = Command.start.byte then
      match more with
      | [] => .crash .responseTimeout
      | q :: _ => report q
    else if p.cmd = Command.reset.byte then .reset
    else .crash (.unexpected p.cmd)

lemma classify_of_ne_start {p : Packet} (hp : p.cmd ≠ Command.start.byte) (more : List Packet) :
    classify (p :: more) =
      if p.cmd = Command.reset.byte then .reset else .crash (.unexpected p.cmd) := by
  cases more <;> exact if_neg hp

/-- The packets that decide: an acknowledgment and the one behind it, or the first alone. -/
def decisive : List Packet → List Packet
  | [] => []
  | p :: more => if p.cmd = Command.start.byte then p :: more.take 1 else [p]

/-- The exchange ended for want of a packet. -/
def TimedOut (r : Response) : Prop := r = .crash .ackTimeout ∨ r = .crash .responseTimeout

instance (r : Response) : Decidable (TimedOut r) := inferInstanceAs (Decidable (_ ∨ _))

/-- The bytes hold these packets, and end where the last of them does. -/
def EndsWith (bytes : List UInt8) (ps : List Packet) : Prop :=
  packets bytes = ps ∧ ∃ before, bytes = before ++ [0] ∧ packets before = ps.dropLast

lemma EndsWith.packets_append {bytes : List UInt8} {ps : List Packet} (h : EndsWith bytes ps)
    (later : List UInt8) : packets (bytes ++ later) = ps ++ packets later := by
  obtain ⟨rfl, before, rfl, -⟩ := h
  rw [packets_eq, Assembler.packets_append, Assembler.pushAll_terminated, ← packets_eq,
    ← packets_eq]

lemma EndsWith.append {bytes later : List UInt8} {ps qs : List Packet} (h : EndsWith bytes ps)
    (hlater : EndsWith later qs) (hqs : qs ≠ []) : EndsWith (bytes ++ later) (ps ++ qs) := by
  refine ⟨by rw [h.packets_append, hlater.1], ?_⟩
  obtain ⟨-, before, rfl, hbefore⟩ := hlater
  refine ⟨bytes ++ before, by rw [List.append_assoc], ?_⟩
  rw [h.packets_append, hbefore, List.dropLast_append_of_ne_nil hqs]

lemma begunTimes_append (byteTime clock : ℕ) (reading : Bool) (front rest : List Arrival) :
    ∀ t ∈ begunTimes byteTime clock reading front,
      t ∈ begunTimes byteTime clock reading (front ++ rest) := by
  induction front generalizing clock reading with
  | nil => nofun
  | cons x front ih =>
    intro t ht
    rw [begunTimes, List.mem_append] at ht
    rw [List.cons_append, begunTimes, List.mem_append]
    exact ht.imp_right (ih _ _ t)

lemma duration_append (byteTime : ℕ) (front rest : List Arrival) :
    duration byteTime (front ++ rest) = duration byteTime front + duration byteTime rest := by
  simp [duration]

lemma begunTimes_le (byteTime clock : ℕ) (reading : Bool) (items : List Arrival) :
    ∀ t ∈ begunTimes byteTime clock reading items, t ≤ clock + duration byteTime items := by
  induction items generalizing clock reading with
  | nil => nofun
  | cons x items ih =>
    intro t ht
    rw [begunTimes, List.mem_append] at ht
    rw [duration_cons]
    obtain ht | ht := ht
    · cases reading
      · rw [List.mem_singleton.mp ht]
        omega
      · cases ht
    · have := ih _ _ t ht
      omega

/-- Items among which there is a byte begin with some that bring none. -/
lemma exists_first_byte {items : List Arrival} (h : bytesOf items ≠ []) :
    ∃ vain b rest, items = vain ++ .byte b :: rest ∧ bytesOf vain = [] := by
  induction items with
  | nil => exact absurd rfl h
  | cons x items ih =>
    have hlater (hx : bytesOf [x] = []) :
        ∃ vain b rest, x :: items = vain ++ .byte b :: rest ∧ bytesOf vain = [] := by
      rw [← List.singleton_append, bytesOf_append, hx] at h
      obtain ⟨vain, b, rest, rfl, hvain⟩ := ih h
      refine ⟨x :: vain, b, rest, rfl, ?_⟩
      rw [← List.singleton_append, bytesOf_append, hx, hvain]
      rfl
    cases x with
    | byte b => exact ⟨[], b, items, rfl, rfl⟩
    | stall time => exact hlater rfl
    | pause time => exact hlater rfl
    | hangUp => exact hlater rfl
    | failure e => exact hlater rfl

namespace Serial

variable (s : Serial)

/-- The line when some items have been taken off it. -/
def behind (front rest : List Arrival) : Serial :=
  { s with clock := s.clock + duration s.byteTime front, incoming := rest }

/-- The items end with the first packet among their bytes. -/
def Completes (front : List Arrival) (p : Packet) : Prop :=
  (∃ before, front = before ++ [.byte 0]) ∧ EndsWith (bytesOf front) [p]

/-- No byte up to the end of the first packet is still unread at the deadline. -/
def Punctual (timeout : ℕ) : Prop :=
  ∀ front b rest, s.incoming = front ++ .byte b :: rest → packets (bytesOf front) = [] →
    ∀ t ∈ begunTimes s.byteTime s.clock false (front ++ [.byte b]), t < s.clock + timeout

/-- Neither deadline of an exchange passes while there are bytes to be read before it. There is a
second deadline only behind an acknowledgment. -/
structure InTime (ack limit : ℕ) : Prop where
  first : s.Punctual ack
  second : ∀ front rest p, s.incoming = front ++ rest → Completes front p →
    p.cmd = Command.start.byte → (s.behind front rest).Punctual limit

lemma punctual_of_duration {timeout : ℕ} (h : duration s.byteTime s.incoming < timeout) :
    s.Punctual timeout := by
  intro front b rest hsplit _ t ht
  have hbegun := begunTimes_le _ _ _ _ t ht
  rw [hsplit, ← List.singleton_append, ← List.append_assoc, duration_append] at h
  omega

/-- Whatever the packets are, limits longer than all that arrives are kept. -/
lemma inTime_of_duration {ack limit : ℕ} (hack : duration s.byteTime s.incoming < ack)
    (hlimit : duration s.byteTime s.incoming < limit) : s.InTime ack limit := by
  refine ⟨s.punctual_of_duration hack, fun front rest p hsplit _ _ => ?_⟩
  apply punctual_of_duration
  rw [hsplit, duration_append] at hlimit
  exact Nat.lt_of_le_of_lt (Nat.le_add_left _ _) hlimit

end Serial

namespace Link

/-- A read in time that found no packet has left no byte. -/
lemma bytesOf_rest_of_punctual {s : Serial} {timeout : ℕ} (h : s.Punctual timeout)
    {front rest : List Arrival} {silent : ℕ} (hsplit : s.incoming = front ++ rest)
    (htook : Took (fun _ => true) (s.clock + timeout) false s {} (readPacket ⟨s, {}⟩ timeout) front
      rest silent)
    (hfound : (readPacket ⟨s, {}⟩ timeout).result = .ok none)
    (hpackets : packets (bytesOf front) = []) : bytesOf rest = [] := by
  by_contra hsome
  obtain ⟨vain, b, items, rfl, hvain⟩ := exists_first_byte hsome
  obtain ⟨x, later, hx⟩ : ∃ x later, vain ++ [.byte b] = x :: later :=
    List.exists_cons_of_ne_nil (by simp)
  have hrest : vain ++ .byte b :: items = x :: (later ++ items) := by
    rw [← List.cons_append, ← hx, List.append_assoc, List.singleton_append]
  -- The read behind the last one would have been in time.
  obtain ⟨t, ht, hlate⟩ := htook.unbegun hfound x (by rw [hrest]; rfl)
  have hbegun : t ∈ begunTimes s.byteTime s.clock false (front ++ vain ++ [.byte b]) := by
    rw [List.append_assoc, hx, ← List.singleton_append, ← List.append_assoc]
    exact begunTimes_append _ _ _ _ _ t ht
  have hearly := h (front ++ vain) b items (by rw [hsplit, List.append_assoc])
    (by rw [bytesOf_append, hvain, List.append_nil]; exact hpackets) t hbegun
  omega

/-- In time a packet is read if there is one, and otherwise all bytes are. -/
theorem readPacket_punctual {s : Serial} {timeout : ℕ} (hl : Lossless s.incoming)
    (h : s.Punctual timeout) :
    (packets (bytesOf s.incoming) = [] ∧ (readPacket ⟨s, {}⟩ timeout).result = .ok none ∧
      ∃ clock rest a, (readPacket ⟨s, {}⟩ timeout).link = ⟨{ s with clock, incoming := rest }, a⟩ ∧
        bytesOf rest = []) ∨
    ∃ p front rest, s.incoming = front ++ rest ∧ Serial.Completes front p ∧
      (readPacket ⟨s, {}⟩ timeout).result = .ok (some p) ∧
      (readPacket ⟨s, {}⟩ timeout).link = ⟨s.behind front rest, {}⟩ := by
  obtain ⟨front, rest, silent, hsplit, htook⟩ := listen_took (fun _ => true)
    (s.clock + timeout) false s {} s.incoming
  obtain ⟨-, -, -, -, found, -, hfound, -⟩ := listen_lossless false (fun _ => true)
    (s.clock + timeout) s {} hl
  obtain ⟨passed, hpassed, hpackets, hheard⟩ := htook.packets
  have hnone : passed = [] := List.eq_nil_iff_forall_not_mem.mpr fun p hp =>
    Bool.noConfusion (hpassed p hp)
  subst hnone
  rw [List.nil_append, ← packets_eq, hfound] at hpackets
  cases found with
  | none =>
    have hrest := bytesOf_rest_of_punctual h hsplit htook hfound hpackets
    refine .inl ⟨?_, hfound, _, _, _, htook.link, hrest⟩
    rw [hsplit, bytesOf_append, hrest, List.append_nil]
    exact hpackets
  | some p =>
    obtain ⟨-, before, rfl, hbefore⟩ := hheard p hfound
    have hends : EndsWith (bytesOf (before ++ [.byte 0])) [p] := by
      refine ⟨hpackets, bytesOf before, bytesOf_append _ _, ?_⟩
      rw [packets_eq]
      exact hbefore
    refine .inr ⟨p, _, rest, hsplit, ⟨⟨before, rfl⟩, hends⟩, hfound, ?_⟩
    obtain rfl : silent = 0 := htook.exhausted.resolve_right fun hnone => by
      rw [hfound] at hnone
      cases hnone.2
    refine htook.link.trans ?_
    rw [bytesOf_append, show bytesOf [.byte 0] = [0] from rfl, Assembler.pushAll_terminated,
      silence, List.replicate_zero, List.append_nil]
    rfl

lemma response_eq (q : Packet) : response (some q) = report q := by
  by_cases hs : q.cmd = Command.start.byte
  · simp [response, Packet.command?, report, hs, Command.byte, Command.ofByte?]
  · simp only [response, Packet.command?, Command.ofByte?, report, hs, if_false]
    split_ifs <;> rfl

lemma respond_of_start {p : Packet} (hp : p.cmd = Command.start.byte) (limit : ℕ) (l : Link) :
    respond limit (some p) l = (l.readPacket limit).map response := by
  simp only [respond, command?_eq_some_iff.mpr hp]

/-- A first packet that is no acknowledgment ends the exchange. -/
lemma respond_of_ne_start {p : Packet} (hp : p.cmd ≠ Command.start.byte) (limit : ℕ) (l : Link)
    (more : List Packet) :
    respond limit (some p) l = ⟨.ok (classify (p :: more)), l, []⟩ := by
  rw [classify_of_ne_start hp, respond]
  split
  · next h => exact absurd (command?_eq_some_iff.mp h) hp
  · next h => rw [if_pos (command?_eq_some_iff.mp h)]
  · next h => rw [if_neg (mt command?_eq_some_iff.mpr h)]

lemma not_timedOut_report (q : Packet) : ¬ TimedOut (report q) := by
  rw [report]
  split_ifs <;> simp [TimedOut]

lemma not_timedOut_of_ne_start {p : Packet} (hp : p.cmd ≠ Command.start.byte)
    (more : List Packet) : ¬ TimedOut (classify (p :: more)) := by
  rw [classify_of_ne_start hp]
  split_ifs <;> simp [TimedOut]

/-- The exchange goes on with what is heard behind the start. -/
lemma cycle_of_heard {l : Link} {s : Serial} {ack : ℕ} {found : Option Packet}
    (hsend : l.serial.send startBytes = (.ok (), s))
    (hfound : (readPacket ⟨s, {}⟩ ack).result = .ok found) (limit : ℕ) :
    (l.cycle ack limit).result = (respond limit found (readPacket ⟨s, {}⟩ ack).link).result ∧
      (l.cycle ack limit).link = (respond limit found (readPacket ⟨s, {}⟩ ack).link).link := by
  have hstart : l.sendStart = ⟨.ok (), ⟨s, {}⟩, []⟩ := by
    rw [sendStart, show (Packet.bare Command.start.byte).encode = startBytes from rfl, hsend]
    rfl
  simp only [cycle, hstart, Reached.andThen, hfound, and_self]

/-- The packets that arrive in time decide an exchange, and the first two of them at most. What is
behind the one that decides stays on the line. -/
theorem cycle_classifies {l : Link} {s : Serial} {ack limit : ℕ}
    (hsend : l.serial.send startBytes = (.ok (), s)) (hl : Lossless s.incoming)
    (h : s.InTime ack limit) :
    (l.cycle ack limit).result = .ok (classify (packets (bytesOf s.incoming))) ∧
      (l.cycle ack limit).link.serial.sent = l.serial.sent ++ [0x73, 0x00] ∧
      ∃ consumed,
        bytesOf s.incoming =
          consumed ++ bytesOf (l.cycle ack limit).link.serial.incoming ∧
        if TimedOut (classify (packets (bytesOf s.incoming))) then consumed = bytesOf s.incoming
        else EndsWith consumed (decisive (packets (bytesOf s.incoming))) := by
  suffices hresult : (l.cycle ack limit).result = .ok (classify (packets (bytesOf s.incoming))) ∧
      ∃ consumed, bytesOf s.incoming =
          consumed ++ bytesOf (l.cycle ack limit).link.serial.incoming ∧
        if TimedOut (classify (packets (bytesOf s.incoming))) then consumed = bytesOf s.incoming
        else EndsWith consumed (decisive (packets (bytesOf s.incoming))) from
    ⟨hresult.1, sent_cycle hresult.1, hresult.2⟩
  obtain ⟨hnone, hfound, clock, rest, a, hlink, hrest⟩ |
      ⟨p, front, rest, hsplit, hfront, hfound, hlink⟩ := readPacket_punctual hl h.first
  · obtain ⟨hresult, hthere⟩ := cycle_of_heard hsend hfound limit
    rw [hresult, hthere, hlink, hnone]
    exact ⟨rfl, bytesOf s.incoming, by simp [respond, hrest], by simp [classify, TimedOut]⟩
  obtain ⟨hresult, hthere⟩ := cycle_of_heard hsend hfound limit
  have hpackets : packets (bytesOf s.incoming) = p :: packets (bytesOf rest) := by
    rw [hsplit, bytesOf_append, hfront.2.packets_append]
    rfl
  rw [hresult, hthere, hlink, hpackets]
  by_cases hp : p.cmd = Command.start.byte
  · have hl' : Lossless rest := by
      rw [hsplit] at hl
      exact ((lossless_append _ _).mp hl).2
    simp only [respond_of_start hp, Reached.map, classify, decisive, hp, if_true]
    obtain ⟨hnone, hfound', clock, rest', a, hlink', hrest'⟩ |
        ⟨q, front', rest', hsplit', hfront', hfound', hlink'⟩ :=
      readPacket_punctual (s := s.behind front rest) hl' (h.second front rest p hsplit hfront hp)
    · have hnone : packets (bytesOf rest) = [] := hnone
      rw [hfound', hlink', hnone]
      exact ⟨rfl, bytesOf s.incoming, by simp [hrest'], by simp [TimedOut]⟩
    · have hsplit' : rest = front' ++ rest' := hsplit'
      have hpackets' : packets (bytesOf rest) = q :: packets (bytesOf rest') := by
        rw [hsplit', bytesOf_append, hfront'.2.packets_append]
        rfl
      rw [hfound', hlink', hpackets']
      refine ⟨congrArg Except.ok (response_eq q), bytesOf front ++ bytesOf front', ?_, ?_⟩
      · rw [hsplit, hsplit', bytesOf_append, bytesOf_append, List.append_assoc]
        rfl
      · rw [if_neg (not_timedOut_report q)]
        exact hfront.2.append hfront'.2 (by simp)
  · rw [respond_of_ne_start hp limit _ (packets (bytesOf rest))]
    refine ⟨rfl, bytesOf front, by rw [hsplit, bytesOf_append]; rfl, ?_⟩
    rw [if_neg (not_timedOut_of_ne_start hp _), decisive, if_neg hp]
    exact hfront.2

/-- An empty frame and a broken one, an acknowledgment behind a read that fails, a response after a
pause, and the beginning of a frame. -/
def noisy : List Arrival :=
  [.byte 0, .byte 0x66, .byte 9, .byte 0, .stall 5, .byte 0x73, .byte 0, .pause 7, .byte 0x65,
    .byte 0, .byte 0x61]

/-- The host holds a piece of a frame before the exchange. -/
theorem cycle_classifies_noisy :
    Serial.send { incoming := noisy } startBytes =
        (.ok (), { incoming := noisy, sent := startBytes }) ∧
      Lossless noisy ∧
      Serial.InTime { incoming := noisy, sent := startBytes } 20 20 ∧
      (cycle ⟨{ incoming := noisy }, ⟨[0x41]⟩⟩ 20 20).result = .ok .expected := by
  have hsend : Serial.send { incoming := noisy } startBytes =
      (.ok (), { incoming := noisy, sent := startBytes }) := by decide
  have hl : Lossless noisy := by simp [noisy, lossless_nil]
  have htime : Serial.InTime { incoming := noisy, sent := startBytes } 20 20 :=
    Serial.inTime_of_duration _ (by decide) (by decide)
  have hpackets : classify (packets (bytesOf noisy)) = .expected := by decide +kernel
  have hcycle := cycle_classifies (l := ⟨{ incoming := noisy }, ⟨[0x41]⟩⟩) hsend hl htime
  exact ⟨hsend, hl, htime, by rw [hcycle.1, hpackets]⟩

end Link
end FaultBench.Host
