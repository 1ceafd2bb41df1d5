import FaultBench.Proofs.Target.Service

/-! What a write asks of its line, request by request. The payload is sealed in a buffer of fixed
size that serves for one packet after the other, and the frame then leaves byte by byte up to the
first byte that is refused. Nothing that the buffer held before gets into a frame. -/
namespace FaultBench.Target
open Wire

/-- What is asked of a line, and whether it was done. -/
inductive Request where
  | write (b : UInt8) (done : Bool)
  | flush (done : Bool)
  deriving DecidableEq, Repr

/-- What an observer sees of a request. A line without a flush of its own shows none. -/
def Request.seen (flushes : Bool) : Request → Option Event
  | .write b true => some (.sent b)
  | .flush true => if flushes then some .flushed else none
  | _ => none

namespace Line

/-- How many of `n` more bytes the line accepts. -/
def accepts (l : Line) (n : ℕ) : ℕ :=
  match l.writeLimit with
  | none => n
  | some (left, _) => min left n

/-- Bytes up to the first one that is refused, and a flush if none is. -/
def requests (l : Line) (bytes : List UInt8) : List Request :=
  (bytes.take (l.accepts bytes.length)).map (.write · true) ++
    match bytes[l.accepts bytes.length]? with
    | some refused => [.write refused false]
    | none => [.flush l.flush.result.isOk]

/-- Sends bytes one by one, and asks for a flush behind the last of them. -/
def ask (l : Line) : List UInt8 → Except LineError Unit × Line × List Request
  | [] => (l.flush.result, l, [.flush l.flush.result.isOk])
  | b :: rest =>
    match l.write with
    | .error e => (.error e, l, [.write b false])
    | .ok l' =>
      let (result, line, requests) := l'.ask rest
      (result, line, .write b true :: requests)

variable {l m : Line}

lemma accepts_of_error {e : LineError} (h : l.write = .error e) (n : ℕ) : l.accepts n = 0 := by
  rw [write] at h
  split at h
  · cases h
  · next hlimit => simp [accepts, hlimit]
  · cases h

lemma accepts_of_ok (h : l.write = .ok m) (n : ℕ) : l.accepts (n + 1) = m.accepts n + 1 := by
  rw [write] at h
  split at h
  · next hlimit =>
    cases h
    simp [accepts, hlimit]
  · cases h
  · next hlimit =>
    cases h
    simp only [accepts, hlimit]
    omega

lemma accepts_le (l : Line) (n : ℕ) : l.accepts n ≤ n := by
  rw [accepts]
  split
  · exact Nat.le_refl n
  · exact Nat.min_le_right _ _

lemma flush_of_write (h : l.write = .ok m) : m.flush.result = l.flush.result := by
  rw [eq_of_write h, flush, flush]
  dsimp only
  split
  · split <;> rfl
  · rfl

lemma requests_nil (l : Line) : l.requests [] = [.flush l.flush.result.isOk] := by
  simp [requests]

lemma requests_of_error {e : LineError} (h : l.write = .error e) (b : UInt8) (rest : List UInt8) :
    l.requests (b :: rest) = [.write b false] := by
  rw [requests, accepts_of_error h]
  rfl

lemma requests_of_ok (h : l.write = .ok m) (b : UInt8) (rest : List UInt8) :
    l.requests (b :: rest) = .write b true :: m.requests rest := by
  rw [requests, requests, List.length_cons, accepts_of_ok h, List.take_succ_cons,
    List.getElem?_cons_succ, flush_of_write h]
  rfl

lemma transmit_of_error {e : LineError} (h : l.write = .error e) (b : UInt8) (rest : List UInt8) :
    l.transmit (b :: rest) = ⟨.error e, l, []⟩ := by rw [transmit, h]

lemma transmit_of_ok (h : l.write = .ok m) (b : UInt8) (rest : List UInt8) :
    l.transmit (b :: rest) =
      { m.transmit rest with events := .sent b :: (m.transmit rest).events } := by
  rw [transmit, h]

/-- A transmission makes these requests, and ends as the one that was refused says. -/
theorem ask_eq (l : Line) (bytes : List UInt8) :
    l.ask bytes = ((l.transmit bytes).result, (l.transmit bytes).line, l.requests bytes) := by
  induction bytes generalizing l with
  | nil =>
    rw [ask, transmit, line_flush, requests_nil]
  | cons b rest ih =>
    cases h : l.write with
    | error e => rw [ask, h, transmit_of_error h, requests_of_error h]
    | ok m => simp only [ask, h, ih, transmit_of_ok h, requests_of_ok h]

theorem events_transmit (l : Line) (bytes : List UInt8) :
    (l.transmit bytes).events = (l.requests bytes).filterMap (Request.seen l.hasFlush) := by
  induction bytes generalizing l with
  | nil =>
    rw [transmit, requests_nil, flush]
    cases l.hasFlush <;> cases l.flushFailure <;> rfl
  | cons b rest ih =>
    cases h : l.write with
    | error e =>
      rw [transmit_of_error h, requests_of_error h]
      rfl
    | ok m =>
      have hflush : m.hasFlush = l.hasFlush := by rw [eq_of_write h]
      rw [transmit_of_ok h, requests_of_ok h, ih, hflush]
      rfl

/-- A transmission succeeds exactly if no byte is refused and the flush succeeds. -/
theorem transmit_ok_iff (l : Line) (bytes : List UInt8) :
    (l.transmit bytes).result = .ok () ↔
      l.accepts bytes.length = bytes.length ∧ l.flush.result = .ok () := by
  induction bytes generalizing l with
  | nil => simp [transmit, Nat.le_zero.mp (l.accepts_le 0)]
  | cons b rest ih =>
    cases h : l.write with
    | error e => simp [transmit_of_error h, accepts_of_error h]
    | ok m =>
      rw [transmit_of_ok h, List.length_cons, accepts_of_ok h, Nat.add_right_cancel_iff,
        ← flush_of_write h]
      exact ih m

end Line

/-- A line with the buffer in which payloads are sealed. -/
structure Transmitter (capacity : ℕ) where
  line : Line
  scratch : Vector UInt8 capacity

/-- The end of a write: its result, the transmitter behind it and what it asked of the line. -/
structure Sent (capacity : ℕ) where
  result : Except ChannelError Unit
  transmitter : Transmitter capacity
  requests : List Request

namespace Transmitter

variable {capacity : ℕ}

/-- Stores bytes from a place on, and fails at the first place outside the buffer. -/
def store (scratch : Vector UInt8 capacity) (place : ℕ) :
    List UInt8 → Option (Vector UInt8 capacity)
  | [] => some scratch
  | b :: bytes =>
    if h : place < capacity then store (scratch.set place b h) (place + 1) bytes else none

/-- Seals a payload over what the buffer holds: the payload first, then its checksum. -/
def sealOver (scratch : Vector UInt8 capacity) (payload : List UInt8) :
    Option (Except FrameError (List UInt8) × Vector UInt8 capacity) :=
  if payload = [] then some (.ok [], scratch)
  else if capacity ≤ payload.length then
    some (.error (.payloadTooLarge payload.length capacity), scratch)
  else do
    let copied ← store scratch 0 payload
    let done ← store copied payload.length [checksum payload]
    return (.ok (done.toList.take (payload.length + 1)), done)

def write (t : Transmitter capacity) (p : Packet) : Option (Sent capacity) :=
  if p.cmd = 0 then some ⟨.error (.frame .reservedCommand), t, []⟩
  else
    (sealOver t.scratch p.payload).map fun
      | (.error e, scratch) => ⟨.error (.frame e), ⟨t.line, scratch⟩, []⟩
      | (.ok block, scratch) =>
        let (result, line, requests) := t.line.ask (frame p.cmd block)
        ⟨result.mapError .transport, ⟨line, scratch⟩, requests⟩

/-- With room for them, the bytes are stored behind those that stand before the place. -/
lemma store_eq (scratch : Vector UInt8 capacity) (place : ℕ) (bytes : List UInt8)
    (h : place + bytes.length ≤ capacity) :
    ∃ stored, store scratch place bytes = some stored ∧
      stored.toList.take (place + bytes.length) = scratch.toList.take place ++ bytes := by
  induction bytes generalizing scratch place with
  | nil => exact ⟨scratch, rfl, (List.append_nil _).symm⟩
  | cons b bytes ih =>
    rw [List.length_cons] at h
    have hplace : place < capacity := by omega
    obtain ⟨stored, hstore, htake⟩ := ih (scratch.set place b hplace) (place + 1) (by omega)
    refine ⟨stored, by rw [store, dif_pos hplace, hstore], ?_⟩
    have hset : (scratch.set place b hplace).toList.take (place + 1) =
        scratch.toList.take place ++ [b] := by
      rw [Vector.toList_set, List.take_add_one, List.take_set_of_le (Nat.le_refl _)]
      simp [hplace]
    rw [List.length_cons, Nat.add_comm bytes.length 1, ← Nat.add_assoc, htake, hset]
    simp

/-- Whatever the buffer holds, it is never too small for a payload that is not turned down. -/
theorem sealOver_eq (scratch : Vector UInt8 capacity) (payload : List UInt8) :
    ∃ behind, sealOver scratch payload = some (sealIn capacity payload, behind) := by
  by_cases hempty : payload = []
  · subst hempty
    exact ⟨scratch, rfl⟩
  by_cases hlong : capacity ≤ payload.length
  · refine ⟨scratch, ?_⟩
    rw [sealOver, if_neg hempty, if_pos hlong, sealIn, if_neg (by simp [hempty, hlong])]
  · have hroom : payload.length < capacity := Nat.lt_of_not_le hlong
    obtain ⟨copied, hcopied, htake⟩ := store_eq scratch 0 payload (by omega)
    obtain ⟨done, hdone, htake'⟩ := store_eq copied payload.length [checksum payload] hroom
    refine ⟨done, ?_⟩
    rw [Nat.zero_add] at htake
    rw [List.length_singleton, htake] at htake'
    rw [sealOver, if_neg hempty, if_neg hlong, hcopied, sealIn_of_lt hroom]
    simp only [Option.bind_eq_bind, Option.bind_some, hdone, htake']
    obtain ⟨b, rest, rfl⟩ := List.exists_cons_of_ne_nil hempty
    rfl

end Transmitter

/-- A packet that has a frame in a channel. -/
def Framed (capacity : ℕ) (p : Packet) : Prop :=
  p.cmd ≠ 0 ∧ (p.payload = [] ∨ p.payload.length < capacity)

instance (capacity : ℕ) (p : Packet) : Decidable (Framed capacity p) :=
  inferInstanceAs (Decidable (_ ∧ _))

/-- What a write comes to: nothing of a packet that has no frame, and otherwise the first bytes of
its frame and a flush behind all of them. -/
structure AllOrPrefix {capacity : ℕ} (c : Channel capacity) (p : Packet) (s : Sent capacity) :
    Prop where
  result : s.result = (c.write p).result
  line : s.transmitter.line = (c.write p).channel.line
  events : (c.write p).events = s.requests.filterMap (Request.seen c.line.hasFlush)
  reserved_iff : (c.write p).result = .error (.frame .reservedCommand) ↔ p.cmd = 0
  tooLarge_iff (length limit : ℕ) :
    (c.write p).result = .error (.frame (.payloadTooLarge length limit)) ↔
      p.cmd ≠ 0 ∧ p.payload ≠ [] ∧ capacity ≤ p.payload.length ∧
        length = p.payload.length ∧ limit = capacity
  refused (h : ¬ Framed capacity p) : s.requests = [] ∧ (c.write p).channel = c
  requests (h : Framed capacity p) : s.requests = c.line.requests p.encode
  sent (h : Framed capacity p) :
    sentBytes (c.write p).events = p.encode.take (c.line.accepts p.encode.length)
  ok_iff (h : Framed capacity p) : (c.write p).result = .ok () ↔
    c.line.accepts p.encode.length = p.encode.length ∧ c.line.flush.result = .ok ()
  flush_last {done : Bool} (h : .flush done ∈ s.requests) :
    s.requests = p.encode.map (.write · true) ++ [.flush done]

lemma sentBytes_seen (l : Line) (bytes : List UInt8) (flushes : Bool) :
    sentBytes ((l.requests bytes).filterMap (Request.seen flushes)) =
      bytes.take (l.accepts bytes.length) := by
  have haccepted (bs : List UInt8) :
      (bs.map (Request.write · true)).filterMap (Request.seen flushes) = bs.map .sent := by
    induction bs with
    | nil => rfl
    | cons b bs ih => exact congrArg (.sent b :: ·) ih
  rw [Line.requests, List.filterMap_append, haccepted, sentBytes_append, sentBytes_map_sent]
  split
  · exact List.append_nil _
  · cases l.flush.result.isOk <;> cases flushes <;> exact List.append_nil _

lemma eq_of_flush_mem {l : Line} {bytes : List UInt8} {done : Bool}
    (h : .flush done ∈ l.requests bytes) :
    l.requests bytes = bytes.map (.write · true) ++ [.flush done] := by
  rw [Line.requests] at h ⊢
  split at h
  · rw [List.mem_append, List.mem_map, List.mem_singleton] at h
    obtain ⟨b, -, hb⟩ | hb := h <;> cases hb
  · next hnone =>
    rw [List.getElem?_eq_none_iff] at hnone
    rw [List.take_of_length_le hnone] at h ⊢
    obtain rfl : done = l.flush.result.isOk := by simpa using h
    rfl

lemma requests_working {l : Line} (h : l.Working) (bytes : List UInt8) :
    l.requests bytes = bytes.map (.write · true) ++ [.flush true] := by
  obtain ⟨hwrite, hflush⟩ := h
  have haccepts : l.accepts bytes.length = bytes.length := by rw [Line.accepts, hwrite]
  have hdone : l.flush.result.isOk = true := by
    rw [Line.flush, hflush]
    split <;> rfl
  rw [Line.requests, haccepts, List.take_length, List.getElem?_eq_none (Nat.le_refl _), hdone]

namespace Channel

variable {capacity : ℕ}

/-- A packet without frame is turned down for its command first. -/
lemma write_of_not_framed (c : Channel capacity) {p : Packet} (h : ¬ Framed capacity p) :
    c.write p = if p.cmd = 0 then ⟨.error (.frame .reservedCommand), c, []⟩
      else ⟨.error (.frame (.payloadTooLarge p.payload.length capacity)), c, []⟩ := by
  rw [write]
  by_cases hcmd : p.cmd = 0
  · rw [if_pos hcmd, if_pos hcmd]
  · have hlong : ¬ (p.payload = [] ∨ p.payload.length < capacity) := fun hfits => h ⟨hcmd, hfits⟩
    rw [if_neg hcmd, if_neg hcmd, sealIn, if_neg (by simpa using hlong)]

/-- The buffer has no part in what is sent. -/
theorem transmitter_write (c : Channel capacity) (scratch : Vector UInt8 capacity) (p : Packet) :
    ∃ behind, Transmitter.write ⟨c.line, scratch⟩ p =
      some ⟨(c.write p).result, ⟨(c.write p).channel.line, behind⟩,
        if Framed capacity p then c.line.requests p.encode else []⟩ := by
  obtain ⟨behind, hseal⟩ := Transmitter.sealOver_eq scratch p.payload
  by_cases hcmd : p.cmd = 0
  · have hnot : ¬ Framed capacity p := fun h => h.1 hcmd
    refine ⟨scratch, ?_⟩
    rw [Transmitter.write, if_pos hcmd, if_neg hnot, write_of_not_framed c hnot, if_pos hcmd]
  · refine ⟨behind, ?_⟩
    rw [Transmitter.write, if_neg hcmd, hseal, write, if_neg hcmd]
    by_cases hfits : p.payload = [] ∨ p.payload.length < capacity
    · have hsealed : sealIn capacity p.payload = .ok (sealed p.payload) := by
        rw [sealIn, if_pos (by simpa using hfits)]
      rw [hsealed, if_pos (show Framed capacity p from ⟨hcmd, hfits⟩)]
      simp only [Option.map_some, Line.ask_eq]
      rfl
    · have hsealed : sealIn capacity p.payload =
          .error (.payloadTooLarge p.payload.length capacity) := by
        rw [sealIn, if_neg (by simpa using hfits)]
      rw [hsealed, if_neg (fun h : Framed capacity p => hfits h.2)]
      rfl

lemma allOrPrefix {c : Channel capacity} {p : Packet} {s : Sent capacity}
    (hresult : s.result = (c.write p).result) (hline : s.transmitter.line = (c.write p).channel.line)
    (hrequests : s.requests = if Framed capacity p then c.line.requests p.encode else []) :
    AllOrPrefix c p s := by
  by_cases h : Framed capacity p
  · have hwrite := c.write_eq_send h.1 h.2
    have hframe (e : FrameError) : (c.write p).result ≠ .error (.frame e) := by
      rw [hwrite]
      exact c.send_ne_frame_error _ e
    rw [if_pos h] at hrequests
    have hevents : (c.write p).events = s.requests.filterMap (Request.seen c.line.hasFlush) := by
      rw [hwrite, hrequests]
      exact c.line.events_transmit p.encode
    refine ⟨hresult, hline, hevents, iff_of_false (hframe _) h.1, fun length limit => ?_,
      fun hnot => absurd h hnot, fun _ => hrequests, fun _ => ?_, fun _ => ?_, fun hflush => ?_⟩
    · refine iff_of_false (hframe _) fun ⟨_, hempty, hlong, _⟩ => ?_
      exact h.2.elim hempty (Nat.not_lt.mpr hlong)
    · rw [hevents, hrequests, sentBytes_seen]
    · rw [hwrite, ok_send_iff, Line.transmit_ok_iff]
    · rw [hrequests] at hflush ⊢
      exact eq_of_flush_mem hflush
  · have hwrite := c.write_of_not_framed h
    rw [if_neg h] at hrequests
    have hlong (hcmd : p.cmd ≠ 0) : p.payload ≠ [] ∧ capacity ≤ p.payload.length :=
      ⟨fun hempty => h ⟨hcmd, .inl hempty⟩, Nat.not_lt.mp fun hlt => h ⟨hcmd, .inr hlt⟩⟩
    refine ⟨hresult, hline, ?_, ?_, fun length limit => ?_, fun _ => ⟨hrequests, ?_⟩,
      fun hframed => absurd hframed h, fun hframed => absurd hframed h,
      fun hframed => absurd hframed h, fun hflush => ?_⟩
    · rw [hwrite, hrequests]
      split <;> rfl
    · rw [hwrite]
      split <;> simp [*]
    · rw [hwrite]
      split
      · simp [*]
      · next hcmd => simp [hcmd, hlong hcmd, eq_comm]
    · rw [hwrite]
      split <;> rfl
    · rw [hrequests] at hflush
      cases hflush

end Channel

/-- A write turns a packet down without a request, or asks the line for the bytes of its frame up
to the first that is refused and for a flush behind all of them. It stays inside its buffer, and a
later write over a line that works again sends its own frame alone, whatever the buffer holds. -/
theorem write_all_or_prefix {capacity : ℕ} (c : Channel capacity)
    (scratch : Vector UInt8 capacity) (p : Packet) :
    ∃ s, Transmitter.write ⟨c.line, scratch⟩ p = some s ∧ AllOrPrefix c p s ∧
      ∀ (stale : Vector UInt8 capacity) (q : Packet), Framed capacity q →
        let repaired : Channel capacity :=
          { (c.write p).channel with line := (c.write p).channel.line.repair }
        (∃ behind, Transmitter.write ⟨s.transmitter.line.repair, stale⟩ q =
          some ⟨.ok (), ⟨repaired.line, behind⟩, q.encode.map (.write · true) ++ [.flush true]⟩) ∧
        repaired.write q = ⟨.ok (), repaired, allSent c.line.hasFlush q.encode⟩ := by
  obtain ⟨behind, hwrite⟩ := c.transmitter_write scratch p
  refine ⟨_, hwrite, Channel.allOrPrefix rfl rfl rfl, fun stale q hq => ?_⟩
  intro repaired
  have hworking : repaired.line.Working := ⟨rfl, rfl⟩
  have hflush : repaired.line.hasFlush = c.line.hasFlush := c.hasFlush_write p
  have hsent := Channel.write_working hworking hq.1 hq.2
  refine ⟨?_, by rw [hsent, hflush]⟩
  obtain ⟨behind', hlater⟩ := repaired.transmitter_write stale q
  rw [if_pos hq, hsent, requests_working hworking] at hlater
  exact ⟨behind', hlater⟩

/-- A line that takes two bytes of a frame, and then a shorter packet sealed over a full buffer. -/
theorem write_all_or_prefix_repaired :
    let c : Channel 4 := { line := { writeLimit := some (2, .overrun) } }
    let p : Packet := ⟨0x66, [1, 2, 3]⟩
    let q : Packet := ⟨0x66, [0]⟩
    Framed 4 p ∧ sentBytes (c.write p).events = [0x66, 5] ∧ Framed 4 q ∧
      ∃ behind, Transmitter.write ⟨(c.write p).channel.line.repair, #v[1, 2, 3, 0x6C]⟩ q =
        some ⟨.ok (), ⟨(c.write p).channel.line.repair, behind⟩,
          [0x66, 1, 1, 1, 0].map (.write · true) ++ [.flush true]⟩ := by
  intro c p q
  have hp : Framed 4 p := by decide
  have hq : Framed 4 q := by decide
  obtain ⟨s, -, hfirst, hlater⟩ := write_all_or_prefix c #v[9, 9, 9, 9] p
  obtain ⟨hagain, -⟩ := hlater #v[1, 2, 3, 0x6C] q hq
  rw [hfirst.line] at hagain
  exact ⟨hp, (hfirst.sent hp).trans (by decide +kernel), hq, hagain⟩

end FaultBench.Target
