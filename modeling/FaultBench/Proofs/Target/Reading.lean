import FaultBench.Proofs.Target.Segment
import FaultBench.Proofs.Target.Sending

/-! The reads of a channel among its writes. Each read takes one segment and its result follows
from that segment alone, so no write in between, whether it fails or not, has a part in it. -/
namespace FaultBench.Target
open Wire

/-- The calls of a channel, and changes of how its line fails. -/
inductive Access where
  | read
  | write (p : Packet)
  | acknowledge (cmd : UInt8)
  | announceReset
  | refault (writeLimit : Option (ℕ × LineError)) (flushFailure : Option LineError)
  deriving DecidableEq

namespace Channel

variable {capacity : ℕ}

/-- The result, if it is one of a read, and the channel behind it. -/
def access (c : Channel capacity) : Access → Option (Except ChannelError Packet) × Channel capacity
  | .read => (some c.read.1, c.read.2)
  | .write p => (none, (c.write p).channel)
  | .acknowledge cmd => (none, (c.acknowledge cmd).channel)
  | .announceReset => (none, c.announceReset.channel)
  | .refault writeLimit flushFailure =>
    (none, { c with line := { c.line with writeLimit, flushFailure } })

/-- The results of the reads. -/
def results (c : Channel capacity) : List Access → List (Except ChannelError Packet)
  | [] => []
  | a :: accesses => (c.access a).1.toList ++ (c.access a).2.results accesses

def after (c : Channel capacity) (accesses : List Access) : Channel capacity :=
  accesses.foldl (fun c a => (c.access a).2) c

/-- Whatever is not a read leaves alone what is received. -/
lemma access_of_ne_read (c : Channel capacity) {a : Access} (ha : a ≠ .read) :
    (c.access a).1 = none ∧ ∃ writeLimit flushFailure,
      (c.access a).2 = { c with line := { c.line with writeLimit, flushFailure } } := by
  cases a with
  | read => exact absurd rfl ha
  | write p =>
    obtain ⟨writeLimit, hchannel⟩ := c.channel_write p
    exact ⟨rfl, writeLimit, c.line.flushFailure, hchannel⟩
  | acknowledge cmd =>
    obtain ⟨writeLimit, hchannel⟩ := c.channel_write (.bare cmd)
    exact ⟨rfl, writeLimit, c.line.flushFailure, hchannel⟩
  | announceReset =>
    obtain ⟨writeLimit, hchannel⟩ := c.channel_send resetMarker
    exact ⟨rfl, writeLimit, c.line.flushFailure, hchannel⟩
  | refault writeLimit flushFailure => exact ⟨rfl, writeLimit, flushFailure, rfl⟩

/-- From a frame boundary each read takes the next segment. The induction is on the accesses; the
invariant is that the receiver stands at a frame boundary, wherever the segment ended. -/
theorem results_of_atStart (hcapacity : 0 < capacity) {c : Channel capacity}
    (hc : c.receiver.AtStart) (accesses : List Access) :
    c.results accesses =
        (segments (accesses.count .read) c.line.incoming).map (Segment.result capacity) ∧
      (c.after accesses).line.incoming = behind (accesses.count .read) c.line.incoming := by
  induction accesses generalizing c with
  | nil => exact ⟨rfl, rfl⟩
  | cons a accesses ih =>
    have hafter : c.after (a :: accesses) = (c.access a).2.after accesses := rfl
    by_cases ha : a = .read
    · subst ha
      have hread := read_eq hcapacity hc
      have hnext : c.read.2.receiver.AtStart := by
        rw [hread]
        exact Segment.receiver_atStart capacity _
      obtain ⟨hresults, hin⟩ := ih hnext
      rw [results, hafter, List.count_cons_self, segments, behind, access, hresults, hin, hread]
      exact ⟨rfl, rfl⟩
    · obtain ⟨hnone, writeLimit, flushFailure, hchannel⟩ := c.access_of_ne_read ha
      have hnext : (c.access a).2.receiver.AtStart := by rwa [hchannel]
      obtain ⟨hresults, hin⟩ := ih hnext
      rw [results, hafter, List.count_cons_of_ne ha, hnone, hresults, hin, hchannel]
      exact ⟨rfl, rfl⟩

/-- The reads of a new channel take what arrives segment by segment and lose nothing of it. Their
results are those of the segments, so they stay the same whatever is written in between. -/
theorem results_eq_segments {capacity : ℕ} (hcapacity : 2 ≤ capacity) (line : Line)
    (accesses : List Access) :
    let c : Channel capacity := { line }
    let taken := segments (accesses.count .read) line.incoming
    c.results accesses = taken.map (Segment.result capacity) ∧
      (c.after accesses).line.incoming = behind (accesses.count .read) line.incoming ∧
      taken.flatMap Segment.arrivals ++ (c.after accesses).line.incoming = line.incoming ∧
      (∀ s ∈ taken, 0 ∉ s.body) ∧
      ∀ (other : Line) (accesses' : List Access), other.incoming = line.incoming →
        accesses'.count .read = accesses.count .read →
        ({ line := other } : Channel capacity).results accesses' = c.results accesses := by
  intro c taken
  have hpos : 0 < capacity := by omega
  have hnew (l : Line) : ({ line := l } : Channel capacity).receiver.AtStart := .inl rfl
  obtain ⟨hresults, hin⟩ := results_of_atStart hpos (hnew line) accesses
  refine ⟨hresults, hin, ?_, fun s hs => zero_not_mem_segments hs, ?_⟩
  · rw [hin]
    exact arrivals_segments _ _
  · intro other accesses' hsame hcount
    obtain ⟨hother, -⟩ := results_of_atStart hpos (hnew other) accesses'
    rw [hother, hsame, hcount]
    exact hresults.symm

/-- An interrupted frame, one that is too long, an empty one and a start, read between writes that
fail and writes that do not. -/
theorem results_eq_segments_noise :
    let line : Line := { incoming := [.byte 0x65, .failure .noise] ++
      [0x66,1,2,3,4,5,0,0,0x73,0].map .byte }
    let accesses : List Access := [.announceReset, .read,
      .refault (some (1, .overrun)) (some .closed), .acknowledge 0x73, .read,
      .write ⟨0x66, [1,2,3,4,5]⟩, .read, .refault none none, .write (.bare 0x65), .read, .read]
    2 ≤ 4 ∧ ({ line } : Channel 4).results accesses =
      [.error (.transport .noise), .error (.frame (.overflow 4)), .error (.frame .empty),
        .ok (.bare 0x73), .error (.transport .closed)] := by
  intro line accesses
  have hroom : 2 ≤ 4 := by decide
  obtain ⟨hresults, -⟩ := results_eq_segments hroom line accesses
  exact ⟨hroom, hresults.trans (by decide +kernel)⟩

end Channel
end FaultBench.Target
