import FaultBench.Proofs.Wire.Frame

/-! The packets of a capture. It may be divided behind any terminator, and what was cut or damaged
has no influence behind the next one. -/
namespace FaultBench.Wire

namespace Assembler

lemma feed_cons (a : Assembler) (b : UInt8) (rest : List UInt8) :
    a.feed (b :: rest) = (a.push b).1.toList ++ (a.push b).2.feed rest := rfl

/-- The readings are the answers that are not empty. -/
lemma feed_eq_filterMap (a : Assembler) (bytes : List UInt8) :
    a.feed bytes = (a.pushAll bytes).1.filterMap id := by
  induction bytes generalizing a with
  | nil => rfl
  | cons b bytes ih =>
    rw [feed_cons, ih, pushAll, List.filterMap_cons]
    cases (a.push b).1 <;> rfl

/-- The readings of a stream are those of its parts, the later one read by the assembler that the
earlier one left. -/
theorem feed_append (a : Assembler) (bytes later : List UInt8) :
    a.feed (bytes ++ later) = a.feed bytes ++ (a.pushAll bytes).2.feed later := by
  induction bytes generalizing a with
  | nil => rfl
  | cons b bytes ih =>
    rw [List.cons_append, feed_cons, feed_cons, ih, List.append_assoc]
    rfl

/-- Whatever was pending, a terminator leaves an assembler that holds nothing. -/
lemma pushAll_terminated (a : Assembler) (bytes : List UInt8) :
    (a.pushAll (bytes ++ [0])).2 = {} := by
  induction bytes generalizing a with
  | nil => rw [List.nil_append, pushAll, push_zero]; rfl
  | cons b bytes ih => exact ih (a.push b).2

lemma feed_append_zero (a : Assembler) (bytes later : List UInt8) :
    a.feed (bytes ++ 0 :: later) = a.feed (bytes ++ [0]) ++ feed {} later := by
  have hsplit : bytes ++ 0 :: later = bytes ++ [0] ++ later := by simp
  rw [hsplit, feed_append, pushAll_terminated]

/-- Without a terminator nothing is read. -/
lemma feed_unterminated (a : Assembler) {tail : List UInt8} (h : 0 ∉ tail) : a.feed tail = [] := by
  induction tail generalizing a with
  | nil => rfl
  | cons b tail ih =>
    obtain ⟨hb, htail⟩ := List.ne_and_not_mem_of_not_mem_cons h
    rw [feed_cons, push_of_ne a (Ne.symm hb)]
    exact ih _ htail

/-- One frame gives one reading. -/
lemma feed_frame {body : List UInt8} (h : 0 ∉ body) :
    feed {} (body ++ [0]) = [Packet.decode (body ++ [0])] := by
  rw [feed_eq_filterMap, pushAll_frame {} h]
  simp [List.filterMap_replicate_of_none]

lemma pushAll_append (a : Assembler) (bytes later : List UInt8) :
    (a.pushAll (bytes ++ later)).2 = ((a.pushAll bytes).2.pushAll later).2 := by
  induction bytes generalizing a with
  | nil => rfl
  | cons b bytes ih => exact ih (a.push b).2

/-- The packets that end in `bytes`. -/
def packets (a : Assembler) (bytes : List UInt8) : List Packet :=
  (a.feed bytes).filterMap Except.toOption

@[simp] lemma packets_nil (a : Assembler) : a.packets [] = [] := rfl

lemma packets_append (a : Assembler) (bytes later : List UInt8) :
    a.packets (bytes ++ later) = a.packets bytes ++ (a.pushAll bytes).2.packets later := by
  rw [packets, feed_append, List.filterMap_append]
  rfl

/-- Only a terminator completes a frame. -/
lemma eq_zero_of_push {a : Assembler} {b : UInt8} {reading : Except FrameError Packet}
    (h : (a.push b).1 = some reading) : b = 0 := by
  by_contra hb
  rw [push_of_ne a hb] at h
  cases h

/-- A byte gives the packet that it completes. -/
lemma packets_singleton (a : Assembler) (b : UInt8) :
    a.packets [b] = (a.push b).1.toList.filterMap Except.toOption := by
  rw [packets, feed_cons, List.filterMap_append]
  exact List.append_nil _

lemma mem_packets_singleton {a : Assembler} {b : UInt8} {p : Packet} :
    p ∈ a.packets [b] ↔ (a.push b).1 = some (.ok p) := by
  rw [packets_singleton]
  rcases (a.push b).1 with _ | _ | q
  · simp
  · simp [Except.toOption]
  · simp [Except.toOption, eq_comm]

end Assembler

/-- The packets of a capture are those that a new assembler gives out. -/
lemma packets_eq (bytes : List UInt8) : packets bytes = Assembler.packets {} bytes := by
  rw [packets, split, Assembler.packets, List.filterMap_filter]
  congr 1
  funext reading
  rcases reading with _ | _
  · simp [Except.toOption]
  · rfl

/-- A byte stands for one command at most. -/
lemma command?_eq_some_iff {p : Packet} {c : Command} : p.command? = some c ↔ p.cmd = c.byte := by
  rw [Packet.command?]
  refine ⟨fun h => ?_, fun h => by rw [h, Command.ofByte?_byte]⟩
  simp only [Command.ofByte?] at h
  split_ifs at h with hs he hf hr <;> cases h
  all_goals assumption

lemma split_append_zero (bytes later : List UInt8) :
    split (bytes ++ 0 :: later) = split (bytes ++ [0]) ++ split later := by
  rw [split, Assembler.feed_append_zero, List.filter_append]
  rfl

lemma split_unterminated {tail : List UInt8} (h : 0 ∉ tail) : split tail = [] := by
  rw [split, Assembler.feed_unterminated _ h]
  rfl

/-- Zeros in front of a capture are empty frames. -/
lemma split_zeros_append (n : ℕ) (later : List UInt8) :
    split (List.replicate n 0 ++ later) = split later := by
  induction n with
  | zero => rfl
  | succ n ih =>
    have hempty : split ([] ++ [0]) = [] := by decide
    rw [List.replicate_succ, List.cons_append, ← List.nil_append (0 :: _), split_append_zero,
      hempty, ih]
    rfl

lemma split_encode_append {p : Packet} (h : p.cmd ≠ 0) (later : List UInt8) :
    split (p.encode ++ later) = .ok p :: split later := by
  obtain ⟨body, hbody, hz⟩ := p.isFrame_encode h
  have hdecode := p.decode_encode
  rw [hbody] at hdecode ⊢
  have hframe : split (body ++ [0]) = [.ok p] := by
    rw [split, Assembler.feed_frame hz, hdecode]
    rfl
  rw [List.append_assoc, List.singleton_append, split_append_zero, hframe]
  rfl

/-- Frames in a row, each behind a number of zeros. -/
def spaced (items : List (ℕ × Packet)) : List UInt8 :=
  items.flatMap fun x => List.replicate x.1 0 ++ x.2.encode

lemma split_spaced_append {items : List (ℕ × Packet)} (h : ∀ x ∈ items, x.2.cmd ≠ 0)
    (later : List UInt8) :
    split (spaced items ++ later) = (items.map fun x => .ok x.2) ++ split later := by
  induction items with
  | nil => rfl
  | cons x items ih =>
    obtain ⟨hx, hitems⟩ := List.forall_mem_cons.mp h
    have hsplit : spaced (x :: items) ++ later =
        List.replicate x.1 0 ++ (x.2.encode ++ (spaced items ++ later)) := by
      simp [spaced]
    rw [hsplit, split_zeros_append, split_encode_append hx, ih hitems]
    rfl

/-- A capture may be divided behind any terminator; packets are found again whatever number of
zeros is between them, and the bytes of a frame that has not ended add nothing; and a reset marker
is recognised behind anything, also behind a frame that was cut. -/
theorem split_resynchronises :
    (∀ a b : List UInt8, split (a ++ [0] ++ b) = split (a ++ [0]) ++ split b) ∧
    (∀ (items : List (ℕ × Packet)) (zeros : ℕ) (tail : List UInt8),
      (∀ x ∈ items, x.2.cmd ≠ 0) → 0 ∉ tail →
        split (spaced items ++ List.replicate zeros 0 ++ tail) = items.map fun x => .ok x.2) ∧
    (∀ g : List UInt8, split (g ++ resetMarker) =
      split (g ++ [0]) ++ [.ok (.bare Command.reset.byte)]) := by
  refine ⟨fun a b => ?_, fun items zeros tail hcmd htail => ?_, fun g => ?_⟩
  · rw [List.append_assoc, List.singleton_append, split_append_zero]
  · rw [List.append_assoc, split_spaced_append hcmd, split_zeros_append, split_unterminated htail,
      List.append_nil]
  · have hmarker : split [0, 0, Command.reset.byte, 0, 0, 0] = [.ok (.bare Command.reset.byte)] := by
      decide +kernel
    rw [resetMarker, split_append_zero, hmarker]

/-- A start and a fault report between zeros, and the beginning of one more packet. -/
theorem split_resynchronises_report :
    (∀ x ∈ [(2, Packet.bare 0x73), (0, ⟨0x66, [0x6B,0xD0,0x03,0x00]⟩)], x.2.cmd ≠ 0) ∧
      0 ∉ ([0x65] : List UInt8) ∧
      split [0,0,0x73,0,0x66,0x04,0x6B,0xD0,0x03,0x02,0x27,0,0,0x65] =
        [.ok (.bare 0x73), .ok ⟨0x66, [0x6B,0xD0,0x03,0x00]⟩] := by
  have hcmd : ∀ x ∈ [(2, Packet.bare 0x73), (0, ⟨0x66, [0x6B,0xD0,0x03,0x00]⟩)], x.2.cmd ≠ 0 := by
    decide
  have hsplit := split_resynchronises.2.1 _ 1 [0x65] hcmd (by decide)
  have hbytes : spaced [(2, Packet.bare 0x73), (0, ⟨0x66, [0x6B,0xD0,0x03,0x00]⟩)] ++
      List.replicate 1 0 ++ [0x65] =
        [0,0,0x73,0,0x66,0x04,0x6B,0xD0,0x03,0x02,0x27,0,0,0x65] := by
    decide +kernel
  rw [hbytes] at hsplit
  exact ⟨hcmd, by decide, hsplit⟩

end FaultBench.Wire
