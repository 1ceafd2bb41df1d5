import FaultBench.Proofs.Wire.Frame

/-! The first packet of a byte stream. What stands before it, empty frames and unreadable ones, has
no influence on it, and what comes behind it is left as it is. -/
namespace FaultBench.Wire.Assembler

/-- The first packet that can be read, and the bytes behind it. -/
def next (a : Assembler) : List UInt8 → Option (Packet × List UInt8)
  | [] => none
  | b :: rest =>
    match a.push b with
    | (some (.ok p), _) => some (p, rest)
    | (_, a) => a.next rest

lemma next_of_packet {a a' : Assembler} {b : UInt8} {p : Packet}
    (h : a.push b = (some (.ok p), a')) (rest : List UInt8) :
    a.next (b :: rest) = some (p, rest) := by
  rw [next, h]

lemma next_of_no_packet {a : Assembler} {b : UInt8} (h : ¬ ∃ p, (a.push b).1 = some (.ok p))
    (rest : List UInt8) : a.next (b :: rest) = (a.push b).2.next rest := by
  rw [next]
  rcases hpush : a.push b with ⟨_ | _ | p, a'⟩
  · rfl
  · rfl
  · exact absurd ⟨p, by rw [hpush]⟩ h

lemma next_cons_of_ne (a : Assembler) {b : UInt8} (h : b ≠ 0) (rest : List UInt8) :
    a.next (b :: rest) = (⟨b :: a.pending⟩ : Assembler).next rest := by
  rw [next, push_of_ne a h]

lemma next_cons_zero (a : Assembler) (rest : List UInt8) :
    a.next (0 :: rest) =
      match Packet.decode (a.pending.reverse ++ [0]) with
      | .ok p => some (p, rest)
      | .error _ => ({} : Assembler).next rest := by
  rw [next, push_zero]
  cases Packet.decode (a.pending.reverse ++ [0]) <;> rfl

/-- A terminator alone is no packet. -/
@[simp] lemma next_zero (rest : List UInt8) : ({} : Assembler).next (0 :: rest) = next {} rest :=
  next_cons_zero {} rest

lemma next_zeros (n : ℕ) (rest : List UInt8) :
    next {} (List.replicate n 0 ++ rest) = next {} rest := by
  induction n with
  | zero => rfl
  | succ n ih => rw [List.replicate_succ, List.cons_append, next_zero, ih]

/-- One whole frame decides, or has no influence. -/
lemma next_frame_append (a : Assembler) {body : List UInt8} (h : 0 ∉ body) (rest : List UInt8) :
    a.next (body ++ 0 :: rest) =
      match Packet.decode (a.pending.reverse ++ body ++ [0]) with
      | .ok p => some (p, rest)
      | .error _ => ({} : Assembler).next rest := by
  induction body generalizing a with
  | nil => simpa using a.next_cons_zero rest
  | cons b body ih =>
    obtain ⟨hb, hbody⟩ := List.ne_and_not_mem_of_not_mem_cons h
    rw [List.cons_append, next_cons_of_ne a (Ne.symm hb), ih _ hbody]
    simp

/-- A packet that was sent is the next one to be read. -/
theorem next_encode_append (p : Packet) (h : p.cmd ≠ 0) (rest : List UInt8) :
    next {} (p.encode ++ rest) = some (p, rest) := by
  obtain ⟨body, hbody, hz⟩ := p.isFrame_encode h
  have hdecode := p.decode_encode
  rw [hbody] at hdecode ⊢
  rw [List.append_assoc, List.singleton_append, next_frame_append {} hz]
  simp [hdecode]

/-- A packet is read off the end of at least two bytes, those pending included. -/
lemma next_eq_some {a : Assembler} {bytes rest : List UInt8} {p : Packet}
    (h : a.next bytes = some (p, rest)) :
    ∃ front, bytes = front ++ rest ∧ 2 ≤ a.pending.length + front.length := by
  induction bytes generalizing a with
  | nil => cases h
  | cons b bytes ih =>
    by_cases hb : b = 0
    · subst hb
      rw [next_cons_zero] at h
      split at h
      · next hdecode =>
        cases h
        refine ⟨[0], rfl, ?_⟩
        rcases hp : a.pending with _ | ⟨c, pending⟩
        · rw [hp] at hdecode
          cases hdecode
        · simp
      · obtain ⟨front, rfl, hlength⟩ := ih h
        refine ⟨0 :: front, rfl, ?_⟩
        simp at hlength ⊢
        omega
    · rw [next_cons_of_ne a hb] at h
      obtain ⟨front, rfl, hlength⟩ := ih h
      refine ⟨b :: front, rfl, ?_⟩
      simp at hlength ⊢
      omega

/-- What comes later does not change which packet is the first. -/
theorem next_append_of_some {a : Assembler} {bytes rest : List UInt8} {p : Packet}
    (h : a.next bytes = some (p, rest)) (later : List UInt8) :
    a.next (bytes ++ later) = some (p, rest ++ later) := by
  induction bytes generalizing a with
  | nil => cases h
  | cons b bytes ih =>
    by_cases hb : b = 0
    · subst hb
      rw [next_cons_zero] at h
      rw [List.cons_append, next_cons_zero]
      split at h
      · cases h
        rfl
      · exact ih h
    · rw [next_cons_of_ne a hb] at h
      rw [List.cons_append, next_cons_of_ne a hb]
      exact ih h

/-- Whole frames without a packet among them can be left out. -/
theorem next_append_of_none {a : Assembler} {bytes : List UInt8}
    (h : a.next (bytes ++ [0]) = none) (later : List UInt8) :
    a.next (bytes ++ 0 :: later) = next {} later := by
  induction bytes generalizing a with
  | nil =>
    rw [List.nil_append, next_cons_zero] at h ⊢
    split at h
    · cases h
    · rfl
  | cons b bytes ih =>
    by_cases hb : b = 0
    · subst hb
      rw [List.cons_append, next_cons_zero] at h ⊢
      split at h
      · cases h
      · exact ih h
    · rw [List.cons_append, next_cons_of_ne a hb] at h ⊢
      exact ih h

end FaultBench.Wire.Assembler
