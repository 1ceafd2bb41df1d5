import FaultBench.Proofs.Wire.Spelling

/-! How long frames are. A code is spent on every 254 bytes at most, so a frame is little longer
than its payload; and a frame that is read holds the whole of its payload, but for the last byte of
one whose last run takes in the terminator. -/
namespace FaultBench.Wire
open Stuffing

namespace Stuffing

/-- Behind an unfinished run of fewer than 254 bytes, data cost the code of the run, the zero at
the end, and one more code for every full run that is not the last. Where no zero saves a code,
the runs are as full as they can be. -/
theorem length_stuffFrom (run data : List UInt8) (h : run.length < fullRun) :
    run.length + data.length + 2 ≤ (stuffFrom run data).length ∧
      (stuffFrom run data).length ≤
        run.length + data.length + 2 + (run.length + data.length - 1) / 254 ∧
      (0 ∉ data → (stuffFrom run data).length =
        run.length + data.length + 2 + (run.length + data.length - 1) / 254) := by
  have hblock (r : List UInt8) : (block r).length = r.length + 1 := rfl
  have hfull : fullRun = 254 := rfl
  induction data generalizing run with
  | nil =>
    simp only [stuffFrom, List.length_append, hblock, List.length_singleton, List.length_nil]
    omega
  | cons b rest ih =>
    rw [stuffFrom]
    split
    · next hb =>
      obtain ⟨hlow, hhigh, -⟩ := ih [] (by simp [fullRun])
      simp only [List.length_append, hblock, List.length_cons, List.length_nil] at hlow hhigh ⊢
      exact ⟨by omega, by omega, fun hz => absurd (hb ▸ List.mem_cons_self) hz⟩
    · split
      · next _ hrun =>
        cases rest with
        | nil =>
          simp only [List.length_append, hblock, List.length_singleton, List.isEmpty_nil, if_true]
          omega
        | cons c rest =>
          obtain ⟨hlow, hhigh, hexact⟩ := ih [] (by simp [fullRun])
          simp only [List.length_append, hblock, List.length_cons, List.length_nil,
            List.isEmpty_cons, Bool.false_eq_true, if_false] at hlow hhigh hexact ⊢
          refine ⟨by omega, by omega, fun hz => ?_⟩
          have hlater := hexact fun hmem => hz (List.mem_cons_of_mem _ hmem)
          omega
      · next _ hrun =>
        have hnext : (run ++ [b]).length < fullRun := by
          rw [List.length_append, List.length_singleton]
          omega
        obtain ⟨hlow, hhigh, hexact⟩ := ih (run ++ [b]) hnext
        simp only [List.length_append, List.length_cons, List.length_nil] at hlow hhigh hexact ⊢
        refine ⟨by omega, by omega, fun hz => ?_⟩
        have hlater := hexact fun hmem => hz (List.mem_cons_of_mem _ hmem)
        omega

end Stuffing

namespace Packet

variable {p : Packet} {bytes : List UInt8}

lemma length_data (p : Packet) : p.data.length = p.payload.length + 1 := by
  rw [data, List.length_append, List.length_singleton]

/-- The command, the checksum, one code and the terminator come on top of a payload, and one more
code for every 254 of its bytes; for all of these if nothing that is stuffed is zero. -/
theorem length_encode (h : p.payload ≠ []) :
    p.payload.length + 4 ≤ p.encode.length ∧
      p.encode.length ≤ p.payload.length + 4 + p.payload.length / 254 ∧
      (0 ∉ p.data → p.encode.length = p.payload.length + 4 + p.payload.length / 254) := by
  obtain ⟨hlow, hhigh, hexact⟩ := length_stuffFrom [] p.data (by simp [fullRun])
  have hencode : p.encode.length = (stuffFrom [] p.data).length + 1 := by
    rw [encode_eq_stuff h, stuff, List.length_cons]
  simp only [List.length_nil, length_data] at hlow hhigh hexact
  refine ⟨by omega, by omega, fun hz => ?_⟩
  have hstuffed := hexact hz
  omega

end Packet

namespace Spelling

variable {s : Spelling} {p : Packet} {bytes : List UInt8}

/-- Taking in the terminator saves one byte of the frame that is sent. -/
lemma Writes.length_overrun (h : overrun.Writes p bytes) (hpayload : p.payload ≠ []) :
    bytes.length + 1 = p.encode.length := by
  have hsent : sent.Writes p p.encode := rfl
  have hlength := h.length
  have hown := hsent.length
  simp only [excess, List.isEmpty_eq_false_iff.mpr hpayload, Bool.false_eq_true, if_false]
    at hlength hown
  omega

/-- No other spelling is shorter than what is sent. -/
lemma Writes.length_le (h : s.Writes p bytes) (hs : s ≠ overrun) (hpayload : p.payload ≠ []) :
    p.encode.length ≤ bytes.length := by
  have hsent : sent.Writes p p.encode := rfl
  have hlength := h.length
  have hown := hsent.length
  cases s with
  | sent => exact Nat.le_of_eq (congrArg List.length h.symm)
  | sealedEmpty => exact absurd h.1 hpayload
  | extraRun =>
    simp only [excess, List.isEmpty_eq_false_iff.mpr hpayload, Bool.false_eq_true, if_false]
      at hlength hown
    omega
  | overrun => exact absurd rfl hs

/-- Every frame that is read is in a spelling of its packet. -/
lemma exists_writes (hframe : IsFrame bytes) (hdecode : Packet.decode bytes = .ok p) :
    p.cmd ≠ 0 ∧ ∃ s : Spelling, s.Writes p bytes := by
  obtain ⟨body, rfl, hz⟩ := hframe
  cases body with
  | nil => cases hdecode
  | cons cmd body =>
    obtain ⟨rfl, hread⟩ := Packet.decode_isFrame.mp hdecode
    obtain ⟨hcmd, hbody⟩ := List.ne_and_not_mem_of_not_mem_cons hz
    refine ⟨hcmd.symm, ?_⟩
    obtain ⟨rfl, hpayload⟩ | ⟨-, hblock⟩ := hread
    · exact ⟨sent, (Packet.encode_eq_bare hpayload).symm⟩
    · exact exists_writes_of_unstuff hbody hblock

end Spelling

/-- A frame that is read is four bytes longer than its payload at least, unless its last run takes
in the terminator: then it is one byte shorter than the frame that is sent. -/
theorem length_of_decode {bytes : List UInt8} {p : Packet} (hframe : IsFrame bytes)
    (hdecode : Packet.decode bytes = .ok p) (hpayload : p.payload ≠ []) :
    (¬ Spelling.overrun.Writes p bytes ∧ p.payload.length + 4 ≤ bytes.length) ∨
      (Spelling.overrun.Writes p bytes ∧ bytes.length + 1 = p.encode.length) := by
  obtain ⟨-, s, hs⟩ := Spelling.exists_writes hframe hdecode
  have hsent := (Packet.length_encode hpayload).1
  by_cases hoverrun : s = .overrun
  · subst hoverrun
    exact .inr ⟨hs, hs.length_overrun hpayload⟩
  · have hlength := hs.length_le hoverrun hpayload
    refine .inl ⟨fun hother => hoverrun (hs.unique hother), ?_⟩
    omega

end FaultBench.Wire
