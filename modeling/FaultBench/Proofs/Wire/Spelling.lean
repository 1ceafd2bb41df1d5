import FaultBench.Proofs.Wire.Frame
import FaultBench.Proofs.Wire.Runs

/-! All frames that are read as one packet. Besides the one that is sent there are a few redundant
ones, and one in which the last run reaches over the end of the frame. -/
namespace FaultBench.Wire
open Stuffing

/-- How a frame spells its packet. -/
inductive Spelling where
  /-- As it is sent. -/
  | sent
  /-- The payload is empty, and its checksum is stuffed all the same. -/
  | sealedEmpty
  /-- The last run is full, and an empty one follows it. -/
  | extraRun
  /-- The last run announces one byte more than there is and takes the terminator for the
  checksum. -/
  | overrun
  deriving DecidableEq, Repr

/-- The bytes are a packet's frame in this spelling. -/
def Spelling.Writes : Spelling → Packet → List UInt8 → Prop
  | sent, p, bytes => bytes = p.encode
  | sealedEmpty, p, bytes => p.payload = [] ∧ bytes = [p.cmd, 1, 1, 0]
  | extraRun, p, bytes =>
    p.payload ≠ [] ∧
      (∃ run, (runs (sealed p.payload)).getLast? = some run ∧ run.length = fullRun) ∧
      ∃ body, p.encode = body ++ [0] ∧ bytes = body ++ [1, 0]
  | overrun, p, bytes =>
    checksum p.payload = 0 ∧ ∃ init run, runs (p.payload ++ [0]) = init ++ [run, []] ∧
      bytes = p.cmd :: (init ++ [run ++ [0]]).flatMap block

namespace Packet

variable {p : Packet} {bytes : List UInt8}

/-- What is stuffed of a packet whose frame has a block. -/
def data (p : Packet) : List UInt8 := p.payload ++ [checksum p.payload]

lemma data_ne_nil (p : Packet) : p.data ≠ [] := by simp [data]

lemma encode_eq_bare (h : p.payload = []) : p.encode = [p.cmd, 0] := by
  rw [encode, h]
  rfl

lemma sealed_eq_data (h : p.payload ≠ []) : sealed p.payload = p.data := by
  obtain ⟨b, rest, hp⟩ := List.exists_cons_of_ne_nil h
  rw [data, hp, sealed_cons]

lemma encode_eq_stuff (h : p.payload ≠ []) : p.encode = p.cmd :: stuff p.data := by
  have hne : p.data.isEmpty = false := by simp [data]
  rw [encode, sealed_eq_data h, frame, hne]
  rfl

lemma stuff_data_of_nil (h : p.payload = []) : stuff p.data = [1, 1, 0] := by
  rw [data, h]
  rfl

lemma opened_eq_ok {cmd : UInt8} {block : List UInt8} :
    opened cmd block = .ok p ↔ p.cmd = cmd ∧ block = p.data := by
  constructor
  · intro h
    obtain rfl | ⟨payload, received, rfl⟩ := block.eq_nil_or_concat'
    · cases h
    · simp only [opened, List.getLast?_append, List.getLast?_singleton, Option.some_or,
        List.dropLast_concat] at h
      split at h
      · next hchecksum =>
        obtain rfl := Except.ok.inj h
        exact ⟨rfl, by rw [data, hchecksum]⟩
      · cases h
  · rintro ⟨rfl, rfl⟩
    exact opened_sealed p.cmd p.payload

/-- A frame is a command alone, or a command with a block that is read as payload and checksum. -/
lemma decode_isFrame {cmd : UInt8} {body : List UInt8} :
    decode (cmd :: body ++ [0]) = .ok p ↔
      p.cmd = cmd ∧ (body = [] ∧ p.payload = [] ∨
        body ≠ [] ∧ unstuff (body ++ [0]) = some p.data) := by
  cases body with
  | nil =>
    have hbare : decode [cmd, 0] = .ok (bare cmd) := rfl
    simp only [List.cons_append, List.nil_append, hbare, Except.ok.injEq]
    constructor
    · rintro rfl
      exact ⟨rfl, .inl ⟨trivial, rfl⟩⟩
    · rintro ⟨rfl, ⟨-, hpayload⟩ | ⟨hne, -⟩⟩
      · rw [bare, ← hpayload]
      · exact absurd rfl hne
  | cons c body =>
    obtain ⟨d, rest, hrest⟩ : ∃ d rest, body ++ [0] = d :: rest :=
      List.exists_cons_of_ne_nil (by simp)
    have hlast : (c :: d :: rest).getLast? = some 0 := by
      rw [← hrest, ← List.cons_append, List.getLast?_concat]
    simp only [List.cons_append, hrest, decode_block hlast, ne_eq, reduceCtorEq, not_false_eq_true,
      false_and, true_and, false_or]
    cases unstuff (c :: d :: rest) with
    | none => simp
    | some block =>
      simp only [opened_eq_ok, Option.some.injEq]

end Packet

namespace Spelling

variable {s t : Spelling} {p : Packet} {bytes : List UInt8}

/-- A block that is read as payload and checksum is in one of the spellings. -/
lemma exists_writes_of_unstuff {body : List UInt8} (hz : 0 ∉ body)
    (h : unstuff (body ++ [0]) = some p.data) :
    ∃ s : Spelling, s.Writes p (p.cmd :: body ++ [0]) := by
  rw [List.cons_append]
  obtain hown | ⟨init, full, hruns, hfull, hextra⟩ | ⟨init, run, hruns, hopen⟩ :=
    (unstuff_eq_some_iff hz p.data_ne_nil).mp h
  · by_cases hpayload : p.payload = []
    · refine ⟨sealedEmpty, hpayload, ?_⟩
      rw [hown, Packet.stuff_data_of_nil hpayload]
    · refine ⟨sent, ?_⟩
      rw [Writes, Packet.encode_eq_stuff hpayload, hown]
  · have hpayload : p.payload ≠ [] := by
      intro hempty
      have hrow : runs p.data = [[], []] := by
        rw [Packet.data, hempty]
        rfl
      have hlast := congrArg List.getLast? (hrow.symm.trans hruns)
      simp only [List.getLast?_concat] at hlast
      obtain rfl : [] = full := Option.some.inj hlast
      cases hfull
    refine ⟨extraRun, hpayload, ⟨full, ?_, hfull⟩, p.cmd :: (init ++ [full]).flatMap block, ?_, ?_⟩
    · rw [Packet.sealed_eq_data hpayload, hruns, List.getLast?_concat]
    · rw [Packet.encode_eq_stuff hpayload, stuff_eq, hruns]
      rfl
    · rw [hextra]
      simp [block]
  · have hchecksum : checksum p.payload = 0 := by
      have hne : run.length ≠ fullRun := fun hfull =>
        not_redundant_runs p.data ⟨init, run, hfull, hruns⟩
      have hdata := joinFrom_runs p.data
      rw [hruns, joinFrom_empty, if_neg hne, Packet.data] at hdata
      have hlast := (List.append_inj' hdata rfl).2
      exact (List.cons.inj hlast).1.symm
    refine ⟨overrun, hchecksum, init, run, ?_, by rw [hopen]⟩
    rw [← hruns, Packet.data, hchecksum]

/-- Only an overrun keeps no terminator apart from its last run. -/
lemma isFrame_overrun {cmd : UInt8} {data run : List UInt8} {init : List (List UInt8)}
    (hcmd : cmd ≠ 0) (hruns : runs data = init ++ [run, []]) :
    ∃ body, (init ++ [run ++ [0]]).flatMap block = body ++ [0] ∧ body ≠ [] ∧ 0 ∉ cmd :: body := by
  have hrow : ∀ r ∈ init ++ [run], r.length ≤ fullRun ∧ 0 ∉ r := by
    intro r hr
    have hdata : r ∈ runs data := by
      rw [hruns, List.append_cons]
      exact List.mem_append_left _ hr
    exact mem_runs hdata
  have hne : run.length ≠ fullRun := fun hfull => not_redundant_runs data ⟨init, run, hfull, hruns⟩
  have hlast := hrow run (by simp)
  have hcode : UInt8.ofNat (run.length + 1 + 1) ≠ 0 := code_ne_zero (by omega)
  refine ⟨init.flatMap block ++ UInt8.ofNat (run.length + 1 + 1) :: run, by simp [block], by simp, ?_⟩
  simp only [List.mem_cons, List.mem_append, not_or]
  refine ⟨hcmd.symm, fun hmem => ?_, hcode.symm, hlast.2⟩
  obtain ⟨r, hr, hzero⟩ := List.mem_flatMap.mp hmem
  have hr := hrow r (List.mem_append_left _ hr)
  exact zero_not_mem_block hr.1 hr.2 hzero

/-- Each spelling makes a frame, and the frame is read as its packet. -/
theorem Writes.accepted (h : s.Writes p bytes) (hcmd : p.cmd ≠ 0) :
    IsFrame bytes ∧ Packet.decode bytes = .ok p := by
  cases s with
  | sent =>
    obtain rfl := h
    exact ⟨p.isFrame_encode hcmd, p.decode_encode⟩
  | sealedEmpty =>
    obtain ⟨hpayload, rfl⟩ := h
    refine ⟨⟨[p.cmd, 1, 1], rfl, by simp [hcmd.symm]⟩, ?_⟩
    have hread : Packet.decode (p.cmd :: [1, 1] ++ [0]) = .ok p := by
      refine Packet.decode_isFrame.mpr ⟨rfl, .inr ⟨by simp, ?_⟩⟩
      rw [Packet.data, hpayload]
      rfl
    exact hread
  | extraRun =>
    obtain ⟨hpayload, ⟨full, hlast, hfull⟩, body, hbody, rfl⟩ := h
    obtain ⟨init, hruns⟩ := List.getLast?_eq_some_iff.mp hlast
    rw [Packet.sealed_eq_data hpayload] at hruns
    have hblock : body = p.cmd :: (init ++ [full]).flatMap block := by
      rw [Packet.encode_eq_stuff hpayload, stuff_eq, hruns, ← List.cons_append] at hbody
      exact (List.append_inj' hbody rfl).1.symm
    constructor
    · obtain ⟨body', hencode, hz⟩ := p.isFrame_encode hcmd
      obtain rfl : body = body' := (List.append_inj' (hbody.symm.trans hencode) rfl).1
      exact ⟨body ++ [1], by simp, by simp [hz]⟩
    · have hshape : body ++ [1, 0] =
          p.cmd :: (init ++ [full, []]).flatMap block ++ [0] := by
        simp [hblock, block]
      rw [hshape, Packet.decode_isFrame]
      exact ⟨rfl, .inr ⟨by simp [block], unstuff_extra hruns hfull⟩⟩
  | overrun =>
    obtain ⟨hchecksum, init, run, hruns, rfl⟩ := h
    obtain ⟨body, hbody, hne, hz⟩ := isFrame_overrun hcmd hruns
    rw [hbody, ← List.cons_append]
    refine ⟨⟨p.cmd :: body, rfl, hz⟩, Packet.decode_isFrame.mpr ⟨rfl, .inr ⟨hne, ?_⟩⟩⟩
    rw [← hbody, unstuff_absorbed hruns, Packet.data, hchecksum]

/-- Payload and checksum in a single full run. -/
lemma writes_extraRun (hz : 0 ∉ p.data) (hfull : p.data.length = fullRun) :
    extraRun.Writes p (p.cmd :: 0xFF :: p.data ++ [1, 0]) := by
  have hpayload : p.payload ≠ [] := by
    intro hempty
    rw [Packet.data, hempty] at hfull
    cases hfull
  have hruns := runs_full hz hfull
  refine ⟨hpayload, ⟨p.data, ?_, hfull⟩, p.cmd :: 0xFF :: p.data, ?_, by simp⟩
  · rw [Packet.sealed_eq_data hpayload, hruns, List.getLast?_singleton]
  · rw [Packet.encode_eq_stuff hpayload, stuff_eq, hruns, List.flatMap_singleton, block, hfull]
    rfl

/-- The length of a spelling, compared with payload and checksum stuffed. -/
def excess (isEmpty : Bool) : Spelling → ℕ
  | sent => if isEmpty then 0 else 2
  | sealedEmpty => 2
  | extraRun => 3
  | overrun => 1

lemma Writes.length (h : s.Writes p bytes) :
    bytes.length + 1 = (stuff p.data).length + s.excess p.payload.isEmpty := by
  cases s with
  | sent =>
    obtain rfl := h
    by_cases hpayload : p.payload = []
    · simp [Packet.encode_eq_bare hpayload, Packet.stuff_data_of_nil hpayload, excess, hpayload]
    · simp [Packet.encode_eq_stuff hpayload, excess, hpayload]
  | sealedEmpty =>
    obtain ⟨hpayload, rfl⟩ := h
    simp [Packet.stuff_data_of_nil hpayload, excess]
  | extraRun =>
    obtain ⟨hpayload, -, body, hbody, rfl⟩ := h
    have hlength := congrArg List.length hbody
    rw [Packet.encode_eq_stuff hpayload] at hlength
    simp [excess] at hlength ⊢
    omega
  | overrun =>
    obtain ⟨hchecksum, init, run, hruns, rfl⟩ := h
    have hdata : p.data = p.payload ++ [0] := by rw [Packet.data, hchecksum]
    rw [hdata, stuff_eq, hruns]
    simp [block, excess]
    omega

/-- Whether the payload may be empty in this spelling, or has to be. -/
def Suits (isEmpty : Bool) : Spelling → Prop
  | sealedEmpty => isEmpty = true
  | extraRun => isEmpty = false
  | _ => True

lemma Writes.suits (h : s.Writes p bytes) : s.Suits p.payload.isEmpty := by
  cases s with
  | sent => trivial
  | sealedEmpty => simpa [Suits] using h.1
  | extraRun => simpa [Suits] using h.1
  | overrun => trivial

lemma excess_inj {isEmpty : Bool} (hs : s.Suits isEmpty) (ht : t.Suits isEmpty)
    (h : s.excess isEmpty = t.excess isEmpty) : s = t := by
  cases s <;> cases t <;> cases isEmpty <;> simp_all [Suits, excess]

/-- A frame has one spelling. -/
theorem Writes.unique (hs : s.Writes p bytes) (ht : t.Writes p bytes) : s = t := by
  have hslength := hs.length
  have htlength := ht.length
  exact excess_inj hs.suits ht.suits (by omega)

/-- A spelling determines the frame. -/
theorem Writes.bytes_eq {other : List UInt8} (h : s.Writes p bytes) (ho : s.Writes p other) :
    other = bytes := by
  cases s with
  | sent => exact ho.trans h.symm
  | sealedEmpty => exact ho.2.trans h.2.symm
  | extraRun =>
    obtain ⟨-, -, body, hbody, rfl⟩ := h
    obtain ⟨-, -, body', hbody', rfl⟩ := ho
    rw [(List.append_inj' (hbody'.symm.trans hbody) rfl).1]
  | overrun =>
    obtain ⟨-, init, run, hruns, rfl⟩ := h
    obtain ⟨-, init', run', hruns', rfl⟩ := ho
    obtain ⟨rfl, hrun⟩ := List.append_inj' (hruns'.symm.trans hruns) rfl
    rw [(List.cons.inj hrun).1]

end Spelling

/-- A frame is read as a packet exactly if it is in one of the packet's spellings. A frame is in one
spelling only, and each spelling of a packet is one frame; so sending a received packet again gives
the same bytes exactly if it came as it is sent. -/
theorem decode_eq_ok_iff_spelled (bytes : List UInt8) (p : Packet) :
    (IsFrame bytes ∧ Packet.decode bytes = .ok p ↔
      p.cmd ≠ 0 ∧ ∃ s : Spelling, s.Writes p bytes) ∧
    (∀ s t : Spelling, s.Writes p bytes → t.Writes p bytes → s = t) ∧
    ∀ (s : Spelling) (other : List UInt8), s.Writes p bytes → s.Writes p other → other = bytes := by
  refine ⟨⟨fun h => ?_, fun h => ?_⟩, fun s t hs ht => hs.unique ht,
    fun s other hs ho => hs.bytes_eq ho⟩
  · obtain ⟨⟨body, rfl, hz⟩, hdecode⟩ := h
    cases body with
    | nil => cases hdecode
    | cons cmd body =>
      obtain ⟨rfl, hread⟩ := Packet.decode_isFrame.mp hdecode
      obtain ⟨hcmd, hbody⟩ := List.ne_and_not_mem_of_not_mem_cons hz
      refine ⟨hcmd.symm, ?_⟩
      obtain ⟨rfl, hpayload⟩ | ⟨-, hblock⟩ := hread
      · exact ⟨.sent, (Packet.encode_eq_bare hpayload).symm⟩
      · exact Spelling.exists_writes_of_unstuff hbody hblock
  · obtain ⟨hcmd, s, hs⟩ := h
    exact hs.accepted hcmd

/-- Behind the right first byte all others leave the checksum as it is. -/
lemma checksum_steady (n : ℕ) : checksum (0x01 :: List.replicate n 0x4C) = 0x4D := by
  have hfirst : absorb 0 0x01 = 0x4D := by decide
  have hstep : absorb 0x4D 0x4C = 0x4D := by decide
  rw [checksum, checksumFrom_cons, hfirst]
  induction n with
  | zero => rfl
  | succ n ih => rw [List.replicate_succ, checksumFrom_cons, hstep, ih]

/-- Payload and checksum fill one run, and an empty run is behind it. -/
theorem decode_eq_ok_iff_spelled_full :
    let p : Packet := ⟨0x66, 0x01 :: List.replicate 252 0x4C⟩
    let bytes : List UInt8 := 0x66 :: 0xFF :: p.data ++ [1, 0]
    p.cmd ≠ 0 ∧ Spelling.extraRun.Writes p bytes ∧ IsFrame bytes ∧ Packet.decode bytes = .ok p ∧
      bytes ≠ p.encode := by
  intro p bytes
  have hcmd : p.cmd ≠ 0 := by decide
  have hdata : p.data = 0x01 :: List.replicate 252 0x4C ++ [0x4D] := by
    rw [Packet.data, checksum_steady]
  have hz : 0 ∉ p.data := by
    rw [hdata, List.mem_append, List.mem_cons, List.mem_replicate]
    decide
  have hfull : p.data.length = fullRun := by
    rw [hdata, List.length_append, List.length_cons, List.length_replicate]
    rfl
  have hwrites : Spelling.extraRun.Writes p bytes := Spelling.writes_extraRun hz hfull
  obtain ⟨haccepts, hunique, -⟩ := decode_eq_ok_iff_spelled bytes p
  obtain ⟨hframe, hdecode⟩ := haccepts.mpr ⟨hcmd, .extraRun, hwrites⟩
  refine ⟨hcmd, hwrites, hframe, hdecode, fun hsent => ?_⟩
  cases hunique .sent .extraRun hsent hwrites

/-- A frame whose last run is announced one byte too long is read all the same when the checksum of
the bytes that are there is zero, and sending its packet again gives another frame. -/
theorem overrun_accepted :
    let bytes : List UInt8 := [0xCF, 0x05, 0xFF, 0xFF, 0x39, 0]
    let p : Packet := ⟨0xCF, [0xFF, 0xFF, 0x39]⟩
    IsFrame bytes ∧ Packet.decode bytes = .ok p ∧
      ¬ ∃ s : Spelling, s ≠ .overrun ∧ s.Writes p bytes := by
  intro bytes p
  have hwrites : Spelling.overrun.Writes p bytes :=
    ⟨by decide +kernel, [], [0xFF, 0xFF, 0x39], by decide, by decide⟩
  obtain ⟨hframe, hdecode⟩ := hwrites.accepted (by decide)
  refine ⟨hframe, hdecode, ?_⟩
  rintro ⟨s, hs, hother⟩
  exact hs (hother.unique hwrites)

end FaultBench.Wire
