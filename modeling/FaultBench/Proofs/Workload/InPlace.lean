import FaultBench.Profile.Validation
import FaultBench.Proofs.Workload.Contents
import FaultBench.Proofs.Workload.Verdict
import Mathlib.Data.Bool.Basic
import Mathlib.Data.List.GetD
import Mathlib.Data.Nat.Basic
import Mathlib.Order.Lattice

/-! Initial contents laid out in memory, part by part, and compared place by place. A place behind
the end of a buffer, two parts of different sizes and an image larger than any allocation would each
end the program. Places are always found and parts always fit, so the same bytes come to lie over
whatever a buffer held and in a new one, and a comparison that stops at the first difference speaks
of just these bytes. -/
namespace FaultBench.BufferInit

/-! ### Parts of a buffer -/

/-- The parts in front of a place and behind it, if there is such a place. -/
def splitAt? (n : ℕ) (bytes : List UInt8) : Option (List UInt8 × List UInt8) :=
  if n ≤ bytes.length then some (bytes.splitAt n) else none

/-- A part with other bytes copied over it, which have to be as many. -/
def copyOver? (part bytes : List UInt8) : Option (List UInt8) :=
  if part.length = bytes.length then some bytes else none

/-- Copies as many bytes as fit to the start of a buffer. -/
def copyFitting? (bytes buffer : List UInt8) : Option (List UInt8) := do
  let n := min bytes.length buffer.length
  let (part, kept) ← splitAt? n buffer
  let (fitting, _) ← splitAt? n bytes
  let written ← copyOver? part fitting
  return written ++ kept

/-- Fills a buffer with one byte from a place on. -/
def fillFrom? (b : UInt8) (n : ℕ) (buffer : List UInt8) : Option (List UInt8) := do
  let (kept, part) ← splitAt? n buffer
  return kept ++ part.map fun _ => b

/-- Lays the contents out over what a buffer holds. -/
def applyInPlace? : BufferInit → List UInt8 → Option (List UInt8)
  | .fill b, buffer => fillFrom? b 0 buffer
  | .sequence bytes, buffer =>
    (copyFitting? bytes buffer).bind (fillFrom? 0 (min bytes.length buffer.length))

/-- A new buffer that holds one byte everywhere, if an allocation can have this size. -/
def allocate? (b : UInt8) (size : ℕ) : Option (List UInt8) :=
  if size ≤ Profile.allocationLimit then some (List.replicate size b) else none

/-- Lays the contents out in a new buffer. -/
def layOut? : BufferInit → ℕ → Option (List UInt8)
  | .fill b, size => allocate? b size
  | .sequence bytes, size => (allocate? 0 size).bind (copyFitting? bytes)

lemma splitAt?_of_le {n : ℕ} {bytes : List UInt8} (h : n ≤ bytes.length) :
    splitAt? n bytes = some (bytes.take n, bytes.drop n) := by
  rw [splitAt?, if_pos h, List.splitAt_eq]

lemma copyOver?_of_length_eq {part bytes : List UInt8} (h : part.length = bytes.length) :
    copyOver? part bytes = some bytes := if_pos h

lemma fillFrom?_of_le (b : UInt8) {n : ℕ} {buffer : List UInt8} (h : n ≤ buffer.length) :
    fillFrom? b n buffer = some (buffer.take n ++ List.replicate (buffer.length - n) b) := by
  have hpart : ((buffer.drop n).map fun _ => b) = List.replicate (buffer.length - n) b := by
    rw [List.map_const', List.length_drop]
  rw [← hpart, fillFrom?, splitAt?_of_le h]
  rfl

/-- The bytes that fit, and behind them what the buffer held. -/
lemma copyFitting?_eq (bytes buffer : List UInt8) :
    copyFitting? bytes buffer =
      some (bytes.take buffer.length ++ buffer.drop (min bytes.length buffer.length)) := by
  have hfitting : bytes.take (min bytes.length buffer.length) = bytes.take buffer.length := by
    rw [Nat.min_comm, ← List.take_eq_take_min]
  have hpart : (buffer.take (min bytes.length buffer.length)).length =
      (bytes.take buffer.length).length := by
    rw [List.length_take, List.length_take]
    omega
  simp only [copyFitting?, splitAt?_of_le (Nat.min_le_left _ _),
    splitAt?_of_le (Nat.min_le_right _ _), Option.bind_eq_bind, Option.bind_some, hfitting,
    copyOver?_of_length_eq hpart]
  rfl

/-- Nothing that the buffer held is left. -/
theorem applyInPlace?_eq (init : BufferInit) (buffer : List UInt8) :
    init.applyInPlace? buffer = some (init.apply buffer) := by
  rw [apply_eq_image]
  cases init with
  | fill b => exact fillFrom?_of_le b (Nat.zero_le _)
  | sequence bytes =>
    have hfront : (bytes.take buffer.length).length = min bytes.length buffer.length := by
      rw [List.length_take, Nat.min_comm]
    have hwhole : (bytes.take buffer.length ++
        buffer.drop (min bytes.length buffer.length)).length = buffer.length := by
      rw [List.length_append, List.length_drop, hfront]
      omega
    have hrest : buffer.length - min bytes.length buffer.length =
        buffer.length - bytes.length := by
      omega
    rw [applyInPlace?, copyFitting?_eq, Option.bind_some, fillFrom?_of_le 0 (by omega),
      List.take_left' hfront, hwhole, hrest]
    rfl

/-- A new buffer holds zeros already. -/
theorem layOut?_eq (init : BufferInit) (size : ℕ) :
    init.layOut? size =
      if size ≤ Profile.allocationLimit then some (init.image size) else none := by
  cases init with
  | fill b => rfl
  | sequence bytes =>
    have hrest : size - min bytes.length size = size - bytes.length := by omega
    rw [layOut?, allocate?]
    split
    · rw [Option.bind_some, copyFitting?_eq, List.drop_replicate, List.length_replicate, hrest]
      rfl
    · rfl

/-! ### Places one after the other -/

/-- Looks for a difference from a place on, and stops at the first. -/
def searchFrom (a b : BufferInit) (size place : ℕ) : Bool :=
  if place < size then
    if a.byteAt place ≠ b.byteAt place then true else searchFrom a b size (place + 1)
  else false
termination_by size - place

lemma searchFrom_iff (a b : BufferInit) (size place : ℕ) :
    searchFrom a b size place = true ↔
      ∃ i, place ≤ i ∧ i < size ∧ a.byteAt i ≠ b.byteAt i := by
  fun_induction searchFrom a b size place with
  | case1 place hplace hne => exact iff_of_true rfl ⟨place, Nat.le_refl place, hplace, hne⟩
  | case2 place hplace heq ih =>
    rw [ih]
    constructor
    · rintro ⟨i, hi, hlt, hne⟩
      exact ⟨i, Nat.le_of_succ_le hi, hlt, hne⟩
    · rintro ⟨i, hi, hlt, hne⟩
      -- The search has been at this place and gone on.
      have hpassed : place ≠ i := by
        rintro rfl
        exact heq hne
      exact ⟨i, Nat.succ_le_of_lt (Nat.lt_of_le_of_ne hi hpassed), hlt, hne⟩
  | case3 place hplace =>
    refine iff_of_false Bool.false_ne_true ?_
    rintro ⟨i, hi, hlt, -⟩
    omega

/-- The places behind both spans change nothing. -/
theorem searchFrom_zero (a b : BufferInit) (size : ℕ) :
    searchFrom a b size 0 = a.differsFrom b size := by
  rw [Bool.eq_iff_iff, searchFrom_iff, differsFrom_iff]
  simp only [Nat.zero_le, true_and]

theorem differsFrom_comm (a b : BufferInit) (size : ℕ) :
    a.differsFrom b size = b.differsFrom a size := by
  rw [Bool.eq_iff_iff, differsFrom_iff, differsFrom_iff]
  simp only [ne_comm]

@[simp] theorem differsFrom_self (a : BufferInit) (size : ℕ) : a.differsFrom a size = false := by
  rw [Bool.eq_false_iff, ne_eq, differsFrom_iff]
  rintro ⟨i, -, hne⟩
  exact hne rfl

/-- A larger buffer has the places of a smaller one. -/
theorem monotone_differsFrom (a b : BufferInit) : Monotone (a.differsFrom b) := by
  intro small large hle
  rw [Bool.le_iff_imp, differsFrom_iff, differsFrom_iff]
  rintro ⟨i, hi, hne⟩
  exact ⟨i, Nat.lt_of_lt_of_le hi hle, hne⟩

/-- The bytes of a sequence are read inside of it only. -/
lemma byteAt_sequence_eq (bytes : List UInt8) (i : ℕ) :
    (sequence bytes).byteAt i = if h : i < bytes.length then bytes[i] else 0 := by
  rw [byteAt_sequence]
  split
  · next h => exact List.getD_eq_getElem bytes 0 h
  · next h => exact List.getD_eq_default bytes 0 (Nat.le_of_not_lt h)

theorem differsFrom_fill_sequence (f : UInt8) (bytes : List UInt8) (size : ℕ) :
    (fill f).differsFrom (sequence bytes) size = true ↔
      ∃ i < size, (if h : i < bytes.length then bytes[i] else 0) ≠ f := by
  rw [differsFrom_iff]
  simp only [byteAt_fill, byteAt_sequence_eq, ne_comm]

/-! ### Agreement -/

/-- The buffers of a size that contents are laid out in, each with the bytes of its places. -/
structure LaidOut (init : BufferInit) (size : ℕ) : Prop where
  applied (held : List UInt8) (h : held.length = size) :
    init.apply held = (List.range size).map init.byteAt ∧
      init.applyInPlace? held = some (init.apply held)
  image : init.image size = (List.range size).map init.byteAt
  /-- A new buffer can be as large as any buffer is, and no larger. -/
  allocated : init.layOut? size =
    if size ≤ Profile.allocationLimit then some (init.image size) else none

/-- Two contents compared in buffers of a size. -/
structure Compared (a b : BufferInit) (size : ℕ) : Prop where
  images : a.differsFrom b size = true ↔ a.image size ≠ b.image size
  places : a.differsFrom b size = searchFrom a b size 0
  symm : a.differsFrom b size = b.differsFrom a size

/-- Whatever contents are laid out in, and in whichever way, each place holds the byte that the
contents have there; and whether two contents differ is whether their images do. -/
theorem views_agree (a b : BufferInit) (size : ℕ) :
    a.LaidOut size ∧ Compared a b size ∧ a.differsFrom a size = false ∧
      Monotone (a.differsFrom b) ∧
      ∀ (f : UInt8) (bytes : List UInt8), (fill f).differsFrom (sequence bytes) size = true ↔
        ∃ i < size, (if h : i < bytes.length then bytes[i] else 0) ≠ f := by
  have hlaid : a.LaidOut size := by
    refine ⟨fun held h => ⟨?_, a.applyInPlace?_eq held⟩, a.image_eq_map size, a.layOut?_eq size⟩
    rw [apply_eq_image, h, image_eq_map]
  have hcompared : Compared a b size :=
    ⟨differsFrom_iff_image_ne a b size, (searchFrom_zero a b size).symm,
      differsFrom_comm a b size⟩
  exact ⟨hlaid, hcompared, a.differsFrom_self size, monotone_differsFrom a b,
    fun f bytes => differsFrom_fill_sequence f bytes size⟩

/-- A sequence cut off by a buffer that held something else, which differs from another one only
behind that buffer, and zeros that a sequence goes on with for a while. -/
theorem views_agree_cut :
    (sequence [7, 0, 9, 5]).applyInPlace? [0xFF, 0xFF, 0xFF] = some [7, 0, 9] ∧
      (sequence [7, 0, 9, 5]).layOut? 3 = some [7, 0, 9] ∧
      (sequence [7, 0, 9, 5]).differsFrom (sequence [7, 0, 9]) 3 = false ∧
      (sequence [7, 0, 9, 5]).differsFrom (sequence [7, 0, 9]) 4 = true ∧
      (fill 0).differsFrom (sequence [0, 0, 7]) 3 = true := by
  obtain ⟨hlaid, hcompared, -, -, hfill⟩ :=
    views_agree (sequence [7, 0, 9, 5]) (sequence [7, 0, 9]) 3
  obtain ⟨-, hlarger, -⟩ := views_agree (sequence [7, 0, 9, 5]) (sequence [7, 0, 9]) 4
  exact ⟨(hlaid.applied [0xFF, 0xFF, 0xFF] rfl).2, hlaid.allocated,
    Bool.eq_false_iff.mpr fun hdiffer => hcompared.images.mp hdiffer rfl,
    hlarger.images.mpr (by decide), (hfill 0 [0, 0, 7]).mpr ⟨2, by decide, by decide⟩⟩

end FaultBench.BufferInit
