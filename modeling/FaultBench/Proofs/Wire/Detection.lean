import FaultBench.Proofs.Wire.Frame
import Mathlib.Dynamics.PeriodicPts.Defs
import Mathlib.NumberTheory.Divisors

/-! Errors that the checksum of a sealed block cannot miss. The register is linear in the bits
that are fed to it and starts clear, so an intact block leaves it clear, and an altered one leaves
in it what the row of the errors alone would leave. -/
namespace FaultBench.Wire

/-! ### The register -/

lemma and_high (r : UInt8) : r &&& 0x80 = 0 ∨ r &&& 0x80 = 0x80 := by
  have hall : ∀ v : BitVec 8, v &&& 0x80#8 = 0#8 ∨ v &&& 0x80#8 = 0x80#8 := by decide +kernel
  simpa [← UInt8.toBitVec_inj] using hall r.toBitVec

lemma xor_common (r q p : UInt8) : r ^^^ p ^^^ (q ^^^ p) = r ^^^ q := by
  rw [UInt8.xor_assoc, UInt8.xor_comm q p, ← UInt8.xor_assoc p, UInt8.xor_self, UInt8.zero_xor]

theorem shift_xor (r q : UInt8) : shift (r ^^^ q) = shift r ^^^ shift q := by
  have hhigh : (r ^^^ q) &&& 0x80 = (r &&& 0x80) ^^^ (q &&& 0x80) := by
    apply UInt8.eq_of_toBitVec_eq
    ext i
    simp [Bool.and_xor_distrib_right]
  obtain hr | hr := and_high r <;> obtain hq | hq := and_high q <;>
    simp only [shift, hhigh, hr, hq, UInt8.shiftLeft_xor]
  · rfl
  · exact UInt8.xor_assoc _ _ _
  · change r <<< 1 ^^^ q <<< 1 ^^^ generator = r <<< 1 ^^^ generator ^^^ q <<< 1
    rw [UInt8.xor_assoc, UInt8.xor_comm (q <<< 1), UInt8.xor_assoc]
  · exact (xor_common _ _ generator).symm

/-- Multiplication by `x` loses nothing, as the generator has a constant term. -/
lemma shift_eq_zero {r : UInt8} (h : shift r = 0) : r = 0 := by
  have hall : ∀ v : BitVec 8, shift ⟨v⟩ = 0 → v = 0#8 := by decide +kernel
  exact UInt8.eq_of_toBitVec_eq (hall r.toBitVec h)

lemma iterate_shift_xor (n : ℕ) (r q : UInt8) :
    shift^[n] (r ^^^ q) = shift^[n] r ^^^ shift^[n] q := by
  induction n generalizing r q with
  | zero => rfl
  | succ n ih => simp only [Function.iterate_succ_apply, shift_xor, ih]

lemma iterate_shift_zero (n : ℕ) : shift^[n] 0 = 0 := Function.iterate_fixed rfl n

lemma iterate_shift_ne_zero {r : UInt8} (h : r ≠ 0) (n : ℕ) : shift^[n] r ≠ 0 := by
  induction n with
  | zero => exact h
  | succ n ih =>
    rw [Function.iterate_succ_apply']
    exact fun hzero => ih (shift_eq_zero hzero)

/-- The generator is primitive: the highest bit comes back after 255 shifts and no fewer. -/
lemma iterate_shift_high {m : ℕ} (hpos : 0 < m) (hlt : m < 255) : shift^[m] 0x80 ≠ 0x80 := by
  intro hperiod
  have hfull : Function.IsPeriodicPt shift 255 0x80 := by
    change shift^[255] 0x80 = 0x80
    decide +kernel
  have hdivisors : ∀ d ∈ Nat.properDivisors 255, shift^[d] 0x80 ≠ 0x80 := by decide +kernel
  have hproper : Nat.gcd m 255 ∈ Nat.properDivisors 255 :=
    Nat.mem_properDivisors.mpr
      ⟨Nat.gcd_dvd_right m 255, (Nat.gcd_le_left 255 hpos).trans_lt hlt⟩
  exact hdivisors _ hproper (Function.IsPeriodicPt.gcd hperiod hfull)

/-! ### The bits that are fed to it -/

/-- The bits of a byte, the most significant first. -/
def byteBits (b : UInt8) : List Bool := (List.range 8).map b.toBitVec.getMsbD

/-- The bits of a row of bytes in the order in which they meet the register. -/
def bits (data : List UInt8) : List Bool := data.flatMap byteBits

@[simp] lemma length_byteBits (b : UInt8) : (byteBits b).length = 8 := by simp [byteBits]

lemma bits_cons (b : UInt8) (data : List UInt8) : bits (b :: data) = byteBits b ++ bits data :=
  List.flatMap_cons

@[simp] lemma length_bits (data : List UInt8) : (bits data).length = 8 * data.length := by
  induction data with
  | nil => rfl
  | cons b data ih => simp [bits_cons, ih, Nat.mul_succ, Nat.add_comm]

lemma getElem?_bits (data : List UInt8) (i : ℕ) :
    (bits data)[i]? = data[i / 8]?.map fun b => b.toBitVec.getMsbD (i % 8) := by
  induction data generalizing i with
  | nil => rfl
  | cons b data ih =>
    rw [bits_cons]
    by_cases hi : i < 8
    · rw [List.getElem?_append_left (by simpa using hi), Nat.div_eq_of_lt hi, Nat.mod_eq_of_lt hi]
      simp [byteBits, hi]
    · have hdiv : i / 8 = (i - 8) / 8 + 1 := by omega
      have hmod : i % 8 = (i - 8) % 8 := by omega
      rw [List.getElem?_append_right (by simp; omega), length_byteBits, ih, hdiv, hmod,
        List.getElem?_cons_succ]

lemma exists_byteBits {row : List Bool} (h : row.length = 8) : ∃ b, byteBits b = row := by
  have hlength : (byteBits ⟨(BitVec.ofBoolListBE row).cast h⟩).length = row.length := by simp [h]
  refine ⟨_, List.ext_getElem hlength fun i _ hi => ?_⟩
  simp [byteBits, BitVec.getMsbD_cast, BitVec.getMsbD_ofBoolListBE, hi]

/-- The bits tell rows of bytes apart. -/
lemma bits_injective {s t : List UInt8} (h : bits s = bits t) : s = t := by
  have hlength : s.length = t.length := by
    have := congrArg List.length h
    simp only [length_bits] at this
    omega
  refine List.ext_getElem hlength fun i hs ht => ?_
  refine UInt8.eq_of_toBitVec_eq (BitVec.eq_of_getMsbD_eq fun j hj => ?_)
  have hbit := congrArg (·[8 * i + j]?) h
  have hdiv : (8 * i + j) / 8 = i := by omega
  have hmod : (8 * i + j) % 8 = j := by omega
  simpa [getElem?_bits, hdiv, hmod, hs, ht] using hbit

/-- The register after one more bit. -/
def advance (r : UInt8) (bit : Bool) : UInt8 := shift (r ^^^ if bit then 0x80 else 0)

def feed (r : UInt8) (row : List Bool) : UInt8 := row.foldl advance r

@[simp] lemma feed_nil (r : UInt8) : feed r [] = r := rfl

@[simp] lemma feed_cons (r : UInt8) (bit : Bool) (row : List Bool) :
    feed r (bit :: row) = feed (advance r bit) row := rfl

lemma feed_append (r : UInt8) (xs ys : List Bool) : feed r (xs ++ ys) = feed (feed r xs) ys :=
  List.foldl_append

lemma advance_xor (r q : UInt8) (a b : Bool) :
    advance (r ^^^ q) (a ^^ b) = advance r a ^^^ advance q b := by
  rw [advance, advance, advance, ← shift_xor]
  congr 1
  cases a <;> cases b
  · simp
  · change r ^^^ q ^^^ 0x80 = r ^^^ 0 ^^^ (q ^^^ 0x80)
    rw [UInt8.xor_zero, UInt8.xor_assoc]
  · change r ^^^ q ^^^ 0x80 = r ^^^ 0x80 ^^^ (q ^^^ 0)
    rw [UInt8.xor_zero, UInt8.xor_assoc, UInt8.xor_comm q, UInt8.xor_assoc]
  · simp [xor_common]

/-- The sum of two rows leaves the sum of what the rows leave. -/
lemma feed_zipWith (r q : UInt8) {xs ys : List Bool} (h : xs.length = ys.length) :
    feed (r ^^^ q) (List.zipWith (· ^^ ·) xs ys) = feed r xs ^^^ feed q ys := by
  induction xs generalizing ys r q with
  | nil =>
    obtain rfl := List.length_eq_zero_iff.mp h.symm
    rfl
  | cons a xs ih =>
    match ys, h with
    | b :: ys, h =>
      simp only [List.zipWith_cons_cons, feed_cons, advance_xor]
      exact ih _ _ (Nat.succ.inj h)

lemma feed_clear (r : UInt8) {row : List Bool} (h : true ∉ row) :
    feed r row = shift^[row.length] r := by
  induction row generalizing r with
  | nil => rfl
  | cons bit row ih =>
    obtain ⟨hbit, hrow⟩ := List.ne_and_not_mem_of_not_mem_cons h
    rw [feed_cons, ih _ hrow, Bool.eq_false_of_not_eq_true (Ne.symm hbit), advance,
      List.length_cons, Function.iterate_succ_apply]
    simp

lemma feed_eq (r : UInt8) (row : List Bool) :
    feed r row = shift^[row.length] r ^^^ feed 0 row := by
  induction row generalizing r with
  | nil => simp
  | cons bit row ih =>
    have hsplit : advance r bit = shift r ^^^ advance 0 bit := by
      simpa [advance] using advance_xor r 0 false bit
    rw [feed_cons, ih, hsplit, iterate_shift_xor, UInt8.xor_assoc, ← ih]
    rfl

lemma feed_byteBits (b : UInt8) : feed 0 (byteBits b) = shift^[8] b := by
  have hall : ∀ v : BitVec 8, feed 0 (byteBits ⟨v⟩) = shift^[8] ⟨v⟩ := by decide +kernel
  exact hall b.toBitVec

lemma absorb_eq_feed (r b : UInt8) : absorb r b = feed r (byteBits b) := by
  rw [feed_eq, feed_byteBits, length_byteBits, ← iterate_shift_xor]
  rfl

lemma checksumFrom_eq_feed (r : UInt8) (data : List UInt8) :
    checksumFrom r data = feed r (bits data) := by
  induction data generalizing r with
  | nil => rfl
  | cons b data ih => rw [checksumFrom_cons, ih, bits_cons, feed_append, absorb_eq_feed]

lemma checksum_eq_feed (data : List UInt8) : checksum data = feed 0 (bits data) :=
  checksumFrom_eq_feed 0 data

/-- A block is intact exactly when it leaves the register clear, its checksum included. -/
lemma feed_bits_eq_zero_iff (body : List UInt8) (received : UInt8) :
    feed 0 (bits (body ++ [received])) = 0 ↔ checksum body = received := by
  rw [← checksum_eq_feed, checksum, checksumFrom_append]
  change shift^[8] (checksum body ^^^ received) = 0 ↔ _
  constructor
  · intro hzero
    by_contra hne
    exact iterate_shift_ne_zero (mt UInt8.xor_eq_zero_iff.mp hne) 8 hzero
  · rintro rfl
    rw [UInt8.xor_self, iterate_shift_zero]

/-! ### Rows of errors -/

lemma feed_ne_zero {r : UInt8} (hr : r ≠ 0) {row : List Bool} (h : true ∉ row) :
    feed r row ≠ 0 := by
  rw [feed_clear r h]
  exact iterate_shift_ne_zero hr row.length

/-- A row that fits the register and is not clear does not cancel: with zeros behind it, it is a
byte other than zero. -/
lemma feed_window {window : List Bool} (hlength : window.length ≤ 8) (hset : true ∈ window) :
    feed 0 window ≠ 0 := by
  intro hzero
  have hpadded : (window ++ List.replicate (8 - window.length) false).length = 8 := by
    simp
    omega
  obtain ⟨b, hb⟩ := exists_byteBits hpadded
  have hcancelled : shift^[8] b = 0 := by
    rw [← feed_byteBits, hb, feed_append, hzero, feed_clear 0 (by simp), iterate_shift_zero]
  have hbyte : b = 0 := by
    by_contra hne
    exact iterate_shift_ne_zero hne 8 hcancelled
  have hmem : true ∈ byteBits b := by simp [hb, hset]
  rw [hbyte] at hmem
  exact absurd hmem (by decide)

/-- A burst of errors as long as the register. -/
lemma feed_burst {row : List Bool} {k : ℕ} (hset : true ∈ row)
    (hburst : ∀ i, row[i]? = some true → k ≤ i ∧ i < k + 8) : feed 0 row ≠ 0 := by
  have hbefore : true ∉ row.take k := by
    intro hmem
    obtain ⟨i, hi⟩ := List.mem_iff_getElem?.mp hmem
    grind
  have hafter : true ∉ (row.drop k).drop 8 := by
    intro hmem
    obtain ⟨i, hi⟩ := List.mem_iff_getElem?.mp hmem
    grind
  have hwindow : true ∈ (row.drop k).take 8 := by
    have hsplit : true ∈ row.take k ++ ((row.drop k).take 8 ++ (row.drop k).drop 8) := by
      simpa only [List.take_append_drop] using hset
    simpa only [List.mem_append, hbefore, hafter, false_or, or_false] using hsplit
  rw [← List.take_append_drop k row, feed_append, feed_clear 0 hbefore, iterate_shift_zero,
    ← List.take_append_drop 8 (row.drop k), feed_append]
  exact feed_ne_zero (feed_window (List.length_take_le 8 _) hwindow) hafter

/-- The register runs on to the next set bit. -/
lemma feed_drop (r : UInt8) {row : List Bool} {i j : ℕ} (hij : i ≤ j)
    (hset : row[j]? = some true) (hclear : ∀ k, i ≤ k → k < j → row[k]? ≠ some true) :
    feed r (row.drop i) = feed (shift (shift^[j - i] r ^^^ 0x80)) (row.drop (j + 1)) := by
  obtain ⟨hj, hbit⟩ := List.getElem?_eq_some_iff.mp hset
  have hbetween : true ∉ (row.drop i).take (j - i) := by
    intro hmem
    obtain ⟨k, hk⟩ := List.mem_iff_getElem?.mp hmem
    grind
  have hlength : ((row.drop i).take (j - i)).length = j - i := by simp; omega
  have hrest : (row.drop i).drop (j - i) = true :: row.drop (j + 1) := by
    rw [List.drop_drop, Nat.add_sub_cancel' hij, List.drop_eq_getElem_cons hj, hbit]
  rw [← List.take_append_drop (j - i) (row.drop i), feed_append, feed_clear r hbetween, hlength,
    hrest, feed_cons]
  rfl

/-- Two errors that are closer than the highest bit takes to come back. -/
lemma feed_pair {row : List Bool} {i j : ℕ} (hij : i < j) (hclose : row.length ≤ 255)
    (hset : ∀ k, row[k]? = some true ↔ k = i ∨ k = j) : feed 0 row ≠ 0 := by
  have hj := (hset j).mpr (.inr rfl)
  obtain ⟨hrange, -⟩ := List.getElem?_eq_some_iff.mp hj
  have hbetween : shift^[j - (i + 1)] (shift 0x80) = shift^[j - i] 0x80 := by
    rw [← Function.iterate_succ_apply]
    congr 1
    omega
  have hfed : feed 0 row = feed (shift (shift^[j - i] 0x80 ^^^ 0x80)) (row.drop (j + 1)) := by
    have hfirst := feed_drop 0 (Nat.zero_le i) ((hset i).mpr (.inl rfl)) (by grind)
    rw [List.drop_zero, iterate_shift_zero, UInt8.zero_xor] at hfirst
    rw [hfirst, feed_drop _ (by omega) hj (by grind), hbetween]
  rw [hfed]
  have hapart : shift^[j - i] 0x80 ≠ 0x80 := iterate_shift_high (by omega) (by omega)
  refine feed_ne_zero (fun hzero => ?_) fun hmem => ?_
  · exact hapart (UInt8.xor_eq_zero_iff.mp (shift_eq_zero hzero))
  · obtain ⟨k, hk⟩ := List.mem_iff_getElem?.mp hmem
    grind

/-! ### Altered rows of bytes -/

/-- The positions of the bits in which two rows of bytes differ. -/
def differing (s t : List UInt8) : Finset ℕ :=
  (Finset.range (bits s).length).filter fun i => (bits s)[i]? ≠ (bits t)[i]?

/-- The errors fit a stretch of eight bits, which may lie across two bytes. -/
def IsBurst (s t : List UInt8) : Prop := ∃ k, ∀ i ∈ differing s t, k ≤ i ∧ i < k + 8

def errors (s t : List UInt8) : List Bool := List.zipWith (· ^^ ·) (bits s) (bits t)

lemma mem_differing {s t : List UInt8} (h : s.length = t.length) (i : ℕ) :
    i ∈ differing s t ↔ (bits s)[i]? ≠ (bits t)[i]? := by
  have hboth : (bits s).length = (bits t).length := by simp [h]
  rw [differing, Finset.mem_filter, Finset.mem_range, and_iff_right_iff_imp]
  intro hdiffer
  by_contra hout
  rw [List.getElem?_eq_none (by omega), List.getElem?_eq_none (by omega)] at hdiffer
  exact hdiffer rfl

lemma getElem?_errors {s t : List UInt8} (h : s.length = t.length) (i : ℕ) :
    (errors s t)[i]? = some true ↔ i ∈ differing s t := by
  have hboth : (bits s).length = (bits t).length := by simp [h]
  rw [mem_differing h, errors, List.getElem?_zipWith]
  by_cases hi : i < (bits s).length
  · rw [List.getElem?_eq_getElem hi, List.getElem?_eq_getElem (hboth ▸ hi)]
    simp
  · rw [List.getElem?_eq_none (by omega), List.getElem?_eq_none (by omega)]
    simp

lemma true_mem_errors {s t : List UInt8} (h : s.length = t.length) (hne : s ≠ t) :
    true ∈ errors s t := by
  by_contra hclear
  refine hne (bits_injective (List.ext_getElem? fun i => ?_))
  by_contra hdiffer
  have hi : i ∈ differing s t := (mem_differing h i).mpr hdiffer
  exact hclear (List.mem_of_getElem? ((getElem?_errors h i).mpr hi))

/-- The errors of a damaged block are not seen through what the block holds. -/
lemma feed_errors {s t : List UInt8} (h : s.length = t.length) :
    feed 0 (errors s t) = feed 0 (bits s) ^^^ feed 0 (bits t) := by
  rw [errors, ← feed_zipWith 0 0 (by simp [h]), UInt8.xor_self]

/-- A change of one byte is a burst. -/
lemma isBurst_set (s : List UInt8) (j : ℕ) (b : UInt8) : IsBurst s (s.set j b) := by
  refine ⟨8 * j, fun i hi => ?_⟩
  rw [differing, Finset.mem_filter, getElem?_bits, getElem?_bits] at hi
  by_contra hout
  have hbyte : j ≠ i / 8 := by omega
  exact hi.2 (by rw [List.getElem?_set_ne hbyte])

lemma feed_bits_ne_zero {s t : List UInt8} (hs : feed 0 (bits s) = 0) (h : s.length = t.length)
    (hne : s ≠ t) (herror : IsBurst s t ∨ s.length ≤ 31 ∧ (differing s t).card = 2) :
    feed 0 (bits t) ≠ 0 := by
  have herrors := feed_errors h
  rw [hs, UInt8.zero_xor] at herrors
  rw [← herrors]
  obtain ⟨k, hburst⟩ | ⟨hshort, hpair⟩ := herror
  · exact feed_burst (true_mem_errors h hne) fun i hi => hburst i ((getElem?_errors h i).mp hi)
  · obtain ⟨i, j, hij, hdiffering⟩ := Finset.card_eq_two.mp hpair
    have hset (k : ℕ) : (errors s t)[k]? = some true ↔ k = i ∨ k = j := by
      rw [getElem?_errors h, hdiffering, Finset.mem_insert, Finset.mem_singleton]
    have hlength : (errors s t).length ≤ 255 := by simp [errors, ← h]; omega
    obtain hlt | hlt := Nat.lt_or_gt_of_ne hij
    · exact feed_pair hlt hlength hset
    · exact feed_pair hlt hlength fun k => (hset k).trans or_comm

namespace Packet

lemma decode_frame_damaged (cmd : UInt8) {body : List UInt8} {received : UInt8}
    (h : checksum body ≠ received) :
    decode (frame cmd (body ++ [received])) =
      .error (.checksumMismatch (checksum body) received) := by
  have hblock : frame cmd (body ++ [received]) = cmd :: Stuffing.stuff (body ++ [received]) := by
    simp [frame]
  rw [hblock, decode_stuff (by simp)]
  simp [opened, h]

end Packet

/-- The frame of a damaged block is read as such, with the checksum of the bytes before the last
one and the last one itself. -/
def Rejected (cmd : UInt8) (block : List UInt8) : Prop :=
  ∃ body received, block = body ++ [received] ∧ checksum body ≠ received ∧
    Packet.decode (frame cmd block) = .error (.checksumMismatch (checksum body) received)

lemma rejected_of_feed {cmd : UInt8} {block : List UInt8} (h : feed 0 (bits block) ≠ 0) :
    Rejected cmd block := by
  obtain rfl | ⟨body, received, rfl⟩ := block.eq_nil_or_concat'
  · exact absurd rfl h
  · have hmismatch : checksum body ≠ received := mt (feed_bits_eq_zero_iff body received).mpr h
    exact ⟨body, received, rfl, hmismatch, Packet.decode_frame_damaged cmd hmismatch⟩

/-- Altered blocks whose frames are rejected, whatever the command: those with a burst of errors,
any single byte included, and short ones with two errors. -/
theorem altered_block_rejected (cmd : UInt8) {payload : List UInt8} (hpayload : payload ≠ []) :
    (∀ altered, altered.length = (sealed payload).length → altered ≠ sealed payload →
      IsBurst (sealed payload) altered ∨
        (sealed payload).length ≤ 31 ∧ (differing (sealed payload) altered).card = 2 →
      Rejected cmd altered) ∧
      ∀ j b, (sealed payload).set j b ≠ sealed payload →
        Rejected cmd ((sealed payload).set j b) := by
  have hintact : feed 0 (bits (sealed payload)) = 0 := by
    rw [sealed, if_neg (by simpa using hpayload)]
    exact (feed_bits_eq_zero_iff payload _).mpr rfl
  refine ⟨fun altered hlength hne herror => ?_, fun j b hne => ?_⟩
  · exact rejected_of_feed (feed_bits_ne_zero hintact hlength.symm hne.symm herror)
  · exact rejected_of_feed
      (feed_bits_ne_zero hintact (by simp) hne.symm (.inl (isBurst_set _ j b)))

/-- A burst across the first two bytes, the first and the last bit, and the checksum replaced. -/
theorem altered_block_rejected_three :
    [0x11,0x00,0x22] ≠ ([] : List UInt8) ∧ sealed [0x11,0x00,0x22] = [0x11,0x00,0x22,0xE3] ∧
      Rejected 0x66 [0x1E,0xF0,0x22,0xE3] ∧ Rejected 0 [0x91,0x00,0x22,0xE2] ∧
      Rejected 0x65 [0x11,0x00,0x22,0x00] := by
  have hsealed : sealed [0x11,0x00,0x22] = [0x11,0x00,0x22,0xE3] := by decide +kernel
  have hpayload : [0x11,0x00,0x22] ≠ ([] : List UInt8) := by decide
  have hburst := (altered_block_rejected 0x66 hpayload).1 [0x1E,0xF0,0x22,0xE3]
  have hpair := (altered_block_rejected 0 hpayload).1 [0x91,0x00,0x22,0xE2]
  have hbyte := (altered_block_rejected 0x65 hpayload).2 3 0x00
  rw [hsealed] at hburst hpair hbyte
  refine ⟨hpayload, hsealed, hburst rfl (by decide) (.inl ⟨4, ?_⟩), ?_, hbyte (by decide)⟩
  · decide +kernel
  · exact hpair rfl (by decide) (.inr ⟨by decide, by decide +kernel⟩)

end FaultBench.Wire
