import FaultBench.Proofs.Text.HexInput

/-! All texts that are read as given bytes. Their digits may be of either case, cut into pieces at
any place, marked with a base or not, and set apart by any separators; and no other text is read.
Taking the digits pair by pair at their places in the text comes to the same. -/
namespace FaultBench.Text

/-! ### Layouts -/

/-- The mark of the base in front of a piece. -/
inductive Mark where
  | none
  | lower
  | upper
  deriving DecidableEq, Repr

def Mark.text : Mark → List Char
  | none => []
  | lower => ['0', 'x']
  | upper => ['0', 'X']

/-- A piece of the digits, which may be empty. -/
structure Piece where
  mark : Mark := .none
  digits : List Char
  deriving DecidableEq, Repr

def Piece.text (p : Piece) : List Char := p.mark.text ++ p.digits

/-- One separator or more. -/
structure Gap where
  chars : List Char
  ne_nil : chars ≠ []
  separates : chars.all isSeparator = true

/-- Pieces with gaps between them, and separators or none around them. -/
structure HexLayout where
  before : List Char := []
  first : Piece
  more : List (Gap × Piece) := []
  after : List Char := []
  before_separates : before.all isSeparator = true := by decide
  after_separates : after.all isSeparator = true := by decide

namespace HexLayout

def text (l : HexLayout) : List Char :=
  l.before ++ l.first.text ++ l.more.flatMap (fun m => m.1.chars ++ m.2.text) ++ l.after

def digits (l : HexLayout) : List Char := l.first.digits ++ l.more.flatMap (·.2.digits)

/-- The digits are those of the bytes, each in either case. -/
def Spells (l : HexLayout) (bytes : List UInt8) : Prop :=
  l.digits.map Char.toLower = (hex bytes).toList

instance (l : HexLayout) (bytes : List UInt8) : Decidable (l.Spells bytes) :=
  inferInstanceAs (Decidable (_ = _))

end HexLayout

/-! ### Words -/

/-- A word without the mark of a base. -/
def unmarked : List Char → List Char
  | '0' :: 'x' :: rest => rest
  | '0' :: 'X' :: rest => rest
  | word => word

lemma unmarked_singleton (c : Char) : unmarked [c] = [c] := by
  simp [unmarked]

lemma unmarked_of_ne {c d : Char} {rest : List Char} (h : ¬ (c = '0' ∧ (d = 'x' ∨ d = 'X'))) :
    unmarked (c :: d :: rest) = c :: d :: rest := by
  rw [unmarked]
  · rintro rest' ⟨rfl, rfl, -⟩
    exact h ⟨rfl, .inl rfl⟩
  · rintro rest' ⟨rfl, rfl, -⟩
    exact h ⟨rfl, .inr rfl⟩

/-- Words are the longest rows of characters that do not separate. -/
def wordsOf (cs : List Char) : List (List Char) := cs.splitOnP isSeparator

lemma wordsOf_separator {c : Char} (h : isSeparator c = true) (cs : List Char) :
    wordsOf (c :: cs) = [] :: wordsOf cs := by
  rw [wordsOf, List.splitOnP_cons_eq_if_modifyHead, if_pos h]
  rfl

lemma wordsOf_letter {c : Char} (h : isSeparator c = false) (cs : List Char) :
    wordsOf (c :: cs) = (wordsOf cs).modifyHead (c :: ·) := by
  rw [wordsOf, List.splitOnP_cons_eq_if_modifyHead, if_neg (by simp [h])]
  rfl

/-- The first word of a text and the words behind it. -/
lemma exists_wordsOf (cs : List Char) : ∃ w ws, wordsOf cs = w :: ws :=
  List.exists_cons_of_ne_nil (List.splitOnP_ne_nil _ _)

/-- Where no separator is in front, a first word begins with the first character. -/
lemma exists_wordsOf_letter {c : Char} (h : isSeparator c = false) (cs : List Char) :
    ∃ w ws, wordsOf cs = w :: ws ∧ wordsOf (c :: cs) = (c :: w) :: ws := by
  obtain ⟨w, ws, hwords⟩ := exists_wordsOf cs
  exact ⟨w, ws, hwords, by rw [wordsOf_letter h, hwords, List.modifyHead_cons]⟩

/-- The digits of a text are its words without their marks. Only at the start of a word a mark is
looked for. -/
theorem hexDigitsFrom_eq (start : Bool) (cs : List Char) :
    ∃ w ws, wordsOf cs = w :: ws ∧
      hexDigitsFrom start cs = (if start then unmarked w else w) ++ ws.flatMap unmarked := by
  fun_induction hexDigitsFrom start cs with
  | case1 start => exact ⟨[], [], rfl, by cases start <;> rfl⟩
  | case2 start c hc => exact ⟨[], [[]], wordsOf_separator hc [], by cases start <;> rfl⟩
  | case3 start c hc =>
    refine ⟨[c], [], wordsOf_letter (eq_false_of_ne_true hc) [], ?_⟩
    rw [unmarked_singleton, ite_self]
    rfl
  | case4 start c d rest hc ih =>
    obtain ⟨w, ws, hwords, hdigits⟩ := ih
    refine ⟨[], w :: ws, by rw [wordsOf_separator hc, hwords], ?_⟩
    rw [hdigits]
    cases start <;> rfl
  | case5 start c d rest hc hmark ih =>
    obtain ⟨w, ws, hwords, hdigits⟩ := ih
    simp only [Bool.and_eq_true, Bool.or_eq_true, beq_iff_eq] at hmark
    obtain ⟨⟨rfl, rfl⟩, hd⟩ := hmark
    have hsep : isSeparator d = false := by
      obtain rfl | rfl := hd <;> decide
    refine ⟨'0' :: d :: w, ws, ?_, ?_⟩
    · rw [wordsOf_letter (eq_false_of_ne_true hc), wordsOf_letter hsep, hwords]
      rfl
    · rw [hdigits]
      obtain rfl | rfl := hd <;> rfl
  | case6 start c d rest hc hmark ih =>
    obtain ⟨w, ws, hwords, hdigits⟩ := ih
    refine ⟨c :: w, ws, ?_, ?_⟩
    · rw [wordsOf_letter (eq_false_of_ne_true hc), hwords]
      rfl
    · rw [hdigits]
      cases start with
      | false => rfl
      | true =>
        have hword : unmarked (c :: w) = c :: w := by
          by_cases hd : isSeparator d = true
          · rw [wordsOf_separator hd] at hwords
            obtain rfl := (List.cons.inj hwords).1
            exact unmarked_singleton c
          · obtain ⟨v, vs, -, hletter⟩ := exists_wordsOf_letter (eq_false_of_ne_true hd) rest
            rw [hletter] at hwords
            obtain rfl := (List.cons.inj hwords).1
            exact unmarked_of_ne (by simpa using hmark)
        rw [if_pos rfl, hword]
        rfl

theorem hexDigitsFrom_words (cs : List Char) :
    hexDigitsFrom true cs = (wordsOf cs).flatMap unmarked := by
  obtain ⟨w, ws, hwords, hdigits⟩ := hexDigitsFrom_eq true cs
  rw [hdigits, hwords, List.flatMap_cons]
  rfl

/-! ### Digits -/

/-- A digit has the value of its lower-case form. -/
lemma hexDigit?_eq_some_iff {c : Char} {d : ℕ} :
    hexDigit? c = some d ↔ d < 16 ∧ c.toLower = Nat.digitChar d := by
  have hascii : ∀ n < 128, ∀ d < 16,
      hexDigit? (Char.ofNat n) = some d ↔ (Char.ofNat n).toLower = Nat.digitChar d := by
    decide +kernel
  have hvalue : ∀ n < 128, ∀ d ∈ hexDigit? (Char.ofNat n), d < 16 := by decide +kernel
  constructor
  · intro h
    have hc : c.toNat < 128 := by
      have := toNat_of_hexDigit? h
      omega
    have hd := hvalue c.toNat hc d (by rw [Char.ofNat_toNat, h]; rfl)
    have hiff := hascii c.toNat hc d hd
    rw [Char.ofNat_toNat] at hiff
    exact ⟨hd, hiff.mp h⟩
  · rintro ⟨hd, hlower⟩
    have hdigit : ∀ d < 16, (Nat.digitChar d).toNat < 128 := by decide
    have hc : c.toNat < 128 := by
      by_cases hupper : c.val ≥ 'A'.val ∧ c.val ≤ 'Z'.val
      · have hle : c.toNat ≤ 90 := hupper.2
        omega
      · have hself : c.toLower = c := dif_neg hupper
        rw [← hself, hlower]
        exact hdigit d hd
    have hiff := hascii c.toNat hc d hd
    rw [Char.ofNat_toNat] at hiff
    exact hiff.mpr hlower

lemma map_hexDigit?_eq_iff {cs : List Char} {values : List ℕ} :
    cs.map hexDigit? = values.map some ↔
      (∀ v ∈ values, v < 16) ∧ cs.map Char.toLower = values.map Nat.digitChar := by
  induction cs generalizing values with
  | nil => cases values <;> simp
  | cons c cs ih =>
    cases values with
    | nil => simp
    | cons v values =>
      simp only [List.map_cons, List.cons.injEq, hexDigit?_eq_some_iff, ih, List.forall_mem_cons]
      tauto

lemma map_of_digitValues {cs : List Char} {values : List ℕ} (h : digitValues cs = .ok values) :
    cs.map hexDigit? = values.map some := by
  induction cs generalizing values with
  | nil =>
    cases h
    rfl
  | cons c cs ih =>
    rw [digitValues] at h
    split at h
    · cases h
    · next d hd =>
      cases hrest : digitValues cs with
      | error e =>
        rw [hrest] at h
        cases h
      | ok rest =>
        rw [hrest] at h
        cases h
        rw [List.map_cons, List.map_cons, hd, ih hrest]

/-- No single value is left behind the pairs of an even number of values. -/
lemma eq_nil_of_unpaired {values : List ℕ}
    (hshort : ∀ high low rest, values = high :: low :: rest → False)
    (heven : values.length % 2 = 0) : values = [] := by
  obtain _ | ⟨v, _ | ⟨w, rest⟩⟩ := values
  · rfl
  · cases heven
  · exact (hshort v w rest rfl).elim

/-- An even number of digits are the halves of the bytes that they make. -/
lemma halves_hexBytes {values : List ℕ} (hdigits : ∀ v ∈ values, v < 16)
    (heven : values.length % 2 = 0) : (hexBytes values).flatMap halves = values := by
  fun_induction hexBytes values with
  | case1 high low rest ih =>
    obtain ⟨hhigh, hlow, hrest⟩ : high < 16 ∧ low < 16 ∧ ∀ v ∈ rest, v < 16 := by
      simpa using hdigits
    have hbyte : (UInt8.ofNat (high * 16 + low)).toNat = high * 16 + low :=
      UInt8.toNat_ofNat_of_lt' (by simp [UInt8.size]; omega)
    have hhalves : halves (UInt8.ofNat (high * 16 + low)) = [high, low] := by
      rw [halves, hbyte]
      congr 1
      · omega
      · congr 1
        omega
    rw [List.length_cons, List.length_cons] at heven
    rw [List.flatMap_cons, hhalves, ih hrest (by omega)]
    rfl
  | case2 values hshort =>
    rw [eq_nil_of_unpaired hshort heven]
    rfl

lemma toList_hex (bytes : List UInt8) :
    (hex bytes).toList = (bytes.flatMap halves).map Nat.digitChar := by
  rw [hex, String.toList_ofList, List.map_flatMap]
  rfl

lemma halves_lt (bytes : List UInt8) : ∀ v ∈ bytes.flatMap halves, v < 16 := by
  intro v hv
  obtain ⟨b, -, hb⟩ := List.mem_flatMap.mp hv
  have hbyte := b.toNat_lt
  simp only [halves, List.mem_cons, List.not_mem_nil, or_false] at hb
  omega

lemma map_hexDigit?_of_lower {cs : List Char} {bytes : List UInt8}
    (h : cs.map Char.toLower = (hex bytes).toList) :
    cs.map hexDigit? = (bytes.flatMap halves).map some := by
  rw [toList_hex] at h
  exact map_hexDigit?_eq_iff.mpr ⟨halves_lt bytes, h⟩

/-- A text is read as the bytes whose digits its own are, but for their case. -/
theorem readHex_eq_ok_iff_digits (text : String) (bytes : List UInt8) :
    readHex text = .ok bytes ↔
      (hexDigitsFrom true text.toList).map Char.toLower = (hex bytes).toList := by
  constructor
  · intro h
    rw [readHex] at h
    split at h
    · cases h
    · next values hvalues =>
      split at h
      · next heven =>
        obtain ⟨hdigits, hlower⟩ := map_hexDigit?_eq_iff.mp (map_of_digitValues hvalues)
        cases h
        rw [hlower, toList_hex, halves_hexBytes hdigits heven]
      · cases h
  · intro h
    have hvalues := digitValues_of_map (map_hexDigit?_of_lower h)
    have heven : (bytes.flatMap halves).length % 2 = 0 := by
      rw [length_halves]
      omega
    rw [readHex, hvalues]
    simp only [heven, if_true, hexBytes_halves]

/-! ### Reading a layout -/

/-- A separator divides the digits of a text. -/
lemma hexDigitsFrom_separator (front : List Char) {c : Char} (h : isSeparator c = true)
    (back : List Char) :
    hexDigitsFrom true (front ++ c :: back) =
      hexDigitsFrom true front ++ hexDigitsFrom true back := by
  simp only [hexDigitsFrom_words, wordsOf, List.splitOnP_append_cons front back h,
    List.flatMap_append]

lemma hexDigitsFrom_gap {gap : List Char} (h : ∀ c ∈ gap, isSeparator c = true)
    (back : List Char) : hexDigitsFrom true (gap ++ back) = hexDigitsFrom true back := by
  induction gap with
  | nil => rfl
  | cons c gap ih =>
    obtain ⟨hc, hgap⟩ := List.forall_mem_cons.mp h
    have hfirst := hexDigitsFrom_separator [] hc (gap ++ back)
    rw [List.nil_append] at hfirst
    rw [List.cons_append, hfirst, ih hgap]
    rfl

lemma hexDigitsFrom_between (front : List Char) (gap : Gap) (back : List Char) :
    hexDigitsFrom true (front ++ (gap.chars ++ back)) =
      hexDigitsFrom true front ++ hexDigitsFrom true back := by
  obtain ⟨chars, hne, hseparates⟩ := gap
  obtain ⟨c, rest, rfl⟩ := List.exists_cons_of_ne_nil hne
  obtain ⟨hc, hrest⟩ := List.forall_mem_cons.mp (List.all_eq_true.mp hseparates)
  rw [List.cons_append, hexDigitsFrom_separator front hc, hexDigitsFrom_gap hrest]

lemma hexDigitsFrom_behind (front : List Char) {gap : List Char}
    (h : ∀ c ∈ gap, isSeparator c = true) :
    hexDigitsFrom true (front ++ gap) = hexDigitsFrom true front := by
  cases gap with
  | nil => rw [List.append_nil]
  | cons c gap =>
    obtain ⟨hc, hgap⟩ := List.forall_mem_cons.mp h
    have hrest := hexDigitsFrom_gap hgap []
    rw [List.append_nil] at hrest
    rw [hexDigitsFrom_separator front hc, hrest]
    exact List.append_nil _

lemma hexDigitsFrom_piece {p : Piece} (h : AllDigits p.digits) :
    hexDigitsFrom true p.text = p.digits := by
  obtain ⟨mark, digits⟩ := p
  cases mark with
  | none => exact hexDigitsFrom_of_allDigits true h
  | lower => exact hexDigitsFrom_of_allDigits false h
  | upper => exact hexDigitsFrom_of_allDigits false h

/-- Pieces are read one by one: the induction is on the pieces, over what stands before the first
gap. -/
lemma hexDigitsFrom_pieces (front : List Char) {more : List (Gap × Piece)}
    (h : ∀ m ∈ more, AllDigits m.2.digits) :
    hexDigitsFrom true (front ++ more.flatMap fun m => m.1.chars ++ m.2.text) =
      hexDigitsFrom true front ++ more.flatMap (·.2.digits) := by
  induction more generalizing front with
  | nil => simp
  | cons m more ih =>
    obtain ⟨hm, hmore⟩ := List.forall_mem_cons.mp h
    rw [List.flatMap_cons, List.flatMap_cons, List.append_assoc, hexDigitsFrom_between,
      ih m.2.text hmore, hexDigitsFrom_piece hm]

/-- The digits of a layout are read from its text. -/
theorem HexLayout.hexDigitsFrom_text (l : HexLayout) (h : AllDigits l.digits) :
    hexDigitsFrom true l.text = l.digits := by
  have hfirst : AllDigits l.first.digits := fun c hc => h c (List.mem_append_left _ hc)
  have hmore : ∀ m ∈ l.more, AllDigits m.2.digits := fun m hm c hc =>
    h c (List.mem_append_right _ (List.mem_flatMap.mpr ⟨m, hm, hc⟩))
  have hbefore := List.all_eq_true.mp l.before_separates
  have hafter := List.all_eq_true.mp l.after_separates
  rw [text, hexDigitsFrom_behind _ hafter, List.append_assoc, hexDigitsFrom_gap hbefore,
    hexDigitsFrom_pieces _ hmore, hexDigitsFrom_piece hfirst, digits]

/-! ### The layout of a text -/

def Piece.ofWord : List Char → Piece
  | '0' :: 'x' :: rest => ⟨.lower, rest⟩
  | '0' :: 'X' :: rest => ⟨.upper, rest⟩
  | word => ⟨.none, word⟩

lemma Piece.text_ofWord (word : List Char) : (ofWord word).text = word := by
  unfold ofWord
  split <;> rfl

lemma Piece.digits_ofWord (word : List Char) : (ofWord word).digits = unmarked word := by
  unfold ofWord unmarked
  split <;> rfl

/-- The words of a text, each but the first behind a separator. -/
lemma exists_separated (cs : List Char) :
    ∃ (w : List Char) (ws : List ({c : Char // isSeparator c = true} × List Char)),
      wordsOf cs = w :: ws.map (·.2) ∧ cs = w ++ ws.flatMap fun m => m.1.val :: m.2 := by
  induction cs with
  | nil => exact ⟨[], [], rfl, rfl⟩
  | cons c cs ih =>
    obtain ⟨w, ws, hwords, hcs⟩ := ih
    by_cases hc : isSeparator c = true
    · refine ⟨[], (⟨c, hc⟩, w) :: ws, ?_, ?_⟩
      · rw [wordsOf_separator hc, hwords]
        rfl
      · rw [List.flatMap_cons, List.nil_append, List.cons_append, ← hcs]
    · refine ⟨c :: w, ws, ?_, ?_⟩
      · rw [wordsOf_letter (eq_false_of_ne_true hc), hwords]
        rfl
      · rw [List.cons_append, ← hcs]

/-- Every text is laid out in some way, though its digits need not be digits. -/
theorem exists_layout (cs : List Char) :
    ∃ l : HexLayout, l.text = cs ∧ l.digits = hexDigitsFrom true cs := by
  obtain ⟨w, ws, hwords, hcs⟩ := exists_separated cs
  let gap (c : {c : Char // isSeparator c = true}) : Gap := ⟨[c.val], by simp, by simp [c.property]⟩
  refine ⟨{ first := .ofWord w, more := ws.map fun m => (gap m.1, .ofWord m.2) }, ?_, ?_⟩
  · have hmore (m : {c : Char // isSeparator c = true} × List Char) :
        (gap m.1).chars ++ (Piece.ofWord m.2).text = m.1.val :: m.2 := by
      rw [Piece.text_ofWord]
      rfl
    rw [HexLayout.text, Piece.text_ofWord, List.flatMap_map, List.append_nil, List.nil_append]
    simp only [hmore]
    exact hcs.symm
  · rw [HexLayout.digits, hexDigitsFrom_words, hwords, Piece.digits_ofWord, List.flatMap_map,
      List.flatMap_cons, List.flatMap_map]
    simp only [Piece.digits_ofWord]

end FaultBench.Text
