import FaultBench.Proofs.Text.HexLayout

/-! Hexadecimal text taken apart by the places of its bytes. The digits are cut into pairs at even
places, each of which could lie inside a character or behind the end, and each pair is read as a
number by itself, which could fail; neither ever happens, so this reads what is read digit by
digit. -/
namespace FaultBench.Text

/-! ### Places -/

/-- The bytes that characters take. -/
def byteCount : List Char → ℕ
  | [] => 0
  | c :: cs => c.utf8Size + byteCount cs

/-- The text behind as many bytes, if a character begins there or the text ends. -/
def dropBytes? : ℕ → List Char → Option (List Char)
  | 0, cs => some cs
  | _ + 1, [] => none
  | n + 1, c :: cs => if c.utf8Size ≤ n + 1 then dropBytes? (n + 1 - c.utf8Size) cs else none

/-- The text of as many bytes, if they make whole characters. -/
def takeBytes? : ℕ → List Char → Option (List Char)
  | 0, _ => some []
  | _ + 1, [] => none
  | n + 1, c :: cs =>
    if c.utf8Size ≤ n + 1 then (takeBytes? (n + 1 - c.utf8Size) cs).map (c :: ·) else none

/-- The text between two places, if both lie between characters and in this order. -/
def slice? (cs : List Char) (first last : ℕ) : Option (List Char) :=
  if first ≤ last then (dropBytes? first cs).bind (takeBytes? (last - first)) else none

/-- A byte out of a number, in front of which a plus sign may stand. -/
def byteOf? (cs : List Char) : Option UInt8 :=
  (digits? 16 (if cs.head? = some '+' then cs.tail else cs)).bind fun n =>
    if n < UInt8.size then some (UInt8.ofNat n) else none

/-- What reading digits by their places may fail with. -/
inductive SliceFailure where
  | rejected (e : HexError)
  /-- There is no text between this place and the second one behind it, and the program ends. -/
  | outOfPlace (place : ℕ)
  | notAByte (digits : List Char)
  deriving DecidableEq, Repr

def pairAt (digits : List Char) (place : ℕ) : Except SliceFailure UInt8 :=
  match slice? digits place (place + 2) with
  | none => .error (.outOfPlace place)
  | some pair =>
    match byteOf? pair with
    | none => .error (.notAByte pair)
    | some b => .ok b

/-- As many pairs from a place on. -/
def pairsFrom (digits : List Char) : ℕ → ℕ → Except SliceFailure (List UInt8)
  | _, 0 => .ok []
  | place, n + 1 => do
    let b ← pairAt digits place
    let rest ← pairsFrom digits (place + 2) n
    return b :: rest

/-- Splits a text into words, leaves out their marks, and reads the digits by their places. -/
def sliceHex (text : String) : Except SliceFailure (List UInt8) :=
  let digits := (wordsOf text.toList).flatMap unmarked
  match digits.find? fun c => (hexDigit? c).isNone with
  | some c => .error (.rejected (.invalidDigit c))
  | none =>
    if byteCount digits % 2 = 0 then pairsFrom digits 0 (byteCount digits / 2)
    else .error (.rejected (.oddCount (byteCount digits)))

lemma utf8Size_of_hexDigit? {c : Char} {d : ℕ} (h : hexDigit? c = some d) : c.utf8Size = 1 := by
  have hc := toNat_of_hexDigit? h
  rw [Char.utf8Size_eq_one_iff]
  change c.toNat ≤ 127
  omega

lemma byteCount_of_allDigits {cs : List Char} (h : AllDigits cs) : byteCount cs = cs.length := by
  induction cs with
  | nil => rfl
  | cons c cs ih =>
    obtain ⟨⟨d, hd⟩, hcs⟩ := List.forall_mem_cons.mp h
    rw [byteCount, ih hcs, utf8Size_of_hexDigit? hd, List.length_cons]
    omega

lemma dropBytes?_of_allDigits {front : List Char} (h : AllDigits front) (back : List Char) :
    dropBytes? front.length (front ++ back) = some back := by
  induction front with
  | nil => cases back <;> rfl
  | cons c front ih =>
    obtain ⟨⟨d, hd⟩, hfront⟩ := List.forall_mem_cons.mp h
    rw [List.length_cons, List.cons_append, dropBytes?, utf8Size_of_hexDigit? hd,
      if_pos (by omega), Nat.add_sub_cancel]
    exact ih hfront

lemma slice?_pair {front back : List Char} {high low : Char} {h l : ℕ} (hfront : AllDigits front)
    (hhigh : hexDigit? high = some h) (hlow : hexDigit? low = some l) :
    slice? (front ++ high :: low :: back) front.length (front.length + 2) = some [high, low] := by
  rw [slice?, if_pos (by omega), dropBytes?_of_allDigits hfront, Option.bind_some,
    Nat.add_sub_cancel_left]
  simp [takeBytes?, utf8Size_of_hexDigit? hhigh, utf8Size_of_hexDigit? hlow]

lemma byteOf?_pair {high low : Char} {h l : ℕ} (hhigh : hexDigit? high = some h)
    (hlow : hexDigit? low = some l) : byteOf? [high, low] = some (UInt8.ofNat (h * 16 + l)) := by
  have hsign : high ≠ '+' := by
    rintro rfl
    cases hhigh
  obtain ⟨hlt, -⟩ := hexDigit?_eq_some_iff.mp hhigh
  obtain ⟨hlt', -⟩ := hexDigit?_eq_some_iff.mp hlow
  have hbyte : h * 16 + l < UInt8.size := by
    simp only [UInt8.size]
    omega
  simp [byteOf?, digits?, hsign, hhigh, hlow, hlt, hlt', hbyte]

/-- Among digits every pair is found at its place and is a byte. The induction moves the pairs that
were read to the front. -/
theorem pairsFrom_eq {front rest : List Char} {values : List ℕ} (hfront : AllDigits front)
    (hrest : rest.map hexDigit? = values.map some) (heven : values.length % 2 = 0) :
    pairsFrom (front ++ rest) front.length (values.length / 2) = .ok (hexBytes values) := by
  fun_induction hexBytes values generalizing front rest with
  | case1 h l values ih =>
    obtain ⟨high, rest, rfl, hhigh, htail⟩ := List.map_eq_cons_iff.mp hrest
    obtain ⟨low, rest, rfl, hlow, hvalues⟩ := List.map_eq_cons_iff.mp htail
    have hcount : (h :: l :: values).length / 2 = values.length / 2 + 1 := by
      rw [List.length_cons, List.length_cons]
      omega
    have hpair : pairAt (front ++ high :: low :: rest) front.length =
        .ok (UInt8.ofNat (h * 16 + l)) := by
      simp only [pairAt, slice?_pair hfront hhigh hlow, byteOf?_pair hhigh hlow]
    have hnext : AllDigits (front ++ [high, low]) := by
      intro c hc
      rw [List.mem_append, List.mem_cons, List.mem_singleton] at hc
      obtain hc | rfl | rfl := hc
      · exact hfront c hc
      · exact ⟨h, hhigh⟩
      · exact ⟨l, hlow⟩
    rw [List.length_cons, List.length_cons] at heven
    have hlater := ih hnext hvalues (by omega)
    rw [List.length_append, List.append_assoc] at hlater
    have hlater : pairsFrom (front ++ high :: low :: rest) (front.length + 2)
        (values.length / 2) = .ok (hexBytes values) := hlater
    rw [hcount, pairsFrom, hpair]
    simp only [bind, Except.bind, hlater]
    rfl
  | case2 values hshort =>
    rw [eq_nil_of_unpaired hshort heven]
    rfl

lemma digitValues_of_find? {cs : List Char} {c : Char}
    (h : cs.find? (fun c => (hexDigit? c).isNone) = some c) : digitValues cs = .error c := by
  induction cs with
  | nil => cases h
  | cons e cs ih =>
    rw [List.find?_cons] at h
    rw [digitValues]
    cases he : hexDigit? e with
    | none =>
      rw [he] at h
      cases h
      rfl
    | some d =>
      rw [he] at h
      simp only [ih h, Except.map]

lemma exists_values {cs : List Char} (h : cs.find? (fun c => (hexDigit? c).isNone) = none) :
    ∃ values : List ℕ, cs.map hexDigit? = values.map some := by
  rw [List.find?_eq_none] at h
  refine ⟨cs.map fun c => (hexDigit? c).getD 0, ?_⟩
  rw [List.map_map]
  refine List.map_congr_left fun c hc => ?_
  have hne : hexDigit? c ≠ none := by simpa using h c hc
  obtain ⟨d, hd⟩ := Option.ne_none_iff_exists'.mp hne
  simp [hd]

/-- No place is missed and no pair is turned down, whatever the text is. -/
theorem sliceHex_eq (text : String) : sliceHex text = (readHex text).mapError .rejected := by
  rw [sliceHex, readHex, hexDigitsFrom_words]
  generalize (wordsOf text.toList).flatMap unmarked = cs
  cases hfind : cs.find? fun c => (hexDigit? c).isNone with
  | some c => simp only [digitValues_of_find? hfind, Except.mapError]
  | none =>
    obtain ⟨values, hvalues⟩ := exists_values hfind
    have hlength : cs.length = values.length := by
      simpa using congrArg List.length hvalues
    simp only [digitValues_of_map hvalues, byteCount_of_allDigits (allDigits_of_map hvalues),
      hlength]
    by_cases heven : values.length % 2 = 0
    · have hnone : AllDigits [] := by simp [AllDigits]
      have hpairs := pairsFrom_eq hnone hvalues heven
      simp only [heven, if_true]
      exact hpairs
    · simp only [heven, if_false, Except.mapError]

/-- A text is read as some bytes exactly if it lays out their digits: in either case, in pieces cut
anywhere, with or without marks, and between any separators. All other texts are turned down. Places
never matter: every pair of digits is found where it is looked for and is a byte. -/
theorem readHex_eq_ok_iff (text : String) :
    (∀ bytes : List UInt8, readHex text = .ok bytes ↔
      ∃ l : HexLayout, l.Spells bytes ∧ l.text = text.toList) ∧
    ((∃ e, readHex text = .error e) ↔
      ¬ ∃ (l : HexLayout) (bytes : List UInt8), l.Spells bytes ∧ l.text = text.toList) ∧
    sliceHex text = (readHex text).mapError .rejected := by
  have hread (bytes : List UInt8) : readHex text = .ok bytes ↔
      ∃ l : HexLayout, l.Spells bytes ∧ l.text = text.toList := by
    rw [readHex_eq_ok_iff_digits]
    constructor
    · intro h
      obtain ⟨l, htext, hdigits⟩ := exists_layout text.toList
      exact ⟨l, by rw [HexLayout.Spells, hdigits, h], htext⟩
    · rintro ⟨l, hspells, htext⟩
      have hdigits := allDigits_of_map (map_hexDigit?_of_lower hspells)
      rw [← htext, l.hexDigitsFrom_text hdigits]
      exact hspells
  refine ⟨hread, ?_, sliceHex_eq text⟩
  rw [exists_comm]
  simp only [← hread]
  cases readHex text <;> simp

/-- A byte that is cut in two, marks of both kinds, one with no digits behind it, and blanks of
several kinds around the pieces. -/
theorem readHex_eq_ok_iff_cut :
    readHex "\u2003,6:B 0Xd0 0x\t03\u3000" = .ok [0x6B, 0xD0, 0x03] ∧
      sliceHex "\u2003,6:B 0Xd0 0x\t03\u3000" = .ok [0x6B, 0xD0, 0x03] := by
  obtain ⟨hread, -, hslices⟩ := readHex_eq_ok_iff "\u2003,6:B 0Xd0 0x\t03\u3000"
  have hlaid : readHex "\u2003,6:B 0Xd0 0x\t03\u3000" = .ok [0x6B, 0xD0, 0x03] := by
    refine (hread _).mpr ⟨{
      before := ['\u2003', ',']
      first := ⟨.none, ['6']⟩
      more := [(⟨[':'], by decide, by decide⟩, ⟨.none, ['B']⟩),
        (⟨[' '], by decide, by decide⟩, ⟨.upper, ['d', '0']⟩),
        (⟨[' '], by decide, by decide⟩, ⟨.lower, []⟩),
        (⟨['\t'], by decide, by decide⟩, ⟨.none, ['0', '3']⟩)]
      after := ['\u3000'] }, by decide +kernel, by decide +kernel⟩
  refine ⟨hlaid, ?_⟩
  rw [hslices, hlaid]
  rfl

end FaultBench.Text
