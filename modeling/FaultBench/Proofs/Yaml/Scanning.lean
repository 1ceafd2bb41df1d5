import FaultBench.Proofs.Yaml.Words

/-! Scanning in block style, a token at a time: the name of a field and its colon, a value that ends
with its line, an item, and the ends of the blocks that a line shows to be over. -/
namespace FaultBench.Yaml
open Scanner

namespace Scanner

/-- Reading on leads from one scanner to another, with a character at least for each token. -/
def Leads (s t : Scanner) : Prop :=
  ∃ k, k + t.cursor.rest.length ≤ s.cursor.rest.length ∧ ∀ n, s.run (n + 1 + k) = t.run (n + 1)

namespace Leads

variable {s t u : Scanner}

lemma refl (s : Scanner) : Leads s s := ⟨0, by omega, fun _ => rfl⟩

lemma trans (h : Leads s t) (h' : Leads t u) : Leads s u := by
  obtain ⟨k, hk, hrun⟩ := h
  obtain ⟨k', hk', hrun'⟩ := h'
  refine ⟨k + k', by omega, fun n => ?_⟩
  rw [← hrun' n, Nat.add_right_comm n 1 k', ← hrun (n + k')]
  congr 1
  omega

/-- One token is read. -/
lemma step {s' : Scanner} (hsettle : s.settle = some s') (hfetch : s'.fetch = some t)
    (hend : t.tokens.head? ≠ some .streamEnd)
    (hshort : t.cursor.rest.length < s.cursor.rest.length) : Leads s t := by
  refine ⟨1, by omega, fun n => ?_⟩
  rw [run, hsettle]
  simp only [hfetch]
  split
  · next h =>
    rw [h] at hend
    exact absurd rfl hend
  · rfl

end Leads
end Scanner

/-- The tokens so far, the latest first, and the columns of the open block collections. -/
structure Nest where
  tokens : List Token := []
  indent : Int := -1
  indents : List Int := []

namespace Nest

/-- A scanner at some place, with a key that may have begun there or before. -/
def scanner (b : Nest) (candidate : Option KeyCandidate) (settled : ℕ) (rest : List Char)
    (place : Place) (keyAllowed : Bool) : Scanner :=
  { cursor := ⟨rest, place⟩, tokens := b.tokens, settled, indent := b.indent, indents := b.indents,
    candidates := [candidate], keyAllowed }

/-- A scanner between two tokens. -/
def between (b : Nest) (rest : List Char) (place : Place) (keyAllowed : Bool) : Scanner :=
  b.scanner none 0 rest place keyAllowed

def emit (b : Nest) (t : Token) : Nest := { b with tokens := t :: b.tokens }

/-- The ends of all blocks that are deeper than a column. -/
def close (b : Nest) (column : Int) : Nest :=
  let r := closeBlocks.close column b.indent b.tokens b.indents
  ⟨r.2.1, r.1, r.2.2⟩

lemma close_of_le {b : Nest} {column : Int} (h : b.indent ≤ column) : b.close column = b := by
  obtain ⟨tokens, indent, _ | ⟨outer, indents⟩⟩ := b
  · rfl
  · have hnot : ¬ column < indent := Int.not_lt.mpr h
    simp [close, closeBlocks.close, hnot]

lemma close_of_lt {tokens : List Token} {indent outer column : Int} {indents : List Int}
    (h : column < indent) :
    close ⟨tokens, indent, outer :: indents⟩ column =
      close ⟨.blockEnd :: tokens, outer, indents⟩ column := by
  simp [close, closeBlocks.close, h]

variable (b : Nest) (candidate : Option KeyCandidate) (settled : ℕ) (rest : List Char)
  (place : Place) (keyAllowed : Bool)

lemma settle_between : (b.between rest place keyAllowed).settle =
    some (b.scanner none b.tokens.length rest place keyAllowed) := rfl

/-- How many tokens are settled is found out again before each token. -/
lemma leads_settled : Leads (b.scanner none settled rest place keyAllowed)
    (b.between rest place keyAllowed) :=
  ⟨0, Nat.le_of_eq (Nat.zero_add _), fun _ => rfl⟩

variable {b keyAllowed} in
lemma leads_of_fetch {text : List Char} {start : Place} {allowed : Bool} {after : Nest}
    (hfetch : (b.scanner none b.tokens.length text start allowed).fetch =
      some (after.scanner none b.tokens.length rest place keyAllowed))
    (hend : after.tokens.head? ≠ some .streamEnd) (hshort : rest.length < text.length) :
    Leads (b.between text start allowed) (after.between rest place keyAllowed) :=
  (Leads.step (b.settle_between _ _ _) hfetch hend hshort).trans (leads_settled _ _ _ _ _)

/-- Behind white space a scanner is at a text, at some column, and a key may begin there. -/
def AtLine (b : Nest) (s : Scanner) (rest : List Char) (column : ℕ) : Prop :=
  ∃ text place allowed place', s = b.between text place allowed ∧
    skipSpace false allowed false place text = (⟨rest, place'⟩, true) ∧ place'.column = column

variable {b rest} in
lemma atLine_newLine (start : Place) (column : ℕ) (h : Solid rest) :
    b.AtLine (b.between ('\n' :: (Scalar.spaces column ++ rest)) start false) rest column :=
  ⟨_, _, false, _, rfl, skipSpace_newLine false start column h, Place.column_newLine _ _⟩

/-- Before a token white space is left out and the blocks that have ended are closed. -/
lemma fetch_scanner : (b.scanner none settled rest place keyAllowed).fetch =
    let (cursor, allowed) := skipSpace false keyAllowed false place rest
    ((b.close cursor.place.column).scanner none settled cursor.rest cursor.place
      allowed).fetchHere := rfl

lemma dropExpired_scanner {k : KeyCandidate} (hline : k.place.line = place.line)
    (hoffset : place.offset ≤ k.place.offset + 1024) :
    (b.scanner (some k) settled rest place keyAllowed).dropExpired =
      some (b.scanner (some k) settled rest place keyAllowed) := by
  have halive : (b.scanner (some k) settled rest place keyAllowed).expired k = false := by
    have hnot : ¬ k.place.offset + 1024 < place.offset := by omega
    simp [expired, scanner, hline, hnot]
  simp [dropExpired, scanner] at halive ⊢
  simp [halive]

end Nest

lemma atDocumentMark_of_isLetter {c : Char} (h : isLetter c = true) (rest : List Char) :
    atDocumentMark (c :: rest) = false := by
  rw [atDocumentMark]
  · intro _ hc
    cases hc
    cases h
  · intro _ hc
    cases hc
    cases h

lemma solid_colon (rest : List Char) : Solid (':' :: rest) := by
  rintro c ⟨rfl⟩
  decide

lemma Scanner.fetchHere_colon {s : Scanner} {rest : List Char} (h : atWordEnd rest = true)
    (hs : s.cursor.rest = ':' :: rest) : s.fetchHere = s.fetchValue := by
  rw [fetchHere, hs]
  simp [h, atDocumentMark]

/-- A letter begins a plain scalar. -/
lemma Scanner.fetchHere_letter {s : Scanner} {c : Char} {rest : List Char} (h : isLetter c = true)
    (hs : s.cursor.rest = c :: rest) : s.fetchHere = s.fetchPlain := by
  have hq := isQuotable_of_isLetter h
  have hstarts : startsPlain s.inFlow (c :: rest) = true := by
    have hother : c ∉ ",[]\x7b\x7d#&*!|>\x27\"%@`".toList := by
      intro hc
      have hnone : (",[]\x7b\x7d#&*!|>\x27\"%@`".toList.all fun d => !isLetter d) = true := by
        decide
      have hother := List.all_eq_true.mp hnone c hc
      rw [h] at hother
      cases hother
    simp (disch := decide) only [startsPlain, beq_of_class h, isBlank_of_isQuotable hq,
      isBreak_of_isQuotable hq, hother, Bool.false_eq_true, if_false]
    rfl
  rw [fetchHere, hs]
  simp (disch := decide) only [beq_of_class h, atDocumentMark_of_isLetter h, hstarts,
    Bool.and_false, Bool.false_and, Bool.false_eq_true, if_false, if_true]

lemma Scanner.fetchPlain_eq {s s' : Scanner} {r : Plain.Reading} (hnote : s.noteCandidate = some s')
    (hread : Plain.readFrom s'.inFlow (s'.indent + 1) [] .empty s'.cursor.place s'.cursor.rest =
      some r) :
    s.fetchPlain = some ({ s' with cursor := r.cursor, keyAllowed := r.newLine }.emit
      (.scalar (String.ofList r.text.reverse) .plain)) := by
  rw [fetchPlain, hnote, Option.bind_eq_bind, Option.bind_some, hread]
  rfl

lemma Scanner.fetchHere_quote {s : Scanner} {rest : List Char}
    (hs : s.cursor.rest = '\x27' :: rest) :
    s.fetchHere = s.fetchQuoted .single .singleQuoted := by
  rw [fetchHere, hs]
  simp [atDocumentMark]

lemma Scanner.fetchQuoted_eq {s s' : Scanner} {quote : Quoted.Quote} {text : List Char}
    {cursor : Cursor} (hnote : s.noteCandidate = some s')
    (hread : Quoted.readFrom quote [] .empty .text s'.cursor.skip.place s'.cursor.skip.rest =
      some (text, cursor)) (style : Style) :
    s.fetchQuoted quote style = some ({ s' with cursor, keyAllowed := false }.emit
      (.scalar (String.ofList text.reverse) style)) := by
  rw [fetchQuoted, hnote, Option.bind_eq_bind, Option.bind_some]
  dsimp only
  rw [hread]
  rfl

lemma Scanner.fetchHere_bracket {s : Scanner} {rest : List Char}
    (hs : s.cursor.rest = '[' :: rest) :
    s.fetchHere = s.fetchFlowStart .flowSequenceStart := by
  rw [fetchHere, hs]
  simp [atDocumentMark]

lemma Scanner.fetchHere_dash {s : Scanner} {rest : List Char}
    (hs : s.cursor.rest = '-' :: ' ' :: rest) :
    s.fetchHere = s.fetchIndicator .blockSequenceStart true .blockEntry := by
  rw [fetchHere, hs]
  simp [atDocumentMark, atWordEnd, isBlank]

/-- A word that is read as a plain scalar. -/
def IsWord (word : List Char) : Prop := word ≠ [] ∧ ∀ c ∈ word, isLetter c = true

instance (word : List Char) : Decidable (IsWord word) :=
  decidable_of_iff ((!word.isEmpty && word.all isLetter) = true) (by simp [IsWord])

lemma IsWord.solid {word : List Char} (h : IsWord word) (rest : List Char) :
    Solid (word ++ rest) := by
  obtain ⟨hne, hword⟩ := h
  obtain ⟨c, word, rfl⟩ := List.exists_cons_of_ne_nil hne
  exact solid_of_isLetter (hword c List.mem_cons_self) _

lemma IsWord.fetchHere {word : List Char} (h : IsWord word) {s : Scanner} {rest : List Char}
    (hs : s.cursor.rest = word ++ rest) : s.fetchHere = s.fetchPlain := by
  obtain ⟨hne, hword⟩ := h
  obtain ⟨c, word, rfl⟩ := List.exists_cons_of_ne_nil hne
  exact Scanner.fetchHere_letter (hword c List.mem_cons_self) hs

namespace Nest

/-- A key and its colon. The first one at a column opens a block there. -/
def key (b : Nest) (column : Int) (name : List Char) : Nest :=
  let name : Token := .scalar (String.ofList name) .plain
  if b.indent < column then
    ⟨.value :: name :: .key :: .blockMappingStart :: b.tokens, column, b.indent :: b.indents⟩
  else { b with tokens := .value :: name :: .key :: b.tokens }

/-- The same before the colon that makes a key of a candidate. -/
lemma fetch_noting (b : Nest) (settled : ℕ) {rest : List Char} {place : Place} {k : KeyCandidate}
    (hsolid : Solid rest) (hclosed : b.indent ≤ place.column) (hline : k.place.line = place.line)
    (hoffset : place.offset ≤ k.place.offset + 1024) :
    (b.scanner (some k) settled rest place false).fetch =
      (b.scanner (some k) settled rest place false).fetchHere := by
  have hfetch : (b.scanner (some k) settled rest place false).fetch =
      let (cursor, allowed) := skipSpace false false false place rest
      (b.scanner (some k) settled cursor.rest cursor.place allowed).dropExpired.bind fun s =>
        (s.closeBlocks s.column).fetchHere := rfl
  rw [hfetch, skipSpace_solid false false place hsolid]
  dsimp only
  rw [dropExpired_scanner b settled rest place false hline hoffset, Option.bind_some]
  have hclose : (b.scanner (some k) settled rest place false).closeBlocks place.column =
      (b.close place.column).scanner (some k) settled rest place false := rfl
  rw [close_of_le hclosed] at hclose
  exact congrArg fetchHere hclose

variable {before b : Nest} {place : Place} {name rest : List Char}

/-- A name at the start of a line is noted, as it may turn out to be a key. -/
lemma leads_name {text : List Char} {start : Place} {allowed : Bool}
    (hskip : skipSpace false allowed false start text = (⟨name ++ ':' :: rest, place⟩, true))
    (hclose : before.close place.column = b) (hname : IsWord name)
    (hrest : atWordEnd rest = true) :
    Leads (before.between text start allowed)
      ((b.emit (.scalar (String.ofList name) .plain)).scanner
        (some ⟨place, b.tokens.length, b.indent == place.column⟩) before.tokens.length
        (':' :: rest) (place.past name) false) := by
  refine Leads.step (before.settle_between _ _ _) ?_ (by simp [emit, scanner]) ?_
  · rw [fetch_scanner, hskip]
    dsimp only
    rw [hclose, hname.fetchHere rfl]
    have hnote : (b.scanner none before.tokens.length (name ++ ':' :: rest) place
        true).noteCandidate =
      some (b.scanner (some ⟨place, b.tokens.length, b.indent == place.column⟩)
        before.tokens.length (name ++ ':' :: rest) place true) := rfl
    refine (fetchPlain_eq hnote (Plain.readFrom_key _ _ hname.2 hrest)).trans ?_
    rw [List.reverse_reverse]
    rfl
  · have hlength := length_skipSpace_le false allowed false start text
    obtain ⟨c, word, rfl⟩ := List.exists_cons_of_ne_nil hname.1
    rw [hskip] at hlength
    simp [scanner, between] at hlength ⊢
    omega

lemma fetchValue_noted (settled : ℕ) :
    ((b.emit (.scalar (String.ofList name) .plain)).scanner
      (some ⟨place, b.tokens.length, b.indent == place.column⟩) settled (':' :: rest)
      (place.past name) false).fetchValue =
    some ((b.key place.column name).scanner none settled rest ((place.past name).next ':')
      false) := by
  simp only [fetchValue, scanner, emit, Scanner.insert, List.length_cons, Nat.add_sub_cancel_left,
    List.take_succ_cons, List.take_zero, List.drop_succ_cons, List.drop_zero]
  have hlater : b.tokens.length + 1 + 1 - b.tokens.length = 2 := by omega
  by_cases hopens : b.indent < place.column
  · simp [hlater, openBlock, inFlow, Scanner.insert, advance, Scanner.emit, Cursor.skip, key,
      hopens]
  · simp [openBlock, inFlow, advance, Scanner.emit, Cursor.skip, key, hopens]

/-- A colon behind it makes it one. -/
lemma leads_colon (hclosed : b.indent ≤ place.column) (hlength : name.length ≤ 256)
    (hrest : atWordEnd rest = true) (settled : ℕ) :
    Leads ((b.emit (.scalar (String.ofList name) .plain)).scanner
        (some ⟨place, b.tokens.length, b.indent == place.column⟩) settled (':' :: rest)
        (place.past name) false)
      ((b.key place.column name).between rest ((place.past name).next ':') false) := by
  have hline := (place.line_past name).symm
  have hoffset := place.offset_past_le name
  have hsettle : ((b.emit (.scalar (String.ofList name) .plain)).scanner
      (some ⟨place, b.tokens.length, b.indent == place.column⟩) settled (':' :: rest)
      (place.past name) false).settle = some ((b.emit (.scalar (String.ofList name) .plain)).scanner
      (some ⟨place, b.tokens.length, b.indent == place.column⟩) b.tokens.length (':' :: rest)
      (place.past name) false) := by
    rw [settle, dropExpired_scanner _ _ _ _ _ hline (by dsimp only; omega)]
    simp [scanner, emit]
  refine (Leads.step hsettle ?_ ?_ ?_).trans (leads_settled _ b.tokens.length _ _ _)
  · rw [fetch_noting _ _ ?_ ?_ hline (by dsimp only; omega), fetchHere_colon hrest rfl,
      fetchValue_noted]
    · exact solid_colon rest
    · simp [emit]
      omega
  · simp only [key, scanner]
    split_ifs <;> simp
  · simp [scanner]

/-- A field up to its value. -/
lemma leads_key {s : Scanner} {column : ℕ} (hs : before.AtLine s (name ++ ':' :: rest) column)
    (hclose : before.close column = b) (hclosed : b.indent ≤ column) (hname : IsWord name)
    (hlength : name.length ≤ 256) (hrest : atWordEnd rest = true) :
    ∃ place, Leads s ((b.key column name).between rest place false) ∧ column ≤ place.column := by
  obtain ⟨text, start, allowed, place, rfl, hskip, rfl⟩ := hs
  refine ⟨_, (leads_name hskip hclose hname hrest).trans (leads_colon hclosed hlength hrest _), ?_⟩
  simp [Place.next]
  omega

/-- A word as the value of a field, up to what stands on the next line. -/
lemma leads_plain {word : List Char} (hword : IsWord word) {column : ℕ} (hrest : Solid rest)
    (hindent : b.indent ≤ place.column) (hcolumn : column ≤ b.indent) :
    ∃ s, Leads (b.between (' ' :: (word ++ '\n' :: (Scalar.spaces column ++ rest))) place false) s ∧
      (b.emit (.scalar (String.ofList word) .plain)).AtLine s rest column := by
  refine ⟨_, leads_of_fetch rest (((place.next ' ').past word).newLine column) ?_
    (by simp [emit]) ?_, _, _, true, _, rfl, skipSpace_solid false true _ hrest,
    Place.column_newLine _ _⟩
  · rw [fetch_scanner, skipSpace_space, skipSpace_solid _ _ _ (hword.solid _)]
    dsimp only
    rw [close_of_le (by simp [Place.next]; omega), hword.fetchHere rfl]
    have hnote : (b.scanner none b.tokens.length
        (word ++ '\n' :: (Scalar.spaces column ++ rest)) (place.next ' ') false).noteCandidate =
      some (b.scanner none b.tokens.length
        (word ++ '\n' :: (Scalar.spaces column ++ rest)) (place.next ' ') false) := rfl
    refine (fetchPlain_eq hnote (Plain.readFrom_line (b.indent + 1) _ hword.2 hrest
        (by omega))).trans ?_
    rw [List.reverse_reverse]
    rfl
  · simp
    omega

/-- The same between quotes. -/
lemma leads_quoted {word : List Char} (hword : ∀ c ∈ word, isQuotable c = true) {column : ℕ}
    (hrest : Solid rest) (hindent : b.indent ≤ place.column) :
    ∃ s, Leads (b.between (' ' :: '\x27' :: (word ++ '\x27' :: '\n' ::
        (Scalar.spaces column ++ rest))) place false) s ∧
      (b.emit (.scalar (String.ofList word) .singleQuoted)).AtLine s rest column := by
  refine ⟨_, leads_of_fetch ('\n' :: (Scalar.spaces column ++ rest))
    ((place.past [' ', '\x27']).past (word ++ ['\x27'])) ?_ (by simp [emit]) ?_,
    atLine_newLine _ column hrest⟩
  · have hsolid : Solid ('\x27' :: (word ++ '\x27' :: '\n' :: (Scalar.spaces column ++ rest))) := by
      rintro c ⟨rfl⟩
      decide
    rw [fetch_scanner, skipSpace_space, skipSpace_solid _ _ _ hsolid]
    dsimp only
    rw [close_of_le (by simp [Place.next]; omega)]
    have hbehind : ∀ c ∈ ('\n' :: (Scalar.spaces column ++ rest)).head?, c ≠ '\x27' := by simp
    have hinside : 0 < (place.past [' ', '\x27']).column := Nat.succ_pos _
    have hread := Quoted.readFrom_word hword hbehind [] hinside
    rw [List.append_nil] at hread
    have hnote : (b.scanner none b.tokens.length ('\x27' :: (word ++ '\x27' :: '\n' ::
        (Scalar.spaces column ++ rest))) (place.next ' ') false).noteCandidate =
      some (b.scanner none b.tokens.length ('\x27' :: (word ++ '\x27' :: '\n' ::
        (Scalar.spaces column ++ rest))) (place.next ' ') false) := rfl
    rw [fetchHere_quote rfl]
    refine (fetchQuoted_eq hnote hread _).trans ?_
    rw [List.reverse_reverse]
    rfl
  · simp
    omega

/-- An empty sequence as the value of a field. -/
lemma leads_empty {column : ℕ} (hrest : Solid rest) (hindent : b.indent ≤ place.column) :
    ∃ s, Leads (b.between (' ' :: '[' :: ']' :: '\n' :: (Scalar.spaces column ++ rest)) place
        false) s ∧
      ((b.emit .flowSequenceStart).emit .flowSequenceEnd).AtLine s rest column := by
  have hopened : Leads (b.between (' ' :: '[' :: ']' :: '\n' :: (Scalar.spaces column ++ rest))
      place false) { (b.emit .flowSequenceStart).between (']' :: '\n' ::
        (Scalar.spaces column ++ rest)) (place.past [' ', '[']) true with
        candidates := [none, none], settled := b.tokens.length } := by
    refine Leads.step (b.settle_between _ _ _) ?_ (by simp [emit, between, scanner]) ?_
    · have hsolid : Solid ('[' :: ']' :: '\n' :: (Scalar.spaces column ++ rest)) := by
        rintro c ⟨rfl⟩
        decide
      rw [fetch_scanner, skipSpace_space, skipSpace_solid _ _ _ hsolid]
      dsimp only
      rw [close_of_le (by simp [Place.next]; omega), fetchHere_bracket rfl]
      rfl
    · simp [between, scanner]
  have hclosed : Leads { (b.emit .flowSequenceStart).between (']' :: '\n' ::
        (Scalar.spaces column ++ rest)) (place.past [' ', '[']) true with
        candidates := [none, none], settled := b.tokens.length }
      (((b.emit .flowSequenceStart).emit .flowSequenceEnd).scanner none (b.tokens.length + 1)
        ('\n' :: (Scalar.spaces column ++ rest)) (place.past [' ', '[', ']']) false) :=
    Leads.step rfl rfl (by simp [emit, scanner]) (by simp [between, scanner])
  exact ⟨_, (hopened.trans hclosed).trans (leads_settled _ _ _ _ _),
    atLine_newLine _ column hrest⟩

/-- A candidate on an earlier line is given up. -/
lemma leads_expired (b : Nest) {k : KeyCandidate} (settled : ℕ) (rest : List Char) {place : Place}
    (keyAllowed : Bool) (hrequired : k.required = false) (hline : k.place.line < place.line) :
    Leads (b.scanner (some k) settled rest place keyAllowed) (b.between rest place keyAllowed) := by
  have hexpired : (b.scanner (some k) settled rest place keyAllowed).expired k = true := by
    simp [expired, scanner, hline]
  have hdrop : (b.scanner (some k) settled rest place keyAllowed).dropExpired =
      some (b.scanner none settled rest place keyAllowed) := by
    simp [dropExpired, scanner] at hexpired ⊢
    simp [hexpired, hrequired]
  have hsettle : (b.scanner (some k) settled rest place keyAllowed).settle =
      some (b.scanner none b.tokens.length rest place keyAllowed) := by
    rw [settle, hdrop]
    rfl
  refine ⟨0, Nat.le_of_eq (Nat.zero_add _), fun n => ?_⟩
  rw [Nat.add_zero, run, run, hsettle, settle_between]

/-- The dash of an item at the column of the fields around it. -/
lemma leads_dash {s : Scanner} {column : ℕ} (hindent : b.indent = column)
    (hs : b.AtLine s ('-' :: ' ' :: rest) column) :
    ∃ place, column ≤ place.column ∧
      Leads s ((b.emit .blockEntry).between (' ' :: rest) place true) := by
  obtain ⟨text, start, allowed, place, rfl, hskip, rfl⟩ := hs
  refine ⟨place.next '-', Nat.le_succ _, leads_of_fetch _ _ ?_ (by simp [emit]) ?_⟩
  · have hopen : ¬ b.indent < place.column := by omega
    rw [fetch_scanner, hskip]
    dsimp only
    rw [close_of_le (by omega), fetchHere_dash rfl]
    simp [fetchIndicator, scanner, inFlow, openBlock, column, hopen, dropCandidate, allowKey,
      advance, Scanner.emit, Cursor.skip, emit]
  · have hlength := length_skipSpace_le false allowed false start text
    rw [hskip] at hlength
    simp at hlength ⊢
    omega

/-- The word behind it might have been a key, but the next line shows that it is none. -/
lemma leads_entry {word : List Char} (hword : IsWord word) {next : ℕ} (hrest : Solid rest)
    (hindent : b.indent ≤ place.column) (hnext : next ≤ b.indent) :
    ∃ t, Leads (b.between (' ' :: (word ++ '\n' :: (Scalar.spaces next ++ rest))) place true) t ∧
      (b.emit (.scalar (String.ofList word) .plain)).AtLine t rest next := by
  have hscalar : Leads
      (b.between (' ' :: (word ++ '\n' :: (Scalar.spaces next ++ rest))) place true)
      ((b.emit (.scalar (String.ofList word) .plain)).scanner
        (some ⟨place.next ' ', b.tokens.length, false⟩) b.tokens.length rest
        (((place.next ' ').past word).newLine next) true) := by
    have hdeep : (b.indent == ((place.next ' ').column : Int)) = false := by
      simp [Place.next]
      omega
    have hnote : (b.scanner none b.tokens.length (word ++ '\n' :: (Scalar.spaces next ++ rest))
        (place.next ' ') true).noteCandidate =
      some (b.scanner (some ⟨place.next ' ', b.tokens.length, false⟩) b.tokens.length
        (word ++ '\n' :: (Scalar.spaces next ++ rest)) (place.next ' ') true) := by
      rw [← hdeep]
      rfl
    refine Leads.step (settle_between _ _ _ _) ?_ (by simp [emit, scanner]) ?_
    · rw [fetch_scanner, skipSpace_space, skipSpace_solid _ _ _ (hword.solid _)]
      dsimp only
      rw [close_of_le (by simp [Place.next]; omega), hword.fetchHere rfl]
      refine (fetchPlain_eq hnote (Plain.readFrom_line (b.indent + 1) _ hword.2 hrest
        (by omega))).trans ?_
      rw [List.reverse_reverse]
      rfl
    · simp [between, scanner]
      omega
  refine ⟨_, hscalar.trans (leads_expired _ _ _ _ rfl ?_), _, _, true, _, rfl,
    skipSpace_solid false true _ hrest, Place.column_newLine _ _⟩
  simp [Place.next]

/-- An item of a sequence. -/
lemma leads_item {s : Scanner} {word : List Char} (hword : IsWord word) {column next : ℕ}
    (hrest : Solid rest) (hindent : b.indent = column) (hnext : next ≤ column)
    (hs : b.AtLine s ('-' :: ' ' :: (word ++ '\n' :: (Scalar.spaces next ++ rest))) column) :
    ∃ t, Leads s t ∧
      ((b.emit .blockEntry).emit (.scalar (String.ofList word) .plain)).AtLine t rest next := by
  have hindent' : (b.emit .blockEntry).indent = column := hindent
  obtain ⟨place, hplace, hdash⟩ := leads_dash hindent hs
  obtain ⟨t, hentry, hline⟩ := leads_entry hword hrest
    (show (b.emit .blockEntry).indent ≤ place.column by omega)
    (show (next : Int) ≤ (b.emit .blockEntry).indent by omega)
  exact ⟨t, hdash.trans hentry, hline⟩

lemma close_close (b : Nest) {column column' : Int} (h : column ≤ column') :
    (b.close column').close column = b.close column := by
  obtain ⟨tokens, indent, indents⟩ := b
  induction indents generalizing tokens indent with
  | nil => rfl
  | cons outer indents ih =>
    by_cases hdeep : column' < indent
    · rw [close_of_lt hdeep, close_of_lt (Int.lt_of_le_of_lt h hdeep), ih]
    · rw [close_of_le (b := ⟨tokens, indent, outer :: indents⟩) (Int.not_lt.mp hdeep)]

/-- The end of the text ends all blocks. -/
lemma run_end {s : Scanner} {tokens : List Token} (hs : b.AtLine s [] 0)
    (hclose : b.close (-1) = ⟨tokens, -1, []⟩) (n : ℕ) :
    (s.run (n + 1)).tokens = .streamEnd :: tokens ∧
      (s.run (n + 1)).settled = tokens.length + 1 := by
  obtain ⟨text, start, allowed, place, rfl, hskip, hcolumn⟩ := hs
  have hfetch : (b.scanner none b.tokens.length text start allowed).fetch =
      some ((⟨.streamEnd :: tokens, -1, []⟩ : Nest).scanner none b.tokens.length [] place
        false) := by
    have hclose' : (b.close place.column).close (-1) = ⟨tokens, -1, []⟩ := by
      rw [close_close b (by omega), hclose]
    have hend : ((b.close place.column).scanner none b.tokens.length [] place true).closeBlocks
        (-1) = ((b.close place.column).close (-1)).scanner none b.tokens.length [] place true := rfl
    rw [hclose'] at hend
    have hhere : ((b.close place.column).scanner none b.tokens.length [] place true).fetchHere =
        ((b.close place.column).scanner none b.tokens.length [] place true).fetchEnd := rfl
    rw [fetch_scanner, hskip]
    dsimp only
    rw [hhere, fetchEnd, hend]
    simp [dropCandidate, scanner, column, hcolumn, Scanner.emit]
  rw [run, settle_between]
  simp only [hfetch]
  exact ⟨rfl, rfl⟩

end Nest
end FaultBench.Yaml
