import FaultBench.Proofs.Yaml.Scanning

/-! The tokens of a layout, and that the scanner finds them in its written form. -/
namespace FaultBench.Yaml
open Scanner

namespace Scalar

/-- A word without quotes. -/
def Bare (s : Scalar) : Prop := s.style = .plain ∧ IsWord s.text.toList

/-- A word without quotes or between single ones. -/
def Simple (s : Scalar) : Prop :=
  s.Bare ∨ s.style = .singleQuoted ∧ ∀ c ∈ s.text.toList, isQuotable c = true

def token (s : Scalar) : Token := .scalar s.text s.style

lemma endLine_of_bare {s : Scalar} (h : s.Bare) (column : ℕ) :
    Layout.endLine (s.print column) = s.text.toList ++ ['\n'] := by
  obtain ⟨hstyle, -, hword⟩ := h
  have hlast : (s.text.toList.getLast?.any isBreak) = false := by
    rw [Option.any_eq_false]
    intro c hc
    have hc := hword c (List.mem_of_getLast? hc)
    simp [isBreak_of_isQuotable (isQuotable_of_isLetter hc)]
  simp only [print, hstyle, Layout.endLine, hlast, Bool.false_eq_true, if_false]

/-- Text without line breaks needs no indentation. -/
lemma indented_of_quotable {cs : List Char} (h : ∀ c ∈ cs, isQuotable c = true) (column : ℕ)
    (atEnd : List Char) : indented column atEnd false cs = cs := by
  induction cs with
  | nil => rfl
  | cons c cs ih =>
    obtain ⟨hc, hcs⟩ := List.forall_mem_cons.mp h
    simp [indented, isBreak_of_isQuotable hc, ih hcs]

/-- Text without quotes has none to be doubled. -/
lemma doubled_of_quotable {cs : List Char} (h : ∀ c ∈ cs, isQuotable c = true) :
    cs.flatMap (fun c => if c == '\x27' then [c, c] else [c]) = cs := by
  induction cs with
  | nil => rfl
  | cons c cs ih =>
    obtain ⟨hc, hcs⟩ := List.forall_mem_cons.mp h
    rw [List.flatMap_cons, ih hcs, beq_of_class hc (by decide)]
    rfl

lemma endLine_of_quoted {s : Scalar} (hstyle : s.style = .singleQuoted)
    (h : ∀ c ∈ s.text.toList, isQuotable c = true) (column : ℕ) :
    Layout.endLine (s.print column) = '\x27' :: (s.text.toList ++ ['\x27', '\n']) := by
  have hlast : ('\x27' :: s.text.toList ++ ['\x27']).getLast? = some '\x27' :=
    List.getLast?_concat
  simp only [print, hstyle, indented_of_quotable h, doubled_of_quotable h, Layout.endLine, hlast]
  simp [isBreak]

end Scalar

namespace Layout

mutual
/-- Scalars are words, names are words too and not too long, and no block is empty. -/
def Simple : Layout → Prop
  | .scalar s => s.Simple
  | .items row => ∀ s ∈ row, s.Bare
  | .fields block => block ≠ [] ∧ SimpleFields block

def SimpleFields : List (String × Layout) → Prop
  | [] => True
  | (name, layout) :: rest =>
    (IsWord name.toList ∧ name.length ≤ 256) ∧ layout.Simple ∧ SimpleFields rest
end

mutual
def tokens : Layout → List Token
  | .scalar s => [s.token]
  | .items [] => [.flowSequenceStart, .flowSequenceEnd]
  | .items row => row.flatMap fun s => [.blockEntry, s.token]
  | .fields block => .blockMappingStart :: fieldTokens block ++ [.blockEnd]

def fieldTokens : List (String × Layout) → List Token
  | [] => []
  | (name, layout) :: rest =>
    [.key, .scalar name .plain, .value] ++ (layout.tokens ++ fieldTokens rest)
end

/-- The column of the first line of a block, and what stands there; `rest` stands behind the block
at the column `next`. -/
def firstLine (column next : ℕ) (rest : List Char) : List (String × Layout) → ℕ × List Char
  | [] => (next, rest)
  | (name, layout) :: more =>
    (column, name.toList ++ ':' :: (value column layout ++
      (lines column more ++ (Scalar.spaces next ++ rest))))

lemma lines_append (column next : ℕ) (rest : List Char) (block : List (String × Layout)) :
    lines column block ++ (Scalar.spaces next ++ rest) =
      Scalar.spaces (firstLine column next rest block).1 ++
        (firstLine column next rest block).2 := by
  cases block with
  | nil => rfl
  | cons field block =>
    obtain ⟨name, layout⟩ := field
    simp [lines, firstLine]

end Layout

namespace Nest

/-- A block that begins at a column, unless it has begun already. -/
def opened (b : Nest) (column : Int) : Nest :=
  if b.indent < column then ⟨.blockMappingStart :: b.tokens, column, b.indent :: b.indents⟩ else b

def emits (b : Nest) (ts : List Token) : Nest := { b with tokens := ts.reverse ++ b.tokens }

lemma key_eq (b : Nest) (column : Int) (name : String) :
    b.key column name.toList = (b.opened column).emits [.key, .scalar name .plain, .value] := by
  rw [key, opened]
  split_ifs <;> simp [emits]

lemma indent_opened {b : Nest} {column : Int} (h : b.indent ≤ column) :
    (b.opened column).indent = column := by
  rw [opened]
  split_ifs
  · rfl
  · omega

lemma opened_emits {b : Nest} {column : Int} (h : b.indent ≤ column) (ts : List Token) :
    ((b.opened column).emits ts).opened column = (b.opened column).emits ts := by
  have hindent : ((b.opened column).emits ts).indent = column := indent_opened h
  exact if_neg (by omega)

lemma opened_of_eq {b : Nest} {column : Int} (h : b.indent = column) : b.opened column = b :=
  if_neg (by omega)

lemma emits_emits (b : Nest) (ts us : List Token) : (b.emits ts).emits us = b.emits (ts ++ us) := by
  simp [emits]

/-- A scanner comes to a line behind the tokens of `b`. The ends of blocks that the line shows may
be still to be read. -/
def Reaches (b : Nest) (s : Scanner) (rest : List Char) (column : ℕ) : Prop :=
  ∃ t behind, Leads s t ∧ AtLine behind t rest column ∧ behind.close column = b.close column

lemma Reaches.of_leads {b : Nest} {s t : Scanner} {rest : List Char} {column : ℕ}
    (h : Leads s t) (ht : b.Reaches t rest column) : b.Reaches s rest column := by
  obtain ⟨u, behind, hu, hline, hclose⟩ := ht
  exact ⟨u, behind, h.trans hu, hline, hclose⟩

lemma Reaches.congr {b b' : Nest} {s : Scanner} {rest : List Char} {column : ℕ}
    (hs : b.Reaches s rest column) (h : b.close column = b'.close column) :
    b'.Reaches s rest column := by
  obtain ⟨t, behind, ht, hline, hclose⟩ := hs
  exact ⟨t, behind, ht, hline, hclose.trans h⟩

lemma Reaches.of_atLine {b : Nest} {s : Scanner} {rest : List Char} {column : ℕ}
    (h : ∃ t, Leads s t ∧ b.AtLine t rest column) : b.Reaches s rest column := by
  obtain ⟨t, ht, hline⟩ := h
  exact ⟨t, b, ht, hline, rfl⟩

/-- A field up to its value, behind whatever blocks end there. -/
lemma Reaches.key {b : Nest} {s : Scanner} {name : String} {rest : List Char} {column : ℕ}
    (h : b.Reaches s (name.toList ++ ':' :: rest) column) (hindent : b.indent ≤ column)
    (hname : IsWord name.toList) (hlength : name.length ≤ 256) (hrest : atWordEnd rest = true) :
    ∃ place, column ≤ place.column ∧ Leads s
      (((b.opened column).emits [.key, .scalar name .plain, .value]).between rest place false) := by
  obtain ⟨t, behind, ht, hline, hclose⟩ := h
  rw [close_of_le hindent] at hclose
  obtain ⟨place, hkey, hplace⟩ := leads_key hline hclose hindent hname hlength hrest
  rw [key_eq] at hkey
  exact ⟨place, hplace, ht.trans hkey⟩

end Nest

namespace Layout
open Nest

lemma solid_firstLine {block : List (String × Layout)} (h : SimpleFields block) (column next : ℕ)
    {rest : List Char} (hrest : Solid rest) : Solid (firstLine column next rest block).2 := by
  cases block with
  | nil => exact hrest
  | cons field block => exact h.1.1.solid _

lemma firstLine_le {column next : ℕ} (h : next ≤ column) (rest : List Char)
    (block : List (String × Layout)) : (firstLine column next rest block).1 ≤ column := by
  cases block with
  | nil => exact h
  | cons field block => exact Nat.le_refl _

lemma atWordEnd_value (column : ℕ) (layout : Layout) (rest : List Char) :
    atWordEnd (value column layout ++ rest) = true := by
  obtain s | row | block := layout
  · rfl
  · cases row <;> rfl
  · cases block <;> rfl

/-- The column of the first of some items, and what stands there and behind it. -/
def firstItem (column next : ℕ) (rest : List Char) : List Scalar → ℕ × List Char
  | [] => (next, rest)
  | s :: row =>
    (column, '-' :: ' ' :: (endLine (s.print (column + 2)) ++
      (row.flatMap (item column) ++ (Scalar.spaces next ++ rest))))

lemma items_append (column next : ℕ) (rest : List Char) (row : List Scalar) :
    row.flatMap (item column) ++ (Scalar.spaces next ++ rest) =
      Scalar.spaces (firstItem column next rest row).1 ++ (firstItem column next rest row).2 := by
  cases row with
  | nil => rfl
  | cons s row => simp [item, firstItem]

lemma solid_firstItem (column next : ℕ) {rest : List Char} (h : Solid rest) (row : List Scalar) :
    Solid (firstItem column next rest row).2 := by
  cases row with
  | nil => exact h
  | cons s row =>
    rintro c ⟨rfl⟩
    decide

lemma firstItem_le {column next : ℕ} (h : next ≤ column) (rest : List Char) (row : List Scalar) :
    (firstItem column next rest row).1 ≤ column := by
  cases row with
  | nil => exact h
  | cons s row => exact Nat.le_refl _

theorem leads_items {row : List Scalar} (h : ∀ s ∈ row, s.Bare) {b : Nest} {s : Scanner}
    {column next : ℕ} {rest : List Char} (hindent : b.indent = column) (hrest : Solid rest)
    (hnext : next ≤ column)
    (hs : b.AtLine s (firstItem column next rest row).2 (firstItem column next rest row).1) :
    ∃ t, Leads s t ∧
      (b.emits (row.flatMap fun s => [.blockEntry, s.token])).AtLine t rest next := by
  induction row generalizing b s with
  | nil => exact ⟨s, .refl s, hs⟩
  | cons item row ih =>
    obtain ⟨hitem, hrow⟩ := List.forall_mem_cons.mp h
    rw [firstItem, Scalar.endLine_of_bare hitem, items_append, List.append_assoc,
      List.singleton_append] at hs
    obtain ⟨t, ht, hline⟩ := leads_item hitem.2 (solid_firstItem column next hrest row) hindent
      (firstItem_le hnext rest row) hs
    obtain ⟨u, hu, hend⟩ := ih hrow (by simpa [Nest.emit] using hindent) hline
    refine ⟨u, ht.trans hu, ?_⟩
    simpa [emits, Nest.emit, Scalar.token, hitem.1] using hend

mutual
/-- Reading the value of a field gives its tokens, up to the next line. -/
theorem reaches_value : (layout : Layout) → layout.Simple → ∀ {b : Nest} {place : Place}
    {column next : ℕ} {rest : List Char}, b.indent = column → column ≤ place.column →
    Solid rest → next ≤ column →
    (b.emits layout.tokens).Reaches
      (b.between (value column layout ++ (Scalar.spaces next ++ rest)) place false) rest next
  | .scalar s, .inl hs, b, place, column, next, rest, hindent, hplace, hrest, hnext => by
    have hplain := leads_plain hs.2 hrest (show b.indent ≤ place.column by omega)
      (show (next : Int) ≤ b.indent by omega)
    refine Reaches.of_atLine ?_
    rw [value, Scalar.endLine_of_bare hs]
    simpa [tokens, Scalar.token, hs.1, emits, Nest.emit] using hplain
  | .scalar s, .inr hs, b, place, column, next, rest, hindent, hplace, hrest, hnext => by
    obtain ⟨t, ht, hline⟩ := leads_quoted hs.2 hrest (show b.indent ≤ place.column by omega)
    refine Reaches.of_atLine ⟨t, ?_, ?_⟩
    · rw [value, Scalar.endLine_of_quoted hs.1 hs.2]
      simpa using ht
    · simpa [tokens, Scalar.token, hs.1, emits, Nest.emit] using hline
  | .items [], hs, b, place, column, next, rest, hindent, hplace, hrest, hnext =>
    Reaches.of_atLine (leads_empty hrest (by omega))
  | .items (s :: row), hs, b, place, column, next, rest, hindent, hplace, hrest, hnext => by
    have hfirst := atLine_newLine (b := b) place (firstItem column next rest (s :: row)).1
      (solid_firstItem column next hrest (s :: row))
    rw [← items_append] at hfirst
    exact Reaches.of_atLine (leads_items hs hindent hrest hnext hfirst)
  | .fields [], hs, b, place, column, next, rest, hindent, hplace, hrest, hnext => by
    exact absurd rfl hs.1
  | .fields (field :: block), hs, b, place, column, next, rest, hindent, hplace, hrest, hnext => by
    have hfirst := atLine_newLine (b := b) place
      (firstLine (column + 2) next rest (field :: block)).1
      (solid_firstLine hs.2 (column + 2) next hrest)
    rw [← lines_append] at hfirst
    have hdeeper : b.indent < (column + 2 : ℕ) := by omega
    have hlines := reaches_lines (field :: block) hs.2 (.of_atLine ⟨_, .refl _, hfirst⟩) (by omega)
      (by simp) hrest (by omega)
    refine hlines.congr ?_
    rw [opened, if_pos hdeeper]
    simp only [emits]
    rw [close_of_lt (by omega)]
    simp [tokens]

theorem reaches_lines : (block : List (String × Layout)) → SimpleFields block →
    ∀ {b : Nest} {s : Scanner} {column next : ℕ} {rest : List Char},
    b.Reaches s (firstLine column next rest block).2 (firstLine column next rest block).1 →
    b.indent ≤ column → (block = [] → b.indent = column) → Solid rest → next ≤ column →
    ((b.opened column).emits (fieldTokens block)).Reaches s rest next
  | [], hs, b, s, column, next, rest, h, hindent, hopened, hrest, hnext => by
    rw [opened_of_eq (hopened rfl)]
    exact h
  | (name, layout) :: more, hs, b, s, column, next, rest, h, hindent, hopened, hrest, hnext => by
    obtain ⟨⟨hname, hlength⟩, hlayout, hmore⟩ := hs
    obtain ⟨place, hplace, hkey⟩ := Reaches.key h hindent hname hlength (atWordEnd_value _ _ _)
    rw [lines_append] at hkey
    have hindent' : ((b.opened column).emits [.key, .scalar name .plain, .value]).indent = column :=
      indent_opened hindent
    have hvalue := reaches_value layout hlayout hindent' hplace
      (solid_firstLine hmore column next hrest) (firstLine_le hnext rest more)
    rw [emits_emits] at hvalue
    have hlines := reaches_lines more hmore (hvalue.of_leads hkey) (Int.le_of_eq hindent')
      (fun _ => hindent') hrest hnext
    rw [opened_emits hindent, emits_emits] at hlines
    exact hlines
end

lemma isAllowed_of_isQuotable {c : Char} (h : isQuotable c = true) : isAllowed c = true := by
  -- Upper and lower case, digits, the low line and the full stop are rows of printable characters.
  have hkinds : ((((c.isUpper || c.isLower) || c.isDigit) || c == '_') || c == '.') = true := h
  simp only [Bool.or_eq_true, beq_iff_eq] at hkinds
  have hrow {low high : ℕ} (hlow : 0x20 ≤ low) (hhigh : high ≤ 0x7E) (hmin : low ≤ c.toNat)
      (hmax : c.toNat ≤ high) : isAllowed c = true := by
    have hrange : 0x20 ≤ c.toNat ∧ c.toNat ≤ 0x7E := ⟨by omega, by omega⟩
    simp [isAllowed, hrange]
  obtain (((hupper | hlower) | hdigit) | rfl) | rfl := hkinds
  · have hbounds : 'A'.val ≤ c.val ∧ c.val ≤ 'Z'.val := of_decide_eq_true hupper
    exact hrow (by decide) (by decide) hbounds.1 hbounds.2
  · have hbounds : (decide ('a'.val ≤ c.val) && decide (c.val ≤ 'z'.val)) = true := hlower
    rw [Bool.and_eq_true, decide_eq_true_iff, decide_eq_true_iff] at hbounds
    exact hrow (by decide) (by decide) hbounds.1 hbounds.2
  · obtain ⟨hmin, hmax⟩ := Char.isDigit_iff_toNat.mp hdigit
    exact hrow (by decide) (by decide) hmin hmax
  · rfl
  · rfl

lemma isAllowed_endLine {s : Scalar} (h : s.Simple) (column : ℕ) :
    (endLine (s.print column)).all isAllowed = true := by
  obtain hbare | ⟨hstyle, hquoted⟩ := h
  · rw [Scalar.endLine_of_bare hbare, List.all_append, Bool.and_eq_true]
    exact ⟨List.all_eq_true.mpr fun c hc =>
      isAllowed_of_isQuotable (isQuotable_of_isLetter (hbare.2.2 c hc)), rfl⟩
  · rw [Scalar.endLine_of_quoted hstyle hquoted, List.all_cons, List.all_append]
    have hall := List.all_eq_true.mpr fun c hc => isAllowed_of_isQuotable (hquoted c hc)
    rw [hall]
    rfl

lemma isAllowed_spaces (column : ℕ) : (Scalar.spaces column).all isAllowed = true := by
  rw [Scalar.spaces, List.all_replicate]
  split <;> rfl

mutual
lemma isAllowed_value : (layout : Layout) → layout.Simple → (column : ℕ) →
    (value column layout).all isAllowed = true
  | .scalar s, hs, column => by
    rw [value, List.all_cons, isAllowed_endLine hs]
    rfl
  | .items [], hs, column => rfl
  | .items (s :: row), hs, column => by
    have hitem : ∀ item ∈ s :: row, (Layout.item column item).all isAllowed = true := by
      intro item h
      rw [Layout.item, List.all_append, List.all_cons, List.all_cons, isAllowed_spaces,
        isAllowed_endLine (.inl (hs item h))]
      rfl
    rw [value, List.all_cons, List.all_flatMap, List.all_eq_true.mpr hitem]
    · rfl
    · nofun
  | .fields [], hs, column => rfl
  | .fields (field :: block), hs, column => by
    rw [value, List.all_cons, isAllowed_lines _ hs.2]
    · rfl
    · nofun

lemma isAllowed_lines : (block : List (String × Layout)) → SimpleFields block → (column : ℕ) →
    (lines column block).all isAllowed = true
  | [], hs, column => rfl
  | (name, layout) :: more, hs, column => by
    obtain ⟨⟨hname, hlength⟩, hlayout, hmore⟩ := hs
    have hletters : name.toList.all isAllowed = true := List.all_eq_true.mpr fun c hc =>
      isAllowed_of_isQuotable (isQuotable_of_isLetter (hname.2 c hc))
    rw [lines, List.all_append, List.all_append, List.all_append, List.all_cons, hletters,
      isAllowed_value layout hlayout, isAllowed_lines more hmore, isAllowed_spaces]
    rfl
end

/-- A document is scanned as the tokens of its layout. -/
theorem scan_lines {block : List (String × Layout)} (hs : SimpleFields block)
    (hblock : block ≠ []) : Token.scan (lines 0 block) =
      .blockMappingStart :: (fieldTokens block ++ [.blockEnd, .streamEnd]) := by
  have hstart : AtLine {} (between {} (lines 0 block) {} true) (firstLine 0 0 [] block).2
      (firstLine 0 0 [] block).1 := by
    have hfirst : lines 0 block = Scalar.spaces (firstLine 0 0 [] block).1 ++
        (firstLine 0 0 [] block).2 := by
      rw [← lines_append, Scalar.spaces, List.replicate_zero, List.nil_append, List.append_nil]
    have hcolumn : (firstLine 0 0 [] block).1 = 0 :=
      Nat.le_zero.mp (firstLine_le (Nat.le_refl 0) [] block)
    rw [hcolumn] at hfirst ⊢
    rw [hfirst]
    exact ⟨_, {}, true, {}, rfl, skipSpace_solid false true {} (solid_firstLine hs 0 0 solid_nil),
      rfl⟩
  obtain ⟨t, behind, ⟨k, hk, hrun⟩, hline, hclose⟩ := reaches_lines block hs
    (.of_atLine ⟨_, .refl _, hstart⟩) (by decide) (fun h => absurd h hblock) solid_nil
    (Nat.le_refl 0)
  have hends : behind.close (-1) =
      ⟨.blockEnd :: ((fieldTokens block).reverse ++ [.blockMappingStart]), -1, []⟩ := by
    rw [← close_close behind (show (-1 : Int) ≤ (0 : ℕ) by decide), hclose,
      close_close _ (show (-1 : Int) ≤ (0 : ℕ) by decide)]
    have hopened : ({} : Nest).opened (0 : ℕ) = ⟨[.blockMappingStart], 0, [-1]⟩ := rfl
    rw [hopened, emits, close_of_lt (by decide)]
    rfl
  have hlength : (lines 0 block).length + 1 =
      (lines 0 block).length - k + 1 + k := by
    have : k ≤ (lines 0 block).length := Nat.le_trans (Nat.le_add_right _ _) hk
    omega
  obtain ⟨htokens, hsettled⟩ := run_end hline hends ((lines 0 block).length - k)
  rw [Token.scan, if_pos (isAllowed_lines block hs 0), hlength]
  have hscan : ({ cursor := { rest := lines 0 block } } : Scanner).run
      ((lines 0 block).length - k + 1 + k) = t.run ((lines 0 block).length - k + 1) := hrun _
  rw [hscan]
  dsimp only
  rw [htokens, hsettled]
  simp [List.take_of_length_le]

end Layout
end FaultBench.Yaml
