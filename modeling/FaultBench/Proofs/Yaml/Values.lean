import FaultBench.Proofs.Text.Digits
import FaultBench.Proofs.Yaml.Nodes
import FaultBench.Proofs.Yaml.Readings

/-! Values read back from the nodes of their layouts: numbers, texts, sequences, variants, and
mappings with all their fields. -/
namespace FaultBench.Yaml

namespace Meaning

lemma isSign_of_isDigit {c : Char} (h : c.isDigit = true) : isSign c = false := by
  rw [isSign, beq_of_class h (by decide), beq_of_class h (by decide), Bool.or_false]

/-- A number is read back from its digits. -/
theorem unsigned?_toDigits {limit n : ℕ} (h : n < limit) :
    unsigned? limit (Nat.toDigits 10 n) = some n := by
  have hplus : dropPlus? (Nat.toDigits 10 n) = some (Nat.toDigits 10 n) ∧
      base? (Nat.toDigits 10 n) = none ∧ isPadded (Nat.toDigits 10 n) = false := by
    obtain rfl | hpos := Nat.eq_zero_or_pos n
    · exact ⟨rfl, rfl, rfl⟩
    · cases hdigits : Nat.toDigits 10 n with
      | nil => exact absurd hdigits Nat.toDigits_ne_nil
      | cons c rest =>
        have hc : c.isDigit = true := Text.isDigit_toDigits n c (hdigits ▸ List.mem_cons_self)
        have hzero : c ≠ '0' := by
          rintro rfl
          exact Text.head?_toDigits hpos (congrArg List.head? hdigits)
        refine ⟨?_, ?_, ?_⟩
        · rw [dropPlus?]
          rintro rest' ⟨rfl, rfl⟩
          cases hc
        · rw [base?]
          all_goals
            rintro rest' ⟨rfl, rfl⟩
            exact hzero rfl
        · simp only [isPadded, startsWithSign, List.head?_cons, Option.any_some,
            isSign_of_isDigit hc, Bool.false_eq_true, if_false]
          split
          · next heq => exact absurd (List.cons.inj heq).1 hzero
          · rfl
  obtain ⟨hplus, hbase, hpadded⟩ := hplus
  simp only [unsigned?, hplus, hbase, hpadded, Text.digits?_toDigits, Option.bind_eq_bind,
    Option.bind_some, Bool.false_eq_true, if_false, h, if_true]

end Meaning

namespace Scalar

/-- A text is written so that it reads as nothing else, whatever its characters stand for when they
are written as they are. -/
theorem meaning_ofText (text : String) : (ofText text).meaning = .ok (.text text) := by
  have hplain : styleOf text = .plain → Meaning.ofPlain text = .text text := by
    intro h
    by_contra hne
    have hambiguous : ambiguous text = true := by simp [ambiguous, hne]
    simp only [styleOf, hambiguous, Bool.not_true, Bool.and_false, Bool.false_eq_true,
      if_false] at h
    split_ifs at h
  rw [meaning]
  simp only [ofText, Option.bind_none, Option.all_none, and_true]
  split_ifs with h
  · rw [hplain h]
  · rfl

end Scalar

namespace Decoder

variable {α σ : Type}

/-- A value is read from the node of a layout, wherever it stands. -/
def Reads (read : Decoder α) (layout : Layout) (a : α) : Prop :=
  ∀ d path, read d path layout.node = .ok a

lemma resolve_node (d : Document) (layout : Layout) : d.resolve layout.node = layout.node := by
  cases layout <;> rfl

lemma reads_text (wanted : String) (s : Scalar) : Reads (text wanted) (.scalar s) s.text :=
  fun _ _ => rfl

lemma reads_number (wanted : String) {limit n : ℕ} (h : n < limit) (hlimit : limit ≤ UInt64.size) :
    Reads (number wanted limit) (.scalar (.ofNat n)) n := by
  intro d path
  have hvalue : Meaning.unsigned? UInt64.size (Nat.toDigits 10 n) = some n :=
    Meaning.unsigned?_toDigits (Nat.lt_of_lt_of_le h hlimit)
  rw [number, resolve_node]
  simp [Layout.node, Scalar.node, Scalar.ofNat, Scalar.mayCount, hvalue, h]

lemma Reads.map {β : Type} {read : Decoder α} {layout : Layout} {a : α} (h : Reads read layout a)
    (f : α → β) : Reads (fun d path n => (read d path n).map f) layout (f a) := by
  intro d path
  simp only [h d path]
  rfl

lemma itemsFrom_row {read : Decoder α} {item : α → Scalar}
    (h : ∀ a, Reads read (.scalar (item a)) a) (d : Document) (path : Path) (as : List α)
    (index : ℕ) : itemsFrom read d path index ((as.map item).map Scalar.node) = .ok as := by
  induction as generalizing index with
  | nil => rfl
  | cons a as ih =>
    have hitem : read d (.item index :: path) (item a).node = .ok a := h a d _
    rw [List.map_cons, List.map_cons, itemsFrom, hitem]
    simp only [ih]
    rfl

lemma reads_sequence {read : Decoder α} {item : α → Scalar}
    (h : ∀ a, Reads read (.scalar (item a)) a) (as : List α) :
    Reads (sequence read) (.items (as.map item)) as := by
  intro d path
  rw [sequence, resolve_node]
  simp only [Layout.node, itemsFrom_row h]
  rfl

lemma reads_variant (wanted : String) {variants : List (Variant α)} {name : String}
    {read : Decoder α} {layout : Layout} {a : α} (h : Reads read layout a)
    (hfind : variants.find? (fun v => v.name = name) = some ⟨name, read⟩) :
    Reads (variant wanted variants) (.fields [(name, layout)]) a := by
  intro d path
  have hkey : text "variant identifier" d path (.scalar { text := name }) = .ok name := rfl
  have hnamed : variantNamed variants path name = .ok ⟨name, read⟩ := by rw [variantNamed, hfind]
  have hplain : (Layout.fields [(name, layout)]).node.namesVariant = false := rfl
  have hread : read d (stepTo (.scalar { text := name }) :: path) layout.node = .ok a := h d _
  rw [variant, resolve_node]
  simp only [hplain, Bool.false_eq_true, if_false]
  simp only [Layout.node, Layout.entries, variantOf, hkey, hnamed, hread, bind, Except.bind]
  rfl

/-- The fields of a mapping with the layouts that their values are read from, in turn. -/
inductive Stores : List (Field σ) → σ → List (String × Layout) → σ → Prop
  | nil (s : σ) : Stores [] s [] s
  | cons {f : Field σ} {fields : List (Field σ)} {layout : Layout}
      {block : List (String × Layout)} {s t u : σ} (value : Reads (f.read s) layout t)
      (later : Stores fields t block u) : Stores (f :: fields) s ((f.name, layout) :: block) u

/-- Each field is found by its name, as none before it has the same. -/
lemma fieldsFrom_entries {fields : List (Field σ)} {s s' : σ} {block : List (String × Layout)}
    (h : Stores fields s block s') (d : Document) (path : Path) (before : List (Field σ))
    (hnames : ((before ++ fields).map Field.name).Nodup) :
    fieldsFrom (before ++ fields) d path (before.map Field.name).reverse s (Layout.entries block) =
      .ok s' := by
  induction h generalizing before with
  | nil s => rfl
  | @cons f fields layout block s t u value later ih =>
    have hfind := find?_field hnames
    have hkey : text "field identifier" d path (.scalar { text := f.name }) = .ok f.name := rfl
    have hread : f.read s d (stepTo (.scalar { text := f.name }) :: path) layout.node = .ok t :=
      value d _
    have hseen : f.name ∉ (before.map Field.name).reverse := by
      rw [List.map_append, List.nodup_append] at hnames
      rw [List.mem_reverse]
      exact fun hmem => hnames.2.2 f.name hmem f.name (by simp) rfl
    have hnext : ((before ++ [f]).map Field.name).reverse =
        f.name :: (before.map Field.name).reverse := by
      simp
    have hlater := ih (before ++ [f])
    rw [List.append_assoc, List.singleton_append, hnext] at hlater
    simp only [Layout.entries, fieldsFrom, hkey, hfind, hread, hseen, if_false, bind, Except.bind]
    exact hlater hnames

/-- A mapping with all its fields in their order is read back. -/
theorem reads_mapping (wanted : String) {fields : List (Field σ)} {s s' : σ}
    {block : List (String × Layout)} (hnames : (fields.map Field.name).Nodup)
    (h : Stores fields s block s') : Reads (mapping wanted fields s) (.fields block) s' := by
  intro d path
  have hfields := fieldsFrom_entries h d path [] hnames
  rw [List.nil_append, List.map_nil, List.reverse_nil] at hfields
  rw [mapping, resolve_node]
  simp only [Layout.node, hfields]
  rfl

end Decoder
end FaultBench.Yaml
