import FaultBench.Yaml.Decoding
import Mathlib.Tactic.Common

/-! What the nodes of a document are read as, wherever they stand: the text or the number of a
scalar, the items of a sequence, the only entry of a mapping. -/
namespace FaultBench.Yaml

namespace Meaning

lemma filter_bind_lt {limit larger : ℕ} (h : limit ≤ larger) (found : Option ℕ) :
    (found.bind fun n => if n < larger then some n else none).filter (· < limit) =
      found.bind fun n => if n < limit then some n else none := by
  cases found with
  | none => rfl
  | some n =>
    simp only [Option.bind_some]
    by_cases hlimit : n < limit
    · have hlarger : n < larger := Nat.lt_of_lt_of_le hlimit h
      simp [hlimit, hlarger]
    · rw [if_neg hlimit]
      split_ifs
      · exact Option.filter_some_neg (by simpa using hlimit)
      · rfl

/-- The limit is asked for once the number is known. -/
lemma unsigned?_filter {limit larger : ℕ} (h : limit ≤ larger) (cs : List Char) :
    (unsigned? larger cs).filter (· < limit) = unsigned? limit cs := by
  unfold unsigned?
  cases dropPlus? cs with
  | none => rfl
  | some body =>
    simp only [Option.bind_eq_bind, Option.bind_some]
    cases base? body with
    | none =>
      dsimp only
      split_ifs
      · rfl
      · exact filter_bind_lt h _
    | some announced => exact filter_bind_lt h _

end Meaning

namespace Document

variable {α : Type}

/-- The text of a scalar. -/
def text? (d : Document) (n : Node) : Option String :=
  match d.resolve n with
  | .scalar s => some s.text
  | _ => none

/-- The number of a scalar, if it is below the limit. -/
def number? (d : Document) (limit : Nat) (n : Node) : Option Nat :=
  match d.resolve n with
  | .scalar s => if s.mayCount then Meaning.unsigned? limit s.text.toList else none
  | _ => none

/-- The values of a sequence. -/
def items? (d : Document) (value? : Node → Option α) (n : Node) : Option (List α) :=
  match d.resolve n with
  | .sequence _ items true => items.mapM value?
  | .scalar s => if s.isVoid then some [] else none
  | _ => none

/-- The name and the value of a mapping with a single key. -/
def single? (d : Document) (n : Node) : Option (String × Node) :=
  if (d.resolve n).namesVariant then none
  else
    match d.resolve n with
    | .mapping _ [(key, value)] true => (d.text? key).map fun name => (name, value)
    | _ => none

/-- The value of a mapping with a single key, as the variant that the key names. -/
def variant? (d : Document) (values : List (String × (Document → Node → Option α))) (n : Node) :
    Option α := do
  let (name, value) ← d.single? n
  (← values.lookup name) d value

end Document

namespace Decoder

variable {α β : Type} {d : Document} {path : Path} {n : Node}

/-- A reading that gives the values of nodes, and fails if there is none. -/
def Gives (read : Decoder α) (value? : Document → Node → Option α) : Prop :=
  ∀ d path n, (read d path n).toOption = value? d n

lemma toOption_bind {ε : Type} (x : Except ε α) (f : α → Except ε β) :
    (x >>= f).toOption = x.toOption.bind fun a => (f a).toOption := by
  cases x <;> rfl

lemma toOption_eq_some_iff {ε : Type} {x : Except ε α} {a : α} :
    x.toOption = some a ↔ x = .ok a := by
  cases x <;> simp [Except.toOption]

lemma Gives.eq_ok_iff {read : Decoder α} {value? : Document → Node → Option α}
    (h : Gives read value?) {a : α} : read d path n = .ok a ↔ value? d n = some a := by
  rw [← toOption_eq_some_iff, h]

lemma Gives.map {read : Decoder α} {value? : Document → Node → Option α} (h : Gives read value?)
    (f : α → β) :
    Gives (fun d path n => (read d path n).map f) fun d n => (value? d n).map f := by
  intro d path n
  change ((read d path n).map f).toOption = (value? d n).map f
  rw [← h d path n]
  cases read d path n <;> rfl

lemma toOption_refuse (path : Path) (wanted : String) (n : Node) :
    (n.refuse path wanted : Except Failure α).toOption = none := by
  cases n <;> rfl

lemma gives_text (wanted : String) : Gives (text wanted) Document.text? := by
  intro d path n
  unfold text Document.text?
  cases d.resolve n with
  | scalar s => rfl
  | _ => exact toOption_refuse _ _ _

lemma gives_number (wanted : String) {limit : ℕ} (h : limit ≤ UInt64.size) :
    Gives (number wanted limit) fun d => d.number? limit := by
  intro d path n
  change _ = d.number? limit n
  unfold number Document.number?
  cases d.resolve n with
  | scalar s =>
    dsimp only
    cases s.mayCount with
    | false => rfl
    | true =>
      rw [← Meaning.unsigned?_filter h]
      simp only [if_true]
      cases Meaning.unsigned? UInt64.size s.text.toList with
      | none => rfl
      | some v =>
        by_cases hv : v < limit
        · simp [hv, Option.filter, Except.toOption]
        · simp [hv, Option.filter, Except.toOption, mismatch]
  | _ => exact toOption_refuse _ _ _

lemma toOption_itemsFrom {read : Decoder α} {value? : Document → Node → Option α}
    (h : Gives read value?) (d : Document) (path : Path) (items : List Node) (index : ℕ) :
    (itemsFrom read d path index items).toOption = items.mapM (value? d) := by
  induction items generalizing index with
  | nil => rfl
  | cons n items ih =>
    rw [itemsFrom, List.mapM_cons, toOption_bind, h]
    simp only [toOption_bind, ih]
    rfl

lemma gives_sequence {read : Decoder α} {value? : Document → Node → Option α}
    (h : Gives read value?) : Gives (sequence read) fun d => d.items? (value? d) := by
  intro d path n
  change _ = d.items? (value? d) n
  unfold sequence Document.items?
  cases d.resolve n with
  | sequence tag items closed =>
    dsimp only
    rw [toOption_bind, toOption_itemsFrom h]
    cases closed with
    | true => exact Option.bind_fun_some _
    | false => exact Option.bind_fun_none _
  | scalar s =>
    dsimp only
    cases s.isVoid <;> rfl
  | _ => exact toOption_refuse _ _ _

/-- A variant is found where its value is. -/
lemma find?_variant {variants : List (Variant α)}
    {values : List (String × (Document → Node → Option α))}
    (h : List.Forall₂ (fun v x => v.name = x.1 ∧ Gives v.read x.2) variants values)
    (name : String) :
    (variants.find? (fun v => v.name = name) = none ∧ values.lookup name = none) ∨
      ∃ v value?, variants.find? (fun v => v.name = name) = some v ∧
        values.lookup name = some value? ∧ Gives v.read value? := by
  induction h with
  | nil => exact .inl ⟨rfl, rfl⟩
  | @cons v x variants values hhead _ ih =>
    obtain ⟨hname, hgives⟩ := hhead
    by_cases hsame : v.name = name
    · refine .inr ⟨v, x.2, List.find?_cons_of_pos (decide_eq_true hsame), ?_, hgives⟩
      rw [List.lookup_cons, ← hname, hsame, beq_self_eq_true]
    · have hother : (name == x.1) = false := by
        rw [← hname]
        exact beq_false_of_ne fun heq => hsame heq.symm
      rw [List.find?_cons_of_neg (by simpa using hsame), List.lookup_cons, hother]
      exact ih

lemma toOption_variantNamed {variants : List (Variant α)}
    {values : List (String × (Document → Node → Option α))}
    (h : List.Forall₂ (fun v x => v.name = x.1 ∧ Gives v.read x.2) variants values)
    (d : Document) (path inner : Path) (name : String) (n : Node) :
    ((variantNamed variants path name).toOption.bind fun v => (v.read d inner n).toOption) =
      (values.lookup name).bind fun value? => value? d n := by
  unfold variantNamed
  obtain ⟨hfind, hlookup⟩ | ⟨v, value?, hfind, hlookup, hgives⟩ := find?_variant h name
  · rw [hfind, hlookup]
    rfl
  · rw [hfind, hlookup]
    exact hgives d inner n

/-- A second key is met only behind the value of the first. -/
lemma toOption_variantOf {variants : List (Variant α)}
    {values : List (String × (Document → Node → Option α))}
    (h : List.Forall₂ (fun v x => v.name = x.1 ∧ Gives v.read x.2) variants values)
    (d : Document) (path : Path) (closed : Bool) (entries : List (Node × Node)) :
    (variantOf variants d path closed entries).toOption =
      match entries, closed with
      | [(key, value)], true => do (← values.lookup (← d.text? key)) d value
      | _, _ => none := by
  match entries with
  | [] => cases closed <;> rfl
  | [(key, value)] =>
    simp only [variantOf, toOption_bind, gives_text _ _ _ _]
    cases closed with
    | true =>
      have hlast (x : Option α) :
          (x.bind fun a => (pure a : Except Failure α).toOption) = x := Option.bind_fun_some x
      simp only [if_true, hlast, toOption_variantNamed h]
      rfl
    | false => simp [Except.toOption]
  | (key, value) :: (second, other) :: rest =>
    simp only [variantOf, toOption_bind, gives_text _ _ _ _]
    cases second.complete with
    | true => simp [mismatch, Except.toOption]
    | false => simp [Except.toOption]

lemma gives_variant (wanted : String) {variants : List (Variant α)}
    {values : List (String × (Document → Node → Option α))}
    (h : List.Forall₂ (fun v x => v.name = x.1 ∧ Gives v.read x.2) variants values) :
    Gives (variant wanted variants) fun d => d.variant? values := by
  intro d path n
  change _ = d.variant? values n
  unfold variant Document.variant? Document.single?
  dsimp only
  cases (d.resolve n).namesVariant with
  | true => rfl
  | false =>
    simp only [Bool.false_eq_true, if_false]
    cases d.resolve n with
    | scalar s =>
      dsimp only
      split
      · next name _ =>
        rw [toOption_bind]
        exact Option.bind_fun_none _
      · rfl
    | mapping tag entries closed =>
      dsimp only
      rw [toOption_variantOf h]
      match entries, closed with
      | [(key, value)], true =>
        dsimp only
        cases d.text? key <;> rfl
      | [], _ | (_, _) :: _ :: _, _ | [(_, _)], false => rfl
    | _ => exact toOption_refuse _ _ _

/-- A field is found by its name, as none before it has the same. -/
lemma find?_field {σ : Type} {before after : List (Field σ)} {f : Field σ}
    (hnames : ((before ++ f :: after).map Field.name).Nodup) :
    (before ++ f :: after).find? (fun g => g.name = f.name) = some f := by
  rw [List.map_append, List.nodup_append] at hnames
  refine List.find?_eq_some_iff_append.mpr ⟨by simp, before, after, rfl, fun g hg => ?_⟩
  have hne := hnames.2.2 g.name (List.mem_map_of_mem hg) f.name (by simp)
  simpa using hne

end Decoder
end FaultBench.Yaml
