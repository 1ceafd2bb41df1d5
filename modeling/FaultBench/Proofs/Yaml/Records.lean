import FaultBench.Proofs.Yaml.Readings
import Mathlib.Data.List.Nodup

/-! Mappings of named fields, read in any order of their keys. A field that is given is stored, one
that is left out keeps its value, and no other key is accepted, nor the same key twice. -/
namespace FaultBench.Yaml

namespace Document

/-- The entries of a mapping. A node that is left out stands for a mapping without entries. -/
def entries? (d : Document) (n : Node) : Option (List (Node × Node)) :=
  match d.resolve n with
  | .mapping _ entries true => some entries
  | .void => some []
  | .scalar s => if s.isVoid then some [] else none
  | _ => none

def keys (d : Document) (entries : List (Node × Node)) : List (Option String) :=
  entries.map fun e => d.text? e.1

/-- The value of a key. -/
def entry? (d : Document) (entries : List (Node × Node)) (name : String) : Option Node :=
  (entries.find? fun e => d.text? e.1 = some name).map Prod.snd

/-- The value of a key of a mapping. -/
def member? (d : Document) (n : Node) (name : String) : Option Node := do
  d.entry? (← d.entries? n) name

/-- The node that names lead to from the root. -/
def find? (d : Document) (names : List String) : Option Node := names.foldlM d.member? d.root

/-- The value of a leaf: its default, or the value of the node that is given for it. -/
def leaf? {α : Type} (d : Document) (names : List String) (value? : Node → Option α)
    (default : α) : Option α :=
  match d.find? names with
  | none => some default
  | some n => value? n

/-- A mapping with some of the names for keys, each of them once and in any order. -/
def IsRecord (d : Document) (names : List String) (n : Node) : Prop :=
  ∃ entries, d.entries? n = some entries ∧ (d.keys entries).Nodup ∧
    ∀ key ∈ d.keys entries, ∃ name ∈ names, key = some name

/-- Entries with a key that is none of the names, or with the same key twice. -/
inductive Improper (d : Document) (names : List String) : List (Node × Node) → Prop
  | stray {key value : Node} (before after : List (Node × Node))
      (unknown : ∀ name ∈ names, d.text? key ≠ some name) :
      Improper d names (before ++ (key, value) :: after)
  | repeated {key value again other : Node} {name : String}
      (before between after : List (Node × Node)) (named : d.text? key = some name)
      (same : d.text? again = some name) :
      Improper d names (before ++ (key, value) :: (between ++ (again, other) :: after))

/-- A node is the value of a key of a mapping, whatever else is in the mapping. -/
def Under (d : Document) (n : Node) (name : String) (value : Node) : Prop :=
  ∃ tag entries closed key, d.resolve n = .mapping tag entries closed ∧
    (key, value) ∈ entries ∧ d.text? key = some name

variable {d : Document} {names : List String} {name : String} {n key value : Node}
  {entries : List (Node × Node)}

lemma find?_append (d : Document) (names : List String) (name : String) :
    d.find? (names ++ [name]) = (d.find? names).bind fun n => d.member? n name := by
  unfold find?
  rw [List.foldlM_append]
  refine congrArg (Option.bind _) ?_
  funext n
  exact bind_pure _

lemma entry?_cons_self (h : d.text? key = some name) :
    d.entry? ((key, value) :: entries) name = some value := by
  unfold entry?
  rw [List.find?_cons_of_pos (by simpa using h)]
  rfl

lemma entry?_cons_of_ne (h : d.text? key ≠ some name) :
    d.entry? ((key, value) :: entries) name = d.entry? entries name := by
  unfold entry?
  rw [List.find?_cons_of_neg (by simpa using h)]

lemma entry?_eq_none (h : some name ∉ d.keys entries) : d.entry? entries name = none := by
  unfold entry?
  rw [Option.map_eq_none_iff, List.find?_eq_none]
  intro e he hname
  exact h (List.mem_map.mpr ⟨e, he, of_decide_eq_true hname⟩)

lemma entry?_of_mem (h : (d.keys entries).Nodup) (hmem : (key, value) ∈ entries)
    (hkey : d.text? key = some name) : d.entry? entries name = some value := by
  induction entries with
  | nil => cases hmem
  | cons e entries ih =>
    obtain ⟨hnew, hnodup⟩ := List.nodup_cons.mp h
    obtain rfl | hmem := List.mem_cons.mp hmem
    · exact entry?_cons_self hkey
    · have hother : d.text? e.1 ≠ some name := by
        intro hsame
        exact hnew (List.mem_map.mpr ⟨_, hmem, hkey.trans hsame.symm⟩)
      exact (entry?_cons_of_ne hother).trans (ih hnodup hmem)

lemma entries?_of_mapping {tag : Option Tag} {closed : Bool}
    {found : List (Node × Node)} (h : d.resolve n = .mapping tag entries closed)
    (hfound : d.entries? n = some found) : found = entries := by
  unfold entries? at hfound
  rw [h] at hfound
  cases closed with
  | true => exact (Option.some.inj hfound).symm
  | false => cases hfound

/-- Of a record there is no other value under a name than the one that is read. -/
lemma IsRecord.member? (h : d.IsRecord names n) (hvalue : d.Under n name value) :
    d.member? n name = some value := by
  obtain ⟨found, hfound, hnodup, -⟩ := h
  obtain ⟨tag, entries, closed, key, hresolve, hmem, hkey⟩ := hvalue
  unfold Document.member?
  obtain rfl := entries?_of_mapping hresolve hfound
  rw [hfound]
  exact entry?_of_mem hnodup hmem hkey

lemma not_isRecord {tag : Option Tag} {closed : Bool}
    (h : d.resolve n = .mapping tag entries closed) (himproper : Improper d names entries) :
    ¬ d.IsRecord names n := by
  rintro ⟨found, hfound, hnodup, hknown⟩
  obtain rfl := entries?_of_mapping h hfound
  cases himproper with
  | @stray key value before after unknown =>
    have hkey : d.text? key ∈ d.keys (before ++ (key, value) :: after) :=
      List.mem_map.mpr ⟨(key, value), by simp, rfl⟩
    obtain ⟨name, hmem, hname⟩ := hknown _ hkey
    exact unknown name hmem hname
  | repeated before between after named same =>
    unfold keys at hnodup
    rw [List.map_append, List.map_cons, List.map_append, List.map_cons] at hnodup
    have hlater := (List.nodup_cons.mp (List.nodup_append.mp hnodup).2.1).1
    refine hlater (List.mem_append_right _ ?_)
    rw [named, same]
    exact List.mem_cons_self

end Document

namespace Decoder

variable {σ : Type}

/-- A field of a record: how it is read, what the nodes of its values are, and where it is
stored. -/
structure Slot (σ : Type) where
  {α : Type}
  name : String
  read : Decoder α
  Holds : Document → Node → α → Prop
  get : σ → α
  set : σ → α → σ

def Slot.field (l : Slot σ) : Field σ := .storing l.name l.read l.set

/-- The field of a record `t` that was read over a record `s`. -/
def Slot.Given (l : Slot σ) (d : Document) (given : Option Node) (s t : σ) : Prop :=
  match given with
  | none => l.get t = l.get s
  | some n => l.Holds d n (l.get t)

/-- The fields of a record, each stored in a place of its own. -/
structure Lawful (slots : List (Slot σ)) : Prop where
  nodup : (slots.map Slot.name).Nodup
  read_iff : ∀ l ∈ slots, ∀ d path n a, l.read d path n = .ok a ↔ l.Holds d n a
  get_set : ∀ l ∈ slots, ∀ s a, l.get (l.set s a) = a
  get_set_of_ne : ∀ l ∈ slots, ∀ m ∈ slots, l.name ≠ m.name →
    ∀ s a, m.get (l.set s a) = m.get s
  ext : ∀ s t, (∀ l ∈ slots, l.get s = l.get t) → s = t

variable {slots : List (Slot σ)} {d : Document} {path : Path} {seen : List String}
  {entries : List (Node × Node)} {key value n : Node} {s t : σ}

lemma find?_slot (h : Lawful slots) {l : Slot σ} (hl : l ∈ slots) :
    (slots.map Slot.field).find? (fun f => f.name = l.name) = some l.field := by
  have hnames : ((slots.map Slot.field).map Field.name).Nodup := by
    rw [List.map_map]
    exact h.nodup
  obtain ⟨before, after, rfl⟩ := List.append_of_mem hl
  rw [List.map_append, List.map_cons] at hnames ⊢
  exact find?_field hnames

lemma find?_slot_none {name : String} (h : name ∉ slots.map Slot.name) :
    (slots.map Slot.field).find? (fun f => f.name = name) = none := by
  rw [List.find?_eq_none]
  intro f hf hname
  obtain ⟨l, hl, rfl⟩ := List.mem_map.mp hf
  exact h (List.mem_map.mpr ⟨l, hl, of_decide_eq_true hname⟩)

lemma bind_eq_ok_iff {ε α β : Type} {x : Except ε α} {f : α → Except ε β} {b : β} :
    x >>= f = .ok b ↔ ∃ a, x = .ok a ∧ f a = .ok b := by
  cases x with
  | error e => simp [bind, Except.bind]
  | ok a => simp [bind, Except.bind]

lemma read_field (l : Slot σ) : l.field.read s d path n = .ok t ↔
    ∃ a, l.read d path n = .ok a ∧ l.set s a = t := by
  change (l.read d path n).map (l.set s) = .ok t ↔ _
  cases l.read d path n with
  | error e => simp [Except.map]
  | ok a => simp [Except.map]

/-- A first entry is stored, and the others are read over what it was stored in. -/
lemma fieldsFrom_cons_iff (h : Lawful slots) :
    fieldsFrom (slots.map Slot.field) d path seen s ((key, value) :: entries) = .ok t ↔
      ∃ l ∈ slots, d.text? key = some l.name ∧ l.name ∉ seen ∧ ∃ a, l.Holds d value a ∧
        fieldsFrom (slots.map Slot.field) d path (l.name :: seen) (l.set s a) entries = .ok t := by
  rw [fieldsFrom, bind_eq_ok_iff]
  constructor
  · rintro ⟨name, hname, hrest⟩
    rw [(gives_text _).eq_ok_iff] at hname
    by_cases hknown : name ∈ slots.map Slot.name
    · obtain ⟨l, hl, rfl⟩ := List.mem_map.mp hknown
      rw [find?_slot h hl] at hrest
      dsimp only at hrest
      split_ifs at hrest with hseen
      · cases hrest
      · obtain ⟨s', hfield, hlater⟩ := bind_eq_ok_iff.mp hrest
        obtain ⟨a, hread, rfl⟩ := (read_field l).mp hfield
        exact ⟨l, hl, hname, hseen, a, (h.read_iff l hl _ _ _ _).mp hread, hlater⟩
    · rw [find?_slot_none hknown] at hrest
      cases hrest
  · rintro ⟨l, hl, hname, hseen, a, hholds, hlater⟩
    refine ⟨l.name, (gives_text _).eq_ok_iff.mpr hname, ?_⟩
    have hread : l.field.read s d (stepTo key :: path) value = .ok (l.set s a) :=
      (read_field l).mpr ⟨a, (h.read_iff l hl _ _ _ _).mpr hholds, rfl⟩
    rw [find?_slot h hl]
    dsimp only
    rw [if_neg hseen, hread]
    exact hlater

lemma slot_eq (h : Lawful slots) {l m : Slot σ} (hl : l ∈ slots) (hm : m ∈ slots)
    (hname : l.name = m.name) : l = m :=
  List.inj_on_of_nodup_map h.nodup hl hm hname

/-- A field without entry is what it was stored as. -/
lemma given_new (h : Lawful slots) {l : Slot σ} (hl : l ∈ slots) (a : l.α)
    (hnew : some l.name ∉ d.keys entries) :
    l.Given d (d.entry? entries l.name) (l.set s a) t ↔ l.get t = a := by
  rw [Document.entry?_eq_none hnew, Slot.Given, h.get_set l hl]

/-- An entry changes nothing of the other fields. -/
lemma given_other (h : Lawful slots) {l m : Slot σ} (hl : l ∈ slots) (hm : m ∈ slots) (a : l.α)
    (hname : d.text? key = some l.name) (hother : l.name ≠ m.name) :
    m.Given d (d.entry? ((key, value) :: entries) m.name) s t ↔
      m.Given d (d.entry? entries m.name) (l.set s a) t := by
  have hskip : d.text? key ≠ some m.name := by
    rw [hname]
    exact fun heq => hother (Option.some.inj heq)
  unfold Slot.Given
  rw [Document.entry?_cons_of_ne hskip, h.get_set_of_ne l hl m hm hother]

/-- Whatever the order of the entries, the fields that are given are stored, and the others stay as
they are. -/
theorem fieldsFrom_eq_ok_iff (h : Lawful slots) :
    fieldsFrom (slots.map Slot.field) d path seen s entries = .ok t ↔
      (d.keys entries).Nodup ∧
        (∀ key ∈ d.keys entries, ∃ name ∈ slots.map Slot.name, name ∉ seen ∧ key = some name) ∧
        ∀ l ∈ slots, l.Given d (d.entry? entries l.name) s t := by
  -- Names that were met are in `seen`, and their values in `s`; so an entry that was stored is met
  -- again as the record over which the rest is read.
  induction entries generalizing seen s with
  | nil =>
    have hnone (l : Slot σ) : d.entry? [] l.name = none := rfl
    simp only [fieldsFrom, Document.keys, List.map_nil, List.nodup_nil, List.not_mem_nil, hnone,
      Slot.Given, true_and, Except.ok.injEq, false_imp_iff, implies_true]
    constructor
    · rintro rfl l -
      rfl
    · intro hget
      exact h.ext s t fun l hl => (hget l hl).symm
  | cons e entries ih =>
    obtain ⟨key, value⟩ := e
    rw [fieldsFrom_cons_iff h]
    constructor
    · rintro ⟨l, hl, hname, hseen, a, hholds, hlater⟩
      obtain ⟨hnodup, hknown, hgiven⟩ := ih.mp hlater
      have hnew : some l.name ∉ d.keys entries := by
        intro hmem
        obtain ⟨name, -, hunseen, heq⟩ := hknown _ hmem
        cases heq
        exact hunseen List.mem_cons_self
      refine ⟨?_, ?_, ?_⟩
      · rw [Document.keys, List.map_cons, List.nodup_cons]
        exact ⟨by rwa [hname], hnodup⟩
      · intro k hk
        obtain rfl | hk := List.mem_cons.mp hk
        · exact ⟨l.name, List.mem_map_of_mem hl, hseen, hname⟩
        · obtain ⟨name, hmem, hunseen, heq⟩ := hknown k hk
          exact ⟨name, hmem, fun hold => hunseen (List.mem_cons_of_mem _ hold), heq⟩
      · intro m hm
        by_cases hsame : l.name = m.name
        · obtain rfl := slot_eq h hl hm hsame
          have hstored := (given_new h hl a hnew).mp (hgiven l hl)
          rw [Document.entry?_cons_self hname, Slot.Given, hstored]
          exact hholds
        · exact (given_other h hl hm a hname hsame).mpr (hgiven m hm)
    · rintro ⟨hnodup, hknown, hgiven⟩
      rw [Document.keys, List.map_cons, List.nodup_cons] at hnodup
      obtain ⟨hnew, hnodup⟩ := hnodup
      obtain ⟨name, hmem, hseen, hname⟩ := hknown _ List.mem_cons_self
      obtain ⟨l, hl, rfl⟩ := List.mem_map.mp hmem
      dsimp only at hnew hname
      rw [hname] at hnew
      have hholds := hgiven l hl
      rw [Document.entry?_cons_self hname] at hholds
      refine ⟨l, hl, hname, hseen, l.get t, hholds, ih.mpr ⟨hnodup, ?_, ?_⟩⟩
      · intro k hk
        obtain ⟨other, hother, hunseen, rfl⟩ := hknown k (List.mem_cons_of_mem _ hk)
        refine ⟨other, hother, ?_, rfl⟩
        rw [List.mem_cons, not_or]
        exact ⟨fun heq => hnew (heq ▸ hk), hunseen⟩
      · intro m hm
        by_cases hsame : l.name = m.name
        · obtain rfl := slot_eq h hl hm hsame
          exact (given_new h hl _ hnew).mpr rfl
        · exact (given_other h hl hm _ hname hsame).mp (hgiven m hm)

lemma isRecord_iff (h : Lawful slots) (path : Path) (hfound : d.entries? n = some entries) :
    fieldsFrom (slots.map Slot.field) d path [] s entries = .ok t ↔
      d.IsRecord (slots.map Slot.name) n ∧ ∀ l ∈ slots, l.Given d (d.member? n l.name) s t := by
  rw [fieldsFrom_eq_ok_iff h]
  simp only [Document.IsRecord, Document.member?, hfound, Option.bind_eq_bind, Option.bind_some,
    Option.some.injEq, exists_eq_left', List.not_mem_nil, not_false_eq_true, true_and, and_assoc]

lemma not_isRecord_of_none {names : List String} (h : d.entries? n = none) :
    ¬ d.IsRecord names n := by
  rintro ⟨found, hfound, -⟩
  rw [h] at hfound
  cases hfound

lemma refuse_ne_ok (path : Path) (wanted : String) (n : Node) : n.refuse path wanted ≠ .ok s := by
  cases n <;> exact nofun

/-- A record is read over `s`: exactly its own fields are accepted, each once and in any order. -/
theorem mapping_eq_ok_iff (h : Lawful slots) (wanted : String) :
    mapping wanted (slots.map Slot.field) s d path n = .ok t ↔
      d.IsRecord (slots.map Slot.name) n ∧ ∀ l ∈ slots, l.Given d (d.member? n l.name) s t := by
  -- A node that has no entries is no record, so it is enough that reading it fails.
  have hrefused (hfound : d.entries? n = none) {x : Except Failure σ} (hx : x ≠ .ok t) :
      x = .ok t ↔ d.IsRecord (slots.map Slot.name) n ∧
        ∀ l ∈ slots, l.Given d (d.member? n l.name) s t :=
    iff_of_false hx fun hrecord => not_isRecord_of_none hfound hrecord.1
  unfold mapping
  cases hresolve : d.resolve n with
  | mapping tag entries closed =>
    cases closed with
    | true =>
      have hfound : d.entries? n = some entries := by
        unfold Document.entries?
        rw [hresolve]
      simp only [if_true, bind_pure]
      exact isRecord_iff h path hfound
    | false =>
      refine hrefused (by unfold Document.entries?; rw [hresolve]) ?_
      intro hok
      obtain ⟨_, -, hlast⟩ := bind_eq_ok_iff.mp hok
      cases hlast
  | void =>
    have hfound : d.entries? n = some [] := by
      unfold Document.entries?
      rw [hresolve]
    exact isRecord_iff h path hfound
  | scalar v =>
    have hentries : d.entries? n = if v.isVoid then some [] else none := by
      unfold Document.entries?
      rw [hresolve]
    dsimp only
    cases hvoid : v.isVoid with
    | true =>
      rw [hvoid] at hentries
      exact isRecord_iff h path hentries
    | false =>
      rw [hvoid] at hentries
      exact hrefused hentries nofun
  | _ =>
    refine hrefused (by unfold Document.entries?; rw [hresolve]) ?_
    exact refuse_ne_ok _ _ _

/-! ### Fields by themselves -/

variable {α τ : Type} {name : String}

/-- A field with a value of its own. -/
def Slot.leaf (name : String) (read : Decoder α) (value? : Document → Node → Option α)
    (get : σ → α) (set : σ → α → σ) : Slot σ :=
  ⟨name, read, fun d n a => value? d n = some a, get, set⟩

/-- A field that is a record of its own. -/
def Slot.record (name wanted : String) (slots : List (Slot τ)) (default : τ) (get : σ → τ)
    (set : σ → τ → σ) : Slot σ where
  name := name
  read := mapping wanted (slots.map Slot.field) default
  Holds d n t := d.IsRecord (slots.map Slot.name) n ∧
    ∀ l ∈ slots, l.Given d (d.member? n l.name) default t
  get := get
  set := set

variable {names : List String}

lemma given_leaf {read : Decoder α} {value? : Document → Node → Option α} {get : σ → α}
    {set : σ → α → σ} : (Slot.leaf name read value? get set).Given d (d.find? names) s t ↔
      d.leaf? names (value? d) (get s) = some (get t) := by
  unfold Document.leaf?
  cases d.find? names with
  | none =>
    rw [Option.some.injEq]
    exact eq_comm
  | some n => exact Iff.rfl

/-- Left out as a whole, a record is left out in each of its fields. -/
lemma given_record {inner : List (Slot τ)} (h : Lawful inner) {wanted : String} {default : τ}
    {get : σ → τ} {set : σ → τ → σ} (hdefault : get s = default) :
    (Slot.record name wanted inner default get set).Given d (d.find? names) s t ↔
      (∀ n, d.find? names = some n → d.IsRecord (inner.map Slot.name) n) ∧
        ∀ l ∈ inner, l.Given d (d.find? (names ++ [l.name])) default (get t) := by
  simp only [Document.find?_append]
  cases d.find? names with
  | none =>
    constructor
    · intro hget
      exact ⟨nofun, fun l _ => congrArg l.get (hget.trans hdefault)⟩
    · rintro ⟨-, hget⟩
      exact h.ext _ _ fun l hl => (hget l hl).trans (congrArg l.get hdefault.symm)
  | some n =>
    simp only [Option.some.injEq, forall_eq', Option.bind_some]
    exact Iff.rfl

end Decoder
end FaultBench.Yaml
