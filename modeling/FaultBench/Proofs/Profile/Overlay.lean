import FaultBench.Profile.Document
import FaultBench.Proofs.Yaml.Records

/-! A profile is what its document gives over the defaults, at each of its leaves, and nothing else
is accepted. -/
namespace FaultBench

namespace Yaml.Document

def byte? (d : Document) (n : Node) : Option UInt8 := (d.number? UInt8.size n).map UInt8.ofNat

def word? (d : Document) (n : Node) : Option UInt32 := (d.number? UInt32.size n).map UInt32.ofNat

def size? (d : Document) (n : Node) : Option UInt64 := (d.number? UInt64.size n).map UInt64.ofNat

/-- The contents of a buffer, by the only key of a mapping. -/
def contents? (d : Document) : Node → Option BufferInit :=
  d.variant? [("fill", fun d n => (d.byte? n).map .fill),
    ("sequence", fun d n => (d.items? d.byte? n).map .sequence)]

end Yaml.Document

namespace Profile
open Yaml Decoder

/-- The sections with their leaves. -/
def sections : List (String × List String) :=
  [("counted_loop", ["outer", "inner"]), ("buffer_copy", ["size", "source", "destination"]),
    ("unrolled", ["executions"]), ("serial", ["baud"])]

def rootNames : List String := "schema_version" :: sections.map Prod.fst

/-- A document that is a mapping of the root's names, and the sections that are given mappings of
theirs. -/
structure InForm (d : Document) : Prop where
  sound : d.sound = true
  root : d.IsRecord rootNames d.root
  sections : ∀ s ∈ sections, ∀ n, d.find? [s.1] = some n → d.IsRecord s.2 n

/-- The default profile with each leaf that is given replaced by its value. -/
structure Overlay (d : Document) (p : Profile) : Prop where
  schemaVersion : d.leaf? ["schema_version"] d.text? "1.0" = some p.schemaVersion
  outer : d.leaf? ["counted_loop", "outer"] d.word? 500 = some p.countedLoop.outer
  inner : d.leaf? ["counted_loop", "inner"] d.word? 500 = some p.countedLoop.inner
  size : d.leaf? ["buffer_copy", "size"] d.size? 68 = some p.bufferCopy.size
  source : d.leaf? ["buffer_copy", "source"] d.contents? (.fill 0xAA) = some p.bufferCopy.source
  destination : d.leaf? ["buffer_copy", "destination"] d.contents? (.fill 0xBB) =
    some p.bufferCopy.destination
  executions : d.leaf? ["unrolled", "executions"] d.word? 100 = some p.unrolled.executions
  baud : d.leaf? ["serial", "baud"] d.word? 38400 = some p.serial.baud

/-- The leaves with what their nodes have to be. -/
def leaves (d : Document) : List (List String × (Node → Bool)) :=
  let count (n : Node) : Bool := (d.word? n).isSome
  let contents (n : Node) : Bool := (d.contents? n).isSome
  [(["schema_version"], fun n => (d.text? n).isSome), (["counted_loop", "outer"], count),
    (["counted_loop", "inner"], count), (["buffer_copy", "size"], fun n => (d.size? n).isSome),
    (["buffer_copy", "source"], contents), (["buffer_copy", "destination"], contents),
    (["unrolled", "executions"], count), (["serial", "baud"], count)]

/-- Every leaf that is given has a value of its type. -/
def WellTyped (d : Document) : Prop :=
  ∀ leaf ∈ leaves d, ∀ n, d.find? leaf.1 = some n → leaf.2 n = true

/-! ### Leaves -/

lemma gives_byte : Gives byteDecoder Document.byte? :=
  (gives_number "u8" (by decide)).map UInt8.ofNat

lemma gives_word : Gives wordDecoder Document.word? :=
  (gives_number "u32" (by decide)).map UInt32.ofNat

lemma gives_size : Gives sizeDecoder Document.size? :=
  (gives_number "usize" (Nat.le_refl _)).map UInt64.ofNat

lemma gives_contents : Gives contentsDecoder Document.contents? :=
  gives_variant _ (.cons ⟨rfl, gives_byte.map _⟩
    (.cons ⟨rfl, (gives_sequence gives_byte).map _⟩ .nil))

/-! ### Records -/

def CountedLoop.slots : List (Slot CountedLoop) :=
  [.leaf "outer" wordDecoder Document.word? CountedLoop.outer fun l outer => { l with outer },
    .leaf "inner" wordDecoder Document.word? CountedLoop.inner fun l inner => { l with inner }]

def CopyBuffers.slots : List (Slot CopyBuffers) :=
  [.leaf "size" sizeDecoder Document.size? CopyBuffers.size fun c size => { c with size },
    .leaf "source" contentsDecoder Document.contents? CopyBuffers.source
      fun c source => { c with source },
    .leaf "destination" contentsDecoder Document.contents? CopyBuffers.destination
      fun c destination => { c with destination }]

def Unrolled.slots : List (Slot Unrolled) :=
  [.leaf "executions" wordDecoder Document.word? Unrolled.executions
    fun _ executions => { executions }]

def Serial.slots : List (Slot Serial) :=
  [.leaf "baud" wordDecoder Document.word? Serial.baud fun _ baud => { baud }]

def slots : List (Slot Profile) :=
  [.leaf "schema_version" (.text "a string") Document.text? Profile.schemaVersion
      fun p schemaVersion => { p with schemaVersion },
    .record "counted_loop" "struct CountedLoopConfig" CountedLoop.slots {} Profile.countedLoop
      fun p countedLoop => { p with countedLoop },
    .record "buffer_copy" "struct BufferCopyConfig" CopyBuffers.slots {} Profile.bufferCopy
      fun p bufferCopy => { p with bufferCopy },
    .record "unrolled" "struct UnrolledConfig" Unrolled.slots {} Profile.unrolled
      fun p unrolled => { p with unrolled },
    .record "serial" "struct SerialConfig" Serial.slots {} Profile.serial
      fun p serial => { p with serial }]

lemma decoder_eq : decoder = mapping "struct ProfileConfig" (slots.map Slot.field) {} := rfl

theorem CountedLoop.lawful : Lawful CountedLoop.slots where
  nodup := by decide
  read_iff := by
    simp only [slots, List.forall_mem_cons]
    exact ⟨fun _ _ _ _ => gives_word.eq_ok_iff, fun _ _ _ _ => gives_word.eq_ok_iff, nofun⟩
  get_set := by simp [slots, Slot.leaf]
  get_set_of_ne := by simp [slots, Slot.leaf]
  ext s t h := by
    simp only [slots, List.forall_mem_cons] at h
    obtain ⟨houter, hinner, -⟩ := h
    exact (CountedLoop.mk.injEq ..).mpr ⟨houter, hinner⟩

theorem CopyBuffers.lawful : Lawful CopyBuffers.slots where
  nodup := by decide
  read_iff := by
    simp only [slots, List.forall_mem_cons]
    exact ⟨fun _ _ _ _ => gives_size.eq_ok_iff, fun _ _ _ _ => gives_contents.eq_ok_iff,
      fun _ _ _ _ => gives_contents.eq_ok_iff, nofun⟩
  get_set := by simp [slots, Slot.leaf]
  get_set_of_ne := by simp [slots, Slot.leaf]
  ext s t h := by
    simp only [slots, List.forall_mem_cons] at h
    obtain ⟨hsize, hsource, hdestination, -⟩ := h
    exact (CopyBuffers.mk.injEq ..).mpr ⟨hsize, hsource, hdestination⟩

theorem Unrolled.lawful : Lawful Unrolled.slots where
  nodup := by decide
  read_iff := by
    simp only [slots, List.forall_mem_cons]
    exact ⟨fun _ _ _ _ => gives_word.eq_ok_iff, nofun⟩
  get_set := by simp [slots, Slot.leaf]
  get_set_of_ne := by simp [slots, Slot.leaf]
  ext s t h := by
    simp only [slots, List.forall_mem_cons] at h
    exact congrArg Unrolled.mk h.1

theorem Serial.lawful : Lawful Serial.slots where
  nodup := by decide
  read_iff := by
    simp only [slots, List.forall_mem_cons]
    exact ⟨fun _ _ _ _ => gives_word.eq_ok_iff, nofun⟩
  get_set := by simp [slots, Slot.leaf]
  get_set_of_ne := by simp [slots, Slot.leaf]
  ext s t h := by
    simp only [slots, List.forall_mem_cons] at h
    exact congrArg Serial.mk h.1

theorem lawful : Lawful slots where
  nodup := by decide
  read_iff := by
    simp only [slots, List.forall_mem_cons]
    exact ⟨fun _ _ _ _ => (gives_text _).eq_ok_iff,
      fun _ _ _ _ => mapping_eq_ok_iff CountedLoop.lawful _,
      fun _ _ _ _ => mapping_eq_ok_iff CopyBuffers.lawful _,
      fun _ _ _ _ => mapping_eq_ok_iff Unrolled.lawful _,
      fun _ _ _ _ => mapping_eq_ok_iff Serial.lawful _, nofun⟩
  get_set := by simp [slots, Slot.leaf, Slot.record]
  get_set_of_ne := by simp [slots, Slot.leaf, Slot.record]
  ext s t h := by
    simp only [slots, List.forall_mem_cons] at h
    obtain ⟨hschema, hloop, hcopy, hunrolled, hserial, -⟩ := h
    exact (Profile.mk.injEq ..).mpr ⟨hschema, hloop, hcopy, hunrolled, hserial⟩

/-! ### The default profile, overlaid -/

variable {d : Document} {p : Profile}

/-- Each section is a record of its leaves, and the root is a record of the sections. -/
lemma given_iff : (∀ l ∈ slots, l.Given d (d.find? [l.name]) {} p) ↔
    (∀ s ∈ sections, ∀ n, d.find? [s.1] = some n → d.IsRecord s.2 n) ∧ Overlay d p := by
  simp only [slots, sections, List.forall_mem_cons]
  rw [given_record CountedLoop.lawful, given_record CopyBuffers.lawful,
    given_record Unrolled.lawful, given_record Serial.lawful]
  · simp only [CountedLoop.slots, CopyBuffers.slots, Unrolled.slots, Serial.slots,
      List.forall_mem_cons, given_leaf]
    constructor
    · rintro ⟨hschema, ⟨hloop, houter, hinner, -⟩, ⟨hcopy, hsize, hsource, hdestination, -⟩,
        ⟨hunrolled, hexecutions, -⟩, ⟨hserial, hbaud, -⟩, -⟩
      exact ⟨⟨hloop, hcopy, hunrolled, hserial, nofun⟩,
        ⟨hschema, houter, hinner, hsize, hsource, hdestination, hexecutions, hbaud⟩⟩
    · rintro ⟨⟨hloop, hcopy, hunrolled, hserial, -⟩,
        ⟨hschema, houter, hinner, hsize, hsource, hdestination, hexecutions, hbaud⟩⟩
      exact ⟨hschema, ⟨hloop, houter, hinner, nofun⟩,
        ⟨hcopy, hsize, hsource, hdestination, nofun⟩, ⟨hunrolled, hexecutions, nofun⟩,
        ⟨hserial, hbaud, nofun⟩, nofun⟩
  all_goals rfl

/-- Exactly the documents in form with an overlay are read, each as its overlay. -/
theorem ofDocument_eq_ok_iff : ofDocument d = .ok p ↔ InForm d ∧ Overlay d p := by
  have hroot (q : Profile) : decoder d [] d.root = .ok q ↔ d.IsRecord rootNames d.root ∧
      (∀ s ∈ sections, ∀ n, d.find? [s.1] = some n → d.IsRecord s.2 n) ∧ Overlay d q := by
    have hfind (name : String) : d.member? d.root name = d.find? [name] :=
      (d.find?_append [] name).symm
    rw [decoder_eq, mapping_eq_ok_iff lawful, ← given_iff]
    simp only [hfind]
    exact Iff.rfl
  unfold ofDocument
  rw [bind_eq_ok_iff]
  constructor
  · rintro ⟨q, hread, hsound⟩
    split_ifs at hsound with h
    cases hsound
    obtain ⟨hform, hsections, hoverlay⟩ := (hroot p).mp hread
    exact ⟨⟨h, hform, hsections⟩, hoverlay⟩
  · rintro ⟨⟨hsound, hform, hsections⟩, hoverlay⟩
    refine ⟨p, (hroot p).mpr ⟨hform, hsections, hoverlay⟩, ?_⟩
    rw [hsound]
    rfl

lemma exists_leaf {α : Type} {names : List String} {value? : Node → Option α} (default : α)
    (h : ∀ n, d.find? names = some n → (value? n).isSome = true) :
    ∃ a, d.leaf? names value? default = some a := by
  unfold Document.leaf?
  cases hfind : d.find? names with
  | none => exact ⟨default, rfl⟩
  | some n => exact Option.isSome_iff_exists.mp (h n hfind)

/-- Whatever is given, there is an overlay if all of it is of its type. -/
theorem exists_overlay (h : WellTyped d) : ∃ p, Overlay d p := by
  unfold WellTyped leaves at h
  simp only [List.forall_mem_cons] at h
  obtain ⟨hschema, houter, hinner, hsize, hsource, hdestination, hexecutions, hbaud, -⟩ := h
  obtain ⟨schemaVersion, hschema⟩ := exists_leaf "1.0" hschema
  obtain ⟨outer, houter⟩ := exists_leaf 500 houter
  obtain ⟨inner, hinner⟩ := exists_leaf 500 hinner
  obtain ⟨size, hsize⟩ := exists_leaf 68 hsize
  obtain ⟨source, hsource⟩ := exists_leaf (.fill 0xAA) hsource
  obtain ⟨destination, hdestination⟩ := exists_leaf (.fill 0xBB) hdestination
  obtain ⟨executions, hexecutions⟩ := exists_leaf 100 hexecutions
  obtain ⟨baud, hbaud⟩ := exists_leaf 38400 hbaud
  exact ⟨⟨schemaVersion, ⟨outer, inner⟩, ⟨size, source, destination⟩, ⟨executions⟩, ⟨baud⟩⟩,
    hschema, houter, hinner, hsize, hsource, hdestination, hexecutions, hbaud⟩

lemma exists_error (h : ∀ p, ofDocument d ≠ .ok p) : ∃ f, ofDocument d = .error f := by
  cases hd : ofDocument d with
  | error f => exact ⟨f, rfl⟩
  | ok p => exact absurd hd (h p)

/-! ### What is not accepted -/

variable {name : String} {n : Node} {tag : Option Tag} {entries : List (Node × Node)}
  {closed : Bool}

lemma InForm.find? (h : InForm d) (hn : d.Under d.root name n) : d.find? [name] = some n :=
  (d.find?_append [] name).trans (h.root.member? hn)

lemma error_of_improper_root (hroot : d.resolve d.root = .mapping tag entries closed)
    (h : d.Improper rootNames entries) : ∃ f, ofDocument d = .error f := by
  apply exists_error
  intro p hp
  exact Document.not_isRecord hroot h (ofDocument_eq_ok_iff.mp hp).1.root

lemma error_of_improper_section {s : String × List String} (hs : s ∈ sections)
    (hn : d.Under d.root s.1 n) (hsection : d.resolve n = .mapping tag entries closed)
    (h : d.Improper s.2 entries) : ∃ f, ofDocument d = .error f := by
  apply exists_error
  intro p hp
  -- Were the section given twice, the root would be improper; so it is the section that is read.
  have hform := (ofDocument_eq_ok_iff.mp hp).1
  exact Document.not_isRecord hsection h (hform.sections s hs n (hform.find? hn))

lemma contents?_of_not_single (h : d.resolve n = .mapping tag entries closed)
    (hlength : entries.length ≠ 1) : d.contents? n = none := by
  have hsingle : d.single? n = none := by
    unfold Document.single?
    rw [h]
    split_ifs
    · rfl
    · match entries, hlength with
      | [], _ | _ :: _ :: _, _ => rfl
  unfold Document.contents? Document.variant?
  rw [hsingle]
  rfl

lemma error_of_not_single (hname : name ∈ ["source", "destination"]) {copy init : Node}
    (hsection : d.Under d.root "buffer_copy" copy) (hinit : d.Under copy name init)
    (hentries : d.resolve init = .mapping tag entries closed) (hlength : entries.length ≠ 1) :
    ∃ f, ofDocument d = .error f := by
  apply exists_error
  intro p hp
  obtain ⟨hform, hoverlay⟩ := ofDocument_eq_ok_iff.mp hp
  have hcopy := hform.find? hsection
  have hrecord := hform.sections ("buffer_copy", ["size", "source", "destination"]) (by decide)
    copy hcopy
  have hfind : d.find? ["buffer_copy", name] = some init := by
    refine (d.find?_append ["buffer_copy"] name).trans ?_
    rw [hcopy]
    exact hrecord.member? hinit
  have hnone := contents?_of_not_single hentries hlength
  have hleaf (default : BufferInit) : d.leaf? ["buffer_copy", name] d.contents? default = none := by
    unfold Document.leaf?
    rw [hfind]
    exact hnone
  simp only [List.mem_cons, List.not_mem_nil, or_false] at hname
  obtain rfl | rfl := hname
  · exact absurd (hoverlay.source.symm.trans (hleaf _)) nofun
  · exact absurd (hoverlay.destination.symm.trans (hleaf _)) nofun

/-- Any of the sections and of their leaves may be given, in any order, and the profile is the
default one over which they are laid. A key that is none of them or that comes twice is not
accepted wherever it is, nor are contents of a buffer without exactly one key. -/
theorem overlaid (d : Document) :
    (∀ p, ofDocument d = .ok p ↔ InForm d ∧ Overlay d p) ∧
      (InForm d → WellTyped d → ∃ p, ofDocument d = .ok p ∧ Overlay d p) ∧
      (∀ tag entries closed, d.resolve d.root = .mapping tag entries closed →
        d.Improper rootNames entries → ∃ f, ofDocument d = .error f) ∧
      (∀ s ∈ sections, ∀ n, d.Under d.root s.1 n → ∀ tag entries closed,
        d.resolve n = .mapping tag entries closed → d.Improper s.2 entries →
          ∃ f, ofDocument d = .error f) ∧
      ∀ name ∈ ["source", "destination"], ∀ copy init, d.Under d.root "buffer_copy" copy →
        d.Under copy name init → ∀ tag entries closed,
          d.resolve init = .mapping tag entries closed → entries.length ≠ 1 →
            ∃ f, ofDocument d = .error f := by
  refine ⟨fun p => ofDocument_eq_ok_iff, fun hform htyped => ?_,
    fun tag entries closed => error_of_improper_root,
    fun s hs n hn tag entries closed => error_of_improper_section hs hn,
    fun name hname copy init hcopy hinit tag entries closed =>
      error_of_not_single hname hcopy hinit⟩
  obtain ⟨p, hp⟩ := exists_overlay htyped
  exact ⟨p, ofDocument_eq_ok_iff.mpr ⟨hform, hp⟩, hp⟩

def entry (name : String) (value : Node) : Node × Node := (.scalar { text := name }, value)

def numeral (text : String) : Node := .scalar { text }

/-- Two sections, each given in part and the later one first. -/
def partDocument : Document where
  root := .mapping none
    [entry "serial" (.mapping none [entry "baud" (numeral "9600")] true),
      entry "counted_loop" (.mapping none [entry "inner" (numeral "16")] true)] true

lemma inForm_partDocument : InForm partDocument := by
  refine ⟨rfl, ⟨_, rfl, by decide, by decide⟩, ?_⟩
  simp only [sections, List.forall_mem_cons]
  refine ⟨?_, nofun, nofun, ?_, nofun⟩
  · rintro n ⟨⟩
    exact ⟨_, rfl, by decide, by decide⟩
  · rintro n ⟨⟩
    exact ⟨_, rfl, by decide, by decide⟩

lemma wellTyped_partDocument : WellTyped partDocument := by
  unfold WellTyped leaves
  simp only [List.forall_mem_cons]
  refine ⟨nofun, nofun, ?_, nofun, nofun, nofun, nofun, ?_, nofun⟩
  · rintro n ⟨⟩
    decide
  · rintro n ⟨⟩
    decide

/-- Each leaf has what is given for it, or its default. A second `serial`, an unknown key beside
`baud` and contents that are a byte and a sequence at once end the reading. -/
theorem overlaid_part :
    ofDocument (Document.ofText "serial:\n  baud: 9600\ncounted_loop:\n  inner: 16\n") =
        .ok { countedLoop := { inner := 16 }, serial := { baud := 9600 } } ∧
      (∃ f, ofDocument (Document.ofText "serial:\n  baud: 1\nserial:\n  baud: 2\n") = .error f) ∧
      (∃ f, ofDocument (Document.ofText "serial:\n  baud: 1\n  rate: 2\n") = .error f) ∧
      ∃ f, ofDocument (Document.ofText "buffer_copy:\n  source:\n    fill: 1\n    sequence: []\n") =
        .error f := by
  refine ⟨?_, ?_, ?_, ?_⟩
  · have htext : Document.ofText "serial:\n  baud: 9600\ncounted_loop:\n  inner: 16\n" =
      partDocument := rfl
    obtain ⟨-, hexists, -⟩ := overlaid partDocument
    obtain ⟨p, hp, hoverlay⟩ := hexists inForm_partDocument wellTyped_partDocument
    obtain ⟨_, ⟨_, _⟩, ⟨_, _, _⟩, ⟨_⟩, ⟨_⟩⟩ := p
    obtain ⟨⟨⟩, ⟨⟩, ⟨⟩, ⟨⟩, ⟨⟩, ⟨⟩, ⟨⟩, ⟨⟩⟩ := hoverlay
    rw [htext]
    exact hp
  · obtain ⟨-, -, hroot, -⟩ :=
      overlaid (Document.ofText "serial:\n  baud: 1\nserial:\n  baud: 2\n")
    exact hroot _ _ _ rfl (.repeated [] [] [] (Eq.refl (some "serial")) rfl)
  · obtain ⟨-, -, -, hsection, -⟩ :=
      overlaid (Document.ofText "serial:\n  baud: 1\n  rate: 2\n")
    refine hsection ("serial", ["baud"]) (by decide) _
      ⟨_, _, _, _, rfl, List.mem_cons_self, rfl⟩ _ _ _ rfl ?_
    exact .stray [entry "baud" (numeral "1")] [] (by decide)
  · obtain ⟨-, -, -, -, hcontents⟩ :=
      overlaid (Document.ofText "buffer_copy:\n  source:\n    fill: 1\n    sequence: []\n")
    exact hcontents "source" (by decide) _ _ ⟨_, _, _, _, rfl, List.mem_cons_self, rfl⟩
      ⟨_, _, _, _, rfl, List.mem_cons_self, rfl⟩ _ _ _ rfl (by decide)

end Profile
end FaultBench
