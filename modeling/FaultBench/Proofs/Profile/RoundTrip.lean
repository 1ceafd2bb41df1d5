import FaultBench.Profile.Document
import FaultBench.Profile.Written
import FaultBench.Proofs.Profile.Validation
import FaultBench.Proofs.Yaml.Values

/-! A valid profile is read back from its written form: the text is one document with the nodes of
the profile's layout, and each part of the profile is read from its own node. -/
namespace FaultBench
open Yaml

/-- The value of a field of a mapping. -/
def Yaml.Node.member? (name : String) : Node → Option Node
  | .mapping _ entries _ => entries.findSome? fun
    | (.scalar key, value) => if key.text = name then some value else none
    | _ => none
  | _ => none

namespace Profile

/-! ### The layout of a profile -/

lemma isLetter_of_isDigit {c : Char} (h : c.isDigit = true) : isLetter c = true := by
  have hdigit : c.isAlphanum = true := (Bool.or_eq_true _ _).mpr (.inr h)
  rw [isLetter, hdigit, Bool.true_or]

lemma bare_ofNat (n : ℕ) : (Scalar.ofNat n).Bare := by
  have hword : IsWord (Nat.toDigits 10 n) :=
    ⟨Nat.toDigits_ne_nil, fun c hc => isLetter_of_isDigit (Text.isDigit_toDigits n c hc)⟩
  rw [← Text.toList_decimal] at hword
  exact ⟨rfl, hword⟩

lemma simple_numberLayout (n : ℕ) : (numberLayout n).Simple := .inl (bare_ofNat n)

lemma simple_contentsLayout (init : BufferInit) : (contentsLayout init).Simple := by
  cases init with
  | fill b => exact ⟨by simp, by decide, simple_numberLayout _, trivial⟩
  | sequence bytes =>
    have hitems : (Layout.items (bytes.map fun b => .ofNat b.toNat)).Simple := by
      intro s hs
      obtain ⟨b, -, rfl⟩ := List.mem_map.mp hs
      exact bare_ofNat b.toNat
    exact ⟨by simp, by decide, hitems, trivial⟩

lemma simple_layout {p : Profile} (h : p.schemaVersion = "1.0") : Layout.SimpleFields p.layout := by
  have hschema : (Layout.scalar (.ofText p.schemaVersion)).Simple := by
    rw [h]
    have hquotable : ("1.0".toList.all isQuotable) = true := by decide
    exact .inr ⟨by decide, List.all_eq_true.mp hquotable⟩
  have hnumber := simple_numberLayout
  have hcontents := simple_contentsLayout
  exact ⟨by decide, hschema,
    by decide, ⟨by simp, by decide, hnumber _, by decide, hnumber _, trivial⟩,
    by decide, ⟨by simp, by decide, hnumber _, by decide, hcontents _, by decide, hcontents _,
      trivial⟩,
    by decide, ⟨by simp, by decide, hnumber _, trivial⟩,
    by decide, ⟨by simp, by decide, hnumber _, trivial⟩, trivial⟩

/-! ### Its values -/

open Decoder

lemma reads_byte (b : UInt8) : Reads byteDecoder (numberLayout b.toNat) b := by
  have hread := (reads_number "u8" b.toNat_lt (by decide)).map UInt8.ofNat
  rwa [UInt8.ofNat_toNat] at hread

lemma reads_word (n : UInt32) : Reads wordDecoder (numberLayout n.toNat) n := by
  have hread := (reads_number "u32" n.toNat_lt (by decide)).map UInt32.ofNat
  rwa [UInt32.ofNat_toNat] at hread

lemma reads_size (n : UInt64) : Reads sizeDecoder (numberLayout n.toNat) n := by
  have hread := (reads_number "usize" n.toNat_lt (Nat.le_refl _)).map UInt64.ofNat
  rwa [UInt64.ofNat_toNat] at hread

lemma reads_contents (init : BufferInit) : Reads contentsDecoder (contentsLayout init) init := by
  cases init with
  | fill b => exact reads_variant _ ((reads_byte b).map BufferInit.fill) rfl
  | sequence bytes =>
    exact reads_variant _ ((reads_sequence reads_byte bytes).map BufferInit.sequence) rfl

lemma reads_countedLoop (l : CountedLoop) : Reads CountedLoop.decoder (.fields
    [("outer", numberLayout l.outer.toNat), ("inner", numberLayout l.inner.toNat)]) l :=
  reads_mapping _ (by decide)
    (.cons ((reads_word l.outer).map _) (.cons ((reads_word l.inner).map _) (.nil _)))

lemma reads_bufferCopy (c : CopyBuffers) : Reads CopyBuffers.decoder (.fields
    [("size", numberLayout c.size.toNat), ("source", contentsLayout c.source),
      ("destination", contentsLayout c.destination)]) c :=
  reads_mapping _ (by decide)
    (.cons ((reads_size c.size).map _) (.cons ((reads_contents c.source).map _)
      (.cons ((reads_contents c.destination).map _) (.nil _))))

lemma reads_unrolled (u : Unrolled) : Reads Unrolled.decoder (.fields
    [("executions", numberLayout u.executions.toNat)]) u :=
  reads_mapping _ (by decide) (.cons ((reads_word u.executions).map _) (.nil _))

lemma reads_serial (l : Serial) : Reads Serial.decoder (.fields
    [("baud", numberLayout l.baud.toNat)]) l :=
  reads_mapping _ (by decide) (.cons ((reads_word l.baud).map _) (.nil _))

theorem reads_layout (p : Profile) : Reads decoder (.fields p.layout) p :=
  reads_mapping _ (by decide)
    (.cons ((reads_text "a string" (.ofText p.schemaVersion)).map _)
      (.cons ((reads_countedLoop p.countedLoop).map _)
        (.cons ((reads_bufferCopy p.bufferCopy).map _)
          (.cons ((reads_unrolled p.unrolled).map _)
            (.cons ((reads_serial p.serial).map _) (.nil _))))))

/-! ### The round trip -/

/-- A mapping with one key, the name of the variant. -/
def contentsNode : BufferInit → Node
  | .fill b => .mapping none [(.scalar { text := "fill" }, .scalar { text := b.toNat.repr })] true
  | .sequence bytes =>
    .mapping none [(.scalar { text := "sequence" },
      .sequence none (bytes.map fun b => .scalar { text := b.toNat.repr }) true)] true

/-- What the document of a profile shows before any type is asked for. -/
structure Shows (p : Profile) (root : Node) : Prop where
  /-- The schema version is a text, not a number. -/
  schema : ∃ s, root.member? "schema_version" = some (.scalar s) ∧ s.meaning = .ok (.text "1.0")
  source : (root.member? "buffer_copy").bind (Node.member? "source") =
    some (contentsNode p.bufferCopy.source)
  destination : (root.member? "buffer_copy").bind (Node.member? "destination") =
    some (contentsNode p.bufferCopy.destination)

lemma node_contentsLayout (init : BufferInit) : (contentsLayout init).node = contentsNode init := by
  cases init with
  | fill b => rfl
  | sequence bytes =>
    have hitem (b : UInt8) : (Scalar.ofNat b.toNat).node = .scalar { text := b.toNat.repr } := rfl
    simp [contentsLayout, contentsNode, Layout.node, Layout.entries, hitem]

lemma shows_layout {p : Profile} (h : p.schemaVersion = "1.0") :
    p.Shows (Layout.fields p.layout).node where
  schema := ⟨.ofText p.schemaVersion, rfl, by rw [Scalar.meaning_ofText, h]⟩
  source := congrArg some (node_contentsLayout _)
  destination := congrArg some (node_contentsLayout _)

/-- A valid profile is read back from its written form, and the text shows its parts. -/
theorem ofYaml_toYaml {p : Profile} (h : p.validate = .ok ()) :
    ofYaml p.toYaml = .ok p ∧ p.Shows (Document.ofText p.toYaml).root := by
  have hschema := schema_of_validate h
  have hdocument : Document.ofText p.toYaml = { root := (Layout.fields p.layout).node } :=
    Document.ofText_render (simple_layout hschema) (by simp [layout])
  have hread : ofDocument (Document.ofText p.toYaml) = .ok p := by
    rw [hdocument, ofDocument, reads_layout]
    rfl
  refine ⟨?_, ?_⟩
  · rw [ofYaml, hread]
    simp only [Except.mapError, h, bind, Except.bind]
    rfl
  · rw [hdocument]
    exact shows_layout hschema

/-- A profile with a destination that is given without bytes. -/
def unfilled : Profile :=
  { bufferCopy := { size := 4, source := .sequence [0xDE, 0xAD], destination := .sequence [] } }

theorem ofYaml_toYaml_unfilled : unfilled.validate = .ok () ∧
    ofYaml unfilled.toYaml = .ok unfilled ∧
      unfilled.Shows (Document.ofText unfilled.toYaml).root := by
  have h : unfilled.validate = .ok () := by decide
  exact ⟨h, ofYaml_toYaml h⟩

example : unfilled.toYaml = "schema_version: '1.0'\ncounted_loop:\n  outer: 500\n  inner: 500\n" ++
    "buffer_copy:\n  size: 4\n  source:\n    sequence:\n    - 222\n    - 173\n  destination:\n" ++
    "    sequence: []\nunrolled:\n  executions: 100\nserial:\n  baud: 38400\n" := by
  decide +kernel

end Profile
end FaultBench
