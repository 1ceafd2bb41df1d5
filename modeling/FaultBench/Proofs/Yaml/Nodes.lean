import FaultBench.Proofs.Yaml.Tokens

/-! The events and the nodes of a layout, and that both are found in its written form. -/
namespace FaultBench.Yaml

namespace Scalar

def event (s : Scalar) : Event := .scalar none none s.text s.style

/-- Tags are not written. -/
def node (s : Scalar) : Node := .scalar { s with tag := none }

end Scalar

namespace Layout

mutual
def events : Layout → List Event
  | .scalar s => [s.event]
  | .items row => .sequenceStart none none :: (row.map Scalar.event ++ [.sequenceEnd])
  | .fields block => .mappingStart none none :: (fieldEvents block ++ [.mappingEnd])

def fieldEvents : List (String × Layout) → List Event
  | [] => []
  | (name, layout) :: rest => .scalar none none name .plain :: (layout.events ++ fieldEvents rest)
end

mutual
def node : Layout → Node
  | .scalar s => s.node
  | .items row => .sequence none (row.map Scalar.node) true
  | .fields block => .mapping none (entries block) true

def entries : List (String × Layout) → List (Node × Node)
  | [] => []
  | (name, layout) :: rest => (.scalar { text := name }, layout.node) :: entries rest
end

end Layout

namespace Reader

/-- Reading on gives some events and comes to another reader. -/
def Yields (r : Reader) (es : List Event) (r' : Reader) : Prop :=
  ∀ n, r.run (es.length + n) = es ++ r'.run n

namespace Yields

variable {r r' r'' : Reader} {es es' : List Event}

lemma refl (r : Reader) : Yields r [] r := fun n => by rw [List.length_nil, Nat.zero_add]; rfl

lemma trans (h : Yields r es r') (h' : Yields r' es' r'') : Yields r (es ++ es') r'' := by
  intro n
  rw [List.length_append, Nat.add_assoc, h, h', List.append_assoc]

lemma step {e : Event} (hnext : r.next = some (e, r')) (h : Yields r' es r'') :
    Yields r (e :: es) r'' := by
  intro n
  rw [List.length_cons, Nat.add_right_comm, run, hnext]
  simp only [h n, List.cons_append]

lemma one {e : Event} (hnext : r.next = some (e, r')) : Yields r [e] r' := (refl r').step hnext

end Yields

variable (afterwards : List Expected) (handles : List (String × Tag))

/-- The rest of a mapping goes on with a key or ends. -/
def AtField (tokens : List Token) : Prop := tokens.head? = some .key ∨ tokens.head? = some .blockEnd

lemma atField_fieldTokens (block : List (String × Layout)) (rest : List Token) :
    AtField (Layout.fieldTokens block ++ .blockEnd :: rest) := by
  cases block with
  | nil => exact .inr rfl
  | cons field block => exact .inl rfl

/-- Items up to the next field, which ends the sequence. -/
lemma yields_items (row : List Scalar) {rest : List Token} (hrest : AtField rest) :
    Yields
      ⟨(row.flatMap fun s => [.blockEntry, s.token]) ++ rest, .indentlessEntry,
        .blockKey :: afterwards, handles⟩
      (row.map Scalar.event ++ [.sequenceEnd]) ⟨rest, .blockKey, afterwards, handles⟩ := by
  induction row with
  | nil =>
    obtain ⟨more, rfl⟩ | ⟨more, rfl⟩ :=
      hrest.imp List.head?_eq_some_iff.mp List.head?_eq_some_iff.mp
    · exact .one rfl
    · exact .one rfl
  | cons s row ih => exact ih.step rfl

mutual
/-- The value of a field in front of the next one. -/
theorem yields_value : (layout : Layout) → ∀ (afterwards : List Expected) {rest : List Token},
    AtField rest → Yields ⟨.value :: (layout.tokens ++ rest), .blockValue, afterwards, handles⟩
      layout.events ⟨rest, .blockKey, afterwards, handles⟩
  | .scalar s, afterwards, rest, hrest => .one rfl
  | .items [], afterwards, rest, hrest => (Yields.one rfl).step rfl
  | .items (s :: row), afterwards, rest, hrest =>
    (yields_items afterwards handles (s :: row) hrest).step rfl
  | .fields block, afterwards, rest, hrest => by
    have hfields := yields_fields block (.blockKey :: afterwards) rest
    have hend : Yields ⟨.blockEnd :: rest, .blockKey, .blockKey :: afterwards, handles⟩
        [.mappingEnd] ⟨rest, .blockKey, afterwards, handles⟩ := .one rfl
    refine (hfields.trans hend).step ?_
    rw [Layout.tokens, List.append_assoc]
    rfl

theorem yields_fields : (block : List (String × Layout)) → ∀ (afterwards : List Expected)
    (rest : List Token),
    Yields ⟨Layout.fieldTokens block ++ .blockEnd :: rest, .blockKey, afterwards, handles⟩
      (Layout.fieldEvents block) ⟨.blockEnd :: rest, .blockKey, afterwards, handles⟩
  | [], afterwards, rest => .refl _
  | (name, layout) :: more, afterwards, rest => by
    have hvalue := yields_value layout afterwards (atField_fieldTokens more rest)
    refine (hvalue.trans (yields_fields more afterwards rest)).step ?_
    rw [Layout.fieldTokens, List.append_assoc, List.append_assoc]
    rfl
end

end Reader

namespace Layout

lemma length_itemTokens (row : List Scalar) :
    (row.flatMap fun s => [.blockEntry, s.token]).length = 2 * row.length := by
  induction row with
  | nil => rfl
  | cons s row ih =>
    rw [List.flatMap_cons, List.length_append, ih, List.length_cons]
    exact Nat.add_comm _ _

mutual
/-- No layout has many more events than tokens. -/
lemma length_events_le : (layout : Layout) → layout.events.length ≤ layout.tokens.length + 1
  | .scalar s => by simp [events, tokens]
  | .items [] => by simp [events, tokens]
  | .items (s :: row) => by
    have hrow := length_itemTokens (s :: row)
    simp only [events, tokens, hrow, List.length_cons, List.length_append, List.length_map,
      List.length_nil]
    omega
  | .fields block => by
    have := length_fieldEvents_le block
    simp [events, tokens]
    omega

lemma length_fieldEvents_le : (block : List (String × Layout)) →
    (fieldEvents block).length ≤ (fieldTokens block).length
  | [] => Nat.le_refl _
  | (name, layout) :: more => by
    have := length_events_le layout
    have := length_fieldEvents_le more
    simp [fieldEvents, fieldTokens]
    omega
end

/-- The events of a document are those of its layout. -/
theorem ofText_lines {block : List (String × Layout)} (hs : SimpleFields block)
    (hblock : block ≠ []) : Event.ofText (lines 0 block) =
      .documentStart :: ((Layout.fields block).events ++ [.documentEnd, .streamEnd]) := by
  have hfields := Reader.yields_fields Reader.defaultHandles block [.documentEnd] [.streamEnd]
  have hends : Reader.Yields ⟨[.blockEnd, .streamEnd], .blockKey, [.documentEnd],
      Reader.defaultHandles⟩ [.mappingEnd, .documentEnd, .streamEnd]
      ⟨[], .nothing, [], Reader.defaultHandles⟩ :=
    ((Reader.Yields.one rfl).step rfl).step rfl
  have hmapping : Reader.Yields { tokens := Token.scan (lines 0 block) }
      (.documentStart :: .mappingStart none none ::
        (fieldEvents block ++ [.mappingEnd, .documentEnd, .streamEnd]))
      ⟨[], .nothing, [], Reader.defaultHandles⟩ := by
    rw [scan_lines hs hblock]
    exact ((hfields.trans hends).step rfl).step rfl
  have hlength := length_fieldEvents_le block
  obtain ⟨k, hk⟩ := Nat.exists_eq_add_of_le (show (Event.documentStart :: .mappingStart none none ::
      (fieldEvents block ++ [.mappingEnd, .documentEnd, .streamEnd])).length ≤
        4 * (Token.scan (lines 0 block)).length + 4 by
    rw [scan_lines hs hblock]
    simp
    omega)
  have hdone : Reader.run ⟨[], .nothing, [], Reader.defaultHandles⟩ k = [] := by
    cases k <;> rfl
  rw [Event.ofText, hk]
  refine (hmapping k).trans ?_
  rw [hdone, List.append_nil, events]
  simp

end Layout

/-- Puts nodes into a collection one after another. -/
def OpenNode.put (o : OpenNode) (added : List Node) : OpenNode :=
  { o with nodes := added.reverse ++ o.nodes }

lemma OpenNode.put_put (o : OpenNode) (added more : List Node) :
    (o.put added).put more = o.put (added ++ more) := by
  simp [put]

/-- Keys and values in turn. -/
def inTurn (entries : List (Node × Node)) : List Node := entries.flatMap fun e => [e.1, e.2]

lemma pairs_inTurn (entries : List (Node × Node)) : OpenNode.pairs (inTurn entries) = entries := by
  induction entries with
  | nil => rfl
  | cons e entries ih => exact congrArg (e :: ·) ih

namespace Builder

/-- A document while the collections in `opened` are open in it, the innermost first. -/
def within (opened : List OpenNode) (nodes : List (ℕ × Node)) : Builder := { opened, nodes }

/-- Events put something into the open collections. Events are counted and nodes are noted too, but
only for the sake of aliases. -/
def Builds (opened : List OpenNode) (es : List Event) (opened' : List OpenNode) : Prop :=
  ∀ start nodes rest, ∃ start' nodes',
    ofEvents (within opened nodes) start (es ++ rest) =
      ofEvents (within opened' nodes') start' rest

lemma Builds.refl (opened : List OpenNode) : Builds opened [] opened :=
  fun start nodes _ => ⟨start, nodes, rfl⟩

lemma Builds.trans {opened opened' opened'' : List OpenNode} {es es' : List Event}
    (h : Builds opened es opened') (h' : Builds opened' es' opened'') :
    Builds opened (es ++ es') opened'' := by
  intro start nodes rest
  obtain ⟨start', nodes', heq⟩ := h start nodes (es' ++ rest)
  obtain ⟨start'', nodes'', heq'⟩ := h' start' nodes' rest
  exact ⟨start'', nodes'', by rw [List.append_assoc, heq, heq']⟩

variable (o : OpenNode) (around : List OpenNode)

lemma builds_scalar (s : Scalar) : Builds (o :: around) [s.event] (o.put [s.node] :: around) :=
  fun start nodes _ => ⟨start + 1, (start, s.node) :: nodes, rfl⟩

lemma builds_row (row : List Scalar) :
    Builds (o :: around) (row.map Scalar.event) (o.put (row.map Scalar.node) :: around) := by
  induction row generalizing o with
  | nil => exact .refl _
  | cons s row ih =>
    have hrow := (builds_scalar o around s).trans (ih (o.put [s.node]))
    rwa [OpenNode.put_put] at hrow

variable {o around} {es : List Event}

/-- A sequence is put into the collection around it when it ends. -/
lemma builds_sequence {row : List Node} (h : ∀ start, Builds (⟨start, false, none, []⟩ :: o ::
      around) es (OpenNode.put ⟨start, false, none, []⟩ row :: o :: around)) :
    Builds (o :: around) (.sequenceStart none none :: (es ++ [.sequenceEnd]))
      (o.put [.sequence none row true] :: around) := by
  intro start nodes rest
  obtain ⟨start', nodes', heq⟩ := h start (start + 1) nodes (.sequenceEnd :: rest)
  have hnode : (OpenNode.put ⟨start, false, none, []⟩ row).node true = .sequence none row true := by
    simp [OpenNode.node, OpenNode.put]
  refine ⟨start' + 1, (start, .sequence none row true) :: nodes', ?_⟩
  rw [List.cons_append, List.append_assoc, ← hnode]
  exact heq

/-- So is a mapping. -/
lemma builds_mapping {entries : List (Node × Node)} (h : ∀ start, Builds (⟨start, true, none, []⟩ ::
      o :: around) es (OpenNode.put ⟨start, true, none, []⟩ (inTurn entries) :: o :: around)) :
    Builds (o :: around) (.mappingStart none none :: (es ++ [.mappingEnd]))
      (o.put [.mapping none entries true] :: around) := by
  intro start nodes rest
  obtain ⟨start', nodes', heq⟩ := h start (start + 1) nodes (.mappingEnd :: rest)
  have hnode : (OpenNode.put ⟨start, true, none, []⟩ (inTurn entries)).node true =
      .mapping none entries true := by
    simp [OpenNode.node, OpenNode.put, pairs_inTurn]
  refine ⟨start' + 1, (start, .mapping none entries true) :: nodes', ?_⟩
  rw [List.cons_append, List.append_assoc, ← hnode]
  exact heq

mutual
/-- The events of a layout put its node into the innermost collection. -/
theorem builds_events : (layout : Layout) → ∀ o around,
    Builds (o :: around) layout.events (o.put [layout.node] :: around)
  | .scalar s, o, around => builds_scalar o around s
  | .items row, _, _ => builds_sequence fun _ => builds_row _ _ row
  | .fields block, _, _ => builds_mapping fun _ => builds_fieldEvents block _ _

theorem builds_fieldEvents : (block : List (String × Layout)) → ∀ o around,
    Builds (o :: around) (Layout.fieldEvents block)
      (o.put (inTurn (Layout.entries block)) :: around)
  | [], o, around => .refl _
  | (name, layout) :: more, o, around => by
    have hname := builds_scalar o around { text := name }
    have hvalue := hname.trans (builds_events layout _ around)
    have hmore := hvalue.trans (builds_fieldEvents more _ around)
    rw [OpenNode.put_put, OpenNode.put_put] at hmore
    exact hmore
end

end Builder

/-- A written document reads as its layout. -/
theorem Document.ofText_render {block : List (String × Layout)} (hs : Layout.SimpleFields block)
    (hblock : block ≠ []) :
    Document.ofText (Layout.render block) = { root := (Layout.fields block).node } := by
  have hnode : (OpenNode.put ⟨0, true, none, []⟩ (inTurn (Layout.entries block))).node true =
      (Layout.fields block).node := by
    simp [OpenNode.node, OpenNode.put, pairs_inTurn, Layout.node]
  obtain ⟨start, nodes, hbuilt⟩ := Builder.builds_fieldEvents block ⟨0, true, none, []⟩ [] 1 []
    [.mappingEnd, .documentEnd, .streamEnd]
  rw [ofText, Layout.render, String.toList_ofList, Layout.ofText_lines hs hblock, Layout.events,
    List.cons_append, List.append_assoc, ← hnode]
  exact hbuilt

end FaultBench.Yaml
