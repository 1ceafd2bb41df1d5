import FaultBench.Host.Output
import Mathlib.Data.List.Basic

/-! What two sinks have of a text while it is written to both of them piece by piece. The second one
has a part of what the first one has, from its beginning on, and a write or a flush that fails is
the last thing that either is asked for. -/
namespace FaultBench.Host

namespace Event

/-- The characters that a sink took. -/
def taken (place : Place) (trace : List Event) : List Char :=
  trace.filterMap fun
    | .took q c => if q = place then some c else none
    | _ => none

/-- The bytes that went out on the line. -/
def sentBytes (trace : List Event) : List UInt8 :=
  trace.filterMap fun
    | .sent b => some b
    | _ => none

/-- A sink did not do what it was asked for. -/
def Fails : Event → Prop
  | .refused _ _ => True
  | .flushed _ done => done = false
  | _ => False

variable {place other : Place} {trace more : List Event}

@[simp] lemma taken_nil : taken place [] = [] := rfl

@[simp] lemma taken_append : taken place (trace ++ more) = taken place trace ++ taken place more :=
  List.filterMap_append

lemma taken_prefix (place : Place) (h : trace <+: more) :
    taken place trace <+: taken place more := h.filterMap _

@[simp] lemma taken_took (text : List Char) : taken place (text.map (.took place)) = text := by
  induction text with
  | nil => rfl
  | cons c text ih => simp_all [taken]

@[simp] lemma taken_took_of_ne (h : other ≠ place) (text : List Char) :
    taken place (text.map (.took other)) = [] := by
  simp [taken, h]

@[simp] lemma taken_sent (bytes : List UInt8) : taken place (bytes.map .sent) = [] := by
  simp [taken]

@[simp] lemma taken_refused (text : List Char) : taken place [.refused other text] = [] := rfl

@[simp] lemma sentBytes_append : sentBytes (trace ++ more) = sentBytes trace ++ sentBytes more :=
  List.filterMap_append

@[simp] lemma sentBytes_sent (bytes : List UInt8) : sentBytes (bytes.map .sent) = bytes := by
  simp [sentBytes]

@[simp] lemma sentBytes_refused (text : List Char) : sentBytes [.refused place text] = [] := rfl

@[simp] lemma sentBytes_took (text : List Char) : sentBytes (text.map (.took place)) = [] := by
  simp [sentBytes]

lemma not_fails_took {text : List Char} : ∀ e ∈ text.map (Event.took place), ¬ e.Fails := by
  simp [Fails]

end Event

open Event

/-- What is seen while a text is written to two sinks, or as far as it is written. -/
structure Copied (text : List Char) (trace : List Event) : Prop where
  /-- At every moment. -/
  ordered {past : List Event} (h : past <+: trace) :
    taken .second past <+: taken .first past ∧ taken .first past <+: text
  whole (h : ∀ e ∈ trace, ¬ e.Fails) : taken .first trace = text ∧ taken .second trace = text
  /-- Only the last thing can fail. -/
  last : ∀ e ∈ trace.dropLast, ¬ e.Fails

namespace Copied

variable {text later : List Char} {trace more : List Event}

/-- Nothing is written, whatever else is seen. -/
lemma unwritten (hfirst : taken .first trace = []) (hsecond : taken .second trace = [])
    (hlast : ∀ e ∈ trace.dropLast, ¬ e.Fails) : Copied [] trace where
  ordered h := by
    have hpast := taken_prefix .first h
    have hpast' := taken_prefix .second h
    rw [hfirst, List.prefix_nil] at hpast
    rw [hsecond, List.prefix_nil] at hpast'
    simp [hpast, hpast']
  whole _ := ⟨hfirst, hsecond⟩
  last := hlast

/-- One text after the other. -/
lemma append (h : Copied text trace) (hgood : ∀ e ∈ trace, ¬ e.Fails) (hmore : Copied later more) :
    Copied (text ++ later) (trace ++ more) := by
  obtain ⟨hfirst, hsecond⟩ := h.whole hgood
  refine ⟨fun {past} hpast => ?_, fun hall => ?_, fun e he => ?_⟩
  · obtain ⟨rest, hrest⟩ := hpast
    obtain ⟨front, htrace, -⟩ | ⟨front, rfl, hmore'⟩ := List.append_eq_append_iff.mp hrest
    · obtain ⟨hpast, htext⟩ := h.ordered ⟨front, htrace.symm⟩
      exact ⟨hpast, List.prefix_append_of_prefix htext⟩
    · obtain ⟨hpast, htext⟩ := hmore.ordered ⟨rest, hmore'.symm⟩
      simp only [taken_append, hfirst, hsecond]
      exact ⟨(List.prefix_append_right_inj _).mpr hpast, (List.prefix_append_right_inj _).mpr htext⟩
  · have hmoreGood : ∀ e ∈ more, ¬ e.Fails := fun e he => hall e (List.mem_append_right _ he)
    simp only [taken_append, hfirst, hsecond, (hmore.whole hmoreGood).1,
      (hmore.whole hmoreGood).2, and_self]
  · rw [List.dropLast_append] at he
    split at he
    · exact h.last e he
    · obtain he | he := List.mem_append.mp he
      · exact hgood e he
      · exact hmore.last e he

/-- Behind a failure nothing of what was to come is written. -/
lemma stopped (h : Copied text trace) (hbad : ∃ e ∈ trace, e.Fails) (later : List Char) :
    Copied (text ++ later) trace where
  ordered hpast := ⟨(h.ordered hpast).1, List.prefix_append_of_prefix (h.ordered hpast).2⟩
  whole hall := by
    obtain ⟨e, he, hfails⟩ := hbad
    exact absurd hfails (hall e he)
  last := h.last

/-- The first sink took what it was to take before the second is asked. -/
lemma ordered_of_lead {lead : List Char} (hlead : lead <+: text) (hfirst : taken .first more = [])
    (hsecond : taken .second more <+: lead) {past : List Event}
    (h : past <+: lead.map (.took .first) ++ more) :
    taken .second past <+: taken .first past ∧ taken .first past <+: text := by
  obtain ⟨rest, hrest⟩ := h
  obtain ⟨front, htrace, -⟩ | ⟨front, rfl, hmore⟩ := List.append_eq_append_iff.mp hrest
  · have hnone := taken_prefix .second ⟨front, htrace.symm⟩
    have hsome := taken_prefix .first ⟨front, htrace.symm⟩
    rw [taken_took_of_ne (by decide), List.prefix_nil] at hnone
    rw [taken_took] at hsome
    rw [hnone]
    exact ⟨List.nil_prefix, hsome.trans hlead⟩
  · have hnone := taken_prefix .first ⟨rest, hmore.symm⟩
    have hsome := taken_prefix .second ⟨rest, hmore.symm⟩
    rw [hfirst, List.prefix_nil] at hnone
    rw [taken_append, taken_append, taken_took, taken_took_of_ne (by decide), hnone,
      List.append_nil, List.nil_append]
    exact ⟨hsome.trans hsecond, hlead⟩

/-- Both sinks take a text. -/
lemma both (text : List Char) :
    Copied text (text.map (.took .first) ++ text.map (.took .second)) where
  ordered := ordered_of_lead List.prefix_rfl (by simp) (by simp)
  whole _ := by simp
  last e he := by
    have hmem := (List.dropLast_sublist _).subset he
    rw [List.mem_append] at hmem
    exact hmem.elim (not_fails_took e) (not_fails_took e)

/-- The first sink takes a part of a text and refuses the rest. -/
lemma refusedByFirst {lead : List Char} (hlead : lead <+: text) (rest : List Char) :
    Copied text (lead.map (.took .first) ++ [.refused .first rest]) where
  ordered := ordered_of_lead hlead rfl (by simp)
  whole h := absurd trivial (h (.refused .first rest) (by simp))
  last := by
    rw [List.dropLast_concat]
    exact not_fails_took

/-- The first sink takes a text, and the second one refuses a part of it. -/
lemma refusedBySecond {lead : List Char} (hlead : lead <+: text) (rest : List Char) :
    Copied text (text.map (.took .first) ++
      (lead.map (.took .second) ++ [.refused .second rest])) where
  ordered := ordered_of_lead List.prefix_rfl (by simp) (by simpa using hlead)
  whole h := absurd trivial (h (.refused .second rest) (by simp))
  last := by
    rw [← List.append_assoc, List.dropLast_concat]
    intro e he
    exact (List.mem_append.mp he).elim (not_fails_took e) (not_fails_took e)

end Copied

namespace Sink

/-- A sink took a text, and can take as much less from then on. -/
structure Took (s t : Sink) (text : List Char) : Prop where
  accepted : t.accepted = s.accepted ++ text
  left : t.left = s.left.map (· - text.length)
  fits (n : ℕ) (h : s.left = some n) : text.length ≤ n
  flushFails : t.flushFails = s.flushFails

lemma Took.nil (s : Sink) : s.Took s [] where
  accepted := (List.append_nil _).symm
  left := by cases s.left <;> rfl
  fits n _ := Nat.zero_le n
  flushFails := rfl

lemma Took.append {s t u : Sink} {text later : List Char} (h : s.Took t text)
    (hlater : t.Took u later) : s.Took u (text ++ later) where
  accepted := by rw [hlater.accepted, h.accepted, List.append_assoc]
  left := by
    rw [hlater.left, h.left, Option.map_map]
    congr 1
    funext n
    simp [Nat.sub_sub]
  fits n hn := by
    have hmore := hlater.fits (n - text.length) (by rw [h.left, hn]; rfl)
    have hfits := h.fits n hn
    rw [List.length_append]
    omega
  flushFails := hlater.flushFails.trans h.flushFails

/-- A write takes the whole text, or the characters before the first that is refused. -/
lemma write_cases (s : Sink) (place : Place) (text : List Char) :
    (∃ t, s.write text = (.ok (), t) ∧ s.Took t text ∧
      s.events place text = text.map (.took place)) ∨
    ∃ e t lead rest, lead ++ rest = text ∧ s.write text = (.error e, t) ∧ s.Took t lead ∧
      s.events place text = lead.map (.took place) ++ [.refused place rest] := by
  cases hleft : s.left with
  | none =>
    exact .inl ⟨{ s with accepted := s.accepted ++ text }, by simp [write, hleft],
      ⟨rfl, by simp [hleft], by simp [hleft], rfl⟩, by simp [events, hleft]⟩
  | some n =>
    by_cases hfits : text.length ≤ n
    · refine .inl ⟨{ s with accepted := s.accepted ++ text, left := some (n - text.length) }, ?_,
        ⟨rfl, by simp [hleft], by simp [hleft, hfits], rfl⟩, ?_⟩
      · simp [write, hleft, hfits, List.take_of_length_le]
      · simp [events, hleft, hfits, List.take_of_length_le]
    · refine .inr ⟨.brokenPipe,
        { s with accepted := s.accepted ++ text.take n, left := some (n - text.length) },
        text.take n, text.drop n, List.take_append_drop n text, ?_,
        ⟨rfl, ?_, fun k hk => ?_, rfl⟩, ?_⟩
      · simp [write, hleft, hfits]
      · simp [hleft]
        omega
      · cases hleft.symm.trans hk
        exact List.length_take_le n text
      · simp [events, hleft, hfits]

lemma flushFails_of_flush {s : Sink} (h : s.flush = .ok ()) : s.flushFails = false := by
  cases hflush : s.flushFails with
  | false => rfl
  | true =>
    rw [flush, hflush] at h
    cases h

end Sink

namespace Output

/-- The sinks of an output took what a trace says. -/
structure Took (o o' : Output) (trace : List Event) : Prop where
  first : o.first.Took o'.first (taken .first trace)
  second {s : Sink} (h : o.second = some s) :
    ∃ t, o'.second = some t ∧ s.Took t (taken .second trace)

variable {o o' o'' : Output} {trace more : List Event} {text later : List Char}

lemma Took.unwritten (hfirst : taken .first trace = []) (hsecond : taken .second trace = []) :
    o.Took o trace where
  first := by
    rw [hfirst]
    exact .nil _
  second {s} h := ⟨s, h, by rw [hsecond]; exact .nil s⟩

lemma Took.append (h : o.Took o' trace) (hmore : o'.Took o'' more) : o.Took o'' (trace ++ more) where
  first := by
    rw [taken_append]
    exact h.first.append hmore.first
  second hs := by
    obtain ⟨t, ht, htook⟩ := h.second hs
    obtain ⟨u, hu, hmore⟩ := hmore.second ht
    exact ⟨u, hu, by rw [taken_append]; exact htook.append hmore⟩

lemma Took.isSome_second (h : o.Took o' trace) (ho : o.second.isSome) : o'.second.isSome := by
  obtain ⟨s, hs⟩ := Option.isSome_iff_exists.mp ho
  obtain ⟨t, ht, -⟩ := h.second hs
  rw [ht]
  rfl

/-- An attempt to write a text into two sinks. -/
structure Wrote (o : Output) (text : List Char) (a : Attempt) : Prop where
  copied : Copied text a.events
  took : o.Took a.output a.events
  unsent : sentBytes a.events = []
  result : a.result = .ok () ↔ ∀ e ∈ a.events, ¬ e.Fails

/-- What comes next is attempted unless something failed. -/
lemma Wrote.andThen {a : Attempt} (h : Wrote o text a) {next : Output → Attempt}
    (hnext : Wrote a.output later (next a.output)) : Wrote o (text ++ later) (a.andThen next) := by
  cases hresult : a.result with
  | error e =>
    have hbad : ∃ e ∈ a.events, e.Fails := by
      by_contra hgood
      push Not at hgood
      rw [h.result.mpr hgood] at hresult
      cases hresult
    have hthen : a.andThen next = a := by simp only [Attempt.andThen, hresult]
    rw [hthen]
    exact { h with copied := h.copied.stopped hbad later }
  | ok u =>
    have hgood := h.result.mp hresult
    have hthen : a.andThen next =
        { next a.output with events := a.events ++ (next a.output).events } := by
      simp only [Attempt.andThen, hresult]
    rw [hthen]
    refine ⟨h.copied.append hgood hnext.copied, h.took.append hnext.took, ?_, ?_⟩
    · simp only [sentBytes_append, h.unsent, hnext.unsent, List.append_nil]
    · simp only [hnext.result, List.mem_append]
      exact ⟨fun hall e he => he.elim (hgood e) (hall e), fun hall e he => hall e (.inr he)⟩

lemma write_wrote (ho : o.second.isSome) (text : List Char) : Wrote o text (o.write text) := by
  obtain ⟨s, hs⟩ := Option.isSome_iff_exists.mp ho
  obtain ⟨t, hwrite, htook, hevents⟩ | ⟨e, t, lead, rest, hlead, hwrite, htook, hevents⟩ :=
    o.first.write_cases .first text
  · obtain ⟨u, hwrite', htook', hevents'⟩ | ⟨e, u, lead, rest, hlead, hwrite', htook', hevents'⟩ :=
      s.write_cases .second text
    · have ha : o.write text =
          ⟨.ok (), ⟨t, some u⟩, text.map (.took .first) ++ text.map (.took .second)⟩ := by
        simp only [Output.write, hwrite, hs, hwrite', hevents, hevents']
      rw [ha]
      exact ⟨.both text, ⟨by simpa using htook, by simpa [hs] using htook'⟩, by simp,
        by simp [Fails, or_imp, forall_and]⟩
    · have ha : o.write text = ⟨.error e, ⟨t, some u⟩, text.map (.took .first) ++
          (lead.map (.took .second) ++ [.refused .second rest])⟩ := by
        simp only [Output.write, hwrite, hs, hwrite', hevents, hevents']
      rw [ha]
      exact ⟨.refusedBySecond ⟨rest, hlead⟩ rest,
        ⟨by simpa using htook, by simpa [hs] using htook'⟩, by simp,
        by simp [Fails, or_imp, forall_and]⟩
  · have ha : o.write text = ⟨.error e, { o with first := t },
        lead.map (.took .first) ++ [.refused .first rest]⟩ := by
      simp only [Output.write, hwrite, hevents]
    rw [ha]
    exact ⟨.refusedByFirst ⟨rest, hlead⟩ rest,
      ⟨by simpa using htook, by simpa [hs] using Sink.Took.nil s⟩, by simp,
      by simp [Fails, or_imp, forall_and]⟩

lemma writeAll_wrote (ho : o.second.isSome) (pieces : List (List Char)) :
    Wrote o pieces.flatten (o.writeAll pieces) := by
  induction pieces generalizing o with
  | nil => exact ⟨.unwritten rfl rfl nofun, .unwritten rfl rfl, rfl, by simp [writeAll]⟩
  | cons piece pieces ih =>
    have hpiece := write_wrote ho piece
    exact hpiece.andThen (ih (hpiece.took.isSome_second ho))

lemma flush_wrote (ho : o.second.isSome) : Wrote o [] o.flush := by
  rw [flush]
  split
  · exact ⟨.unwritten rfl rfl nofun, .unwritten rfl rfl, rfl, by simp [Fails]⟩
  · next hnone => simp [hnone] at ho
  · next t hfirst hsecond =>
    refine ⟨.unwritten rfl rfl (by simp [Fails]), .unwritten rfl rfl, rfl, ?_⟩
    cases hflush : t.flush <;> simp [Fails, Except.isOk, Except.toBool]

/-- A flush is done only if all sinks did it. -/
lemma flushFails_of_flush (h : o.flush.result = .ok ()) :
    o.first.flushFails = false ∧ ∀ s, o.second = some s → s.flushFails = false := by
  rw [flush] at h
  split at h
  · cases h
  · next hfirst hsecond =>
    exact ⟨Sink.flushFails_of_flush hfirst, fun s hs => by simp [hsecond] at hs⟩
  · next t hfirst hsecond =>
    refine ⟨Sink.flushFails_of_flush hfirst, fun s hs => ?_⟩
    cases hsecond.symm.trans hs
    exact Sink.flushFails_of_flush h

end Output
end FaultBench.Host
