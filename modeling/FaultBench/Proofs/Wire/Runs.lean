import FaultBench.Proofs.Wire.Stuffing
import Mathlib.Data.List.Basic

/-! Stuffed blocks as rows of runs. Every block that can be read is a row of runs, and the data
determine the row except for an empty run behind a full last one. -/
namespace FaultBench.Wire.Stuffing

/-- The data of a row of runs. A zero stands in front of each run but the first, unless the run
before it is full. -/
def joinFrom (gap : Bool) : List (List UInt8) → List UInt8
  | [] => []
  | run :: row =>
    (if gap then [0] else []) ++ run ++ joinFrom (decide (run.length ≠ fullRun)) row

/-- The runs of some data behind the bytes of an unfinished one, each as long as it can be. -/
def runsFrom (run : List UInt8) : List UInt8 → List (List UInt8)
  | [] => [run]
  | b :: rest =>
    if b = 0 then run :: runsFrom [] rest
    else if run.length + 1 = fullRun then
      (run ++ [b]) :: if rest.isEmpty then [] else runsFrom [] rest
    else runsFrom (run ++ [b]) rest

def runs (data : List UInt8) : List (List UInt8) := runsFrom [] data

/-- The row ends in an empty run that is not needed, since the run before it is full. -/
def Redundant (row : List (List UInt8)) : Prop :=
  ∃ init full, full.length = fullRun ∧ row = init ++ [full, []]

@[simp] lemma joinFrom_nil (gap : Bool) : joinFrom gap [] = [] := rfl

lemma joinFrom_cons (gap : Bool) (run : List UInt8) (row : List (List UInt8)) :
    joinFrom gap (run :: row) =
      (if gap then [0] else []) ++ run ++ joinFrom (decide (run.length ≠ fullRun)) row := rfl

/-- The zero in front of a row is the only trace of the run before it. -/
lemma joinFrom_true (run : List UInt8) (row : List (List UInt8)) :
    joinFrom true (run :: row) = 0 :: joinFrom false (run :: row) := rfl

lemma joinFrom_eq_nil {gap : Bool} {row : List (List UInt8)} (h : joinFrom gap row = []) :
    row = [] ∨ row = [[]] := by
  cases row with
  | nil => exact .inl rfl
  | cons run row =>
    rw [joinFrom_cons] at h
    obtain ⟨hfront, hrow⟩ := List.append_eq_nil_iff.mp h
    obtain ⟨-, hrun⟩ := List.append_eq_nil_iff.mp hfront
    subst hrun
    cases row with
    | nil => exact .inr rfl
    | cons next row => cases hrow

/-- An empty run at the end stands for a zero unless the run before it is full. -/
lemma joinFrom_empty (gap : Bool) (row : List (List UInt8)) (last : List UInt8) :
    joinFrom gap (row ++ [last, []]) =
      joinFrom gap (row ++ [last]) ++ if last.length = fullRun then [] else [0] := by
  induction row generalizing gap with
  | nil => by_cases h : last.length = fullRun <;> simp [joinFrom_cons, h]
  | cons run row ih => simp only [List.cons_append, joinFrom_cons, ih, List.append_assoc]

/-- A zero at the end of the last run is read like any other byte. -/
lemma joinFrom_zero (gap : Bool) (row : List (List UInt8)) (run : List UInt8) :
    joinFrom gap (row ++ [run ++ [0]]) = joinFrom gap (row ++ [run]) ++ [0] := by
  induction row generalizing gap with
  | nil => simp [joinFrom_cons]
  | cons next row ih => simp only [List.cons_append, joinFrom_cons, ih, List.append_assoc]

/-! ### Reading a row -/

/-- As many bytes as are announced are read as they stand, and the rest by itself. -/
lemma unstuffFrom_left {gap : Bool} {left : ℕ} {bytes data : List UInt8}
    (h : unstuffFrom gap left bytes = some data) :
    ∃ run rest later, run.length = left ∧ bytes = run ++ rest ∧
      unstuffFrom gap 0 rest = some later ∧ data = run ++ later := by
  induction left generalizing bytes data with
  | zero => exact ⟨[], bytes, data, rfl, rfl, h, rfl⟩
  | succ left ih =>
    cases bytes with
    | nil => cases h
    | cons b bytes =>
      rw [unstuffFrom] at h
      obtain ⟨tail, htail, rfl⟩ := Option.map_eq_some_iff.mp h
      obtain ⟨run, rest, later, hlength, rfl, hlater, rfl⟩ := ih htail
      exact ⟨b :: run, rest, later, by simp [hlength], rfl, hlater, rfl⟩

/-- A code in front of as many bytes as it announces makes a run. -/
lemma block_of_code {code : UInt8} {run : List UInt8} (hcode : code ≠ 0)
    (hlength : run.length = code.toNat - 1) :
    block run = code :: run ∧ run.length ≤ fullRun ∧
      decide (code ≠ 255) = decide (run.length ≠ fullRun) := by
  have hpos : code.toNat ≠ 0 := fun hzero => hcode (UInt8.toNat_inj.mp hzero)
  have hbound : code.toNat < 256 := code.toNat_lt
  have hsucc : run.length + 1 = code.toNat := by omega
  have hle : run.length ≤ fullRun := by
    simp only [fullRun]
    omega
  have heq : UInt8.ofNat (run.length + 1) = code := by
    rw [hsucc, UInt8.ofNat_toNat]
  refine ⟨by rw [block, heq], hle, ?_⟩
  rw [← heq]
  simp only [ne_eq, code_eq_full_iff hle]

/-- What can be read is a row of runs, and then the zero that ends it or nothing at all. -/
theorem unstuffFrom_eq_some {gap : Bool} {bytes data : List UInt8}
    (h : unstuffFrom gap 0 bytes = some data) :
    ∃ row, (∀ run ∈ row, run.length ≤ fullRun) ∧ data = joinFrom gap row ∧
      (bytes = row.flatMap block ∨ ∃ rest, bytes = row.flatMap block ++ 0 :: rest) := by
  -- The rest behind a run is shorter, but it is no direct part of the list.
  induction hn : bytes.length using Nat.strongRecOn generalizing gap bytes data with
  | ind n ih =>
  cases bytes with
  | nil => exact ⟨[], by simp, (Option.some.inj h).symm, .inl rfl⟩
  | cons code bytes =>
    rw [unstuffFrom] at h
    split at h
    · next hzero =>
      subst hzero
      exact ⟨[], by simp, (Option.some.inj h).symm, .inr ⟨bytes, rfl⟩⟩
    · next hcode =>
      obtain ⟨tail, htail, rfl⟩ := Option.map_eq_some_iff.mp h
      obtain ⟨run, rest, later, hlength, rfl, hlater, rfl⟩ := unstuffFrom_left htail
      obtain ⟨hblock, hle, hgap⟩ := block_of_code hcode hlength
      rw [hgap] at hlater
      have hshorter : rest.length < n := by
        rw [← hn, List.length_cons, List.length_append]
        omega
      obtain ⟨row, hrow, rfl, hrest⟩ := ih rest.length hshorter hlater rfl
      refine ⟨run :: row, List.forall_mem_cons.mpr ⟨hle, hrow⟩, ?_, ?_⟩
      · rw [joinFrom_cons]
        cases gap <;> rfl
      · rw [List.flatMap_cons, hblock]
        obtain rfl | ⟨more, rfl⟩ := hrest
        · exact .inl rfl
        · exact .inr ⟨more, by simp⟩

/-- A row of runs is read as its data, whether a zero ends it or the end of the input. -/
theorem unstuffFrom_row (gap : Bool) {row : List (List UInt8)}
    (h : ∀ run ∈ row, run.length ≤ fullRun) :
    unstuffFrom gap 0 (row.flatMap block) = some (joinFrom gap row) ∧
      unstuffFrom gap 0 (row.flatMap block ++ [0]) = some (joinFrom gap row) := by
  induction row generalizing gap with
  | nil => exact ⟨rfl, unstuffFrom_end gap⟩
  | cons run row ih =>
    obtain ⟨hrun, hrow⟩ := List.forall_mem_cons.mp h
    obtain ⟨hopen, hended⟩ := ih (decide (run.length ≠ fullRun)) hrow
    rw [List.flatMap_cons, List.append_assoc, unstuffFrom_block gap run _ hrun,
      unstuffFrom_block gap run _ hrun, hopen, hended]
    exact ⟨rfl, rfl⟩

/-! ### The row of some data -/

theorem stuffFrom_eq (run data : List UInt8) :
    stuffFrom run data = (runsFrom run data).flatMap block ++ [0] := by
  induction data generalizing run with
  | nil => simp [stuffFrom, runsFrom]
  | cons b rest ih =>
    rw [stuffFrom, runsFrom]
    split
    · simp [ih]
    · split
      · cases rest with
        | nil => simp
        | cons c rest => simp [ih]
      · exact ih (run ++ [b])

theorem stuff_eq (data : List UInt8) : stuff data = (runs data).flatMap block ++ [0] :=
  stuffFrom_eq [] data

/-- Bytes that are not zero go to the unfinished run as long as it is not full. -/
lemma runsFrom_append {run bytes : List UInt8} (hz : 0 ∉ bytes)
    (hlength : run.length + bytes.length < fullRun) (rest : List UInt8) :
    runsFrom run (bytes ++ rest) = runsFrom (run ++ bytes) rest := by
  induction bytes generalizing run with
  | nil => simp
  | cons b bytes ih =>
    obtain ⟨hb, hbytes⟩ := List.ne_and_not_mem_of_not_mem_cons hz
    rw [List.length_cons] at hlength
    have hopen : ¬ run.length + 1 = fullRun := by omega
    have hnext : (run ++ [b]).length + bytes.length < fullRun := by
      rw [List.length_append, List.length_singleton]
      omega
    rw [List.cons_append, runsFrom, if_neg (Ne.symm hb), if_neg hopen, ih hbytes hnext,
      List.append_assoc, List.singleton_append]

/-- The bytes of a full run close it. -/
lemma runsFrom_full {run : List UInt8} (hz : 0 ∉ run) (hlength : run.length = fullRun)
    (rest : List UInt8) :
    runsFrom [] (run ++ rest) = run :: if rest.isEmpty then [] else runsFrom [] rest := by
  have hne : run ≠ [] := by
    rintro rfl
    cases hlength
  obtain ⟨front, b, rfl⟩ := run.eq_nil_or_concat'.resolve_left hne
  simp only [List.mem_append, List.mem_singleton, not_or] at hz
  rw [List.length_append, List.length_singleton] at hlength
  have hfits : ([] : List UInt8).length + front.length < fullRun := by
    rw [List.length_nil]
    omega
  rw [List.append_assoc, runsFrom_append hz.1 hfits, List.nil_append, List.singleton_append,
    runsFrom, if_neg (Ne.symm hz.2), if_pos hlength]

lemma runs_full {run : List UInt8} (hz : 0 ∉ run) (hlength : run.length = fullRun) :
    runs run = [run] := by
  have hclosed := runsFrom_full hz hlength []
  rwa [List.append_nil] at hclosed

/-- Data have no other row of runs than their own, but for an empty run that is not needed. -/
theorem runs_joinFrom {row : List (List UInt8)} (hne : row ≠ [])
    (h : ∀ run ∈ row, run.length ≤ fullRun ∧ 0 ∉ run) (hneeded : ¬ Redundant row) :
    runs (joinFrom false row) = row := by
  induction row with
  | nil => exact absurd rfl hne
  | cons run row ih =>
    obtain ⟨⟨hle, hz⟩, hrow⟩ := List.forall_mem_cons.mp h
    have hneeded' : ¬ Redundant row := by
      rintro ⟨init, full, hfull, rfl⟩
      exact hneeded ⟨run :: init, full, hfull, rfl⟩
    by_cases hfull : run.length = fullRun
    · have hjoin : joinFrom false (run :: row) = run ++ joinFrom false row := by
        simp [joinFrom_cons, hfull]
      rw [hjoin, runs, runsFrom_full hz hfull]
      cases row with
      | nil => rfl
      | cons next row =>
        have hmore : joinFrom false (next :: row) ≠ [] := by
          intro hnil
          obtain hnone | hempty := joinFrom_eq_nil hnil
          · cases hnone
          · exact hneeded ⟨[], run, hfull, by rw [hempty]; rfl⟩
        have hbehind : runsFrom [] (joinFrom false (next :: row)) = next :: row :=
          ih (List.cons_ne_nil _ _) hrow hneeded'
        simp only [List.isEmpty_iff, hmore, if_false, hbehind]
    · have hfits : ([] : List UInt8).length + run.length < fullRun := by
        rw [List.length_nil]
        omega
      have hjoin : joinFrom false (run :: row) = run ++ joinFrom true row := by
        simp [joinFrom_cons, hfull]
      rw [hjoin, runs, runsFrom_append hz hfits, List.nil_append]
      cases row with
      | nil => rfl
      | cons next row =>
        have hbehind : runsFrom [] (joinFrom false (next :: row)) = next :: row :=
          ih (List.cons_ne_nil _ _) hrow hneeded'
        rw [joinFrom_true, runsFrom, if_pos rfl, hbehind]

/-- Runs of some data are no longer than a full one and hold no zero. -/
lemma mem_runsFrom {run data : List UInt8} (hlength : run.length < fullRun) (hz : 0 ∉ run) :
    ∀ r ∈ runsFrom run data, r.length ≤ fullRun ∧ 0 ∉ r := by
  induction data generalizing run with
  | nil =>
    intro r hr
    obtain rfl : r = run := by simpa [runsFrom] using hr
    exact ⟨Nat.le_of_lt hlength, hz⟩
  | cons b rest ih =>
    have hnew : ∀ r ∈ runsFrom [] rest, r.length ≤ fullRun ∧ 0 ∉ r :=
      ih (by simp [fullRun]) (by simp)
    rw [runsFrom]
    split
    · exact List.forall_mem_cons.mpr ⟨⟨Nat.le_of_lt hlength, hz⟩, hnew⟩
    · next hb =>
      have hz' : 0 ∉ run ++ [b] := by simp [hz, Ne.symm hb]
      split
      · next hfull =>
        refine List.forall_mem_cons.mpr ⟨⟨by simp [hfull], hz'⟩, ?_⟩
        split
        · simp
        · exact hnew
      · next hopen =>
        refine ih ?_ hz'
        rw [List.length_append, List.length_singleton]
        omega

lemma mem_runs {data run : List UInt8} (h : run ∈ runs data) : run.length ≤ fullRun ∧ 0 ∉ run :=
  mem_runsFrom (by simp [fullRun]) (by simp) run h

/-- The row of some data gives them back. -/
theorem joinFrom_runs (data : List UInt8) : joinFrom false (runs data) = data := by
  have hrow : ∀ run ∈ runs data, run.length ≤ fullRun := fun run hrun => (mem_runs hrun).1
  have hread := unstuff_stuff data
  rw [stuff_eq, unstuff, (unstuffFrom_row false hrow).2] at hread
  exact Option.some.inj hread

lemma not_redundant_of_full {row : List (List UInt8)} {full : List UInt8}
    (h : full.length = fullRun) : ¬ Redundant (row ++ [full]) := by
  rintro ⟨init, before, -, heq⟩
  have hlast : full = [] := by
    have hends := congrArg List.getLast? heq
    simpa using hends
  rw [hlast] at h
  cases h

lemma not_redundant_of_lt {row : List (List UInt8)} {run : List UInt8}
    (h : run.length < fullRun) : ¬ Redundant (row ++ [run, []]) := by
  rintro ⟨init, full, hfull, heq⟩
  have hrun : run = full := by
    have hends := (List.append_inj' heq rfl).2
    exact (List.cons.inj hends).1
  rw [hrun] at h
  omega

/-- Without the empty run that is not needed a row is the one of its data. -/
lemma runs_of_redundant {init : List (List UInt8)} {full : List UInt8}
    (hfull : full.length = fullRun) (h : ∀ run ∈ init ++ [full], run.length ≤ fullRun ∧ 0 ∉ run) :
    runs (joinFrom false (init ++ [full, []])) = init ++ [full] := by
  rw [joinFrom_empty, if_pos hfull, List.append_nil]
  exact runs_joinFrom (by simp) h (not_redundant_of_full hfull)

/-- No run of some data is one too many. -/
theorem not_redundant_runs (data : List UInt8) : ¬ Redundant (runs data) := by
  rintro ⟨init, full, hfull, hruns⟩
  have hrow : ∀ run ∈ init ++ [full, []], run.length ≤ fullRun ∧ 0 ∉ run := by
    intro run hrun
    rw [← hruns] at hrun
    exact mem_runs hrun
  have hshorter : runs (joinFrom false (init ++ [full, []])) = init ++ [full] := by
    refine runs_of_redundant hfull fun run hrun => hrow run ?_
    rw [List.append_cons]
    exact List.mem_append_left _ hrun
  rw [← hruns, joinFrom_runs, hruns] at hshorter
  have hlength := congrArg List.length hshorter
  simp at hlength

/-! ### All blocks of some data -/

/-- An empty run behind a full last one changes nothing. -/
lemma unstuff_extra {data full : List UInt8} {init : List (List UInt8)}
    (hruns : runs data = init ++ [full]) (hfull : full.length = fullRun) :
    unstuff ((init ++ [full, []]).flatMap block ++ [0]) = some data := by
  have hrow : ∀ run ∈ init ++ [full, []], run.length ≤ fullRun := by
    intro run hrun
    rw [List.append_cons, List.mem_append, ← hruns, List.mem_singleton] at hrun
    obtain hrun | rfl := hrun
    · exact (mem_runs hrun).1
    · exact Nat.zero_le _
  rw [unstuff, (unstuffFrom_row false hrow).2, joinFrom_empty, if_pos hfull, List.append_nil,
    ← hruns, joinFrom_runs]

/-- A last run that takes the end of the block for a zero of the data stands for two runs. -/
lemma unstuff_absorbed {data run : List UInt8} {init : List (List UInt8)}
    (hruns : runs data = init ++ [run, []]) :
    unstuff ((init ++ [run ++ [0]]).flatMap block) = some data := by
  have hmem : ∀ r ∈ init ++ [run], r.length ≤ fullRun := by
    intro r hr
    have hdata : r ∈ runs data := by
      rw [hruns, List.append_cons]
      exact List.mem_append_left _ hr
    exact (mem_runs hdata).1
  have hne : run.length ≠ fullRun := fun hfull => not_redundant_runs data ⟨init, run, hfull, hruns⟩
  have hrow : ∀ r ∈ init ++ [run ++ [0]], r.length ≤ fullRun := by
    intro r hr
    rw [List.mem_append, List.mem_singleton] at hr
    obtain hr | rfl := hr
    · exact hmem r (List.mem_append_left _ hr)
    · have hle := hmem run (by simp)
      rw [List.length_append, List.length_singleton]
      omega
  have hdata := joinFrom_runs data
  rw [hruns, joinFrom_empty, if_neg hne, ← joinFrom_zero] at hdata
  rw [unstuff, (unstuffFrom_row false hrow).1, hdata]

/-- Only the last byte of a frame's block is zero. -/
lemma append_zero_inj {body front rest : List UInt8} (hz : 0 ∉ body)
    (h : body ++ [0] = front ++ 0 :: rest) : body = front ∧ rest = [] := by
  induction body generalizing front with
  | nil =>
    cases front with
    | nil => exact ⟨rfl, (List.cons.inj h).2.symm⟩
    | cons b front => simp at h
  | cons b body ih =>
    obtain ⟨hb, hbody⟩ := List.ne_and_not_mem_of_not_mem_cons hz
    cases front with
    | nil => exact absurd (List.cons.inj h).1.symm hb
    | cons c front =>
      obtain ⟨rfl, htail⟩ := List.cons.inj h
      obtain ⟨rfl, rfl⟩ := ih hbody htail
      exact ⟨rfl, rfl⟩

lemma mem_flatMap_block {row : List (List UInt8)} {run : List UInt8} (h : run ∈ row) {b : UInt8}
    (hb : b ∈ run) : b ∈ row.flatMap block :=
  List.mem_flatMap.mpr ⟨run, h, List.mem_cons_of_mem _ hb⟩

/-- A row that takes in the only zero of its block ends in it. -/
lemma row_of_open {body : List UInt8} {row : List (List UInt8)} (hz : 0 ∉ body)
    (h : body ++ [0] = row.flatMap block) :
    ∃ init run, row = init ++ [run ++ [0]] ∧ ∀ r ∈ init ++ [run, []], 0 ∉ r := by
  have hne : row ≠ [] := by
    rintro rfl
    simp at h
  obtain ⟨init, last, rfl⟩ := row.eq_nil_or_concat'.resolve_left hne
  rw [List.flatMap_append, List.flatMap_singleton] at h
  obtain rfl | ⟨run, b, rfl⟩ := last.eq_nil_or_concat'
  · -- The code of an empty run is not the zero that ends the block.
    have hcode := congrArg List.getLast? h
    simp [block] at hcode
  · have hcons : block (run ++ [b]) = UInt8.ofNat ((run ++ [b]).length + 1) :: run ++ [b] := rfl
    rw [hcons, ← List.append_assoc] at h
    obtain ⟨hbody, hb⟩ := List.append_inj' h rfl
    obtain rfl : b = 0 := (List.cons.inj hb).1.symm
    refine ⟨init, run, rfl, fun r hr hmem => hz ?_⟩
    rw [hbody, List.mem_append]
    rw [List.mem_append] at hr
    obtain hr | hr := hr
    · exact .inl (mem_flatMap_block hr hmem)
    · obtain rfl | rfl : r = run ∨ r = [] := by simpa using hr
      · exact .inr (List.mem_cons_of_mem _ hmem)
      · cases hmem

/-- The blocks with one zero, at their end, that are read as some data: their own; one with an empty
run behind a full last one; and, if the data end in a zero, one whose last run takes the end of the
block for that zero. -/
theorem unstuff_eq_some_iff {body data : List UInt8} (hz : 0 ∉ body) (hdata : data ≠ []) :
    unstuff (body ++ [0]) = some data ↔
      body ++ [0] = stuff data ∨
      (∃ init full, runs data = init ++ [full] ∧ full.length = fullRun ∧
        body ++ [0] = (init ++ [full, []]).flatMap block ++ [0]) ∨
      (∃ init run, runs data = init ++ [run, []] ∧
        body ++ [0] = (init ++ [run ++ [0]]).flatMap block) := by
  constructor
  · intro h
    obtain ⟨row, hlength, rfl, hopen | ⟨rest, hended⟩⟩ := unstuffFrom_eq_some h
    · obtain ⟨init, run, rfl, hfree⟩ := row_of_open hz hopen
      have hlast : run.length < fullRun := by
        have hle := hlength (run ++ [0]) (by simp)
        rw [List.length_append, List.length_singleton] at hle
        omega
      have hrow : ∀ r ∈ init ++ [run, []], r.length ≤ fullRun ∧ 0 ∉ r := by
        intro r hr
        refine ⟨?_, hfree r hr⟩
        rw [List.mem_append, List.mem_cons, List.mem_singleton] at hr
        obtain hr | rfl | rfl := hr
        · exact hlength r (List.mem_append_left _ hr)
        · exact Nat.le_of_lt hlast
        · exact Nat.zero_le _
      refine .inr (.inr ⟨init, run, ?_, hopen⟩)
      have hruns := runs_joinFrom (by simp) hrow (not_redundant_of_lt hlast)
      rwa [joinFrom_empty, if_neg (Nat.ne_of_lt hlast), ← joinFrom_zero] at hruns
    · obtain ⟨rfl, rfl⟩ := append_zero_inj hz hended
      have hne : row ≠ [] := by
        rintro rfl
        exact hdata rfl
      have hrow : ∀ r ∈ row, r.length ≤ fullRun ∧ 0 ∉ r :=
        fun r hr => ⟨hlength r hr, fun hmem => hz (mem_flatMap_block hr hmem)⟩
      by_cases hneeded : Redundant row
      · obtain ⟨init, full, hfull, rfl⟩ := hneeded
        refine .inr (.inl ⟨init, full, runs_of_redundant hfull fun r hr => hrow r ?_, hfull, rfl⟩)
        rw [List.append_cons]
        exact List.mem_append_left _ hr
      · exact .inl (by rw [stuff_eq, runs_joinFrom hne hrow hneeded])
  · rintro (hown | ⟨init, full, hruns, hfull, hextra⟩ | ⟨init, run, hruns, hopen⟩)
    · rw [hown]
      exact unstuff_stuff data
    · rw [hextra]
      exact unstuff_extra hruns hfull
    · rw [hopen]
      exact unstuff_absorbed hruns

end FaultBench.Wire.Stuffing
