import FaultBench.Files
import Mathlib.Tactic.Common

/-! A file that could be created is read as the text that was written to it. -/
namespace FaultBench.Files

variable {f g : Files} {names : List String} {place found : Place} {path s : String}
  {c : FileContents}

/-- A new file is in a directory, so no directory is lost. -/
lemma isDirectory_store (h : f.isDirectory names = true) (file : List String) (c : FileContents) :
    (f.store file c).isDirectory names = true := by
  rw [isDirectory, Bool.or_eq_true] at h ⊢
  refine h.imp_right fun hfile => ?_
  obtain ⟨old, hmem, hprefix⟩ := List.any_eq_true.mp hfile
  by_cases hsame : old.1 = file
  · -- What it replaces was in the same directories.
    refine List.any_eq_true.mpr ⟨(file, c), List.mem_cons_self, ?_⟩
    rwa [hsame] at hprefix
  · refine List.any_eq_true.mpr ⟨old, List.mem_cons_of_mem _ ?_, hprefix⟩
    exact List.mem_filter.mpr ⟨hmem, decide_eq_true hsame⟩

lemma isDirectory_store_self (h : f.isDirectory names = false) (c : FileContents) :
    (f.store names c).isDirectory names = false := by
  rw [Bool.eq_false_iff, ne_eq] at h ⊢
  refine fun hdirectory => h ?_
  rw [isDirectory, Bool.or_eq_true] at hdirectory ⊢
  refine hdirectory.imp_right fun hfile => ?_
  obtain ⟨file, hmem, hprefix⟩ := List.any_eq_true.mp hfile
  obtain rfl | hmem := List.mem_cons.mp hmem
  · simp at hprefix
  · exact List.any_eq_true.mpr ⟨file, (List.mem_filter.mp hmem).1, hprefix⟩

/-- With more directories a walk comes to the same place. -/
lemma walk_of_isDirectory (h : ∀ names, f.isDirectory names = true → g.isDirectory names = true)
    (hwalk : f.walk place names = .ok found) : g.walk place names = .ok found := by
  induction names generalizing place with
  | nil => exact hwalk
  | cons name rest ih =>
    cases place with
    | outside =>
      rw [walk] at hwalk ⊢
      split at hwalk
      · next hstays => rw [if_pos hstays, ih hwalk]
      · cases hwalk
    | inside path =>
      rw [walk] at hwalk ⊢
      split at hwalk
      · next hdirectory =>
        rw [if_pos (h path hdirectory)]
        split at hwalk
        · cases hwalk
        · next hlength =>
          rw [if_neg hlength]
          split at hwalk
          · next hstays => rw [if_pos hstays, ih hwalk]
          · next hstays =>
            rw [if_neg hstays]
            split at hwalk
            · next hparent => rw [if_pos hparent, ih hwalk]
            · next hparent => rw [if_neg hparent, ih hwalk]
      · split at hwalk <;> cases hwalk

lemma locate_of_isDirectory (h : ∀ names, f.isDirectory names = true → g.isDirectory names = true)
    (helsewhere : g.elsewhere = f.elsewhere) (hlocate : f.locate path = .ok found) :
    g.locate path = .ok found := by
  rw [locate] at hlocate ⊢
  rw [helsewhere]
  split at hlocate
  · cases hlocate
  · next hempty =>
    rw [if_neg hempty]
    split at hlocate
    · cases hlocate
    · next hlength =>
      rw [if_neg hlength]
      split at hlocate
      · cases hlocate
      · next hfile => rw [if_neg hfile, walk_of_isDirectory h hlocate]

/-- The place of a new file is the one that its path leads to, as the path has no slash at its
end. -/
lemma locate_of_target (h : f.target path = .ok names) :
    f.locate path = .ok (.inside names) ∧ f.isDirectory names = false := by
  simp only [target] at h
  generalize String.ofList (path.toList.reverse.dropWhile (· == '/')).reverse = trimmed at h
  cases hlocate : f.locate (if trimmed = "" then path else trimmed) with
  | error e =>
    rw [hlocate] at h
    cases h
  | ok found =>
    rw [hlocate] at h
    cases found with
    | outside => cases h
    | inside there =>
      change (if _ then _ else _) = _ at h
      split at h
      · cases h
      · next hfile =>
        cases h
        rw [Bool.or_eq_true, not_or, decide_eq_true_iff, not_not, Bool.not_eq_true] at hfile
        obtain ⟨rfl, hfile⟩ := hfile
        rw [ite_self] at hlocate
        exact ⟨hlocate, hfile⟩

/-- What was written to a file is there. -/
theorem get_create (h : f.create path c = .ok g) : g.get path = .ok c := by
  rw [create] at h
  split at h
  · cases h
    simp [get]
  · next helsewhere =>
    rw [Bool.not_eq_true, Option.isSome_eq_false_iff, Option.isNone_iff_eq_none] at helsewhere
    cases htarget : f.target path with
    | error e =>
      rw [htarget] at h
      cases h
    | ok names =>
      rw [htarget] at h
      cases h
      obtain ⟨hlocate, hfile⟩ := locate_of_target htarget
      have hfound : (f.store names c).locate path = .ok (.inside names) :=
        locate_of_isDirectory (fun _ hdirectory => isDirectory_store hdirectory names c) rfl hlocate
      have hthere : (f.store names c).getAt (.inside names) = .ok c := by
        rw [getAt, isDirectory_store_self hfile]
        simp [store]
      have hnone : (f.store names c).elsewhere.lookup path = none := helsewhere
      rw [get, hnone, hfound]
      exact hthere

theorem read_create (h : f.create path (.text s) = .ok g) : g.read path = .ok s := by
  rw [read, get_create h]
  rfl

end FaultBench.Files
