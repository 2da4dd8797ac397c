import SourceArchive.Check.Paths
import SourceArchive.Proofs.Order

/-!
# The checks of paths are exact

Each check goes through a list of paths and reports some of them.  Which ones, how often and in what order is said by the
list alone (`FirstOccurrences`): a path is reported once, however often it occurs, and at the place where it occurs first.
-/

namespace SourceArchive

namespace PathCheck

/-- The findings are about the paths that satisfy `P`, each once and in the order in which they first occur, and the
finding about a path is what `make` says. -/
structure Reports (make : Text → Finding) (P : Text → Prop) (paths : List Text) (found : List Finding) : Prop where
  paths : FirstOccurrences P paths (found.map (·.path))
  findings : ∀ f ∈ found, f = make f.path

section Map

variable {make : Text → Finding} (hmake : ∀ p, (make p).path = p)

include hmake

theorem map_path_map (listed : List Text) : (listed.map make).map (·.path) = listed := by
  rw [List.map_map, show (·.path) ∘ make = id from funext hmake, List.map_id]

theorem reports_map {P : Text → Prop} {paths listed : List Text} (h : FirstOccurrences P paths listed) :
    Reports make P paths (listed.map make) where
  paths := by rwa [map_path_map hmake]
  findings f hf := by
    obtain ⟨p, -, rfl⟩ := List.mem_map.mp hf
    rw [hmake]

end Map

/-- The error about a path that occurs more than once. -/
def repeated (paths : List Text) (p : Text) : Finding :=
  .error .duplicate p ("File appears " ++ decimal (paths.count p) ++ " times")

/-- The error about a path that the annotated archive lacks. -/
def lost (p : Text) : Finding := .error .missing p "In original but missing from annotated output"

/-- The warning about a path that the plain archive lacks. -/
def added (p : Text) : Finding := .warning .extra p "In annotated output but not in original"

/-- Counting path by path enters each path where it first occurs, with its number. -/
theorem entries_ofList (paths : List Text) :
    (Distribution.ofList paths).entries = (distinct paths).map fun p => (p, paths.count p) := by
  induction paths using List.reverseRecOn with
  | nil => rfl
  | append_singleton paths path ih =>
    have hentries : (Distribution.ofList (paths ++ [path])).entries =
        enter path (fun n => n.getD 0 + 1) (Distribution.ofList paths).entries := by
      rw [Distribution.ofList, List.foldl_concat]
      rfl
    rw [hentries, ih, distinct_concat]
    refine enter_map (nodup_distinct paths) path _ (fun _ => ?_) (fun hnew => ?_) fun p hp => ?_
    · simp [List.count_append]
    · simp [List.count_append, List.count_eq_zero.mpr fun h => hnew (mem_distinct.mpr h)]
    · simp [List.count_append, Ne.symm hp]

/-- Each path that occurs more than once is reported with its number. -/
theorem duplicates_eq (paths : List Text) :
    duplicates paths = ((distinct paths).filter fun p => 1 < paths.count p).map (repeated paths) := by
  rw [duplicates, entries_ofList, List.filter_map, List.map_map]
  rfl

theorem reports_duplicates (paths : List Text) :
    Reports (repeated paths) (fun p => 2 ≤ paths.count p) paths (duplicates paths) := by
  rw [duplicates_eq]
  exact reports_map (fun _ => rfl) ((firstOccurrences_distinct paths).filter fun p _ => by simp [Nat.succ_le_iff])

/-- The paths that another list lacks keep their order, whatever is repeated in either list. -/
theorem firstOccurrences_absent (paths others : List Text) :
    FirstOccurrences (· ∉ others) paths (absent paths others) := by
  rw [absent, distinct_filter]
  exact (firstOccurrences_distinct paths).filter fun p _ => by simp

theorem absent_eq_nil_iff {paths others : List Text} : absent paths others = [] ↔ ∀ p ∈ paths, p ∈ others := by
  rw [List.eq_nil_iff_forall_not_mem]
  simp only [(firstOccurrences_absent paths others).mem_iff, not_and, not_not]

theorem reports_missing (plain annotated : List Text) :
    Reports lost (· ∉ annotated) plain (missing plain annotated) :=
  reports_map (fun _ => rfl) (firstOccurrences_absent plain annotated)

theorem reports_extra (plain annotated : List Text) :
    Reports added (· ∉ plain) annotated (extra plain annotated) :=
  reports_map (fun _ => rfl) (firstOccurrences_absent annotated plain)

theorem map_path_missing (plain annotated : List Text) :
    (missing plain annotated).map (·.path) = absent plain annotated := map_path_map (fun _ => rfl) _

theorem map_path_extra (plain annotated : List Text) :
    (extra plain annotated).map (·.path) = absent annotated plain := map_path_map (fun _ => rfl) _

/-- Paths that occur more than once are reported with their number.  Of two archives each path that only one has is
reported, nothing is if they have the same paths, and the two reports change places with the archives. -/
theorem checks_exact (paths plain annotated : List Text) :
    Reports (repeated paths) (fun p => 2 ≤ paths.count p) paths (duplicates paths) ∧
      Reports lost (· ∉ annotated) plain (missing plain annotated) ∧
      Reports added (· ∉ plain) annotated (extra plain annotated) ∧
      (missing plain annotated = [] ∧ extra plain annotated = [] ↔ ∀ p, p ∈ plain ↔ p ∈ annotated) ∧
      (missing annotated plain).map (·.path) = (extra plain annotated).map (·.path) ∧
      (extra annotated plain).map (·.path) = (missing plain annotated).map (·.path) := by
  refine ⟨reports_duplicates paths, reports_missing plain annotated, reports_extra plain annotated, ?_, ?_, ?_⟩
  · rw [missing, extra, List.map_eq_nil_iff, List.map_eq_nil_iff, absent_eq_nil_iff, absent_eq_nil_iff]
    constructor
    · rintro ⟨hplain, hannotated⟩ p
      exact ⟨hplain p, hannotated p⟩
    · intro h
      exact ⟨fun p => (h p).mp, fun p => (h p).mpr⟩
  · rw [map_path_missing, map_path_extra]
  · rw [map_path_missing, map_path_extra]

end PathCheck

end SourceArchive
