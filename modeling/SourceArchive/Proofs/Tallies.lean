import SourceArchive.Enhancement
import SourceArchive.Proofs.Order

/-!
# What distributions count

A distribution counts labels one by one (`Distribution.Tallies`): each label is entered where it comes up first, and its
entry counts how often it came up.  The totals over an archive are gathered section by section in the same way, so they
say of the sections what the distributions say of their labels.
-/

namespace SourceArchive

namespace Distribution

/-- What a distribution of `labels` says, in order of entry and sorted. -/
structure Tallies (labels : List Text) (d : Distribution) : Prop where
  listed : FirstOccurrences (fun _ => True) labels (d.entries.map (·.1))
  entries : ∀ e ∈ d.entries, e.2 = labels.count e.1
  count : ∀ label, d.count label = labels.count label
  total : d.total = labels.length
  sorted_perm : d.sorted.Perm d.entries
  sorted_descending : d.sorted.Pairwise fun a b => b.2 ≤ a.2
  sorted_stable : ∀ n, (d.sorted.filter fun e => e.2 = n) = d.entries.filter fun e => e.2 = n

variable {labels : List Text} {d : Distribution}

theorem count_of_mem (hn : (d.entries.map (·.1)).Nodup) {e : Text × Nat} (he : e ∈ d.entries) : d.count e.1 = e.2 := by
  obtain ⟨es⟩ := d
  induction es with
  | nil => cases he
  | cons first es ih =>
    obtain ⟨k, n⟩ := first
    rw [List.map_cons, List.nodup_cons] at hn
    rw [count_cons]
    rcases List.mem_cons.mp he with rfl | hmem
    · rw [if_pos rfl]
    · have hne : e.1 ≠ k := fun h => hn.1 (List.mem_map.mpr ⟨e, hmem, h⟩)
      rw [if_neg hne]
      exact ih hn.2 hmem

/-- Sorting puts entries with a higher count in front and leaves those with the same count in order. -/
theorem tallies_of (hlisted : FirstOccurrences (fun _ => True) labels (d.entries.map (·.1)))
    (hcount : ∀ label, d.count label = labels.count label) (htotal : d.total = labels.length) : Tallies labels d := by
  have htrans (a b c : Text × Nat) (hab : decide (b.2 ≤ a.2) = true) (hbc : decide (c.2 ≤ b.2) = true) :
      decide (c.2 ≤ a.2) = true :=
    decide_eq_true ((of_decide_eq_true hbc).trans (of_decide_eq_true hab))
  have hall (a b : Text × Nat) : (decide (b.2 ≤ a.2) || decide (a.2 ≤ b.2)) = true := by
    simpa using le_total b.2 a.2
  exact {
    listed := hlisted
    entries := fun e he => by rw [← hcount, count_of_mem hlisted.nodup he]
    count := hcount
    total := htotal
    sorted_perm := List.mergeSort_perm _ _
    sorted_descending := (List.pairwise_mergeSort htrans hall d.entries).imp of_decide_eq_true
    sorted_stable := fun n => filter_mergeSort htrans hall (fun a b ha hb => by simp_all) d.entries }

theorem Tallies.add (h : Tallies labels d) (label : Text) : Tallies (labels ++ [label]) (d.add label) := by
  refine tallies_of ?_ (fun l => ?_) ?_
  · have hentries : (d.add label).entries.map (·.1) = addNew (d.entries.map (·.1)) label := map_fst_enter label _ d.entries
    rw [hentries]
    exact h.listed.concat label
  · rw [count_add, h.count, List.count_append, List.count_singleton]
    simp only [beq_iff_eq, @eq_comm Text l]
  · rw [total_add, h.total, List.length_append, List.length_singleton]

theorem tallies_foldl_add (labels : List Text) : Tallies labels (labels.foldl Distribution.add {}) := by
  induction labels using List.reverseRecOn with
  | nil => exact tallies_of .nil (fun _ => rfl) rfl
  | append_singleton labels label ih =>
    rw [List.foldl_concat]
    exact ih.add label

theorem tallies_ofList (labels : List Text) : Tallies labels (ofList labels) := tallies_foldl_add labels

end Distribution

namespace Statistics

/-- The distribution `d` counts each section once, under its label. -/
structure Classes (label : Metadata → Text) (ms : List Metadata) (d : Distribution) : Prop where
  total : d.total = ms.length
  count : ∀ l, d.count l = (ms.filter fun m => label m = l).length

/-- What the totals over sections say. -/
structure Totals (ms : List Metadata) (s : Statistics) : Prop where
  sections : s.sections = ms.length
  roles : Classes (·.role.label) ms s.roles
  flows : Classes (·.flow.label) ms s.flows
  frameworks : Classes (·.framework.label) ms s.frameworks
  stateVariables : s.stateVariables = sumOf (ms.map (·.state.length))
  props : s.props = sumOf (ms.map (·.props.length))
  endpoints : s.endpoints = sumOf (ms.map (·.endpoints.length))
  contexts : s.contexts = sumOf (ms.map (·.contexts.length))

/-- Section by section the distributions gather the labels and the other totals the sums. -/
theorem of_eq (ms : List Metadata) : of ms = {
    sections := ms.length
    roles := .ofList (ms.map (·.role.label))
    flows := .ofList (ms.map (·.flow.label))
    frameworks := .ofList (ms.map (·.framework.label))
    stateVariables := sumOf (ms.map (·.state.length))
    props := sumOf (ms.map (·.props.length))
    endpoints := sumOf (ms.map (·.endpoints.length))
    contexts := sumOf (ms.map (·.contexts.length)) } := by
  induction ms using List.reverseRecOn with
  | nil => rfl
  | append_singleton ms m ih =>
    rw [of, List.foldl_concat, ← of, ih]
    simp [add, Distribution.ofList, List.foldl_append, sumOf_append, sumOf]

theorem classes_ofList (label : Metadata → Text) (ms : List Metadata) :
    Classes label ms (.ofList (ms.map label)) where
  total := by rw [Distribution.total_ofList, List.length_map]
  count l := by
    rw [Distribution.count_ofList, List.count, List.countP_map, List.countP_eq_length_filter]
    exact congrArg List.length (List.filter_congr fun m _ => Bool.eq_iff_iff.mpr (by simp))

theorem totals_of (ms : List Metadata) : Totals ms (of ms) := by
  rw [of_eq]
  exact ⟨rfl, classes_ofList _ ms, classes_ofList _ ms, classes_ofList _ ms, rfl, rfl, rfl, rfl⟩

end Statistics

/-- Labels are counted one by one, whether they are added or given as a list, and the totals over an archive count its
sections and what was found in them. -/
theorem distributions_tally :
    (∀ labels : List Text, (labels.foldl Distribution.add {}).Tallies labels ∧ (Distribution.ofList labels).Tallies labels) ∧
      ∀ (c : Classifier) (archive : Text),
        (c.enhance archive).statistics.Totals ((split archive).map fun s => (c.analyze s).metadata) := by
  refine ⟨fun labels => ⟨Distribution.tallies_foldl_add labels, Distribution.tallies_ofList labels⟩, fun c archive => ?_⟩
  have hmetadata : (c.enhance archive).sections.map (·.metadata) = (split archive).map fun s => (c.analyze s).metadata :=
    List.map_map
  rw [← hmetadata]
  exact Statistics.totals_of _

end SourceArchive
