import SourceArchive.Proofs.Facts

/-!
# Order of first occurrence and stable sorting

A list without repetitions keeps its members in the order in which they first occur; `FirstOccurrences` says so by their
places, and adding one member at a time keeps it.  Sorting is stable: members that are equal in the order stay in the
order in which they stood.
-/

namespace SourceArchive

/-! ## First occurrences -/

section FirstOccurrences

variable {α : Type} [BEq α]

/-- `listed` holds the members of `source` that satisfy `P`, each once and in the order in which they first occur. -/
structure FirstOccurrences (P : α → Prop) (source listed : List α) : Prop where
  mem_iff : ∀ x, x ∈ listed ↔ x ∈ source ∧ P x
  ordered : listed.Pairwise fun x y => source.idxOf x < source.idxOf y

namespace FirstOccurrences

variable {P : α → Prop} {source listed : List α}

theorem nil : FirstOccurrences P ([] : List α) [] := ⟨by simp, .nil⟩

theorem nodup (h : FirstOccurrences P source listed) : listed.Nodup :=
  h.ordered.imp fun hlt he => Nat.ne_of_lt hlt (congrArg source.idxOf he)

/-- What is picked out of such a list stays in order. -/
theorem filter (h : FirstOccurrences P source listed) {p : α → Bool} {Q : α → Prop}
    (hp : ∀ x ∈ source, Q x ↔ P x ∧ p x = true) : FirstOccurrences Q source (listed.filter p) where
  mem_iff x := by
    rw [List.mem_filter, h.mem_iff, and_assoc]
    exact and_congr_right fun hx => (hp x hx).symm
  ordered := h.ordered.filter p

variable [LawfulBEq α]

/-- One more member is listed behind all others, or it was listed before. -/
theorem concat (h : FirstOccurrences (fun _ => True) source listed) (x : α) :
    FirstOccurrences (fun _ => True) (source ++ [x]) (addNew listed x) where
  mem_iff y := by simp [mem_addNew, h.mem_iff]
  ordered := by
    have hmem {y : α} (hy : y ∈ listed) : y ∈ source := ((h.mem_iff y).mp hy).1
    have hold : listed.Pairwise fun y z => (source ++ [x]).idxOf y < (source ++ [x]).idxOf z := by
      refine h.ordered.imp_of_mem fun hy hz hlt => ?_
      rwa [List.idxOf_append_of_mem (hmem hy), List.idxOf_append_of_mem (hmem hz)]
    unfold addNew
    split
    · exact hold
    · rename_i hnew
      have hx : x ∉ source := fun hx => hnew (List.contains_iff_mem.mpr ((h.mem_iff x).mpr ⟨hx, trivial⟩))
      refine List.pairwise_append.mpr ⟨hold, List.pairwise_singleton _ x, fun y hy z hz => ?_⟩
      obtain rfl := List.mem_singleton.mp hz
      rw [List.idxOf_append_of_mem (hmem hy), List.idxOf_append_of_notMem hx]
      exact Nat.lt_add_right _ (List.idxOf_lt_length_of_mem (hmem hy))

end FirstOccurrences

variable [LawfulBEq α]

theorem firstOccurrences_distinct (source : List α) :
    FirstOccurrences (fun _ => True) source (distinct source) := by
  induction source using List.reverseRecOn with
  | nil => exact .nil
  | append_singleton source x ih =>
    rw [distinct_concat]
    exact ih.concat x

theorem distinct_filter (p : α → Bool) (l : List α) : distinct (l.filter p) = (distinct l).filter p := by
  induction l using List.reverseRecOn with
  | nil => rfl
  | append_singleton l x ih =>
    rw [distinct_concat, List.filter_append, addNew]
    by_cases hp : p x = true
    · have hx : [x].filter p = [x] := List.filter_eq_self.mpr (by simpa using hp)
      rw [hx, distinct_concat, ih, addNew]
      by_cases hl : x ∈ l
      · rw [if_pos (by simp [mem_distinct, hl, hp]), if_pos (by simp [mem_distinct, hl])]
      · rw [if_neg (by simp [mem_distinct, hl]), if_neg (by simp [mem_distinct, hl]), List.filter_append, hx]
    · have hx : [x].filter p = [] := List.filter_eq_nil_iff.mpr (by simpa using hp)
      rw [hx, List.append_nil, ih]
      split
      · rfl
      · rw [List.filter_append, hx, List.append_nil]

end FirstOccurrences

/-! ## Entries in order of first occurrence -/

section Enter

variable {κ α : Type} [DecidableEq κ] [BEq κ] [LawfulBEq κ]

/-- A key without an entry gets one behind all others. -/
theorem map_fst_enter (key : κ) (change : Option α → α) (es : List (κ × α)) :
    (enter key change es).map (·.1) = addNew (es.map (·.1)) key := by
  induction es with
  | nil => rfl
  | cons e es ih =>
    obtain ⟨k, a⟩ := e
    rw [enter]
    split
    · rename_i h
      simp [addNew, h]
    · rename_i h
      rw [List.map_cons, ih, addNew, addNew, List.map_cons, List.contains_cons, beq_eq_false_iff_ne.mpr (Ne.symm h),
        Bool.false_or]
      split
      · rfl
      · rfl

/-- Entries that go by their keys go by their keys again. -/
theorem enter_map {ks : List κ} (hks : ks.Nodup) (key : κ) (change : Option α → α) {g g' : κ → α}
    (hold : key ∈ ks → g' key = change (some (g key))) (hnew : key ∉ ks → g' key = change none)
    (hother : ∀ k, k ≠ key → g' k = g k) :
    enter key change (ks.map fun k => (k, g k)) = (addNew ks key).map fun k => (k, g' k) := by
  induction ks with
  | nil => simp [enter, addNew, hnew]
  | cons k ks ih =>
    obtain ⟨hk, hks⟩ := List.nodup_cons.mp hks
    rw [List.map_cons, enter]
    by_cases h : k = key
    · subst h
      have hrest : (ks.map fun k => (k, g k)) = ks.map fun k => (k, g' k) :=
        List.map_congr_left fun x hx => by rw [hother x fun he => hk (he ▸ hx)]
      rw [if_pos rfl, addNew, if_pos (by simp), List.map_cons, hold List.mem_cons_self, hrest]
    · have hmem : key ∈ k :: ks ↔ key ∈ ks := by simp [Ne.symm h]
      rw [if_neg h, ih hks (fun h' => hold (hmem.mpr h')) fun h' => hnew (hmem.not.mpr h')]
      have hadd : addNew (k :: ks) key = k :: addNew ks key := by
        rw [addNew, addNew, List.contains_cons, beq_eq_false_iff_ne.mpr (Ne.symm h), Bool.false_or]
        split
        · rfl
        · rfl
      rw [hadd, List.map_cons, hother k h]

end Enter

/-! ## Stable sorting -/

section Sorting

variable {α : Type} {le : α → α → Bool} (trans : ∀ a b c, le a b = true → le b c = true → le a c = true)
  (total : ∀ a b, (le a b || le b a) = true)

include trans total

/-- Members that are equal in the order stay as they stood. -/
theorem filter_mergeSort {p : α → Bool} (hp : ∀ a b, p a = true → p b = true → le a b = true) (l : List α) :
    (l.mergeSort le).filter p = l.filter p := by
  have hsorted : (l.filter p).Pairwise fun a b => le a b = true :=
    List.pairwise_of_forall_mem_list fun a ha b hb => hp a b (List.of_mem_filter ha) (List.of_mem_filter hb)
  have hsub := (List.sublist_mergeSort trans total hsorted List.filter_sublist).filter p
  rw [List.filter_filter, funext fun a => Bool.and_self (p a)] at hsub
  have hlength := ((List.mergeSort_perm l le).filter p).length_eq
  exact (hsub.eq_of_length hlength.symm).symm

end Sorting

end SourceArchive
