import SourceArchive.Proofs.Buckets
import SourceArchive.Proofs.Consistency
import SourceArchive.Proofs.Order

/-!
# Findings by category

Grouping puts findings in the order of their categories' labels and changes nothing else: the groups one behind the other
are the stable sort of the findings (`Finding.Grouping`).  Two lists in that order are the same if they agree category
by category, and within a category both grouping and sorting leave the findings as they stood.
-/

namespace SourceArchive

namespace Category

theorem mem_all (c : Category) : c ∈ all := by cases c <;> decide

theorem pairwise_all : all.Pairwise fun c d => c.label < d.label := by decide

theorem rank_injective {c d : Category} (h : c.rank = d.rank) : c = d := (List.idxOf_inj (mem_all c)).mp h

theorem pairwise_rank_all : all.Pairwise fun c d => c.rank ≤ d.rank := by decide

theorem label_injective {c d : Category} (h : c.label = d.label) : c = d := by
  have hall : ∀ c ∈ all, ∀ d ∈ all, c.label = d.label → c = d := by decide
  exact hall c (mem_all c) d (mem_all d) h

end Category

namespace Finding

/-! ## Findings in the order of their labels -/

/-- The findings stand in the alphabetical order of their labels. -/
def Ordered (fs : List Finding) : Prop := fs.Pairwise fun f g => f.category.label ≤ g.category.label

theorem mem_of_ofCategory_eq {fs gs : List Finding} (h : ∀ c, ofCategory c fs = ofCategory c gs) {f : Finding}
    (hf : f ∈ fs) : f ∈ gs := by
  have hmem : f ∈ ofCategory f.category fs := List.mem_filter.mpr ⟨hf, decide_eq_true rfl⟩
  rw [h] at hmem
  exact (List.mem_filter.mp hmem).1

theorem Ordered.label_head_le {f g : Finding} {fs : List Finding} (h : Ordered (f :: fs)) (hg : g ∈ f :: fs) :
    f.category.label ≤ g.category.label := by
  rcases List.mem_cons.mp hg with rfl | hg
  · exact le_refl _
  · exact List.rel_of_pairwise_cons h hg

/-- Ordered findings are known by what they are category by category. -/
theorem Ordered.eq_of_ofCategory_eq {fs gs : List Finding} (hf : Ordered fs) (hg : Ordered gs)
    (h : ∀ c, ofCategory c fs = ofCategory c gs) : fs = gs := by
  induction fs generalizing gs with
  | nil =>
    rw [eq_comm, List.eq_nil_iff_forall_not_mem]
    exact fun g hmem => absurd (mem_of_ofCategory_eq (fun c => (h c).symm) hmem) List.not_mem_nil
  | cons f fs ih =>
    have hfg : f ∈ gs := mem_of_ofCategory_eq h List.mem_cons_self
    cases gs with
    | nil => cases hfg
    | cons g gs =>
      have hgf : g ∈ f :: fs := mem_of_ofCategory_eq (fun c => (h c).symm) List.mem_cons_self
      -- both first findings have the least label, so they head the same category
      have hcategory : f.category = g.category :=
        Category.label_injective (le_antisymm (hf.label_head_le hgf) (hg.label_head_le hfg))
      have hhead := h f.category
      rw [ofCategory, ofCategory, List.filter_cons_of_pos (by simp), List.filter_cons_of_pos (by simp [hcategory])] at hhead
      obtain rfl : f = g := (List.cons.inj hhead).1
      refine congrArg (f :: ·) (ih hf.tail hg.tail fun c => ?_)
      have hc := h c
      by_cases hfc : f.category = c
      · rw [ofCategory, ofCategory, List.filter_cons_of_pos (by simpa using hfc),
          List.filter_cons_of_pos (by simpa using hfc)] at hc
        exact (List.cons.inj hc).2
      · rw [ofCategory, ofCategory, List.filter_cons_of_neg (by simpa using hfc),
          List.filter_cons_of_neg (by simpa using hfc)] at hc
        exact hc

/-- The findings of a severity, sorted by the labels of their categories.  Sorting is stable. -/
def sorted (severity : Severity) (fs : List Finding) : List Finding :=
  (withSeverity severity fs).mergeSort fun f g => Text.le f.category.label g.category.label

theorem label_le_trans (f g k : Finding) (hfg : Text.le f.category.label g.category.label = true)
    (hgk : Text.le g.category.label k.category.label = true) : Text.le f.category.label k.category.label = true :=
  Text.le_iff.mpr ((Text.le_iff.mp hfg).trans (Text.le_iff.mp hgk))

theorem label_le_total (f g : Finding) :
    (Text.le f.category.label g.category.label || Text.le g.category.label f.category.label) = true := by
  rw [Bool.or_eq_true, Text.le_iff, Text.le_iff]
  exact le_total _ _

theorem ordered_sorted (severity : Severity) (fs : List Finding) : Ordered (sorted severity fs) :=
  (List.pairwise_mergeSort label_le_trans label_le_total _).imp Text.le_iff.mp

theorem ofCategory_sorted (severity : Severity) (fs : List Finding) (c : Category) :
    ofCategory c (sorted severity fs) = within severity c fs := by
  refine filter_mergeSort label_le_trans label_le_total (fun f g hf hg => ?_) _
  rw [of_decide_eq_true hf, of_decide_eq_true hg]
  exact Text.le_iff.mpr (le_refl _)

/-! ## Groups -/

/-- The groups of the findings of a severity: in strict alphabetical order, none of them empty, each with findings of its
own category, and one behind the other they are the stable sort of the findings. -/
structure Grouping (severity : Severity) (fs : List Finding) (groups : List (Category × List Finding)) : Prop where
  ordered : groups.Pairwise fun p q => p.1.label < q.1.label
  nonempty : ∀ p ∈ groups, p.2 ≠ []
  category : ∀ p ∈ groups, ∀ f ∈ p.2, f.category = p.1
  members : groups.flatMap (·.2) = sorted severity fs

/-- The findings of a severity by category, empty groups included. -/
def byCategory (severity : Severity) (fs : List Finding) : List (Category × List Finding) :=
  Category.all.map fun c => (c, within severity c fs)

/-- Gathering finding by finding opens a group where its category first comes up and puts further findings behind. -/
theorem groups_eq (fs : List Finding) :
    groups fs = (distinct (fs.map (·.category))).map fun c => (c, ofCategory c fs) := by
  induction fs using List.reverseRecOn with
  | nil => rfl
  | append_singleton fs f ih =>
    rw [groups, List.foldl_concat, ← groups, ih, List.map_append, List.map_singleton, distinct_concat]
    refine enter_map (nodup_distinct _) f.category _ (fun _ => ?_) (fun hnew => ?_) fun c hc => ?_
    · simp [ofCategory]
    · have hnone : ofCategory f.category fs = [] := by
        rw [ofCategory, List.filter_eq_nil_iff]
        intro g hg hcategory
        exact hnew (mem_distinct.mpr (List.mem_map.mpr ⟨g, hg, of_decide_eq_true hcategory⟩))
      rw [ofCategory, List.filter_append, ← ofCategory, hnone]
      simp
    · simp [ofCategory, Ne.symm hc]

/-- The categories that come up, sorted, are those of all categories that have findings. -/
theorem mergeSort_categories (severity : Severity) (fs : List Finding) :
    (distinct ((withSeverity severity fs).map (·.category))).mergeSort (fun c d => c.rank ≤ d.rank) =
      Category.all.filter fun c => !(within severity c fs).isEmpty := by
  have htrans (a b c : Category) (hab : decide (a.rank ≤ b.rank) = true) (hbc : decide (b.rank ≤ c.rank) = true) :
      decide (a.rank ≤ c.rank) = true := decide_eq_true ((of_decide_eq_true hab).trans (of_decide_eq_true hbc))
  have htotal (a b : Category) : (decide (a.rank ≤ b.rank) || decide (b.rank ≤ a.rank)) = true := by
    simpa using le_total a.rank b.rank
  have hmem (c : Category) : c ∈ distinct ((withSeverity severity fs).map (·.category)) ↔
      (!(within severity c fs).isEmpty) = true := by
    simp only [mem_distinct, List.mem_map, within, Bool.not_eq_true', List.isEmpty_eq_false_iff_exists_mem, List.mem_filter,
      decide_eq_true_eq]
  have hnodup : Category.all.Nodup := by decide
  refine List.Perm.eq_of_pairwise (fun c d _ _ hcd hdc => Category.rank_injective (le_antisymm hcd hdc))
    ((List.pairwise_mergeSort htrans htotal _).imp of_decide_eq_true) (Category.pairwise_rank_all.filter _) ?_
  refine (List.mergeSort_perm _ _).trans ((List.perm_ext_iff_of_nodup (nodup_distinct _) (hnodup.filter _)).mpr fun c => ?_)
  rw [hmem, List.mem_filter, and_iff_right (Category.mem_all c)]

/-- The groups are those of all categories, without the empty ones. -/
theorem grouped_eq (severity : Severity) (fs : List Finding) :
    grouped severity fs = (byCategory severity fs).filter (!·.2.isEmpty) := by
  have hmap := List.map_mergeSort (r := fun c d => decide (c.rank ≤ d.rank))
    (s := fun g h : Category × List Finding => decide (g.1.rank ≤ h.1.rank))
    (f := fun c => (c, ofCategory c (withSeverity severity fs)))
    (l := distinct ((withSeverity severity fs).map (·.category))) fun _ _ _ _ => rfl
  rw [grouped, groups_eq, ← hmap, mergeSort_categories, byCategory, List.filter_map]
  rfl

theorem map_fst_byCategory (severity : Severity) (fs : List Finding) :
    (byCategory severity fs).map (·.1) = Category.all := by
  rw [byCategory, List.map_map]
  exact List.map_id _

theorem category_of_mem_byCategory {severity : Severity} {fs : List Finding} :
    ∀ p ∈ byCategory severity fs, ∀ f ∈ p.2, f.category = p.1 := by
  intro p hp f hf
  obtain ⟨c, -, rfl⟩ := List.mem_map.mp hp
  exact of_decide_eq_true (List.mem_filter.mp hf).2

/-- Empty groups add nothing. -/
theorem flatMap_grouped (severity : Severity) (fs : List Finding) :
    (grouped severity fs).flatMap (·.2) = (byCategory severity fs).flatMap (·.2) := by
  rw [grouped_eq]
  induction byCategory severity fs with
  | nil => rfl
  | cons p ps ih =>
    obtain ⟨c, group⟩ := p
    cases group with
    | nil => simpa using ih
    | cons f group => simpa using ih

theorem flatMap_byCategory (severity : Severity) (fs : List Finding) :
    (byCategory severity fs).flatMap (·.2) = sorted severity fs := by
  have hcategory : ∀ p ∈ byCategory severity fs, ∀ f ∈ p.2, f.category = p.1 := category_of_mem_byCategory
  have hordered : Ordered ((byCategory severity fs).flatMap (·.2)) := by
    refine pairwise_flatMap (R := fun c d => c.label ≤ d.label) hcategory (fun _ => le_refl _) ?_
    rw [map_fst_byCategory]
    exact Category.pairwise_all.imp le_of_lt
  refine hordered.eq_of_ofCategory_eq (ordered_sorted severity fs) fun c => ?_
  have hmem : (c, within severity c fs) ∈ byCategory severity fs := List.mem_map_of_mem (Category.mem_all c)
  have hnodup : ((byCategory severity fs).map (·.1)).Nodup := by
    rw [map_fst_byCategory]
    decide
  rw [ofCategory_sorted]
  exact ofCategory_flatMap_parts hcategory hnodup hmem

theorem grouping_grouped (severity : Severity) (fs : List Finding) : Grouping severity fs (grouped severity fs) where
  ordered := by
    rw [grouped_eq]
    have hall : ((byCategory severity fs).map (·.1)).Pairwise fun c d => c.label < d.label := by
      rw [map_fst_byCategory]
      exact Category.pairwise_all
    exact (List.pairwise_map.mp hall).filter _
  nonempty p hp := by
    rw [grouped_eq] at hp
    simpa using (List.mem_filter.mp hp).2
  category p hp := by
    rw [grouped_eq] at hp
    exact category_of_mem_byCategory p (List.mem_filter.mp hp).1
  members := (flatMap_grouped severity fs).trans (flatMap_byCategory severity fs)

theorem mem_of_mem_grouped {severity : Severity} {fs : List Finding} {group : Category × List Finding}
    (hgroup : group ∈ grouped severity fs) {f : Finding} (hf : f ∈ group.2) : f ∈ fs := by
  have hmem : f ∈ sorted severity fs := by
    rw [← (grouping_grouped severity fs).members]
    exact List.mem_flatMap.mpr ⟨group, hgroup, hf⟩
  exact (List.mem_filter.mp (List.mem_mergeSort.mp hmem)).1

end Finding

end SourceArchive
