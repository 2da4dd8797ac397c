import SourceArchive.Proofs.Bindings
import SourceArchive.Proofs.ContextReads
import SourceArchive.Proofs.Specifiers
import Mathlib.Data.Char
import Mathlib.Data.List.Lex

/-!
# The buckets of a dependency tree

A tree sorts the names that a file binds and the hooks that it calls into four buckets.  None is lost and none is
invented (`DependencyTree.of_buckets`): which bucket a name is in can be read off the name and the module that it comes
from, and a called hook is found wherever a call stands in the code, since no call begins within another.
-/

namespace SourceArchive

open Text Pattern

/-! ## Lists in ascending order -/

theorem Text.le_iff {a b : Text} : Text.le a b = true ↔ a ≤ b := by
  induction a generalizing b with
  | nil =>
    cases b with
    | nil => simp [Text.le]
    | cons y b => simpa [Text.le] using le_of_lt (List.nil_lt_cons y b)
  | cons x a ih =>
    cases b with
    | nil => simp [Text.le]
    | cons y b =>
      rw [le_iff_lt_or_eq, List.cons_lt_cons_iff]
      simp only [Text.le, Bool.or_eq_true, Bool.and_eq_true, decide_eq_true_eq, beq_iff_eq, ih, le_iff_lt_or_eq,
        List.cons.injEq]
      tauto

namespace DependencyTree

theorem pairwise_sortedSet (ts : List Text) : (sortedSet ts).Pairwise (· < ·) := by
  have hsorted : (ts.mergeSort Text.le).Pairwise (· ≤ ·) := by
    have h := @List.pairwise_mergeSort Text Text.le (fun a b c hab hbc => ?_) (fun a b => ?_) ts
    · exact h.imp Text.le_iff.mp
    · exact Text.le_iff.mpr ((Text.le_iff.mp hab).trans (Text.le_iff.mp hbc))
    · rw [Bool.or_eq_true, Text.le_iff, Text.le_iff]
      exact le_total a b
  have hle : (sortedSet ts).Pairwise (· ≤ ·) := hsorted.sublist (distinct_sublist _)
  exact hle.imp₂ (fun a b hab hne => lt_of_le_of_ne hab hne) (nodup_distinct _)

theorem length_sortedSet_le (ts : List Text) : (sortedSet ts).length ≤ ts.length := by
  have h := (distinct_sublist (ts.mergeSort Text.le)).length_le
  rwa [List.length_mergeSort] at h

/-! ## Called hooks -/

/-- `use`, a capital and word characters. -/
def HookWord (x : Text) : Prop :=
  ∃ c r, x = "use".toList ++ c :: r ∧ ('A' ≤ c ∧ c ≤ 'Z') ∧ ∀ d ∈ r, isWordChar d = true

/-- The pattern of the name in a hook call. -/
def hookName : Pattern := sequence [lit "use", capital, many wordChar]

theorem mem_hookName_iff {x : Text} : x ∈ hookName.language ↔ HookWord x := by
  rw [hookName, mem_lit_cons]
  constructor
  · rintro ⟨_, ⟨_, ⟨c, hc, rfl⟩, r, hr, rfl⟩, rfl⟩
    exact ⟨c, r, rfl, by simpa [CharClass.has] using hc, mem_language_many_one.mp hr⟩
  · rintro ⟨c, r, rfl, hc, hr⟩
    refine ⟨c :: r, Language.append_mem_mul (a := [c]) ⟨c, ?_, rfl⟩ (mem_language_many_one.mpr hr), rfl⟩
    simpa [CharClass.has] using hc

theorem HookWord.word {x : Text} (h : HookWord x) : StateVariable.Word x := by
  obtain ⟨c, r, rfl, hc, hr⟩ := h
  have hcapital : isWordChar c = true := isWordChar_of_capital (by simpa [CharClass.has] using hc)
  have huse : "use".toList.all isWordChar = true := by decide
  refine ⟨by simp, ?_⟩
  rw [List.all_append, huse, List.all_cons, hcapital, List.all_eq_true.mpr hr]
  rfl

/-- What a hook call reads: a name behind an edge, blanks and a bracket. -/
theorem spec_of_mem_outcomes {s : Spot} {t : Progress} (h : t ∈ hookCall.outcomes { spot := s }) :
    ∃ x b, HookWord x ∧ Blank b ∧ s.previous.any isWordChar = false ∧ s.Reads (x ++ (b ++ ['('])) t.spot ∧
      t.kept? 1 = some x := by
  obtain ⟨_, hedge, h⟩ := mem_outcomes_sequence_cons.mp h
  obtain ⟨hholds, rfl⟩ := mem_outcomes_assert.mp hedge
  obtain ⟨_, hcapture, h⟩ := mem_outcomes_sequence_cons.mp h
  obtain ⟨u, hu, rfl⟩ := mem_outcomes_capture.mp hcapture
  obtain ⟨x, hx, hsu⟩ := reads_language_of_mem_outcomes (p := hookName) hu
  obtain ⟨w, hw, hut⟩ := reads_language_of_mem_outcomes h
  obtain ⟨b, hb, _, hbracket, rfl⟩ := mem_blanks_cons.mp hw
  obtain rfl := mem_language_lit.mp hbracket
  have hhook := mem_hookName_iff.mp hx
  refine ⟨x, b, hhook, hb, ?_, hsu.trans hut, ?_⟩
  · rw [Contexts.wordEdge_holdsAt hhook.word hsu.ahead_eq, Bool.not_eq_true'] at hholds
    exact hholds
  · rw [kept?_of_mem_outcomes (by decide) h]
    exact kept?_close hsu

/-- A hook call in the code. -/
theorem exists_at?_of_call {s : Spot} {x b r : Text} (hx : HookWord x) (hb : Blank b) (hs : s.ahead = x ++ (b ++ '(' :: r))
    (hprevious : s.previous.any isWordChar = false) : ∃ m, hookCall.at? s = some m ∧ m.group 1 = x := by
  have hholds : Assertion.wordEdge.holdsAt s = true := by
    rw [Contexts.wordEdge_holdsAt hx.word hs, hprevious]
    rfl
  have hread : x ++ (b ++ ['(']) ∈ (sequence [capture 1 hookName, blanks, lit "("]).language :=
    append_mem_cons (mem_hookName_iff.mpr hx) (mem_blanks_cons.mpr ⟨b, hb, ['('], lit_mem _, rfl⟩)
  obtain ⟨t, ht, -⟩ := exists_outcome (s := { spot := s }) (r := r) (by decide) hread (by rw [hs]; simp)
  have hsome : (hookCall.at? s).isSome = true :=
    isSome_at?_iff_exists.mpr ⟨t, mem_outcomes_sequence_cons.mpr ⟨_, mem_outcomes_assert.mpr ⟨hholds, rfl⟩, ht⟩⟩
  obtain ⟨m, hm⟩ := Option.isSome_iff_exists.mp hsome
  obtain ⟨y, c, hy, hc, -, hr, hkept⟩ := spec_of_mem_outcomes (mem_outcomes_of_at? hm).2
  refine ⟨m, hm, ?_⟩
  -- the name ends where the first character stands that is none of a word, so only one name can be read
  have hend {b r : Text} (hb : Blank b) : ∃ d q, b ++ '(' :: r = d :: q ∧ isWordChar d = false := by
    cases b with
    | nil => exact ⟨'(', r, rfl, by decide⟩
    | cons d b => exact ⟨d, _, rfl, isWordChar_of_isBlank (hb d List.mem_cons_self)⟩
  obtain ⟨d, q, hd, hdw⟩ := hend (r := r) hb
  obtain ⟨d', q', hd', hdw'⟩ := hend (r := m.closed.spot.ahead) hc
  have heq : y ++ d' :: q' = x ++ d :: q := by
    rw [← hd, ← hd', ← hs, hr.ahead_eq]
    simp
  obtain ⟨hyx, -⟩ := eq_of_firstWhen (p := fun d => !isWordChar d) (by simpa using List.all_eq_true.mp hy.word.2)
    (by simpa using List.all_eq_true.mp hx.word.2) (by simp [hdw']) (by simp [hdw]) heq
  rw [Match.group, ← hyx]
  exact congrArg (·.getD []) hkept

/-- No hook call begins within another. -/
theorem le_closed_of_call {s t : Spot} {m k : Match} (ht : hookCall.at? t = some m) (hk : hookCall.at? s = some k)
    {w : Text} (hr : s.Reads w t) (hlt : t.left < s.left) : t.left ≤ k.closed.spot.left := by
  obtain ⟨x, b, hx, hb, -, hread, -⟩ := spec_of_mem_outcomes (mem_outcomes_of_at? hk).2
  obtain ⟨y, b', hy, -, hprevious, hread', -⟩ := spec_of_mem_outcomes (mem_outcomes_of_at? ht).2
  by_contra hover
  obtain ⟨z, hz, hzr⟩ := hr.reads_of_left_le hread (by omega)
  have hne : w ≠ [] := by
    rintro rfl
    rw [hr.eq_of_reads (.refl s)] at hlt
    exact Nat.lt_irrefl _ hlt
  obtain ⟨a, c, rfl⟩ := (List.eq_nil_or_concat w).resolve_left hne
  rw [hr.previous_eq] at hprevious
  have hcut : isWordChar c = false := by simpa using hprevious
  rcases List.append_eq_append_iff.mp hz with ⟨v, -, hzv⟩ | ⟨v, hv, -⟩
  · -- the second call would begin with a blank or a bracket
    obtain ⟨d, z, rfl⟩ : ∃ d z', z = d :: z' := by
      refine List.exists_cons_of_ne_nil ?_
      rintro rfl
      rw [hzr.eq_of_reads (.refl t)] at hover
      exact hover (Nat.le_refl _)
    obtain ⟨e, f, rfl, -⟩ := hy
    obtain rfl : d = 'u' := (List.cons.inj (hzr.ahead_eq.symm.trans hread'.ahead_eq)).1
    have hmem : 'u' ∈ b ++ ['('] := hzv ▸ List.mem_append_right v List.mem_cons_self
    rcases List.mem_append.mp hmem with hmem | hmem
    · exact hb.not_mem (by decide) hmem
    · exact absurd hmem (by decide)
  · -- it would begin within the name of the first
    have hmem : c ∈ x := by
      rw [hv]
      simp
    rw [List.all_eq_true.mp hx.word.2 c hmem] at hcut
    cases hcut

/-- A hook that is not built in is listed where it is called in the code, and only there. -/
theorem mem_calledHooks_iff {builtin : List Text} {x code : Text} :
    x ∈ calledHooks builtin code ↔ (HookWord x ∧ Contexts.Called x code) ∧ x ∉ builtin := by
  rw [calledHooks, List.mem_filter]
  refine and_congr ?_ (by simp)
  rw [List.mem_map]
  constructor
  · rintro ⟨m, hm, rfl⟩
    have hmatch := isMatch_of_mem_matchesIn hm
    obtain ⟨a, ha⟩ := hmatch.opened_behind
    obtain ⟨x, b, hx, hb, hprevious, hr, hkept⟩ := spec_of_mem_outcomes hmatch.closed_mem
    have hgroup : m.group 1 = x := congrArg (·.getD []) hkept
    rw [ha.previous_eq, Spot.start, Spot.between, Option.or_none] at hprevious
    rw [hgroup]
    refine ⟨hx, a, b, m.closed.spot.ahead, ?_, hb, hprevious⟩
    have hcode : code = a ++ m.opened.ahead := ha.ahead_eq
    rw [hcode, hr.ahead_eq]
    simp
  · rintro ⟨hx, a, b, r, rfl, hb, hprevious⟩
    obtain ⟨s, hs, hahead⟩ := Spot.exists_reads (s := .start (a ++ x ++ (b ++ '(' :: r))) (w := a)
      (r := x ++ (b ++ '(' :: r)) (List.append_assoc a x _)
    rw [← Option.or_none (o := a.getLast?)] at hprevious
    obtain ⟨m, hm, hgroup⟩ := exists_at?_of_call hx hb hahead (hs.previous_eq ▸ hprevious)
    refine ⟨m, mem_matchesFrom_of_at? hs hm fun v u k hu hlt hk => ?_, hgroup⟩
    obtain ⟨w, -, hw⟩ := hu.reads_of_left_le hs (Nat.le_of_lt hlt)
    exact le_closed_of_call hm hk hw hlt

/-! ## Buckets -/

/-- The text begins with an uppercase character. -/
def Capitalized (x : Text) : Prop := ∃ c r, x = c :: r ∧ isUppercase c = true

/-- The name of a hook by convention: `use` and an uppercase character. -/
def HookNamed (x : Text) : Prop := ∃ c r, x = "use".toList ++ c :: r ∧ isUppercase c = true

/-- The name is bound by an import from a local module. -/
def BoundLocally (bindings : List ImportBinding) (x : Text) : Prop := ∃ b ∈ bindings, b.isLocal = true ∧ b.name = x

theorem startsUppercase_iff {x : Text} : startsUppercase x = true ↔ Capitalized x := by
  cases x with
  | nil => simp [startsUppercase, Capitalized]
  | cons c r => simp [startsUppercase, Capitalized]

theorem isHookName_iff {x : Text} : isHookName x = true ↔ HookNamed x := by
  rw [isHookName, Option.any_eq_true]
  constructor
  · rintro ⟨rest, hrest, hupper⟩
    obtain ⟨c, r, rfl, hc⟩ := startsUppercase_iff.mp hupper
    exact ⟨c, r, (after?_eq_some_iff.mp hrest).symm, hc⟩
  · rintro ⟨c, r, rfl, hc⟩
    exact ⟨c :: r, after?_append _ _, startsUppercase_iff.mpr ⟨c, r, rfl, hc⟩⟩

theorem HookNamed.not_capitalized {x : Text} (h : HookNamed x) : ¬ Capitalized x := by
  obtain ⟨c, r, rfl, -⟩ := h
  rintro ⟨d, q, hd, hupper⟩
  obtain rfl : 'u' = d := (List.cons.inj hd).1
  exact absurd hupper (by decide)

theorem HookWord.hookNamed {x : Text} (h : HookWord x) : HookNamed x := by
  obtain ⟨c, r, rfl, ⟨hfirst, hlast⟩, -⟩ := h
  refine ⟨c, r, rfl, ?_⟩
  have hhigh : c.toNat ≤ 90 := hlast
  have hupper : c.isUpper = true := decide_eq_true ⟨hfirst, hlast⟩
  rw [isUppercase, if_pos (by omega), hupper]

section Tree

variable {s : AnalysisSettings} {path code x : Text} {bindings : List ImportBinding}

theorem mem_hooks : x ∈ (DependencyTree.of s path code bindings).hooks ↔
    (BoundLocally bindings x ∧ HookNamed x) ∨ ((HookWord x ∧ Contexts.Called x code) ∧ x ∉ s.builtinHooks) := by
  simp only [DependencyTree.of, mem_sortedSet, List.mem_append, mem_calledHooks_iff]
  refine or_congr_left ?_
  simp only [List.mem_map, List.mem_filter, Bool.and_eq_true, isHookName_iff]
  constructor
  · rintro ⟨b, ⟨hb, hlocal, hname⟩, rfl⟩
    exact ⟨⟨b, hb, hlocal, rfl⟩, hname⟩
  · rintro ⟨⟨b, hb, hlocal, rfl⟩, hname⟩
    exact ⟨b, ⟨hb, hlocal, hname⟩, rfl⟩

theorem mem_uses : x ∈ (DependencyTree.of s path code bindings).uses ↔ BoundLocally bindings x ∧ Capitalized x := by
  simp only [DependencyTree.of, mem_sortedSet, List.mem_map, List.mem_filter, Bool.and_eq_true, Bool.not_eq_true',
    Bool.eq_false_iff, ne_eq, isHookName_iff, startsUppercase_iff]
  constructor
  · rintro ⟨b, ⟨hb, ⟨hlocal, -⟩, hupper⟩, rfl⟩
    exact ⟨⟨b, hb, hlocal, rfl⟩, hupper⟩
  · rintro ⟨⟨b, hb, hlocal, rfl⟩, hupper⟩
    exact ⟨b, ⟨hb, ⟨hlocal, fun hhook => hhook.not_capitalized hupper⟩, hupper⟩, rfl⟩

theorem mem_services : x ∈ (DependencyTree.of s path code bindings).services ↔
    BoundLocally bindings x ∧ ¬ Capitalized x ∧ ¬ HookNamed x := by
  simp only [DependencyTree.of, mem_sortedSet, List.mem_map, List.mem_filter, Bool.and_eq_true, Bool.not_eq_true',
    Bool.eq_false_iff, ne_eq, isHookName_iff, startsUppercase_iff]
  constructor
  · rintro ⟨b, ⟨hb, ⟨hlocal, hhook⟩, hupper⟩, rfl⟩
    exact ⟨⟨b, hb, hlocal, rfl⟩, hupper, hhook⟩
  · rintro ⟨⟨b, hb, hlocal, rfl⟩, hupper, hhook⟩
    exact ⟨b, ⟨hb, ⟨hlocal, hhook⟩, hupper⟩, rfl⟩

theorem hookNamed_of_mem_hooks (h : x ∈ (DependencyTree.of s path code bindings).hooks) : HookNamed x := by
  rcases mem_hooks.mp h with ⟨-, hname⟩ | ⟨⟨hword, -⟩, -⟩
  · exact hname
  · exact hword.hookNamed

end Tree

theorem items_eq (t : DependencyTree) : t.items = t.hooks ++ t.uses ++ t.services ++ t.libs := by
  have hfilter (buckets : List (Text × List Text)) :
      (buckets.filter (!·.2.isEmpty)).flatMap (·.2) = buckets.flatMap (·.2) := by
    induction buckets with
    | nil => rfl
    | cons bucket buckets ih =>
      rw [List.filter_cons]
      split
      · rw [List.flatMap_cons, List.flatMap_cons, ih]
      · rename_i hempty
        have hnil : bucket.2 = [] := by simpa using hempty
        rw [List.flatMap_cons, ih, hnil, List.nil_append]
  rw [items, buckets, hfilter]
  simp

/-- Each bucket is in strictly ascending order, and what is in it can be read off the bindings and the code. -/
theorem of_buckets (s : AnalysisSettings) (path code : Text) (bindings : List ImportBinding) :
    let t := DependencyTree.of s path code bindings
    (∀ bucket ∈ [t.hooks, t.uses, t.services, t.libs], bucket.Pairwise (· < ·)) ∧
      (∀ x, x ∈ t.uses ↔ BoundLocally bindings x ∧ Capitalized x) ∧
      (∀ x, x ∈ t.services ↔ BoundLocally bindings x ∧ ¬ Capitalized x ∧ ¬ HookNamed x) ∧
      (∀ x, x ∈ t.hooks ↔
        (BoundLocally bindings x ∧ HookNamed x) ∨ ((HookWord x ∧ Contexts.Called x code) ∧ x ∉ s.builtinHooks)) ∧
      (∀ x, x ∈ t.libs ↔ x ∈ ((bindings.filter (!·.isLocal)).map (·.name)).take s.maxTreeLibs) ∧
      t.libs.length ≤ s.maxTreeLibs ∧
      (t.hooks.Disjoint t.uses ∧ t.hooks.Disjoint t.services ∧ t.uses.Disjoint t.services) ∧
      t.items = t.hooks ++ t.uses ++ t.services ++ t.libs := by
  intro t
  refine ⟨?_, fun x => mem_uses, fun x => mem_services, fun x => mem_hooks, fun x => mem_sortedSet, ?_, ⟨?_, ?_, ?_⟩,
    items_eq t⟩
  · intro bucket hbucket
    simp only [List.mem_cons, List.not_mem_nil, or_false] at hbucket
    rcases hbucket with rfl | rfl | rfl | rfl <;> exact pairwise_sortedSet _
  · exact (length_sortedSet_le _).trans (List.length_take_le _ _)
  · intro x hhook huse
    exact (hookNamed_of_mem_hooks hhook).not_capitalized (mem_uses.mp huse).2
  · intro x hhook hservice
    exact (mem_services.mp hservice).2.2 (hookNamed_of_mem_hooks hhook)
  · intro x huse hservice
    exact (mem_services.mp hservice).2.1 (mem_uses.mp huse).2

end DependencyTree

end SourceArchive
