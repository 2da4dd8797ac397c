import SourceArchive.DependencyTree
import SourceArchive.Facts.Basic
import SourceArchive.Proofs.Captures
import SourceArchive.Proofs.Markerless
import SourceArchive.Proofs.Spacing

/-!
# What facts are made of

The facts of a file are captured in its code.  The names of variables, props, contexts and hooks are single words and
types are put on one line, so none of them holds a line feed.  Endpoints, modules and the names that import clauses
bind are taken as they stand, line feeds included; of them it is shown that no marker stands behind one of their line
feeds if none does in the code.
-/

namespace SourceArchive

open Text Pattern Layout

/-! ## Lists without repetitions -/

theorem mem_addNew {α : Type} [BEq α] [LawfulBEq α] {items : List α} {item x : α} :
    x ∈ addNew items item ↔ x ∈ items ∨ x = item := by
  unfold addNew
  split
  · rename_i h
    constructor
    · exact Or.inl
    · rintro (hx | rfl)
      · exact hx
      · simpa using h
  · simp

theorem mem_foldl_addNew {α : Type} [BEq α] [LawfulBEq α] {seen items : List α} {x : α} :
    x ∈ items.foldl addNew seen ↔ x ∈ seen ∨ x ∈ items := by
  induction items generalizing seen with
  | nil => simp
  | cons item items ih => rw [List.foldl_cons, ih, mem_addNew, List.mem_cons, or_assoc]

theorem mem_distinct {α : Type} [BEq α] [LawfulBEq α] {items : List α} {x : α} : x ∈ distinct items ↔ x ∈ items := by
  rw [distinct, mem_foldl_addNew]
  simp

theorem distinct_concat {α : Type} [BEq α] (items : List α) (x : α) :
    distinct (items ++ [x]) = addNew (distinct items) x := List.foldl_concat ..

theorem distinct_eq_self {α : Type} [BEq α] [LawfulBEq α] {items : List α} (h : items.Nodup) :
    distinct items = items := by
  induction items using List.reverseRecOn with
  | nil => rfl
  | append_singleton items x ih =>
    obtain ⟨hitems, -, hx⟩ := List.nodup_append.mp h
    have hnew : ¬ items.contains x = true := fun hm =>
      hx x (List.contains_iff_mem.mp hm) x (List.mem_singleton_self x) rfl
    rw [distinct_concat, ih hitems, addNew, if_neg hnew]

theorem addNew_nodup {α : Type} [BEq α] [LawfulBEq α] {items : List α} (h : items.Nodup) (x : α) :
    (addNew items x).Nodup := by
  unfold addNew
  split
  · exact h
  · rename_i hx
    rw [List.nodup_append]
    refine ⟨h, List.nodup_singleton x, fun y hy z hz => ?_⟩
    rw [List.mem_singleton.mp hz]
    rintro rfl
    exact hx (List.contains_iff_mem.mpr hy)

theorem nodup_distinct {α : Type} [BEq α] [LawfulBEq α] (items : List α) : (distinct items).Nodup := by
  induction items using List.reverseRecOn with
  | nil => exact List.nodup_nil
  | append_singleton items x ih =>
    rw [distinct_concat]
    exact addNew_nodup ih x

theorem distinct_sublist {α : Type} [BEq α] (items : List α) : (distinct items).Sublist items := by
  induction items using List.reverseRecOn with
  | nil => exact List.Sublist.refl []
  | append_singleton items x ih =>
    rw [distinct_concat, addNew]
    split
    · exact ih.trans (List.sublist_append_left items [x])
    · exact ih.append (List.Sublist.refl [x])

theorem not_mem_singleLine (t : Text) : '\n' ∉ t.singleLine := by
  refine not_mem_join (by decide) fun w hw hm => ?_
  have hb := eq_false_of_mem_splitWhen (List.mem_filter.mp hw).1 '\n' hm
  exact absurd hb (by decide)

theorem not_mem_of_isIdentifier {t : Text} (h : t.isIdentifier = true) : '\n' ∉ t :=
  not_mem_of_not_identifierChar (by decide +kernel) h

/-! ## State, props and contexts -/

namespace StateVariable

theorem not_mem_inferType {initial : Text} (h : '\n' ∉ initial) : '\n' ∉ inferType initial := by
  have ht : '\n' ∉ initial.trim := fun hm => h ((trim_isInfix initial).subset hm)
  simp only [inferType]
  repeat' split
  all_goals first | exact ht | decide

theorem name_type_of_mem_allIn {code : Text} {v : StateVariable} (h : v ∈ allIn code) :
    '\n' ∉ v.name ∧ '\n' ∉ v.type := by
  obtain ⟨m, hm, rfl⟩ := List.mem_map.mp h
  have hname : '\n' ∉ m.group 1 := (isMatch_of_mem_matchesIn hm).not_mem_group (by decide +kernel)
  simp only [ofDeclaration]
  split
  · refine ⟨hname, ?_⟩
    change '\n' ∉ "Reducer".toList
    decide
  · refine ⟨hname, ?_⟩
    dsimp only
    split
    · exact not_mem_singleLine _
    · exact not_mem_inferType (not_mem_singleLine _)

end StateVariable

namespace Props

theorem isIdentifier_of_mem_names {entries : List Text} {x : Text} (h : x ∈ names entries) :
    x.isIdentifier = true := (List.mem_filter.mp (mem_distinct.mp h)).2

theorem isIdentifier_of_mem_allIn {code x : Text} (h : x ∈ allIn code) : x.isIdentifier = true := by
  have hby {p : Pattern} {separators : Text} (hx : x ∈ namesBy p separators code) : x.isIdentifier = true := by
    unfold namesBy at hx
    split at hx
    · simp at hx
    · exact isIdentifier_of_mem_names hx
  simp only [allIn] at h
  repeat' split at h
  all_goals exact hby h

end Props

namespace Contexts

theorem not_mem_of_mem_allIn {code x : Text} (h : x ∈ allIn code) : '\n' ∉ x := by
  rcases List.mem_append.mp (mem_distinct.mp h) with h | h
  · obtain ⟨m, hm, rfl⟩ := List.mem_map.mp h
    exact (isMatch_of_mem_matchesIn hm).not_mem_group (by decide +kernel)
  · obtain ⟨a, ha, rfl⟩ := List.mem_map.mp h
    have hall : ∀ a ∈ knownAccessors, '\n' ∉ a.context := by decide
    exact hall a (List.mem_filter.mp ha).1

end Contexts

/-! ## Endpoints -/

/-- Putting a text that begins with a character no marker holds in place of the matches makes no marker. -/
theorem unmarked_replaceFrom {p : Pattern} {c : Char} {r x : Text} (hb : isBlank c = false) (hc : c ∉ fileMarker)
    (hr : '\n' ∉ c :: r) {s : Spot} (h : Unmarked (x ++ s.ahead)) : Unmarked (x ++ p.replaceFrom (c :: r) s) := by
  rw [replaceFrom]
  rcases hs : p.search s with _ | m
  · exact h
  · obtain ⟨⟨w, hw⟩, hm⟩ := search_spec hs
    obtain ⟨v, hv⟩ := exists_reads hm
    have hbefore : Unmarked (x ++ s.ahead.take (s.left - m.opened.left)) := by
      rw [hw.take_eq]
      rw [hw.ahead_eq, ← List.append_assoc] at h
      exact h.of_isInfix (List.prefix_append _ _).isInfix
    have hbehind : Unmarked m.behind :=
      h.of_isInfix ((hw.trans hv).isSuffix.isInfix.trans (List.suffix_append _ _).isInfix)
    have hjoin {y : Text} (hy : Unmarked y) : Unmarked (x ++ (s.ahead.take (s.left - m.opened.left) ++ c :: r ++ y)) := by
      rw [← List.append_assoc, ← List.append_assoc, List.append_assoc]
      exact hbefore.append (.prepend hr hy) hb hc
    -- what stands behind the match is free of markers, whether or not the search goes on in it
    dsimp only
    rcases ht : m.resume? with _ | t
    · exact hjoin hbehind
    · dsimp only
      split
      · rename_i hlt
        apply hjoin
        apply unmarked_replaceFrom hb hc hr
        obtain ⟨u, hu⟩ := reads_behind_of_resume? ht
        rw [Match.behind, hu.ahead_eq] at hbehind
        rwa [show m.behind.take (m.closed.spot.left - t.left) = u from hu.take_eq]
      · exact hjoin hbehind
termination_by s.left

namespace Endpoint

/-- The host and the path of an absolute address stand side by side in the code. -/
theorem append_infix_of_mem_absoluteIn {code host path : Text} (h : (host, path) ∈ absoluteIn code) :
    host ++ path <:+: code := by
  obtain ⟨m, hm, he⟩ := List.mem_map.mp h
  obtain ⟨rfl, rfl⟩ : m.group 1 = host ∧ m.group 2 = path := by simpa using he
  let opening := [lit "fetch", callOpening, anyQuote, lit "http", optional (lit "s"), lit "://"]
  have hmatch : IsMatch (sequence (opening ++ capture 1 (many1 (noneOf "/'\"\x60")) ::
      ([] ++ capture 2 (sequence [lit "/", many1 (noneOf "'\"\x60")]) :: [anyQuote]))) code m :=
    isMatch_of_mem_matchesIn hm
  obtain ⟨-, -, u, -, v, hv, w, -, hr⟩ := hmatch.exists_groups (by decide) (by decide) (by decide) (by decide)
  obtain rfl : v = [] := hv
  obtain ⟨x, hx⟩ := hmatch.opened_behind
  refine List.IsInfix.trans ?_ (hr.isInfix.trans hx.isSuffix.isInfix)
  exact ⟨u, w, by simp⟩

theorem infix_of_mem_groupsIn {p : Pattern} {code x : Text} (h : x ∈ groupsIn p code) : x <:+: code := by
  obtain ⟨m, hm, rfl⟩ := List.mem_map.mp h
  exact (isMatch_of_mem_matchesIn hm).group_isInfix 1

section Placeholder

variable {c : Char} {r : Text} (hb : isBlank c = false) (hc : c ∉ fileMarker) (hr : '\n' ∉ c :: r)

include hb hc hr

/-- Normalising the end of a text makes no marker in it. -/
theorem unmarked_append_normalize {x path : Text} (h : Unmarked (x ++ path)) :
    Unmarked (x ++ normalize (c :: r) path) := unmarked_replaceFrom hb hc hr h

theorem unmarked_ofPath {path : Text} (h : Unmarked path) : Unmarked (ofPath (c :: r) path).label := by
  have hn : Unmarked (normalize (c :: r) path) := unmarked_append_normalize hb hc hr (x := []) h
  simp only [ofPath]
  split
  · exact h
  · exact hn

/-- No marker stands behind a line feed of an endpoint. -/
theorem unmarked_label {ownHost code : Text} {e : Endpoint} (hcode : Unmarked code)
    (h : e ∈ allIn ownHost (c :: r) code) : Unmarked e.label := by
  have hpath {p : Pattern} {path : Text} (hp : path ∈ groupsIn p code) : Unmarked (ofPath (c :: r) path).label :=
    unmarked_ofPath hb hc hr (hcode.of_isInfix (infix_of_mem_groupsIn hp))
  have habsolute {host path : Text} (hm : (host, path) ∈ absoluteIn code) : Unmarked (host ++ path) :=
    hcode.of_isInfix (append_infix_of_mem_absoluteIn hm)
  simp only [allIn, mem_distinct, List.partition_eq_filter_filter, List.mem_append, List.mem_map, List.mem_filter,
    Prod.exists] at h
  rcases h with (((((⟨path, hp, rfl⟩ | ⟨path, hp, rfl⟩) | ⟨host, path, ⟨hm, -⟩, rfl⟩) | ⟨host, path, ⟨hm, -⟩, rfl⟩) |
    ⟨path, hp, rfl⟩) | ⟨path, hp, rfl⟩) | ⟨verb, -, rfl⟩
  · exact hpath hp
  · exact hpath hp
  · exact unmarked_ofPath hb hc hr ((habsolute hm).of_isInfix (List.suffix_append _ _).isInfix)
  · have hlabel : Unmarked ("EXTERNAL:".toList ++ (host ++ normalize (c :: r) path)) :=
      .prepend (by decide) (unmarked_append_normalize hb hc hr (habsolute hm))
    rw [← List.append_assoc] at hlabel
    exact hlabel
  · exact hpath hp
  · exact hpath hp
  · refine unmarked_of_not_mem ?_
    cases verb <;> decide

end Placeholder

end Endpoint

/-! ## Names of files -/

theorem lastPiece_isInfix (sep : Char) (t : Text) : lastPiece sep t <:+: t := by
  obtain ⟨piece, pieces, h⟩ := List.exists_cons_of_ne_nil (splitWhen_ne_nil (· == sep) t)
  have hlast : lastPiece sep t ∈ splitAt sep t := by
    rw [lastPiece, splitAt, h, List.getLastD_cons]
    exact List.getLastD_mem_cons
  exact infix_of_mem_splitAt hlast

theorem stripSourceSuffix_isPrefix (name : Text) : stripSourceSuffix name <+: name := by
  unfold stripSourceSuffix
  rcases h : sourceSuffixes.findSome? (before? name ·) with _ | rest
  · exact List.prefix_refl name
  · obtain ⟨tail, -, hrest⟩ := List.exists_of_findSome?_eq_some h
    exact ⟨tail, before?_eq_some_iff.mp hrest⟩

/-! ## Imports -/

namespace Imports

theorem moduleId?_isInfix {source id : Text} (h : moduleId? source = some id) : id <:+: source := by
  simp only [moduleId?, Option.ite_none_left_eq_some, Option.some.injEq] at h
  obtain ⟨-, rfl⟩ := h
  split
  · exact (stripSourceSuffix_isPrefix _).isInfix.trans (lastPiece_isInfix '/' source)
  · split
    · have hp := join_take_isPrefix ['/'] 2 (splitAt '/' source)
      rw [join_splitAt] at hp
      exact hp.isInfix
    · obtain ⟨piece, pieces, h⟩ := List.exists_cons_of_ne_nil (splitWhen_ne_nil (· == '/') source)
      have hmem : piece ∈ splitAt '/' source := by simp [splitAt, h]
      simpa [splitAt, h] using infix_of_mem_splitAt hmem

/-- A module stands in the code as it is listed. -/
theorem infix_of_mem_modulesIn {code id : Text} (h : id ∈ modulesIn code) : id <:+: code := by
  obtain ⟨p, -, hp⟩ := List.mem_flatMap.mp (mem_distinct.mp h)
  obtain ⟨m, hm, hid⟩ := List.mem_filterMap.mp hp
  exact (moduleId?_isInfix hid).trans ((isMatch_of_mem_matchesIn hm).group_isInfix 1)

end Imports

/-! ## Dependency trees -/

namespace DependencyTree

theorem mem_sortedSet {ts : List Text} {x : Text} : x ∈ sortedSet ts ↔ x ∈ ts := by
  rw [sortedSet, mem_distinct, List.mem_mergeSort]

theorem mem_items {t : DependencyTree} {x : Text} :
    x ∈ t.items ↔ x ∈ t.hooks ∨ x ∈ t.uses ∨ x ∈ t.services ∨ x ∈ t.libs := by
  simp only [items, buckets, List.mem_flatMap, List.mem_filter]
  constructor
  · rintro ⟨⟨label, items⟩, ⟨hb, -⟩, hx⟩
    simp only [List.mem_cons, Prod.mk.injEq, List.not_mem_nil, or_false] at hb
    rcases hb with ⟨-, rfl⟩ | ⟨-, rfl⟩ | ⟨-, rfl⟩ | ⟨-, rfl⟩ <;> simp [hx]
  · rintro (hx | hx | hx | hx)
    · exact ⟨("hooks", t.hooks), ⟨by simp, by simp [List.ne_nil_of_mem hx]⟩, hx⟩
    · exact ⟨("uses", t.uses), ⟨by simp, by simp [List.ne_nil_of_mem hx]⟩, hx⟩
    · exact ⟨("services", t.services), ⟨by simp, by simp [List.ne_nil_of_mem hx]⟩, hx⟩
    · exact ⟨("libs", t.libs), ⟨by simp, by simp [List.ne_nil_of_mem hx]⟩, hx⟩

/-- The bound names that a tree lists: those of local modules, and the first of the others. -/
def listed (maxLibs : Nat) (bindings : List ImportBinding) : List Text :=
  (bindings.filter (·.isLocal)).map (·.name) ++ ((bindings.filter (!·.isLocal)).map (·.name)).take maxLibs

theorem exists_of_mem_listed {maxLibs : Nat} {bindings : List ImportBinding} {x : Text}
    (h : x ∈ listed maxLibs bindings) : ∃ b ∈ bindings, b.name = x := by
  rcases List.mem_append.mp h with h | h
  · obtain ⟨b, hb, rfl⟩ := List.mem_map.mp h
    exact ⟨b, (List.mem_filter.mp hb).1, rfl⟩
  · obtain ⟨b, hb, rfl⟩ := List.mem_map.mp (List.mem_of_mem_take h)
    exact ⟨b, (List.mem_filter.mp hb).1, rfl⟩

/-- A tree lists bound names and called hooks, and nothing else. -/
theorem mem_items_of {s : AnalysisSettings} {path code : Text} {bindings : List ImportBinding} {x : Text} :
    x ∈ (DependencyTree.of s path code bindings).items ↔
      x ∈ listed s.maxTreeLibs bindings ∨ x ∈ calledHooks s.builtinHooks code := by
  simp only [mem_items, DependencyTree.of, mem_sortedSet, listed, List.mem_append, List.mem_map, List.mem_filter,
    Bool.and_eq_true, Bool.not_eq_true']
  constructor
  · rintro ((⟨b, ⟨hb, hl, -⟩, rfl⟩ | hx) | ⟨b, ⟨hb, ⟨hl, -⟩, -⟩, rfl⟩ | ⟨b, ⟨hb, ⟨hl, -⟩, -⟩, rfl⟩ | hx)
    · exact Or.inl (Or.inl ⟨b, ⟨hb, hl⟩, rfl⟩)
    · exact Or.inr hx
    · exact Or.inl (Or.inl ⟨b, ⟨hb, hl⟩, rfl⟩)
    · exact Or.inl (Or.inl ⟨b, ⟨hb, hl⟩, rfl⟩)
    · exact Or.inl (Or.inr hx)
  · rintro ((⟨b, ⟨hb, hl⟩, rfl⟩ | hx) | hx)
    · by_cases hh : isHookName b.name = true
      · exact Or.inl (Or.inl ⟨b, ⟨hb, hl, hh⟩, rfl⟩)
      · by_cases hc : startsUppercase b.name = true
        · exact Or.inr (Or.inl ⟨b, ⟨hb, ⟨hl, by simpa using hh⟩, hc⟩, rfl⟩)
        · exact Or.inr (Or.inr (Or.inl ⟨b, ⟨hb, ⟨hl, by simpa using hh⟩, by simpa using hc⟩, rfl⟩))
    · exact Or.inr (Or.inr (Or.inr hx))
    · exact Or.inl (Or.inr hx)

theorem not_mem_of_mem_calledHooks {builtin : List Text} {code x : Text} (h : x ∈ calledHooks builtin code) :
    '\n' ∉ x := by
  obtain ⟨m, hm, rfl⟩ := List.mem_map.mp (List.mem_filter.mp h).1
  exact (isMatch_of_mem_matchesIn hm).not_mem_group (by decide +kernel)

/-- The name of a definition holds no colon; it is the name of the file only if nothing is defined. -/
theorem displayName_spec (path code : Text) :
    ('\n' ∉ displayName path code ∧ ':' ∉ displayName path code) ∨ displayName path code <+: fileName path := by
  unfold displayName
  split
  · rename_i m hm
    have hmatch := isMatch_of_firstIn hm
    exact Or.inl ⟨hmatch.not_mem_group (by decide +kernel), hmatch.not_mem_group (by decide +kernel)⟩
  · exact Or.inr (stripSourceSuffix_isPrefix _)

theorem not_mem_displayName {path : Text} (h : '\n' ∉ path) (code : Text) : '\n' ∉ displayName path code := by
  rcases displayName_spec path code with ⟨hn, -⟩ | hp
  · exact hn
  · exact fun hm => h ((lastPiece_isInfix '/' path).subset (hp.subset hm))

theorem not_prefix_displayName {path : Text} (h : ¬ "FILE:".toList <+: fileName path) (code : Text) :
    ¬ "FILE:".toList <+: displayName path code := by
  rcases displayName_spec path code with ⟨-, hn⟩ | hp
  · exact fun hf => hn (hf.subset (by simp))
  · exact fun hf => h (hf.trans hp)

end DependencyTree

end SourceArchive
