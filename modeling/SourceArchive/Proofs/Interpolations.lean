import SourceArchive.Proofs.DeclaredNames
import SourceArchive.Proofs.Facts
import SourceArchive.Proofs.Searches

/-!
# What normalising leaves

A path is normalised in one pass from left to right, and what was put in is not looked at again.  So an interpolation
can be left over: a dollar sign that stands directly before an interpolation makes another one with the placeholder
(`Endpoint.not_normalized`).  This is the only way in which it can happen, and the interpolation is then of the
placeholder's own text (`Endpoint.allIn_interpolations`).
-/

namespace SourceArchive

open Pattern Text

namespace Pattern

variable {p : Pattern} {r w : Text} {s : Spot} {m : Match}

theorem replaceFrom_of_none (h : p.search s = none) : p.replaceFrom r s = s.ahead := by
  rw [replaceFrom, h]

/-- A match that is not empty is replaced, and the search goes on right behind it. -/
theorem replaceFrom_of_search (h : p.search s = some m) (hw : s.Reads w m.opened)
    (hlt : m.closed.spot.left < m.opened.left) :
    p.replaceFrom r s = w ++ (r ++ p.replaceFrom r m.closed.spot) := by
  have hresume : m.resume? = some m.closed.spot := by rw [Match.resume?, if_pos hlt]
  have hleft := hw.left_eq
  rw [replaceFrom, h]
  simp only [hresume]
  rw [dif_pos (by omega), Nat.sub_self, List.take_zero, List.nil_append, hw.take_eq, List.append_assoc]

end Pattern

namespace Endpoint

/-! ## Interpolations in a text -/

/-- An interpolation of `x` stands somewhere in the text. -/
def Interpolates (x t : Text) : Prop := x ≠ [] ∧ '}' ∉ x ∧ '$' :: '{' :: (x ++ ['}']) <:+: t

/-- An interpolation stands at the beginning of the text. -/
def Begins (t : Text) : Prop := ∃ x r, x ≠ [] ∧ '}' ∉ x ∧ t = '$' :: '{' :: (x ++ '}' :: r)

theorem mem_interpolation {w : Text} :
    w ∈ interpolation.language ↔ ∃ x, x ≠ [] ∧ '}' ∉ x ∧ w = '$' :: '{' :: (x ++ ['}']) := by
  have hinner {x : Text} : x ∈ (many1 (noneOf ['}'])).language ↔ x ≠ [] ∧ '}' ∉ x := by
    rw [noneOf, mem_language_many1_one]
    refine and_congr_right fun _ => ⟨fun h hx => ?_, fun h c hc => ?_⟩
    · exact CharClass.has_noneOf_iff.mp (h _ hx) List.mem_cons_self
    · rw [CharClass.has_noneOf_iff, List.mem_singleton]
      rintro rfl
      exact h hc
  rw [interpolation, mem_lit_cons]
  constructor
  · rintro ⟨_, hv, rfl⟩
    obtain ⟨x, hx, z, hz, rfl⟩ := exists_of_mem_cons hv
    obtain rfl : z = ['}'] := mem_language_lit.mp hz
    exact ⟨x, (hinner.mp hx).1, (hinner.mp hx).2, rfl⟩
  · rintro ⟨x, hne, hx, rfl⟩
    exact ⟨x ++ ['}'], append_mem_cons (hinner.mpr ⟨hne, hx⟩) (mem_language_lit.mpr rfl), rfl⟩

theorem isSome_at?_interpolation_iff {s : Spot} : (interpolation.at? s).isSome = true ↔ Begins s.ahead := by
  rw [isSome_at?_iff_exists, exists_mem_outcomes_iff (by decide)]
  constructor
  · rintro ⟨w, hw, r, hr⟩
    obtain ⟨x, hne, hx, rfl⟩ := mem_interpolation.mp hw
    refine ⟨x, r, hne, hx, ?_⟩
    rw [← hr]
    simp
  · rintro ⟨x, r, hne, hx, hs⟩
    refine ⟨_, mem_interpolation.mpr ⟨x, hne, hx, rfl⟩, r, ?_⟩
    rw [hs]
    simp

/-- An interpolation stands in a text where the search finds one. -/
theorem isSome_search_interpolation_iff {s : Spot} :
    (interpolation.search s).isSome = true ↔ ∃ x, Interpolates x s.ahead := by
  rw [isSome_search_iff]
  constructor
  · rintro ⟨w, t, hr, hsome⟩
    obtain ⟨x, r, hne, hx, ht⟩ := isSome_at?_interpolation_iff.mp hsome
    refine ⟨x, hne, hx, w, r, ?_⟩
    rw [hr.ahead_eq, ht]
    simp
  · rintro ⟨x, hne, hx, a, b, hab⟩
    obtain ⟨t, ht, hahead⟩ := Spot.exists_reads (s := s) (w := a) (r := '$' :: '{' :: (x ++ '}' :: b)) (by
      rw [← hab]
      simp)
    exact ⟨a, t, ht, isSome_at?_interpolation_iff.mpr ⟨x, b, hne, hx, hahead⟩⟩

theorem begins_of_mem {u : Text} (hmem : '}' ∈ u) (hhead : u.head? ≠ some '}') : Begins ('$' :: '{' :: u) := by
  obtain ⟨x, r, rfl, hx⟩ := List.eq_append_cons_of_mem hmem
  refine ⟨x, r, ?_, hx, rfl⟩
  rintro rfl
  exact hhead rfl

/-! ## One pass of replacing -/

section Replace

variable {inner out w x : Text} {s : Spot} {m : Match}

/-- What is known of a match that a search finds: the text before it, in which no interpolation begins, and its own. -/
theorem spec_of_search_interpolation (h : interpolation.search s = some m) :
    ∃ w x, x ≠ [] ∧ '}' ∉ x ∧ s.Reads w m.opened ∧ m.opened.Reads ('$' :: '{' :: (x ++ ['}'])) m.closed.spot ∧
      ∀ a b, w = a ++ b → b ≠ [] → ¬ Begins (b ++ m.opened.ahead) := by
  obtain ⟨⟨w, hw⟩, hm⟩ := search_spec h
  obtain ⟨v, hv, hr⟩ := reads_language_of_mem_outcomes hm
  obtain ⟨x, hne, hx, rfl⟩ := mem_interpolation.mp hv
  refine ⟨w, x, hne, hx, hw, hr, fun a b hab hb hbegins => ?_⟩
  obtain ⟨t, ht, hahead⟩ := Spot.exists_reads (s := s) (w := a) (r := b ++ m.opened.ahead) (by
    rw [hw.ahead_eq, hab, List.append_assoc])
  have hle := left_le_of_search h ht (isSome_at?_interpolation_iff.mpr (hahead ▸ hbegins))
  have hleft := t.left_eq
  have hopened := m.opened.left_eq
  have hpos := List.length_pos_iff.mpr hb
  rw [hahead, List.length_append] at hleft
  omega

/-- In front of what was put in, an interpolation is made by a dollar sign only. -/
theorem interpolates_append_iff (hinner : inner ≠ [] ∧ '}' ∉ inner) (hdollar : '$' ∉ inner) {ahead : Text}
    (hahead : '}' ∈ ahead ∧ ahead.head? = some '$') (hw : ∀ a b, w = a ++ b → b ≠ [] → ¬ Begins (b ++ ahead)) :
    Interpolates x (w ++ ('{' :: (inner ++ '}' :: out))) ↔
      (w.getLast? = some '$' ∧ x = inner) ∨ Interpolates x out := by
  constructor
  · rintro ⟨hne, hx, a, b, hab⟩
    rw [List.append_assoc] at hab
    rcases List.append_eq_append_iff.mp hab with ⟨v, rfl, hv⟩ | ⟨v, rfl, hv⟩
    · -- the dollar sign stands in the text before: it is its last character, or else one would have begun there
      match v, hv with
      | [], hv => simp at hv
      | [d], hv =>
        simp only [List.cons_append, List.append_assoc, List.nil_append, List.cons.injEq, true_and] at hv
        obtain ⟨rfl, hv⟩ := hv
        exact Or.inl ⟨List.getLast?_concat, (eq_of_first '}' hx hinner.2 hv).1⟩
      | d :: e :: v, hv =>
        simp only [List.cons_append, List.append_assoc, List.nil_append, List.cons.injEq] at hv
        obtain ⟨rfl, rfl, hv⟩ := hv
        refine absurd (begins_of_mem (List.mem_append_right v hahead.1) ?_) (hw a _ rfl (List.cons_ne_nil _ _))
        cases v with
        | nil => simp [hahead.2]
        | cons f v =>
          obtain ⟨g, x, rfl⟩ := List.exists_cons_of_ne_nil hne
          obtain rfl : g = f := (List.cons.inj hv).1
          simpa using (List.ne_of_not_mem_cons hx).symm
    · -- it stands in what was put in, where there is none, or behind it
      match v, hv with
      | [], hv => simp at hv
      | d :: v, hv =>
        simp only [List.cons_append, List.append_assoc, List.cons.injEq] at hv
        rcases List.append_eq_append_iff.mp hv.2 with ⟨u, rfl, hu⟩ | ⟨u, rfl, hu⟩
        · cases u with
          | nil => simp at hu
          | cons e u =>
            refine Or.inr ⟨hne, hx, u, b, ?_⟩
            rw [(List.cons.inj hu).2]
            simp
        · cases u with
          | nil => simp at hu
          | cons e u =>
            obtain rfl : '$' = e := (List.cons.inj hu).1
            exact absurd (List.mem_append_right v List.mem_cons_self) hdollar
  · rintro (⟨hlast, rfl⟩ | ⟨hne, hx, hout⟩)
    · obtain ⟨a, rfl⟩ := List.getLast?_eq_some_iff.mp hlast
      refine ⟨hinner.1, hinner.2, a, out, ?_⟩
      simp
    · refine ⟨hne, hx, hout.trans ?_⟩
      exact ((List.suffix_cons '}' out).trans ((List.suffix_append inner _).trans
        ((List.suffix_cons '{' _).trans (List.suffix_append w _)))).isInfix

end Replace

section Placeholder

variable {inner : Text} (hinner : inner ≠ [] ∧ '}' ∉ inner) (hdollar : '$' ∉ inner)

include hinner hdollar

/-- An interpolation that is left over has the text of the placeholder, and a dollar sign stands before what was
replaced. -/
theorem interpolates_replaceFrom {s : Spot} (hs : s.previous ≠ some '$') :
    (∀ x, Interpolates x (interpolation.replaceFrom ('{' :: (inner ++ ['}'])) s) → x = inner) ∧
      ((∃ x, Interpolates x (interpolation.replaceFrom ('{' :: (inner ++ ['}'])) s)) ↔
        ∃ m ∈ interpolation.matchesFrom s, m.opened.previous = some '$') := by
  cases hsearch : interpolation.search s with
  | none =>
    have hfree : ¬ ∃ x, Interpolates x s.ahead := by
      rw [← isSome_search_interpolation_iff, hsearch]
      simp
    rw [replaceFrom_of_none hsearch, matchesFrom_of_none hsearch]
    refine ⟨fun x hx => absurd ⟨x, hx⟩ hfree, fun h => absurd h hfree, ?_⟩
    rintro ⟨m, hm, -⟩
    cases hm
  | some m =>
    obtain ⟨w, x, hne, hx, hw, hr, hfirst⟩ := spec_of_search_interpolation hsearch
    have hopened := hr.left_eq
    simp only [List.length_cons, List.length_append] at hopened
    have hlt : m.closed.spot.left < m.opened.left := by omega
    have hclosed : m.closed.spot.previous ≠ some '$' := by
      rw [hr.previous_eq, ← List.cons_append, ← List.cons_append, List.getLast?_concat]
      simp
    have hahead : '}' ∈ m.opened.ahead ∧ m.opened.ahead.head? = some '$' := by
      rw [hr.ahead_eq]
      simp
    have hprevious : m.opened.previous = some '$' ↔ w.getLast? = some '$' := by
      rw [hw.previous_eq]
      cases w.getLast? with
      | none => simpa using hs
      | some c => rfl
    obtain ⟨hleft, hiff⟩ := interpolates_replaceFrom hclosed
    have hresume : m.resume? = some m.closed.spot := by rw [Match.resume?, if_pos hlt]
    have hout : interpolation.replaceFrom ('{' :: (inner ++ ['}'])) s =
        w ++ ('{' :: (inner ++ '}' :: interpolation.replaceFrom ('{' :: (inner ++ ['}'])) m.closed.spot)) := by
      rw [replaceFrom_of_search hsearch hw hlt]
      simp
    rw [hout, matchesFrom_of_search hsearch, hresume]
    simp only [interpolates_append_iff hinner hdollar hahead hfirst]
    constructor
    · rintro y (⟨-, hy⟩ | hy)
      · exact hy
      · exact hleft y hy
    · simp only [Option.map_some, Option.getD_some, List.exists_mem_cons_iff, exists_or, ← hiff, hprevious]
      refine or_congr_left ⟨?_, fun hlast => ⟨inner, hlast, rfl⟩⟩
      rintro ⟨_, hlast, _⟩
      exact hlast
termination_by s.left
decreasing_by
  have := hw.left_eq
  omega

omit hinner hdollar in
/-- Normalising changes nothing where no interpolation stands. -/
theorem normalize_eq_self_iff {path : Text} :
    normalize ('{' :: (inner ++ ['}'])) path = path ↔ ¬ ∃ x, Interpolates x path := by
  have hstart : (Spot.start path).ahead = path := rfl
  rw [normalize, replaceIn]
  constructor
  · intro heq hex
    rw [← hstart, ← isSome_search_interpolation_iff] at hex
    obtain ⟨m, hm⟩ := Option.isSome_iff_exists.mp hex
    obtain ⟨w, x, hne, hx, hw, hr, -⟩ := spec_of_search_interpolation hm
    have hopened := hr.left_eq
    simp only [List.length_cons, List.length_append] at hopened
    rw [replaceFrom_of_search hm hw (by omega)] at heq
    have hbehind := List.append_cancel_left (heq.trans hw.ahead_eq)
    rw [hr.ahead_eq] at hbehind
    simp at hbehind
  · intro hfree
    rw [← hstart, ← isSome_search_interpolation_iff, Option.not_isSome_iff_eq_none] at hfree
    rw [replaceFrom_of_none hfree]
    rfl

end Placeholder

/-! ## Paths of endpoints -/

/-- The path of a call. -/
def path? : Endpoint → Option Text
  | literal path => some path
  | parameterized path => some path
  | external _ path => some path
  | handler _ => none

/-- The paths of calls as they are written in the code. -/
def writtenPaths (code : Text) : List Text :=
  groupsIn fetchAppPath code ++ groupsIn fetchBaseAddress code ++ (absoluteIn code).map (·.2) ++
    groupsIn axiosPath code ++ groupsIn axiosBaseAddress code

theorem path?_ofPath (placeholder path : Text) : (ofPath placeholder path).path? = some (normalize placeholder path) := by
  simp only [ofPath]
  split
  · rename_i hsame
    rw [hsame]
    rfl
  · rfl

theorem normalize_of_literal {placeholder path q : Text} (h : ofPath placeholder path = literal q) :
    path = q ∧ normalize placeholder q = q := by
  simp only [ofPath] at h
  split at h
  · rename_i hsame
    obtain rfl := Endpoint.literal.inj h
    exact ⟨rfl, hsame⟩
  · cases h

/-- The path of an endpoint is a written path, normalised; that of a literal one is as it was written. -/
theorem exists_written {ownHost placeholder code p : Text} {e : Endpoint} (he : e ∈ allIn ownHost placeholder code)
    (hp : e.path? = some p) : ∃ written ∈ writtenPaths code, p = normalize placeholder written ∧
      (e = literal p → normalize placeholder p = p) := by
  have hpath {written : Text} (hw : written ∈ writtenPaths code) (hsame : ofPath placeholder written = e) :
      ∃ written ∈ writtenPaths code, p = normalize placeholder written ∧
        (e = literal p → normalize placeholder p = p) := by
    refine ⟨written, hw, ?_, fun hliteral => (normalize_of_literal (hsame.trans hliteral)).2⟩
    rw [← hsame, path?_ofPath] at hp
    exact (Option.some.inj hp).symm
  simp only [allIn, mem_distinct, List.partition_eq_filter_filter, List.mem_append, List.mem_map, List.mem_filter,
    Prod.exists] at he
  rcases he with (((((⟨path, hm, he⟩ | ⟨path, hm, he⟩) | ⟨host, path, ⟨hm, -⟩, he⟩) | ⟨host, path, ⟨hm, -⟩, rfl⟩) |
    ⟨path, hm, he⟩) | ⟨path, hm, he⟩) | ⟨verb, -, rfl⟩
  · exact hpath (by simp [writtenPaths, hm]) he
  · exact hpath (by simp [writtenPaths, hm]) he
  · exact hpath (List.mem_append_left _ (List.mem_append_left _ (List.mem_append_right _ (List.mem_map_of_mem hm)))) he
  · refine ⟨path, ?_, (Option.some.inj hp).symm, fun h => by cases h⟩
    exact List.mem_append_left _ (List.mem_append_left _ (List.mem_append_right _ (List.mem_map_of_mem hm)))
  · exact hpath (by simp [writtenPaths, hm]) he
  · exact hpath (by simp [writtenPaths, hm]) he
  · cases hp

/-- The text of the default placeholder between its brackets. -/
def defaultInner : Text := "param"

theorem default_placeholder : ({} : AnalysisSettings).placeholder = '{' :: (defaultInner ++ ['}']) := by decide

/-- What is left of interpolations in the path of an endpoint: one of the placeholder's own text where a dollar sign
stands directly before an interpolation of the written path, and nothing else. -/
theorem allIn_interpolations {ownHost code p : Text} {e : Endpoint}
    (he : e ∈ allIn ownHost ({} : AnalysisSettings).placeholder code) (hp : e.path? = some p) :
    (e = literal p → ¬ ∃ x, Interpolates x p) ∧ (∀ x, Interpolates x p → x = "param") ∧
      (normalize ({} : AnalysisSettings).placeholder p = p ↔ ¬ ∃ x, Interpolates x p) ∧
      ∃ written ∈ writtenPaths code, p = normalize ({} : AnalysisSettings).placeholder written ∧
        ((∃ x, Interpolates x p) ↔ ∃ m ∈ interpolation.matchesIn written, m.opened.previous = some '$') := by
  have hinner : defaultInner ≠ [] ∧ '}' ∉ defaultInner := by decide
  have hdollar : '$' ∉ defaultInner := by decide
  rw [default_placeholder] at he ⊢
  obtain ⟨written, hw, hnormal, hliteral⟩ := exists_written he hp
  have hstart : (Spot.start written).previous ≠ some '$' := by simp [Spot.start, Spot.between]
  obtain ⟨hleft, hiff⟩ := interpolates_replaceFrom hinner hdollar hstart
  rw [normalize, replaceIn] at hnormal
  refine ⟨fun h => normalize_eq_self_iff.mp (hliteral h), ?_, normalize_eq_self_iff, written, hw, hnormal, ?_⟩
  · rw [hnormal]
    exact hleft
  · rw [hnormal]
    exact hiff

/-- A call whose path has a price in it: the sign of the currency stands before the interpolation. -/
def pricedCall : Text := "fetch(\x60/api/$$\x7bprice\x7d/$\x7bid\x7d\x60)"

/-- What becomes of that path. -/
def pricedPath : Text := "/api/$\x7bparam\x7d/\x7bparam\x7d"

theorem allIn_interpolations_pricedCall :
    (parameterized pricedPath ∈ allIn "api.dltpays.com" ({} : AnalysisSettings).placeholder pricedCall ∧
      (parameterized pricedPath).path? = some pricedPath) ∧
    (∀ x, Interpolates x pricedPath → x = "param") ∧
      ∃ written ∈ writtenPaths pricedCall, pricedPath = normalize ({} : AnalysisSettings).placeholder written ∧
        ((∃ x, Interpolates x pricedPath) ↔
          ∃ m ∈ interpolation.matchesIn written, m.opened.previous = some '$') := by
  have hmem : parameterized pricedPath ∈ allIn "api.dltpays.com" ({} : AnalysisSettings).placeholder pricedCall := by
    decide +kernel
  obtain ⟨-, hleft, -, hwritten⟩ := allIn_interpolations hmem rfl
  exact ⟨⟨hmem, rfl⟩, hleft, hwritten⟩

/-- Not every path that is produced is free of interpolations, and normalising it again can change it. -/
theorem not_normalized : ∃ e ∈ allIn "api.dltpays.com" ({} : AnalysisSettings).placeholder pricedCall, ∃ p,
    e.path? = some p ∧ (∃ x, Interpolates x p) ∧ normalize ({} : AnalysisSettings).placeholder p ≠ p := by
  refine ⟨parameterized pricedPath, by decide +kernel, pricedPath, rfl, ⟨"param", ?_⟩, by decide +kernel⟩
  exact ⟨by decide, by decide, "/api/", "/\x7bparam\x7d", by decide⟩

end Endpoint

end SourceArchive
