import SourceArchive.Facts.Context
import SourceArchive.Proofs.DeclaredNames
import SourceArchive.Proofs.Delimited
import SourceArchive.Proofs.Initializers
import SourceArchive.Proofs.Searches

/-!
# Contexts found twice

Extraction finds contexts by patterns; the checks have a pattern of their own for direct uses and look for calls of
accessors by hand.  The two patterns differ only in the blanks that they allow behind `useContext`.  A call of a name is
found either way where the name stands with no word character before it and a bracket behind it (`Called`), as long as
both sides mean the same by a word character.
-/

namespace SourceArchive

open Text Pattern StateVariable

namespace Pattern

theorem outcomes_one_of_head {c : CharClass} {s : Progress} (h : s.spot.ahead.head?.any c.has = false) :
    (one c).outcomes s = [] := by
  rw [List.eq_nil_iff_forall_not_mem]
  intro t ht
  obtain ⟨x, u, hn, hx, -⟩ := mem_outcomes_one.mp ht
  rw [(Spot.reads_of_next? hn).ahead_eq] at h
  simp [hx] at h

/-- Where no round is possible, there is one way to do any number of them. -/
theorem outcomes_many_of_nil {p : Pattern} {s : Progress} (h : p.outcomes s = []) : (many p).outcomes s = [s] := by
  rw [many, outcomes, rounds, h]
  rfl

end Pattern

namespace Contexts

/-! ## Direct uses -/

/-- What follows the opening bracket of a direct use. -/
def useParts : List Pattern := [blanks, capture 1 word, blanks, lit ")"]

theorem directUse_outcomes (s : Progress) : directUse.outcomes s =
    ((lit "useContext").outcomes s).flatMap (sequence (lit "(" :: useParts)).outcomes := by
  have hlit : (lit "useContext(").outcomes s = ((lit "useContext").outcomes s).flatMap (lit "(").outcomes :=
    outcomes_sequence_append ("useContext".toList.map fun c => one (.only c)) [one (.only '(')] s
  have huse : directUse.outcomes s = ((lit "useContext(").outcomes s).flatMap (sequence useParts).outcomes :=
    outcomes_sequence_cons _ _ s
  rw [huse, hlit, List.flatMap_assoc]
  exact List.flatMap_congr fun u _ => (outcomes_sequence_cons (lit "(") useParts u).symm

theorem contextUse_outcomes (s : Progress) : Evidenced.contextUse.outcomes s =
    ((lit "useContext").outcomes s).flatMap fun u =>
      (blanks.outcomes u).flatMap (sequence (lit "(" :: useParts)).outcomes := by
  have huse : Evidenced.contextUse.outcomes s =
      ((lit "useContext").outcomes s).flatMap (sequence (blanks :: lit "(" :: useParts)).outcomes :=
    outcomes_sequence_cons _ _ s
  rw [huse]
  exact List.flatMap_congr fun u _ => outcomes_sequence_cons blanks (lit "(" :: useParts) u

/-- If no blank follows `useContext`, the two patterns match alike. -/
theorem at?_directUse_eq {s : Spot} (h : ∀ b, s.ahead = "useContext" ++ b → b.head?.any isBlank = false) :
    directUse.at? s = Evidenced.contextUse.at? s := by
  apply at?_congr
  rw [directUse_outcomes, contextUse_outcomes]
  apply List.flatMap_congr
  intro u hu
  obtain ⟨w, hw, hr⟩ := reads_language_of_mem_outcomes hu
  rw [mem_language_lit.mp hw] at hr
  have hnone : (one .blank).outcomes u = [] := outcomes_one_of_head (h _ hr.ahead_eq)
  rw [blanks, outcomes_many_of_nil hnone, List.flatMap_singleton]

/-! ## Calls of accessors -/

/-- A name is called: no word character stands before it, and an opening bracket behind it. -/
def Called (name code : Text) : Prop :=
  ∃ a b r : Text, code = a ++ name ++ (b ++ '(' :: r) ∧ Blank b ∧ a.getLast?.any isWordChar = false

theorem prefix_trimStart_iff {t : Text} : "(".toList <+: t.trimStart ↔ ∃ b r, t = b ++ '(' :: r ∧ Blank b := by
  constructor
  · intro h
    obtain ⟨r, hr⟩ := h
    refine ⟨t.indentation, r, ?_, blank_indentation t⟩
    have hwhole := indentation_append_trimStart t
    rw [← hr] at hwhole
    exact hwhole.symm
  · intro h
    obtain ⟨b, r, rfl, hb⟩ := h
    have hinked : StartsInked ('(' :: r) := ⟨'(', r, rfl, by decide⟩
    rw [trimStart_append_of_inked hb hinked]
    exact ⟨r, rfl⟩

section Accessor

variable {name code : Text} (hname : Word name)

include hname

theorem calls_iff (hcode : code.Ascii) : Evidenced.calls code name = true ↔ Called name code := by
  have hedge {a b : Text} (h : code = a ++ b) : a.getLast?.any Evidenced.inWord = a.getLast?.any isWordChar := by
    cases hlast : a.getLast? with
    | none => rfl
    | some c =>
      have hc : c ∈ code := by
        rw [h]
        exact List.mem_append_left b (List.mem_of_getLast? hlast)
      exact Evidenced.inWord_eq_isWordChar (hcode c hc)
  unfold Evidenced.calls
  rw [List.any_eq_true]
  constructor
  · intro h
    obtain ⟨o, ho, hcall⟩ := h
    rw [Bool.and_eq_true, Bool.not_eq_true', startsWith_iff, prefix_trimStart_iff] at hcall
    obtain ⟨hprevious, b, r, hbehind, hb⟩ := hcall
    obtain ⟨a, hcut, hlast⟩ := foundIn_of_mem_occurrencesAfter ho
    rw [Option.or_none] at hlast
    rw [hlast, hedge (hcut.trans (List.append_assoc a name _))] at hprevious
    exact ⟨a, b, r, by rw [← hbehind]; exact hcut, hb, hprevious⟩
  · intro h
    obtain ⟨a, b, r, hcut, hb, hlast⟩ := h
    have hfound : ⟨a.getLast?, b ++ '(' :: r⟩ ∈ code.occurrences name := by
      rw [hcut]
      refine mem_occurrences hname.1 fun c hc hm => ?_
      rw [Option.mem_def.mp hc, Option.any_some, List.all_eq_true.mp hname.2 c hm] at hlast
      cases hlast
    refine ⟨_, hfound, ?_⟩
    rw [Bool.and_eq_true, Bool.not_eq_true', startsWith_iff, prefix_trimStart_iff,
      hedge (hcut.trans (List.append_assoc a name _))]
    exact ⟨hlast, b, r, rfl, hb⟩

omit hname in
theorem exists_call_iff {s : Spot} : (∃ t, t ∈ (sequence [lit name, blanks, lit "("]).outcomes { spot := s }) ↔
    ∃ b r, s.ahead = name ++ (b ++ '(' :: r) ∧ Blank b := by
  have hplain : (sequence [lit name, blanks, lit "("]).plain = true := by
    simp only [plain_sequence, List.all_cons, plain_lit]
    rfl
  rw [exists_mem_outcomes_iff hplain]
  constructor
  · intro h
    obtain ⟨w, hw, r, hr⟩ := h
    obtain ⟨v, hv, rfl⟩ := mem_lit_cons.mp hw
    obtain ⟨b, hb, z, hz, rfl⟩ := mem_blanks_cons.mp hv
    obtain rfl : z = ['('] := mem_language_lit.mp hz
    refine ⟨b, r, ?_, hb⟩
    rw [← hr]
    simp
  · intro h
    obtain ⟨b, r, hr, hb⟩ := h
    have hbracket : b ++ ['('] ∈ (sequence [blanks, lit "("]).language :=
      mem_blanks_cons.mpr ⟨b, hb, ['('], lit_mem _, rfl⟩
    refine ⟨_, mem_lit_cons.mpr ⟨_, hbracket, rfl⟩, r, ?_⟩
    rw [hr]
    simp

/-- In front of a word there is a word edge where no word character precedes it. -/
theorem wordEdge_holdsAt {s : Spot} {r : Text} (h : s.ahead = name ++ r) :
    Assertion.wordEdge.holdsAt s = !s.previous.any isWordChar := by
  obtain ⟨c, n, rfl⟩ := List.exists_cons_of_ne_nil hname.1
  have hc : isWordChar c = true := List.all_eq_true.mp hname.2 c List.mem_cons_self
  simp [Assertion.holdsAt, Spot.isWordEdge, h, hc]

theorem isSome_at?_accessorCall_iff {s : Spot} : ((accessorCall name).at? s).isSome = true ↔
    s.previous.any isWordChar = false ∧ ∃ b r, s.ahead = name ++ (b ++ '(' :: r) ∧ Blank b := by
  rw [isSome_at?_iff_exists]
  constructor
  · intro h
    obtain ⟨t, ht⟩ := h
    obtain ⟨u, hu, ht⟩ := mem_outcomes_sequence_cons.mp ht
    obtain ⟨hholds, rfl⟩ := mem_outcomes_assert.mp hu
    obtain ⟨b, r, hr, hb⟩ := exists_call_iff.mp ⟨t, ht⟩
    rw [wordEdge_holdsAt hname hr, Bool.not_eq_true'] at hholds
    exact ⟨hholds, b, r, hr, hb⟩
  · intro h
    obtain ⟨hprevious, b, r, hr, hb⟩ := h
    have hholds : Assertion.wordEdge.holdsAt s = true := by
      rw [wordEdge_holdsAt hname hr, hprevious]
      rfl
    obtain ⟨t, ht⟩ := exists_call_iff.mpr ⟨b, r, hr, hb⟩
    exact ⟨t, mem_outcomes_sequence_cons.mpr ⟨_, mem_outcomes_assert.mpr ⟨hholds, rfl⟩, ht⟩⟩

theorem occursIn_accessorCall_iff : (accessorCall name).occursIn code = true ↔ Called name code := by
  rw [occursIn_iff]
  constructor
  · intro h
    obtain ⟨w, t, hr, hsome⟩ := h
    obtain ⟨hprevious, b, r, hahead, hb⟩ := (isSome_at?_accessorCall_iff hname).mp hsome
    have hlast : t.previous = w.getLast? := hr.previous_eq.trans Option.or_none
    have hcode : code = w ++ t.ahead := hr.ahead_eq
    rw [hlast] at hprevious
    rw [hahead, ← List.append_assoc] at hcode
    exact ⟨w, b, r, hcode, hb, hprevious⟩
  · intro h
    obtain ⟨a, b, r, rfl, hb, hlast⟩ := h
    refine ⟨a, .between a.getLast? (name ++ (b ++ '(' :: r)), ⟨List.append_assoc a name _, Option.or_none.symm⟩, ?_⟩
    exact (isSome_at?_accessorCall_iff hname).mpr ⟨hlast, b, r, rfl, hb⟩

end Accessor

/-! ## The two lists -/

theorem word_of_mem_knownAccessors {a : Accessor} (h : a ∈ knownAccessors) : Word a.accessor := by
  have hall : ∀ a ∈ knownAccessors, a.accessor ≠ [] ∧ a.accessor.all isWordChar = true := by decide +kernel
  exact hall a h

/-- Where no blank follows `useContext`, extraction and the checks find the same contexts in the same order. -/
theorem allIn_eq_contexts {code : Text} (hascii : code.Ascii)
    (hdirect : ∀ a b : Text, code = a ++ "useContext" ++ b → b.head?.any isBlank = false) :
    allIn code = Evidenced.contexts ({} : CheckSettings).contextAccessors code := by
  have huses : directUse.matchesIn code = Evidenced.contextUse.matchesIn code := by
    refine matchesFrom_congr fun w t hr => at?_directUse_eq fun b hb => hdirect w b ?_
    rw [List.append_assoc, ← hb]
    exact hr.ahead_eq
  have hcalls : (knownAccessors.filter fun a => (accessorCall a.accessor).occursIn code) =
      knownAccessors.filter fun a => Evidenced.calls code a.accessor := by
    apply List.filter_congr
    intro a ha
    have hname := word_of_mem_knownAccessors ha
    rw [Bool.eq_iff_iff, occursIn_accessorCall_iff hname, calls_iff hname hascii]
  unfold allIn Evidenced.contexts
  rw [huses, hcalls]

/-- Names within longer names, a use within a use, and blanks in front of a bracket. -/
def crowdedCode : Text :=
  "reuseTheme(); useAuth\n\t(useContext( A )); useThemes(); useContext(useContext(B)); _useUser(); useToast"

theorem allIn_eq_contexts_crowdedCode :
    (crowdedCode.Ascii ∧
      ∀ a b : Text, crowdedCode = a ++ "useContext" ++ b → b.head?.any isBlank = false) ∧
    allIn crowdedCode = Evidenced.contexts ({} : CheckSettings).contextAccessors crowdedCode ∧
      allIn crowdedCode = ["A".toList, "B".toList, "AuthContext".toList] := by
  have hascii : crowdedCode.Ascii := by decide +kernel
  have hdirect (a b : Text) (h : crowdedCode = a ++ "useContext" ++ b) : b.head?.any isBlank = false := by
    have htails : ∀ t ∈ crowdedCode.tails, "useContext".toList <+: t → (t.drop 10).head?.any isBlank = false := by
      decide +kernel
    have hmem : "useContext" ++ b ∈ crowdedCode.tails := by
      rw [List.mem_tails, h, List.append_assoc]
      exact List.suffix_append a _
    exact htails _ hmem (List.prefix_append _ b)
  exact ⟨⟨hascii, hdirect⟩, allIn_eq_contexts hascii hdirect, by decide +kernel⟩

end Contexts

end SourceArchive
