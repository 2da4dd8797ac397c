import SourceArchive.Label.Classifier
import SourceArchive.Proofs.EngineNotation

/-!
# Keyword patterns as alternatives

The entries of a list of keyword patterns are joined by bars and put between word edges before they are compiled.  If every entry is
self-contained, the joined text is a pattern exactly if each entry is one and no name is given twice, and it stands for the
alternatives.  This holds for every engine with the usual notation.
-/

namespace SourceArchive

/-- The four lists of keyword patterns. -/
def FlowSettings.patternLists (s : FlowSettings) : List (List Text) :=
  [s.affiliateBodyPatterns, s.vendorBodyPatterns, s.affiliateRoutePatterns, s.vendorRoutePatterns]

section Settings

variable {E : PatternEngine}

theorem read_of_readPatterns {field : PatternField} {written : List Text} {p : Option (Text → Bool)}
    (h : readPatterns E field written = .ok p) : WholeWord.read E written = .ok p := by
  rw [readPatterns] at h
  cases hread : WholeWord.read E written with
  | error f => simp [hread, Except.mapError] at h
  | ok q => simpa [hread, Except.mapError] using h

theorem exists_of_bind_eq_ok {ε α β : Type} {x : Except ε α} {f : α → Except ε β} {b : β} (h : x >>= f = .ok b) :
    ∃ a, x = .ok a ∧ f a = .ok b := by
  cases x with
  | error e => cases h
  | ok a => exact ⟨a, rfl, h⟩

/-- Settings that are in order have their lists of keyword patterns read. -/
theorem FlowSettings.read_lists {s : FlowSettings} {patterns : FlowPatterns} (h : s.read E = .ok patterns) :
    WholeWord.read E s.affiliateBodyPatterns = .ok patterns.affiliateBody ∧
      WholeWord.read E s.vendorBodyPatterns = .ok patterns.vendorBody ∧
      WholeWord.read E s.affiliateRoutePatterns = .ok patterns.affiliateRoute ∧
      WholeWord.read E s.vendorRoutePatterns = .ok patterns.vendorRoute := by
  rw [FlowSettings.read] at h
  simp only [] at h
  split at h
  · cases h
  split at h
  · cases h
  obtain ⟨affiliateBody, h₁, h⟩ := exists_of_bind_eq_ok h
  obtain ⟨vendorBody, h₂, h⟩ := exists_of_bind_eq_ok h
  obtain ⟨affiliateRoute, h₃, h⟩ := exists_of_bind_eq_ok h
  obtain ⟨vendorRoute, h₄, h⟩ := exists_of_bind_eq_ok h
  cases h
  exact ⟨read_of_readPatterns h₁, read_of_readPatterns h₂, read_of_readPatterns h₃,
    read_of_readPatterns h₄⟩

theorem FlowSettings.exists_read_of_mem {s : FlowSettings} {patterns : FlowPatterns} (h : s.read E = .ok patterns)
    {written : List Text} (hmem : written ∈ s.patternLists) : ∃ p, WholeWord.read E written = .ok p := by
  obtain ⟨h₁, h₂, h₃, h₄⟩ := s.read_lists h
  simp only [patternLists, List.mem_cons, List.not_mem_nil, or_false] at hmem
  rcases hmem with rfl | rfl | rfl | rfl
  exacts [⟨_, h₁⟩, ⟨_, h₂⟩, ⟨_, h₃⟩, ⟨_, h₄⟩]

theorem AnalysisSettings.read_flow {s : AnalysisSettings} {patterns : FlowPatterns} (h : s.read E = .ok patterns) :
    s.flow.read E = .ok patterns := by
  rw [AnalysisSettings.read] at h
  simp only [] at h
  split at h
  · cases h
  split at h
  · cases h
  split at h
  · cases h
  exact h

theorem Classifier.of_ofSettings {s : AnalysisSettings} {c : Classifier} (h : ofSettings s E = .ok c) :
    c.settings = s ∧ c.engine = E := by
  rw [ofSettings] at h
  split at h
  · cases h
  · cases h
    exact ⟨rfl, rfl⟩

theorem Classifier.read_flow_of_ofSettings {s : AnalysisSettings} {c : Classifier} (h : ofSettings s E = .ok c) :
    s.flow.read E = .ok c.patterns := by
  obtain ⟨rfl, rfl⟩ := of_ofSettings h
  exact AnalysisSettings.read_flow c.read_settings

end Settings

namespace WholeWord

open PatternEngine (Notation)

variable {E : PatternEngine} {written : List Text}

theorem read_of_ne_nil (h : entries written ≠ []) :
    read E written = (E.compile (source (entries written))).map some := by
  rw [read]
  split
  · contradiction
  · rfl

theorem exists_read_iff (h : entries written ≠ []) :
    (∃ p, read E written = .ok p) ↔ E.Compiles (source (entries written)) := by
  rw [read_of_ne_nil h, PatternEngine.Compiles]
  cases E.compile (source (entries written)) <;> simp [Except.map]

/-- Keyword patterns are alternatives.  If every entry is self-contained and the engine's limits suffice, a list is accepted exactly
if each entry is a pattern and no name is given twice; what is read occurs where one of the entries does by itself; and settings with
an entry that is no pattern are refused. -/
theorem read_alternatives (E : PatternEngine) (N : E.Notation) (written : List Text)
    (hself : N.AllSelfContained (entries written)) (hfits : E.FitsAll (entries written)) :
    ((∃ p, read E written = .ok p) ↔ (∀ e ∈ entries written, E.Compiles e) ∧
      (entries written).Pairwise fun x y => (N.names x).Disjoint (N.names y)) ∧
    (∀ p, read E written = .ok p → ∀ t, (occursIn p t = true ↔
      ∃ e ∈ entries written, ∃ m, E.compile (source [e]) = .ok m ∧ m t = true)) ∧
    ∀ s : AnalysisSettings, written ∈ s.flow.patternLists → (∃ e ∈ entries written, ¬ E.Compiles e) →
      ∃ fault, Classifier.ofSettings s E = .error fault := by
  have hread : (∃ p, read E written = .ok p) ↔ (∀ e ∈ entries written, E.Compiles e) ∧
      (entries written).Pairwise fun x y => (N.names x).Disjoint (N.names y) := by
    by_cases hne : entries written = []
    · simp [read, hne]
    · rw [exists_read_iff hne, Notation.compiles_source_iff hne hself hfits]
  refine ⟨hread, fun p hp t => ?_, fun s hmem hbad => ?_⟩
  · by_cases hne : entries written = []
    · obtain rfl : none = p := by simpa [read, hne] using hp
      simp [occursIn, hne]
    obtain ⟨m, hm⟩ := (exists_read_iff hne).mp ⟨p, hp⟩
    rw [read_of_ne_nil hne, hm] at hp
    obtain rfl : some m = p := by simpa [Except.map] using hp
    exact Notation.occurs_source_iff hne hself hfits hm t
  · cases hclassifier : Classifier.ofSettings s E with
    | error fault => exact ⟨fault, rfl⟩
    | ok c =>
      obtain ⟨e, he, hnot⟩ := hbad
      have hlist := FlowSettings.exists_read_of_mem (Classifier.read_flow_of_ofSettings hclassifier) hmem
      exact absurd ((hread.mp hlist).1 e he) hnot

theorem isOk_iff {ε α : Type} {x : Except ε α} : x.isOk = true ↔ ∃ a, x = .ok a := by
  cases x <;> simp [Except.isOk, Except.toBool]

theorem exists_of_toOption_map {ε α β : Type} {x : Except ε α} {f : α → β} {b : β} (h : x.toOption.map f = some b) :
    ∃ a, x = .ok a ∧ f a = b := by
  cases x with
  | error e => simp [Except.toOption] at h
  | ok a => exact ⟨a, rfl, by simpa [Except.toOption] using h⟩

end WholeWord

namespace PatternEngine

/-- Whether a text is self-contained for the backtracking engine can be computed. -/
instance (t : Text) : Decidable (backtracking.SelfContained backtrackingNotation.keeps t) :=
  decidable_of_iff (backtracking.Whole t ∧ PatternReader.KeepsSwitches t)
    ⟨fun h => ⟨h.1, h.2⟩, fun h => ⟨h.whole, h.keeps⟩⟩

instance (es : List Text) : Decidable (backtrackingNotation.AllSelfContained es) :=
  inferInstanceAs (Decidable (∀ e ∈ es, _))

end PatternEngine

namespace WholeWord

open PatternEngine

theorem read_alternatives_keywords :
    (∃ p, read .backtracking ["pos", "share.*link"] = .ok p ∧
      occursIn p "open the POS terminal" = true ∧ occursIn p "position" = false ∧
      ∀ t, (occursIn p t = true ↔ ∃ e ∈ entries ["pos", "share.*link"], ∃ m,
        backtracking.compile (source [e]) = .ok m ∧ m t = true)) ∧
    ∃ fault, Classifier.ofSettings { flow := { vendorBodyPatterns := ["pos", "(unclosed"] } } .backtracking =
      .error fault := by
  constructor
  · have hall := read_alternatives .backtracking backtrackingNotation ["pos", "share.*link"] (by decide +kernel)
      (by decide +kernel)
    have hread : (read .backtracking ["pos", "share.*link"]).toOption.map (fun p =>
        (occursIn p "open the POS terminal", occursIn p "position")) = some (true, false) := by decide +kernel
    obtain ⟨p, hp, hoccurs⟩ := exists_of_toOption_map hread
    obtain ⟨hterminal, hposition⟩ := Prod.mk.inj hoccurs
    exact ⟨p, hp, hterminal, hposition, hall.2.1 p hp⟩
  · have hall := read_alternatives .backtracking backtrackingNotation ["pos", "(unclosed"] (by decide +kernel)
      (by decide +kernel)
    exact hall.2.2 _ (by decide) ⟨"(unclosed", by decide, by decide +kernel⟩

/-- Entries that are not self-contained may complete one another: neither of these is a pattern, and settings with them are
accepted. -/
theorem not_alternatives :
    (∃ p, read .backtracking ["(a", "b)"] = .ok p) ∧
      (∀ e ∈ entries ["(a", "b)"], ¬ backtracking.Compiles e) ∧
      ∃ c, Classifier.ofSettings { flow := { vendorBodyPatterns := ["(a", "b)"] } } .backtracking = .ok c := by
  have hread : (read .backtracking ["(a", "b)"]).isOk = true := by decide +kernel
  have hbad : ∀ e ∈ entries ["(a", "b)"], ¬ backtracking.Compiles e := by decide +kernel
  have hsettings : (Classifier.ofSettings { flow := { vendorBodyPatterns := ["(a", "b)"] } } .backtracking).isOk = true := by
    decide +kernel
  exact ⟨isOk_iff.mp hread, hbad, isOk_iff.mp hsettings⟩

/-- Switches that an entry sets hold for the entries behind it: a pattern that occurs in any case by itself does not occur
behind one that tells cases apart. -/
theorem not_occursIn_of_switches :
    ∃ p m, read .backtracking ["(?-i)a", "b"] = .ok p ∧ backtracking.compile (source ["b"]) = .ok m ∧
      occursIn p "B" = false ∧ m "B" = true := by
  have hread : (read .backtracking ["(?-i)a", "b"]).toOption.map (occursIn · "B") = some false := by decide +kernel
  have hentry : (backtracking.compile (source ["b"])).toOption.map (· "B") = some true := by decide +kernel
  obtain ⟨p, hp, hoccurs⟩ := exists_of_toOption_map hread
  obtain ⟨m, hm, hoccurs'⟩ := exists_of_toOption_map hentry
  exact ⟨p, m, hp, hm, hoccurs, hoccurs'⟩

/-- Entries that are patterns by themselves are refused together if they give one name to two groups. -/
theorem not_read_of_names : (∀ e ∈ entries ["(?P<n>a)", "(?P<n>b)"], backtracking.Compiles e) ∧
    ∀ p, read .backtracking ["(?P<n>a)", "(?P<n>b)"] ≠ .ok p := by
  have hread : ¬ (read .backtracking ["(?P<n>a)", "(?P<n>b)"]).isOk = true := by decide +kernel
  exact ⟨by decide +kernel, fun p hp => hread (isOk_iff.mpr ⟨p, hp⟩)⟩

end WholeWord

end SourceArchive
