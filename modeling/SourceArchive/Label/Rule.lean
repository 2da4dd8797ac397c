/-!
# Rule tables

A rule table assigns labels by the first rule whose condition holds; where no rule applies it has a default.
-/

namespace SourceArchive

structure Rule (α β : Type) where
  name : String
  holds : α → Bool
  label : β

/-- Rules in order of precedence and the label where none applies. -/
structure RuleTable (α β : Type) where
  rules : List (Rule α β)
  default : β

namespace RuleTable

variable {α β : Type}

def rule? (t : RuleTable α β) (x : α) : Option (Rule α β) := t.rules.find? (·.holds x)

/-- The label of the first rule that applies, or the default. -/
def labelOf (t : RuleTable α β) (x : α) : β := ((t.rule? x).map (·.label)).getD t.default

/-- A label other than the default comes from a rule that applies. -/
theorem exists_rule_of_labelOf_ne {t : RuleTable α β} {x : α} (h : t.labelOf x ≠ t.default) :
    ∃ r ∈ t.rules, r.holds x = true ∧ r.label = t.labelOf x := by
  unfold labelOf rule? at *
  cases hr : t.rules.find? (·.holds x) with
  | none => simp [hr] at h
  | some r =>
    have holds := List.find?_some hr
    exact ⟨r, List.mem_of_find?_eq_some hr, holds, by simp⟩

end RuleTable

end SourceArchive
