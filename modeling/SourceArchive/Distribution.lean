import SourceArchive.Text.Basic

/-!
# Distributions

A distribution counts labels and remembers the order in which they were first seen.
-/

namespace SourceArchive

def sumOf : List Nat → Nat
  | [] => 0
  | n :: rest => n + sumOf rest

theorem sumOf_append (a b : List Nat) : sumOf (a ++ b) = sumOf a + sumOf b := by
  induction a with
  | nil => exact (Nat.zero_add _).symm
  | cons n a ih => rw [List.cons_append, sumOf, sumOf, ih, Nat.add_assoc]

/-- Labels and how often each was seen, in order of first occurrence. -/
structure Distribution where
  entries : List (Text × Nat) := []
deriving Repr, DecidableEq

namespace Distribution

def add (d : Distribution) (label : Text) : Distribution := ⟨enter label (fun n => n.getD 0 + 1) d.entries⟩

def ofList (labels : List Text) : Distribution := labels.foldl add {}

def count (d : Distribution) (label : Text) : Nat := (d.entries.lookup label).getD 0

def total (d : Distribution) : Nat := sumOf (d.entries.map (·.2))

def isEmpty (d : Distribution) : Bool := d.entries.isEmpty

/-- The entries by descending count, equal counts in order of first occurrence. -/
def sorted (d : Distribution) : List (Text × Nat) := d.entries.mergeSort fun a b => b.2 ≤ a.2

def lines (d : Distribution) : List Text := d.sorted.map fun (label, n) => "  " ++ label ++ ": " ++ decimal n

theorem total_add (d : Distribution) (label : Text) : (d.add label).total = d.total + 1 := by
  obtain ⟨entries⟩ := d
  simp only [add, total]
  induction entries with
  | nil => rfl
  | cons e rest ih =>
    obtain ⟨l, n⟩ := e
    simp only [enter]
    split
    · simp only [List.map_cons, sumOf, Option.getD_some]
      omega
    · simp only [List.map_cons, sumOf, ih]
      omega

/-- As many occurrences are counted as there are labels. -/
theorem total_ofList (labels : List Text) : (ofList labels).total = labels.length := by
  have hfold (d : Distribution) : (labels.foldl add d).total = d.total + labels.length := by
    induction labels generalizing d with
    | nil => rfl
    | cons label rest ih =>
      rw [List.foldl_cons, ih, total_add, List.length_cons]
      omega
  exact (hfold {}).trans (Nat.zero_add _)

theorem count_cons (k : Text) (n : Nat) (rest : List (Text × Nat)) (l : Text) :
    count ⟨(k, n) :: rest⟩ l = if l = k then n else count ⟨rest⟩ l := by
  simp only [count, List.lookup_cons]
  split
  · rename_i h
    rw [if_pos (beq_iff_eq.mp h), Option.getD_some]
  · rename_i h
    rw [if_neg (beq_eq_false_iff_ne.mp h)]

theorem count_add (d : Distribution) (label l : Text) :
    (d.add label).count l = d.count l + if l = label then 1 else 0 := by
  obtain ⟨entries⟩ := d
  induction entries with
  | nil => exact (count_cons label 1 [] l).trans (Nat.zero_add _).symm
  | cons e rest ih =>
    obtain ⟨k, n⟩ := e
    rw [add] at ih ⊢
    simp only [enter]
    split
    · rename_i hk
      subst hk
      rw [count_cons, count_cons]
      split
      · rfl
      · rfl
    · rename_i hk
      rw [count_cons, count_cons, ih]
      split
      · rename_i hl
        rw [if_neg (hl ▸ hk)]
        rfl
      · rfl

theorem count_ofList (labels : List Text) (l : Text) : (ofList labels).count l = labels.count l := by
  have hfold (d : Distribution) : (labels.foldl add d).count l = d.count l + labels.count l := by
    induction labels generalizing d with
    | nil => rfl
    | cons label rest ih =>
      rw [List.foldl_cons, ih, count_add, List.count_cons]
      simp only [beq_iff_eq, @eq_comm Text l]
      omega
  exact (hfold {}).trans (Nat.zero_add _)

end Distribution

end SourceArchive
