import SourceArchive.Facts.Delimiter
import SourceArchive.Proofs.Text

/-!
# Bracketed texts

The texts that the two scans for a closing bracket pass over.  A text in round, square or curly brackets is built from
plain characters, from quoted strings and from groups (`Bracketed`); whatever brackets its strings hold, and whatever
follows, the scan stops at the bracket that closes it.  In angle brackets it is the balance that counts
(`AngleBalanced`), and an arrow closes nothing.
-/

namespace SourceArchive

open Text

namespace Delimiter

/-! ## Strings and groups -/

/-- What may stand between two quotation marks: a backslash hides the character behind it. -/
inductive Escaped (mark : Char) : Text → Prop
  | nil : Escaped mark []
  | plain {c : Char} {r : Text} : c ≠ mark → c ≠ '\\' → Escaped mark r → Escaped mark (c :: r)
  | hidden {c : Char} {r : Text} : Escaped mark r → Escaped mark ('\\' :: c :: r)

/-- An opening bracket and the closing one of its shape. -/
inductive Pair : Char → Char → Prop
  | round : Pair '(' ')'
  | square : Pair '[' ']'
  | curly : Pair '\x7b' '\x7d'

/-- A text of plain characters, quoted strings and bracketed groups.  Outside strings and groups its characters satisfy
`bare`; what its strings hold satisfies `inside`. -/
inductive Bracketed (inside : Char → Prop) : (Char → Prop) → Text → Prop
  | nil {bare : Char → Prop} : Bracketed inside bare []
  | plain {bare : Char → Prop} {c : Char} {r : Text} : quotes c = false → opens c = false → closes c = false → bare c →
      Bracketed inside bare r → Bracketed inside bare (c :: r)
  | quoted {bare : Char → Prop} {mark : Char} {s r : Text} : quotes mark = true → Escaped mark s → (∀ c ∈ s, inside c) →
      Bracketed inside bare r → Bracketed inside bare (mark :: (s ++ mark :: r))
  | group {bare : Char → Prop} {o c : Char} {t r : Text} : Pair o c → Bracketed inside (fun _ => True) t →
      Bracketed inside bare r → Bracketed inside bare (o :: (t ++ c :: r))

/-- A text whose brackets are closed in order, those in its strings left aside. -/
def WellBracketed (t : Text) : Prop := Bracketed (fun _ => True) (fun _ => True) t

theorem Pair.opens_eq {o c : Char} (h : Pair o c) : opens o = true ∧ quotes o = false := by
  cases h <;> decide

theorem Pair.closes_eq {o c : Char} (h : Pair o c) : closes c = true ∧ quotes c = false ∧ opens c = false := by
  cases h <;> decide

variable {inside bare : Char → Prop}

theorem Bracketed.imp {inside' bare' : Char → Prop} {t : Text} (h : Bracketed inside bare t)
    (hinside : ∀ c, inside c → inside' c) (hbare : ∀ c, bare c → bare' c) : Bracketed inside' bare' t := by
  induction h generalizing bare' with
  | nil => exact .nil
  | plain hquote hopen hclose hc _ ih => exact .plain hquote hopen hclose (hbare _ hc) (ih hbare)
  | quoted hmark hs hin _ ih => exact .quoted hmark hs (fun c hc => hinside c (hin c hc)) (ih hbare)
  | group hpair _ _ iht ihr => exact .group hpair (iht fun _ h => h) (ihr hbare)

/-- A text without quotation marks and brackets may stand in front. -/
theorem Bracketed.plain_append {a r : Text} (ha : a.all (fun c => !quotes c && !opens c && !closes c) = true)
    (hbare : ∀ c ∈ a, bare c) (hr : Bracketed inside bare r) : Bracketed inside bare (a ++ r) := by
  induction a with
  | nil => exact hr
  | cons c a ih =>
    rw [List.all_cons, Bool.and_eq_true, Bool.and_eq_true, Bool.and_eq_true] at ha
    simp only [Bool.not_eq_true'] at ha
    obtain ⟨⟨⟨hquote, hopen⟩, hclose⟩, ha⟩ := ha
    exact .plain hquote hopen hclose (hbare c List.mem_cons_self) (ih ha fun d hd => hbare d (List.mem_cons_of_mem c hd))

theorem enclosed_append (o c : Char) (t r x : Text) : o :: (t ++ c :: r) ++ x = o :: (t ++ c :: (r ++ x)) := by
  simp

theorem Bracketed.append {t u : Text} (h : Bracketed inside bare t) (hu : Bracketed inside bare u) :
    Bracketed inside bare (t ++ u) := by
  induction h with
  | nil => exact hu
  | plain hquote hopen hclose hc _ ih => exact .plain hquote hopen hclose hc (ih hu)
  | quoted hmark hs hin _ ih =>
    rw [enclosed_append]
    exact .quoted hmark hs hin (ih hu)
  | group hpair ht _ _ ih =>
    rw [enclosed_append]
    exact .group hpair ht (ih hu)

/-! ## The scan for a closing bracket -/

section Scan

variable {depth : Nat} {mark c : Char} {r : Text}

theorem closingFrom_quote (h : quotes c = true) :
    closingFrom depth none (c :: r) = (closingFrom depth (some c) r).map (· + 1) := by
  simp [closingFrom, h]

theorem closingFrom_open (hquote : quotes c = false) (h : opens c = true) :
    closingFrom depth none (c :: r) = (closingFrom (depth + 1) none r).map (· + 1) := by
  simp [closingFrom, hquote, h]

theorem closingFrom_close (hquote : quotes c = false) (hopen : opens c = false) (h : closes c = true) :
    closingFrom depth none (c :: r) = if depth ≤ 1 then some 1 else (closingFrom (depth - 1) none r).map (· + 1) := by
  simp [closingFrom, hquote, hopen, h]

theorem closingFrom_plain (hquote : quotes c = false) (hopen : opens c = false) (hclose : closes c = false) :
    closingFrom depth none (c :: r) = (closingFrom depth none r).map (· + 1) := by
  simp [closingFrom, hquote, hopen, hclose]

theorem closingFrom_within (hslash : c ≠ '\\') :
    closingFrom depth (some mark) (c :: r) =
      (closingFrom depth (if c = mark then none else some mark) r).map (· + 1) := by
  rw [closingFrom.eq_def]
  exact if_neg hslash

theorem closingFrom_hidden :
    closingFrom depth (some mark) ('\\' :: c :: r) = (closingFrom depth (some mark) r).map (· + 2) := by
  rw [closingFrom, if_pos rfl]

end Scan

/-- A string is left behind at its closing quotation mark, whatever brackets it holds. -/
theorem closingFrom_escaped {mark : Char} {s : Text} (h : Escaped mark s) (hmark : quotes mark = true) (depth : Nat)
    (x : Text) : closingFrom depth (some mark) (s ++ mark :: x) = (closingFrom depth none x).map (· + (s.length + 1)) := by
  have hslash : mark ≠ '\\' := by
    intro h
    rw [h] at hmark
    exact absurd hmark (by decide)
  induction h with
  | nil => rw [List.nil_append, closingFrom_within hslash, if_pos rfl]; rfl
  | @plain c r hc hbackslash _ ih =>
    rw [List.cons_append, closingFrom_within hbackslash, if_neg hc, ih, Option.map_map]
    congr 1
  | @hidden c r _ ih =>
    rw [List.cons_append, List.cons_append, closingFrom_hidden, ih, Option.map_map]
    congr 1

/-- Within brackets the scan passes over a bracketed text. -/
theorem Bracketed.closingFrom_append {t : Text} (h : Bracketed inside bare t) (depth : Nat) (x : Text) :
    closingFrom (depth + 1) none (t ++ x) = (closingFrom (depth + 1) none x).map (· + t.length) := by
  induction h generalizing depth x with
  | nil => simp
  | @plain _ c r hquote hopen hclose _ _ ih =>
    rw [List.cons_append, closingFrom_plain hquote hopen hclose, ih, Option.map_map, List.length_cons]
    congr 1
  | @quoted _ mark s r hmark hs _ _ ih =>
    rw [enclosed_append, closingFrom_quote hmark, closingFrom_escaped hs hmark, ih, Option.map_map, Option.map_map]
    congr 1
    funext n
    simp
    omega
  | @group _ o c t r hpair _ _ iht ihr =>
    obtain ⟨hopens, hquote⟩ := hpair.opens_eq
    obtain ⟨hcloses, hquote', hopen'⟩ := hpair.closes_eq
    have hdepth : ¬ depth + 1 + 1 ≤ 1 := by omega
    rw [enclosed_append, closingFrom_open hquote hopens, iht, closingFrom_close hquote' hopen' hcloses, if_neg hdepth,
      Nat.add_sub_cancel, ihr, Option.map_map, Option.map_map, Option.map_map]
    congr 1
    funext n
    simp
    omega

/-- The bracket at the beginning is closed behind the bracketed text. -/
theorem Bracketed.balancedLength? {o c : Char} {t : Text} (hpair : Pair o c) (h : Bracketed inside bare t) (rest : Text) :
    Delimiter.balancedLength? (o :: (t ++ c :: rest)) = some (t.length + 2) := by
  obtain ⟨hopens, hquote⟩ := hpair.opens_eq
  obtain ⟨hcloses, hquote', hopen'⟩ := hpair.closes_eq
  unfold Delimiter.balancedLength?
  rw [closingFrom_open hquote hopens, h.closingFrom_append, closingFrom_close hquote' hopen' hcloses, if_pos (by omega)]
  show some (1 + t.length + 1) = _
  congr 1
  omega

theorem inner_cons_append (o c : Char) (t rest : Text) : inner (o :: (t ++ c :: rest)) (t.length + 2) = t := by
  unfold inner
  simp

/-! ## Angle brackets -/

/-- How many angle brackets stay open behind a text that follows `previous`, of `depth` open before; none if more are
closed than are open.  An arrow closes none. -/
def angleDepth? (depth : Nat) (previous : Option Char) : Text → Option Nat
  | [] => some depth
  | c :: r =>
    if c = '<' then angleDepth? (depth + 1) (some c) r
    else if c = '>' ∧ previous ≠ some '=' then
      if depth = 0 then none else angleDepth? (depth - 1) (some c) r
    else angleDepth? depth (some c) r

/-- A text whose angle brackets are closed in order and that ends before an arrow would. -/
structure AngleBalanced (t : Text) : Prop where
  closed : angleDepth? 0 none t = some 0
  getLast?_ne : t.getLast? ≠ some '='

theorem angleClosingFrom_append {depth depth' : Nat} {previous previous' : Option Char} {t : Text}
    (h : angleDepth? depth previous t = some depth') (hprevious : previous = some '=' ↔ previous' = some '=') (x : Text) :
    angleClosingFrom (depth + 1) previous' (t ++ x) =
      (angleClosingFrom (depth' + 1) (t.getLast?.or previous') x).map (· + t.length) := by
  induction t generalizing depth previous previous' with
  | nil =>
    obtain rfl : depth = depth' := Option.some.inj h
    simp
  | cons c r ih =>
    have hlength (o : Option Nat) : (o.map (· + r.length)).map (· + 1) = o.map (· + (c :: r).length) := by
      rw [Option.map_map]
      congr 1
    rw [getLast?_cons_or, ← hlength, List.cons_append, angleClosingFrom]
    rw [angleDepth?] at h
    by_cases hopen : c = '<'
    · rw [if_pos hopen] at h ⊢
      rw [ih h Iff.rfl]
    · rw [if_neg hopen] at h ⊢
      by_cases hclose : c = '>' ∧ previous ≠ some '='
      · have hclose' : c = '>' ∧ previous' ≠ some '=' := ⟨hclose.1, fun h => hclose.2 (hprevious.mpr h)⟩
        rw [if_pos hclose] at h
        rw [if_pos hclose']
        by_cases hzero : depth = 0
        · rw [if_pos hzero] at h
          cases h
        · obtain ⟨d, rfl⟩ := Nat.exists_eq_succ_of_ne_zero hzero
          rw [if_neg hzero] at h
          rw [if_neg (by omega), Nat.add_sub_cancel]
          rw [← ih h Iff.rfl]
          rfl
      · have hclose' : ¬ (c = '>' ∧ previous' ≠ some '=') :=
          fun hc => hclose ⟨hc.1, fun h => hc.2 (hprevious.mp h)⟩
        rw [if_neg hclose] at h
        rw [if_neg hclose', ih h Iff.rfl]

/-- The angle bracket at the beginning is closed behind the balanced text. -/
theorem AngleBalanced.genericLength? {t : Text} (h : AngleBalanced t) (rest : Text) :
    Delimiter.genericLength? ('<' :: (t ++ '>' :: rest)) = some (t.length + 2) := by
  have hprevious : (none : Option Char) = some '=' ↔ some '<' = some '=' := by decide
  have hlast : t.getLast?.or (some '<') ≠ some '=' := by
    cases hx : t.getLast? with
    | none => decide
    | some x =>
      rw [← hx]
      intro heq
      rw [hx, Option.some_or, ← hx] at heq
      exact h.getLast?_ne heq
  unfold Delimiter.genericLength?
  rw [angleClosingFrom, if_pos rfl, angleClosingFrom_append h.closed hprevious, angleClosingFrom, if_neg (by decide),
    if_pos ⟨rfl, hlast⟩, if_pos (by omega)]
  show some (1 + t.length + 1) = _
  congr 1
  omega

end Delimiter

end SourceArchive
