import SourceArchive.Proofs.Extension

/-!
# Runs with more text behind

What was shown of classes and escapes holds of every construct, and so of a run of the reader: with more text behind, it goes on
from where it was, or stops with the same fault, unless the text was torn.
-/

namespace SourceArchive

namespace PatternReader

section Behind

variable {c : Char} (hc : c = '|' ∨ c = ')') (v : Text)
include hc

/-! ## Groups -/

theorem isGroupName_eq_false {name : Text} (hmem : c ∈ name) : isGroupName name = false := by
  rcases name with _ | ⟨d, r⟩
  · simp at hmem
  · rw [isGroupName, Bool.and_eq_false_iff]
    rcases List.mem_cons.mp hmem with rfl | hmem
    · exact Or.inl (by rcases hc with rfl | rfl <;> decide)
    · exact Or.inr (List.all_eq_false.mpr ⟨c, hmem, by rcases hc with rfl | rfl <;> decide⟩)

theorem readName_append (s : Switches) (t : Text) :
    Extends t (c :: v) (readName s t) (readName s (t ++ c :: v)) := by
  have hangle : c ≠ '>' := by rcases hc with rfl | rfl <;> decide
  rw [readName, readName]
  rcases Text.cutAt?_append_cases t hangle v with ⟨name, rest, h, h'⟩ | ⟨h, hmem⟩
  · obtain ⟨-, heq⟩ := Text.cutAt?_eq_some_iff.mp h
    have hrest : rest <:+ t := heq ▸ (List.suffix_cons '>' rest).trans (List.suffix_append name _)
    simp only [h, h']
    split
    · exact .read hrest
    · exact .fault _
  · simp only [h]
    rcases h' : Text.cutAt? '>' (t ++ c :: v) with _ | ⟨name, rest⟩
    · exact .fault _
    · simp only [isGroupName_eq_false hc (hmem name rest h')]
      exact .fault _

omit hc in
theorem readSwitched_append (s : Switches) (on : Bool) (seen : List Char) (t : Text) :
    Extends t (c :: v) (readSwitched s on seen t) (readSwitched s on seen (t ++ c :: v)) := by
  induction t generalizing s on seen with
  | nil => exact .torn _ rfl
  | cons d r ih =>
    have hr : r <:+ d :: r := List.suffix_cons d r
    rw [List.cons_append, readSwitched, readSwitched]
    split
    · split
      · exact .fault _
      · split
        · exact .read hr
        · split
          · exact .fault _
          · exact .read hr
    · split
      · exact .fault _
      · split
        · exact (ih s false _).of_isSuffix hr
        · split
          · exact (ih _ on _).of_isSuffix hr
          · exact .fault _

omit hc in
theorem readOpening_plain (s : Switches) {t : Text} (h : t.head? ≠ some '?') : readOpening s t = .ok (.group true none s, t) := by
  rw [readOpening.eq_def]
  split
  all_goals simp_all

omit hc in
theorem readOpening_switched (s : Switches) {r : Text} (hname : ∀ u, r ≠ 'P' :: '<' :: u) (hangle : r.head? ≠ some '<') :
    readOpening s ('?' :: r) = readSwitched s true [] r := by
  rw [readOpening.eq_def]
  split
  all_goals grind

omit hc in
theorem readOpening_angle (s : Switches) {r : Text} (h : r.head? ≠ some '=' ∧ r.head? ≠ some '!') :
    readOpening s ('?' :: '<' :: r) = readName s r := by
  rw [readOpening.eq_def]
  split
  all_goals grind

omit hc in
/-- What may stand behind an opening parenthesis: nothing that concerns the group, what looks behind, a name, or switches. -/
theorem opening_cases (t : Text) :
    t.head? ≠ some '?' ∨ (∃ r, t = '?' :: '<' :: '=' :: r ∨ t = '?' :: '<' :: '!' :: r) ∨
      (∃ r, t = '?' :: '<' :: r ∧ r.head? ≠ some '=' ∧ r.head? ≠ some '!') ∨ (∃ r, t = '?' :: 'P' :: '<' :: r) ∨
      ∃ r, t = '?' :: r ∧ r.head? ≠ some '<' ∧ ∀ u, r ≠ 'P' :: '<' :: u := by
  rcases t with _ | ⟨d, r⟩
  · exact Or.inl (by simp)
  by_cases hd : d = '?'
  swap
  · exact Or.inl (by simpa using hd)
  subst hd
  refine Or.inr ?_
  by_cases hangle : r.head? = some '<'
  · obtain ⟨r, rfl⟩ : ∃ r', r = '<' :: r' := ⟨r.tail, List.eq_cons_of_mem_head? hangle⟩
    by_cases hequal : r.head? = some '='
    · exact Or.inl ⟨r.tail, Or.inl (by rw [← List.eq_cons_of_mem_head? hequal])⟩
    by_cases hbang : r.head? = some '!'
    · exact Or.inl ⟨r.tail, Or.inr (by rw [← List.eq_cons_of_mem_head? hbang])⟩
    exact Or.inr (Or.inl ⟨r, rfl, hequal, hbang⟩)
  refine Or.inr (Or.inr ?_)
  by_cases hname : ∃ u, r = 'P' :: '<' :: u
  · obtain ⟨u, rfl⟩ := hname
    exact Or.inl ⟨u, rfl⟩
  · exact Or.inr ⟨r, rfl, hangle, fun u hu => hname ⟨u, hu⟩⟩

theorem readOpening_append (s : Switches) (t : Text) :
    Extends t (c :: v) (readOpening s t) (readOpening s (t ++ c :: v)) := by
  have hne {x : Char} (hx : '|' ≠ x ∧ ')' ≠ x) : c ≠ x := by
    rcases hc with rfl | rfl
    · exact hx.1
    · exact hx.2
  have hhead {t : Text} {x : Char} (hx : '|' ≠ x ∧ ')' ≠ x) (h : t.head? ≠ some x) : (t ++ c :: v).head? ≠ some x :=
    Text.head?_append_ne (hne hx) h v
  rcases opening_cases t with hplain | ⟨r, rfl | rfl⟩ | ⟨r, rfl, hequal, hbang⟩ | ⟨r, rfl⟩ | ⟨r, rfl, hangle, hname⟩
  · rw [readOpening_plain s hplain, readOpening_plain s (hhead (by decide) hplain)]
    exact .read List.suffix_rfl
  · exact .fault _
  · exact .fault _
  · rw [List.cons_append, List.cons_append, readOpening_angle s ⟨hequal, hbang⟩,
      readOpening_angle s ⟨hhead (by decide) hequal, hhead (by decide) hbang⟩]
    exact (readName_append hc v s r).of_isSuffix (List.suffix_append ['?', '<'] r)
  · exact (readName_append hc v s r).of_isSuffix (List.suffix_append ['?', 'P', '<'] r)
  · have hname' (u : Text) : r ++ c :: v ≠ 'P' :: '<' :: u := by
      rcases r with _ | ⟨d, _ | ⟨e, r⟩⟩
      · simp [hne (x := 'P') (by decide)]
      · simp [hne (x := '<') (by decide)]
      · intro h
        obtain ⟨rfl, rfl, -⟩ : d = 'P' ∧ e = '<' ∧ _ := by simpa using h
        exact hname r rfl
    rw [List.cons_append, readOpening_switched s hname hangle, readOpening_switched s hname' (hhead (by decide) hangle)]
    exact (readSwitched_append v s true [] r).of_isSuffix (List.suffix_cons _ r)

/-! ## Repetitions -/

theorem readNumber_append (t : Text) :
    Extends t (c :: v) (readNumber t) (readNumber (t ++ c :: v)) := by
  have hblank : isBlank c = false := by rcases hc with rfl | rfl <;> decide
  have hdigit : c.isDigit = false := by rcases hc with rfl | rfl <;> decide
  have htrim (t : Text) : Text.trimStart (t ++ c :: v) = t.trimStart ++ c :: v := Text.dropWhile_append_cons hblank t v
  have hdigits (t : Text) : (t ++ c :: v).takeWhile Char.isDigit = t.takeWhile Char.isDigit :=
    Text.takeWhile_append_cons hdigit t v
  have hdrop (t : Text) :
      (t ++ c :: v).drop (t.takeWhile Char.isDigit).length = t.drop (t.takeWhile Char.isDigit).length ++ c :: v :=
    List.drop_append_of_le_length (List.takeWhile_prefix _).length_le
  have hrest : Text.trimStart (t.trimStart.drop (t.trimStart.takeWhile Char.isDigit).length) <:+ t :=
    (List.dropWhile_suffix _).trans ((List.drop_suffix _ _).trans (List.dropWhile_suffix _))
  simp only [readNumber, htrim, hdigits, hdrop]
  split
  · exact .read hrest
  · split
    · exact .read hrest
    · exact .fault _

/-- The upper bound of a count whose comma has been read, and the brace behind it. -/
def readMost (n : Nat) (t : Text) : Except PatternFault (Count × Text) := do
  let (most, r) ← readNumber t
  match r, most with
  | '\x7d' :: rest, some m => if n ≤ m then .ok (⟨n, some m⟩, rest) else .error .malformedCount
  | _, _ => .error .malformedCount

theorem readMost_append (n : Nat) (t : Text) :
    Extends t (c :: v) (readMost n t) (readMost n (t ++ c :: v)) := by
  have hend : c ≠ '\x7d' := by rcases hc with rfl | rfl <;> decide
  refine (readNumber_append hc v t).bind fun most r hr => ?_
  rcases r with _ | ⟨d, r⟩
  · simp only [List.nil_append]
    split
    · simp_all
    · exact .fault _
  by_cases hclose : d = '\x7d'
  · subst hclose
    cases most with
    | none => exact .fault _
    | some m =>
      simp only [List.cons_append]
      split
      · exact .read ((List.suffix_cons _ r).trans hr)
      · exact .fault _
  · simp [hclose]
    exact .fault _

/-- The rest of a count whose lower bound has been read. -/
def readBounds (least : Option Nat) (t : Text) : Except PatternFault (Count × Text) :=
  match t, least with
  | '\x7d' :: rest, some n => .ok (⟨n, some n⟩, rest)
  | ',' :: '\x7d' :: rest, some n => .ok (⟨n, none⟩, rest)
  | ',' :: r, some n => readMost n r
  | _, _ => .error .malformedCount

omit hc in
theorem readBounds_comma (n : Nat) {r : Text} (h : r.head? ≠ some '\x7d') :
    readBounds (some n) (',' :: r) = readMost n r := by
  rw [readBounds.eq_def]
  split
  all_goals grind

omit hc in
theorem readBounds_malformed {least : Option Nat} {t : Text}
    (h : least = none ∨ t.head? ≠ some '\x7d' ∧ t.head? ≠ some ',') : readBounds least t = .error .malformedCount := by
  rw [readBounds.eq_def]
  split
  all_goals grind

theorem readBounds_append (least : Option Nat) (t : Text) :
    Extends t (c :: v) (readBounds least t) (readBounds least (t ++ c :: v)) := by
  have hend : c ≠ '\x7d' ∧ c ≠ ',' := by rcases hc with rfl | rfl <;> decide
  rcases least with _ | n
  · rw [readBounds_malformed (Or.inl rfl), readBounds_malformed (Or.inl rfl)]
    exact .fault _
  by_cases hclose : t.head? = some '\x7d'
  · obtain ⟨r, rfl⟩ : ∃ r, t = '\x7d' :: r := ⟨t.tail, List.eq_cons_of_mem_head? hclose⟩
    exact .read (List.suffix_cons _ r)
  by_cases hcomma : t.head? = some ','
  · obtain ⟨r, rfl⟩ : ∃ r, t = ',' :: r := ⟨t.tail, List.eq_cons_of_mem_head? hcomma⟩
    by_cases hopen : r.head? = some '\x7d'
    · obtain ⟨r, rfl⟩ : ∃ r', r = '\x7d' :: r' := ⟨r.tail, List.eq_cons_of_mem_head? hopen⟩
      exact .read ((List.suffix_cons _ r).trans (List.suffix_cons _ _))
    · rw [List.cons_append, readBounds_comma n hopen, readBounds_comma n (Text.head?_append_ne hend.1 hopen v)]
      exact (readMost_append hc v n r).of_isSuffix (List.suffix_cons _ r)
  · rw [readBounds_malformed (Or.inr ⟨hclose, hcomma⟩),
      readBounds_malformed (Or.inr ⟨Text.head?_append_ne hend.1 hclose v, Text.head?_append_ne hend.2 hcomma v⟩)]
    exact .fault _

theorem readCount_append (t : Text) :
    Extends t (c :: v) (readCount t) (readCount (t ++ c :: v)) :=
  (readNumber_append hc v t).bind fun least r hr => (readBounds_append hc v least r).of_isSuffix hr

theorem readEagerness_append (s : Switches) (t : Text) :
    readEagerness s (t ++ c :: v) = ((readEagerness s t).1, (readEagerness s t).2 ++ c :: v) := by
  cases t with
  | nil => rcases hc with rfl | rfl <;> rfl
  | cons d r =>
    by_cases hd : d = '?'
    · subst hd
      rfl
    · simp [readEagerness, hd]

omit hc in
theorem readEagerness_isSuffix (s : Switches) (t : Text) : (readEagerness s t).2 <:+ t := by
  rw [readEagerness.eq_def]
  split
  · exact List.suffix_cons _ _
  · exact List.suffix_rfl

theorem readAgain_append (s : Switches) (n : Count) (t : Text) :
    Extends t (c :: v) (.ok (readAgain s n t)) (.ok (readAgain s n (t ++ c :: v))) := by
  rw [readAgain, readAgain, readEagerness_append hc]
  exact .read (readEagerness_isSuffix s t)

/-! ## Constructs and runs -/

theorem readConstruct_append (s : Switches) (repeatable : Bool) (d : Char) (r : Text) :
    Extends (d :: r) (c :: v) (readConstruct s repeatable d r) (readConstruct s repeatable d (r ++ c :: v)) := by
  have hr : r <:+ d :: r := List.suffix_cons d r
  rw [readConstruct.eq_def, readConstruct.eq_def]
  split
  · exact ((readOpening_append hc v s r).map Construct.opened).of_isSuffix hr
  · exact .read hr
  · exact .read hr
  · exact ((readClass_append hc v _ r).map fun k => Construct.piece (.one k)).of_isSuffix hr
  · exact (readAgain_append hc v s _ r).of_isSuffix hr
  · exact (readAgain_append hc v s _ r).of_isSuffix hr
  · exact (readAgain_append hc v s _ r).of_isSuffix hr
  · split
    · refine ((readCount_append hc v r).mapTo _ fun n rest hrest => ?_).of_isSuffix hr
      exact (readAgain_append hc v s n rest).of_isSuffix hrest
    · exact .fault _
  · exact .read hr
  · exact .read hr
  · exact .read hr
  · exact ((readEscape_append hc v r).map fun e => Construct.piece (escapePattern s e)).of_isSuffix hr
  · exact .read hr

theorem State.step_append (st : State) (d : Char) (r : Text) :
    Extends (d :: r) (c :: v) (st.step d r) (st.step d (r ++ c :: v)) := by
  refine (readConstruct_append hc v _ _ d r).bind fun k rest hrest => ?_
  simp only []
  cases st.apply k with
  | error f => exact .fault f
  | ok st => exact .read hrest

/-- If the text goes on, the reader goes on from where it was, or stops with the same fault, unless the text was torn. -/
theorem State.run_append (st : State) (t : Text) :
    (∀ n, st.run t = .ok n → st.run (t ++ c :: v) = n.run (c :: v)) ∧
      ∀ f, st.run t = .error f → f.isTorn = true ∨ st.run (t ++ c :: v) = .error f := by
  rcases t with _ | ⟨d, r⟩
  · simp [State.run.eq_def st []]
  rw [List.cons_append, State.run.eq_def st (d :: r), State.run.eq_def st (d :: (r ++ c :: v))]
  have hstep := State.step_append hc v st d r
  simp only []
  generalize st.step d r = x at hstep
  generalize st.step d (r ++ c :: v) = y at hstep
  cases hstep with
  | fault f => simp
  | torn y htorn => simpa using Or.inl htorn
  | @read st rest hrest =>
    by_cases hlt : rest.length < (d :: r).length
    · have hlt' : (rest ++ c :: v).length < (d :: (r ++ c :: v)).length := by
        simp only [List.length_append, List.length_cons] at hlt ⊢
        omega
      simp only [dif_pos hlt, dif_pos hlt']
      obtain ⟨hok, herror⟩ := State.run_append st rest
      exact ⟨hok, herror⟩
    · have hlt' : ¬ (rest ++ c :: v).length < (d :: (r ++ c :: v)).length := by
        simp only [List.length_append, List.length_cons] at hlt ⊢
        omega
      simp only [dif_neg hlt, dif_neg hlt']
      simp
termination_by t.length
decreasing_by exact hlt

end Behind

end PatternReader

end SourceArchive
