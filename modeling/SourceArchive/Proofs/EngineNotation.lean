import SourceArchive.Proofs.AlikeRuns

/-!
# The notation of the backtracking engine

The reader of patterns keeps the rules that are relied on of an engine.  A text with a bar behind it is read as it is read alone, and
what stands behind the bar is read as if nothing were around, since the reader stands before a piece there.
-/

namespace SourceArchive

namespace PatternReader

open PatternEngine (backtracking)

/-- The switches under which keyword patterns are read. -/
def anyCase : Switches := { ignoreCase := true }

/-- Whether the switches are at the end of a text what they were before. -/
def KeepsSwitches (e : Text) : Prop := ∀ n ∈ ((State.start anyCase).run e).toOption, n.switches = anyCase

instance (e : Text) : Decidable (KeepsSwitches e) := inferInstanceAs (Decidable (∀ _ ∈ _, _))

/-- The names that a text gives to groups, the last first. -/
def groupNames (e : Text) : List Text := ((State.start {}).run e).toOption.elim [] (·.names)

/-- What a text reaches if it is read by itself, in any case. -/
def EntryReaches (e : Text) (s t : Spot) : Prop :=
  ∃ n, (State.start anyCase).run e = .ok n ∧ n.level.body.Reaches s t

/-! ## What a run says of a text -/

/-- The outcome of a run is a pattern. -/
structure State.Closed (n : State) : Prop where
  outer_eq : n.outer = []
  names : n.names.Nodup

theorem State.finish_eq {n : State} (h : n.Closed) : n.finish = .ok n.level.close := by
  simp [finish, h.outer_eq, h.names]

theorem State.finish_of_not_closed {n : State} (h : ¬ n.Closed) :
    ∃ f, n.finish = .error f ∧ f ≠ .strayParenthesis ∧ f.isTorn = false := by
  by_cases houter : n.outer = []
  · have hnames : ¬ n.names.Nodup := fun hnames => h ⟨houter, hnames⟩
    exact ⟨.repeatedName, by simp [finish, houter, hnames], by simp, rfl⟩
  · exact ⟨.unclosedGroup, by simp [finish, houter], by simp, rfl⟩

theorem exists_read_iff {t : Text} :
    (∃ p, Pattern.read t = .ok p) ↔ ∃ n, (State.start {}).run t = .ok n ∧ n.Closed := by
  rw [Pattern.read]
  cases (State.start {}).run t with
  | error f => simp [Except.bind]
  | ok n =>
    by_cases h : n.Closed
    · simp [Except.bind, State.finish_eq h, h]
    · obtain ⟨f, hf, -⟩ := State.finish_of_not_closed h
      simp [Except.bind, hf, h]

theorem compile_eq (t : Text) : backtracking.compile t = (Pattern.read t).map Pattern.occursIn := rfl

theorem compiles_iff {t : Text} :
    backtracking.Compiles t ↔ ∃ n, (State.start {}).run t = .ok n ∧ n.Closed := by
  rw [← exists_read_iff, PatternEngine.Compiles, compile_eq]
  cases Pattern.read t <;> simp [Except.map]

theorem whole_iff {t : Text} : backtracking.Whole t ↔
    ∀ f, (State.start {}).run t = .error f → f ≠ .strayParenthesis ∧ f.isTorn = false := by
  have hread : backtracking.fault? t = match Pattern.read t with | .ok _ => none | .error f => some f := by
    rw [PatternEngine.fault?, compile_eq]
    cases Pattern.read t <;> rfl
  rw [PatternEngine.Whole, hread, Pattern.read]
  cases (State.start {}).run t with
  | error f => simp [Except.bind]
  | ok n =>
    by_cases h : n.Closed
    · simp [Except.bind, State.finish_eq h]
    · obtain ⟨f, hf, hfault⟩ := State.finish_of_not_closed h
      simpa [Except.bind, hf] using hfault

/-! ## One text behind another -/

section Behind

variable {same : Prop} {b : Level} {base : List Level} {used : List Text} {s : Switches} {x y : Text} {n m : State}

theorem Nested.length_eq {ls ls' : List Level} (h : Nested same b base ls ls') : ls'.length = ls.length + base.length := by
  induction h with
  | bottom => simp [Nat.add_comm]
  | inner _ _ _ _ ih => simp [ih]; omega

theorem Nested.not_nil {ls' : List Level} : ¬ Nested same b base [] ls' := by
  intro h
  cases h

theorem State.Alike.length_outer {n' : State} (h : n.Alike same b base used n') :
    n'.outer.length = n.outer.length + base.length := by
  have hlength := h.nested.length_eq
  simp only [List.length_cons] at hlength
  omega

theorem State.Alike.of_closed {n' : State} (h : n.Alike same b base used n') (hn : n.outer = []) :
    n'.outer = base ∧ n'.level.finish = b.finish ∧ n'.level.outside = b.outside ∧
      n.level.Alike same b.alternatives n'.level := by
  have hnested := h.nested
  rw [hn] at hnested
  generalize n'.outer = ls at hnested
  cases hnested with
  | bottom hl hfinish houtside => exact ⟨rfl, hfinish, houtside, hl⟩
  | inner _ _ _ hls => exact absurd hls Nested.not_nil

/-- A fault is a fault in other surroundings, but for a closing parenthesis. -/
theorem run_of_start_error (st : State) (hpieces : st.level.pieces = []) {f : PatternFault} (hf : (State.start s).run x = .error f)
    (hstray : f ≠ .strayParenthesis) : st.run x = .error f := by
  have hfollows := (State.start_alike False (s := s) False.elim hpieces).run_follows x
  rw [hf] at hfollows
  generalize st.run x = k at hfollows
  cases hfollows with
  | fault f => rfl
  | stray y => exact absurd rfl hstray

/-- What is read alone is read in the same way in other surroundings. -/
theorem exists_run_of_start (same : Prop) (st : State) (hpieces : st.level.pieces = []) (hs : same → s = st.switches)
    (hn : (State.start s).run x = .ok n) : ∃ n', st.run x = .ok n' ∧ n.Alike same st.level st.outer st.names n' := by
  have hfollows := (State.start_alike same hs hpieces).run_follows x
  rw [hn] at hfollows
  generalize hx : st.run x = k at hfollows
  cases hfollows with
  | read h => exact ⟨_, rfl, h⟩

/-- Whether a text can be read to its end does not depend on the switches. -/
theorem exists_run_anyCase (hn : (State.start {}).run x = .ok n) :
    ∃ n', (State.start anyCase).run x = .ok n' ∧ (n.outer = [] → n'.outer = []) := by
  obtain ⟨n', hn', halike⟩ := exists_run_of_start False (State.start anyCase) rfl False.elim hn
  exact ⟨n', hn', fun houter => (halike.of_closed houter).1⟩

theorem State.run_of_step {st st' : State} {c : Char} {r : Text} (rest : Text) (h : st.step c r = .ok (st', rest))
    (hlt : rest.length < (c :: r).length) : st.run (c :: r) = st'.run rest := by
  rw [run.eq_def]
  simp only [h, dif_pos hlt]

/-- The state behind the bar of an alternative. -/
def State.bar (st : State) : State := { st with level := st.level.bar }

theorem run_bar (st : State) (t : Text) : st.run ('|' :: t) = st.bar.run t := State.run_of_step t rfl (by simp)

theorem run_bar_of_ok {st : State} (hn : st.run x = .ok n) : st.run (x ++ '|' :: y) = n.bar.run y := by
  rw [(State.run_append (Or.inl rfl) y st x).1 n hn, run_bar]

theorem run_bar_of_error {st : State} {f : PatternFault} (hf : st.run x = .error f) (htorn : f.isTorn = false) :
    st.run (x ++ '|' :: y) = .error f :=
  ((State.run_append (Or.inl rfl) y st x).2 f hf).resolve_left (by simp [htorn])

/-- Both sides of a bar that can be read are read one after the other. -/
theorem exists_run_bar (same : Prop) (hn : (State.start s).run x = .ok n) (hs : same → s = n.switches)
    (hm : (State.start s).run y = .ok m) :
    ∃ k, (State.start s).run (x ++ '|' :: y) = .ok k ∧ m.Alike same n.level.bar n.outer n.names k := by
  rw [run_bar_of_ok hn]
  exact exists_run_of_start same n.bar rfl hs hm

/-- A fault on one side of a bar is a fault of both. -/
theorem exists_fault_bar (hx : backtracking.Whole x) (hy : backtracking.Whole y)
    {f : PatternFault} (hf : (State.start {}).run x = .error f ∨ (State.start {}).run y = .error f) :
    ∃ g, (State.start {}).run (x ++ '|' :: y) = .error g ∧ g ≠ .strayParenthesis ∧ g.isTorn = false := by
  cases hrun : (State.start {}).run x with
  | error g =>
    obtain ⟨hstray, htorn⟩ := whole_iff.mp hx g hrun
    exact ⟨g, run_bar_of_error hrun htorn, hstray, htorn⟩
  | ok n =>
    have hf := hf.resolve_left (by simp [hrun])
    obtain ⟨hstray, htorn⟩ := whole_iff.mp hy f hf
    exact ⟨f, by rw [run_bar_of_ok hrun, run_of_start_error n.bar rfl hf hstray], hstray, htorn⟩

theorem whole_bar (hx : backtracking.Whole x) (hy : backtracking.Whole y) :
    backtracking.Whole (x ++ '|' :: y) := by
  rw [whole_iff]
  intro f hf
  rcases hx' : (State.start {}).run x with g | n
  · obtain ⟨f', hf', hfault⟩ := exists_fault_bar hx hy (Or.inl hx')
    obtain rfl : f' = f := by simpa [hf'] using hf
    exact hfault
  rcases hy' : (State.start {}).run y with g | m
  · obtain ⟨f', hf', hfault⟩ := exists_fault_bar hx hy (Or.inr hy')
    obtain rfl : f' = f := by simpa [hf'] using hf
    exact hfault
  · obtain ⟨k, hk, -⟩ := exists_run_bar False hx' False.elim hy'
    rw [hk] at hf
    cases hf

theorem not_stray_anyCase (hwhole : backtracking.Whole x) {f : PatternFault}
    (hf : (State.start anyCase).run x = .error f) : f ≠ .strayParenthesis ∧ f.isTorn = false := by
  rcases hrun : (State.start {}).run x with g | n
  · have hfault := whole_iff.mp hwhole g hrun
    obtain rfl : g = f := by simpa [run_of_start_error (State.start anyCase) rfl hrun hfault.1] using hf
    exact hfault
  · obtain ⟨n', hn', -⟩ := exists_run_anyCase hrun
    rw [hn'] at hf
    cases hf

theorem KeepsSwitches.switches_eq (h : KeepsSwitches x) (hn : (State.start anyCase).run x = .ok n) :
    n.switches = anyCase := h n (by simp [hn, Except.toOption])

theorem keepsSwitches_bar (hx : backtracking.Whole x) (hy : backtracking.Whole y)
    (hkx : KeepsSwitches x) (hky : KeepsSwitches y) : KeepsSwitches (x ++ '|' :: y) := by
  intro k hk
  rcases hx' : (State.start anyCase).run x with f | n
  · rw [run_bar_of_error hx' (not_stray_anyCase hx hx').2] at hk
    cases hk
  rw [run_bar_of_ok hx'] at hk
  rcases hy' : (State.start anyCase).run y with f | m
  · rw [run_of_start_error n.bar rfl hy' (not_stray_anyCase hy hy').1] at hk
    cases hk
  · obtain ⟨k', hk', halike⟩ := exists_run_of_start True n.bar rfl (fun _ => (hkx.switches_eq hx').symm) hy'
    obtain rfl : k' = k := by simpa [hk', Except.toOption] using hk
    rw [← halike.switches trivial, hky.switches_eq hy']

/-- Alternatives are read exactly if both sides are. -/
theorem exists_run_bar_iff (hx : backtracking.Whole x) (hy : backtracking.Whole y) :
    (∃ k, (State.start {}).run (x ++ '|' :: y) = .ok k) ↔
      (∃ n, (State.start {}).run x = .ok n) ∧ ∃ m, (State.start {}).run y = .ok m := by
  constructor
  · rintro ⟨k, hk⟩
    rcases hx' : (State.start {}).run x with f | n
    · obtain ⟨g, hg, -⟩ := exists_fault_bar hx hy (Or.inl hx')
      rw [hg] at hk
      cases hk
    rcases hy' : (State.start {}).run y with f | m
    · obtain ⟨g, hg, -⟩ := exists_fault_bar hx hy (Or.inr hy')
      rw [hg] at hk
      cases hk
    exact ⟨⟨n, rfl⟩, m, rfl⟩
  · rintro ⟨⟨n, hn⟩, m, hm⟩
    obtain ⟨k, hk, -⟩ := exists_run_bar False hn False.elim hm
    exact ⟨k, hk⟩

/-- What was read of alternatives: both sides, and their names and open groups together. -/
theorem exists_run_sides (hx : backtracking.Whole x) (hy : backtracking.Whole y) {k : State}
    (hk : (State.start {}).run (x ++ '|' :: y) = .ok k) :
    ∃ n m, (State.start {}).run x = .ok n ∧ (State.start {}).run y = .ok m ∧ k.names = m.names ++ n.names ∧
      k.outer.length = m.outer.length + n.outer.length := by
  obtain ⟨⟨n, hn⟩, m, hm⟩ := (exists_run_bar_iff hx hy).mp ⟨k, hk⟩
  obtain ⟨k', hk', halike⟩ := exists_run_bar False hn False.elim hm
  obtain rfl : k' = k := by simpa [hk'] using hk
  exact ⟨n, m, hn, hm, halike.names, halike.length_outer⟩

theorem groupNames_eq (hn : (State.start {}).run x = .ok n) : groupNames x = n.names := by
  rw [groupNames, hn]
  rfl

theorem closed_iff {k : State} (hnames : k.names = m.names ++ n.names)
    (houter : k.outer.length = m.outer.length + n.outer.length) :
    k.Closed ↔ n.Closed ∧ m.Closed ∧ n.names.Disjoint m.names := by
  have hnil : k.outer = [] ↔ n.outer = [] ∧ m.outer = [] := by
    rw [← List.length_eq_zero_iff, ← List.length_eq_zero_iff, ← List.length_eq_zero_iff, houter]
    omega
  have hnodup : k.names.Nodup ↔ m.names.Nodup ∧ n.names.Nodup ∧ m.names.Disjoint n.names := by
    rw [hnames, List.nodup_append']
  constructor
  · rintro ⟨hk, hkn⟩
    obtain ⟨hm, hn, hdisjoint⟩ := hnodup.mp hkn
    exact ⟨⟨(hnil.mp hk).1, hn⟩, ⟨(hnil.mp hk).2, hm⟩, hdisjoint.symm⟩
  · rintro ⟨⟨hn, hnn⟩, ⟨hm, hmn⟩, hdisjoint⟩
    exact ⟨hnil.mpr ⟨hn, hm⟩, hnodup.mpr ⟨hmn, hnn, hdisjoint.symm⟩⟩

theorem compiles_bar_iff (hx : backtracking.Whole x) (hy : backtracking.Whole y) :
    backtracking.Compiles (x ++ '|' :: y) ↔ backtracking.Compiles x ∧
      backtracking.Compiles y ∧ (groupNames x).Disjoint (groupNames y) := by
  simp only [compiles_iff]
  constructor
  · rintro ⟨k, hk, hclosed⟩
    obtain ⟨n, m, hn, hm, hnames, houter⟩ := exists_run_sides hx hy hk
    obtain ⟨hnc, hmc, hdisjoint⟩ := (closed_iff hnames houter).mp hclosed
    exact ⟨⟨n, hn, hnc⟩, ⟨m, hm, hmc⟩, by rwa [groupNames_eq hn, groupNames_eq hm]⟩
  · rintro ⟨⟨n, hn, hnc⟩, ⟨m, hm, hmc⟩, hdisjoint⟩
    obtain ⟨k, hk, halike⟩ := exists_run_bar False hn False.elim hm
    rw [groupNames_eq hn, groupNames_eq hm] at hdisjoint
    exact ⟨k, hk, (closed_iff halike.names halike.length_outer).mpr ⟨hnc, hmc, hdisjoint⟩⟩

theorem mem_groupNames_bar (hx : backtracking.Whole x) (hy : backtracking.Whole y)
    (hbar : backtracking.Compiles (x ++ '|' :: y)) (name : Text) :
    name ∈ groupNames (x ++ '|' :: y) ↔ name ∈ groupNames x ∨ name ∈ groupNames y := by
  obtain ⟨k, hk, -⟩ := compiles_iff.mp hbar
  obtain ⟨n, m, hn, hm, hnames, -⟩ := exists_run_sides hx hy hk
  rw [groupNames_eq hk, groupNames_eq hn, groupNames_eq hm, hnames, List.mem_append, or_comm]

/-! ## What is reached -/

theorem Level.body_reaches_iff {l : Level} {s t : Spot} :
    l.body.Reaches s t ↔ (∃ p ∈ l.alternatives, p.Reaches s t) ∨ l.sequence.Reaches s t := by
  simp [Level.body, Pattern.reaches_oneOf_iff]

theorem exists_reaches_of_alike {ps qs : List Pattern} (h : List.Forall₂ (Pattern.Alike True) ps qs) {s t : Spot} :
    (∃ p ∈ ps, p.Reaches s t) ↔ ∃ q ∈ qs, q.Reaches s t := by
  induction h with
  | nil => simp
  | cons hp _ ih => simp only [List.exists_mem_cons_iff, hp.reaches_iff trivial, ih]

theorem Level.Alike.body_reaches_iff {earlier : List Pattern} {l l' : Level} (h : l.Alike True earlier l') {s t : Spot} :
    l'.body.Reaches s t ↔ (∃ p ∈ earlier, p.Reaches s t) ∨ l.body.Reaches s t := by
  obtain ⟨ps, heq, hps⟩ := h.alternatives
  simp only [Level.body_reaches_iff, heq, List.mem_append, or_and_right, exists_or, exists_reaches_of_alike hps,
    h.sequence.reaches_iff trivial]
  rw [or_assoc, or_left_comm]

theorem Level.bar_reaches_iff {l : Level} {s t : Spot} :
    (∃ p ∈ l.bar.alternatives, p.Reaches s t) ↔ l.body.Reaches s t := by
  rw [Level.body_reaches_iff, Level.bar, List.exists_mem_cons_iff, or_comm]

/-- A pattern is read in any case too. -/
theorem exists_entry (hx : backtracking.Compiles x) :
    ∃ n, (State.start anyCase).run x = .ok n ∧ n.outer = [] ∧ ∀ s t, EntryReaches x s t ↔ n.level.body.Reaches s t := by
  obtain ⟨n₀, hn₀, hclosed⟩ := compiles_iff.mp hx
  obtain ⟨n, hn, houter⟩ := exists_run_anyCase hn₀
  exact ⟨n, hn, houter hclosed.outer_eq, fun s t => by simp [EntryReaches, hn]⟩

theorem entryReaches_bar_iff (hx : backtracking.Whole x) (hy : backtracking.Whole y)
    (hkeeps : KeepsSwitches x) (hbar : backtracking.Compiles (x ++ '|' :: y)) (s t : Spot) :
    EntryReaches (x ++ '|' :: y) s t ↔ EntryReaches x s t ∨ EntryReaches y s t := by
  obtain ⟨hcx, hcy, -⟩ := (compiles_bar_iff hx hy).mp hbar
  obtain ⟨n, hn, -, hxreaches⟩ := exists_entry hcx
  obtain ⟨m, hm, houter, hyreaches⟩ := exists_entry hcy
  obtain ⟨k, hk, halike⟩ := exists_run_bar True hn (fun _ => (hkeeps.switches_eq hn).symm) hm
  obtain ⟨-, -, -, hlevel⟩ := halike.of_closed houter
  have hbarReaches : EntryReaches (x ++ '|' :: y) s t ↔ k.level.body.Reaches s t := by simp [EntryReaches, hk]
  rw [hbarReaches, hlevel.body_reaches_iff, Level.bar_reaches_iff, hxreaches, hyreaches]

/-! ## Between word edges -/

/-- A pattern from word edge to word edge. -/
def bounded (p : Pattern) : Pattern := Pattern.sequence [.assert .wordEdge, p, .assert .wordEdge]

theorem bounded_reaches_iff {p : Pattern} {s t : Spot} :
    (bounded p).Reaches s t ↔ s.isWordEdge = true ∧ p.Reaches s t ∧ t.isWordEdge = true := by
  simp only [bounded, Pattern.sequence, Pattern.Reaches, Assertion.holdsAt]
  constructor
  · rintro ⟨_, ⟨hs, rfl⟩, u, hu, ht, rfl⟩
    exact ⟨hs, hu, ht⟩
  · rintro ⟨hs, h, ht⟩
    exact ⟨s, ⟨hs, rfl⟩, t, h, ht, rfl⟩

theorem occursIn_bounded_iff {p : Pattern} {text : Text} :
    (bounded p).occursIn text = true ↔
      ∃ w s t, (Spot.start text).Reads w s ∧ s.isWordEdge = true ∧ p.Reaches s t ∧ t.isWordEdge = true := by
  simp only [Pattern.occursIn_iff_reaches, bounded_reaches_iff]

/-- The state in which the text between the word edges is read. -/
def State.opened : State where
  switches := anyCase
  groups := 0
  names := []
  level := { finish := none, outside := anyCase }
  outer := [{ finish := none, outside := {}, pieces := [some (.assert .wordEdge), none] }]

/-- What stands in front makes case irrelevant, asserts a word edge and opens a group. -/
theorem run_opening (t : Text) :
    (State.start {}).run ('(' :: '?' :: 'i' :: ')' :: '\\' :: 'b' :: '(' :: '?' :: ':' :: t) = State.opened.run t := by
  rw [State.run_of_step ('\\' :: 'b' :: '(' :: '?' :: ':' :: t) rfl (by simp),
    State.run_of_step ('(' :: '?' :: ':' :: t) rfl (by simp),
    State.run_of_step t rfl (by simp only [List.length_cons]; omega)]
  rfl

/-- What stands behind closes the group and asserts a word edge. -/
theorem run_closing {st : State} {parent : Level} {outer : List Level} (h : st.outer = parent :: outer) :
    st.run [')', '\\', 'b'] = .ok { st with
      switches := st.level.outside, level := (parent.push st.level.close).push (.assert .wordEdge), outer } := by
  obtain ⟨s, groups, names, level, _⟩ := st
  subst h
  rw [State.run_of_step _ rfl (by simp), State.run_of_step _ rfl (by simp), State.run]
  rfl

theorem run_source (x : Text) :
    (State.start {}).run (WholeWord.source [x]) = State.opened.run (x ++ [')', '\\', 'b']) := by
  have hsource : WholeWord.source [x] = '(' :: '?' :: 'i' :: ')' :: '\\' :: 'b' :: '(' :: '?' :: ':' :: (x ++ [')', '\\', 'b']) := by
    unfold WholeWord.source
    rw [Text.join_singleton]
    rfl
  rw [hsource, run_opening]

/-- A text that can be read is read between word edges. -/
theorem run_source_of_ok (same : Prop) (hs : same → s = anyCase) (hn : (State.start s).run x = .ok n) :
    ∃ k, (State.start {}).run (WholeWord.source [x]) = k.run [')', '\\', 'b'] ∧
      n.Alike same State.opened.level State.opened.outer [] k := by
  obtain ⟨k, hk, halike⟩ := exists_run_of_start same State.opened rfl hs hn
  exact ⟨k, by rw [run_source, (State.run_append (Or.inr rfl) ['\\', 'b'] _ x).1 k hk], halike⟩

theorem compiles_source_iff (hx : backtracking.Whole x) :
    backtracking.Compiles (WholeWord.source [x]) ↔ backtracking.Compiles x := by
  simp only [compiles_iff]
  rcases hrun : (State.start {}).run x with f | n
  · obtain ⟨hstray, htorn⟩ := whole_iff.mp hx f hrun
    have hopened : State.opened.run x = .error f := run_of_start_error State.opened rfl hrun hstray
    have hsource := ((State.run_append (Or.inr rfl) ['\\', 'b'] _ x).2 f hopened).resolve_left (by simp [htorn])
    simp [run_source, hsource]
  · obtain ⟨k, hk, halike⟩ := run_source_of_ok False False.elim hrun
    have hlength := halike.length_outer
    obtain ⟨parent, outer, houter⟩ := List.exists_cons_of_length_eq_add_one (l := k.outer) hlength
    have hnil : n.outer = [] ↔ outer = [] := by
      rw [houter, List.length_cons] at hlength
      rw [← List.length_eq_zero_iff, ← List.length_eq_zero_iff]
      simp only [State.opened, List.length_cons, List.length_nil] at hlength
      omega
    have hnames : n.names = k.names := by rw [halike.names, List.append_nil]
    rw [hk, run_closing houter]
    simp only [Except.ok.injEq, exists_eq_left']
    exact ⟨fun h => ⟨hnil.mpr h.outer_eq, hnames ▸ h.names⟩, fun h => ⟨hnil.mp h.outer_eq, hnames ▸ h.names⟩⟩

/-- A text between word edges is the pattern of the text between word edges. -/
theorem exists_read_source (hx : backtracking.Compiles x)
    (hsource : backtracking.Compiles (WholeWord.source [x])) :
    ∃ p, Pattern.read (WholeWord.source [x]) = .ok (bounded p) ∧ ∀ s t, p.Reaches s t ↔ EntryReaches x s t := by
  obtain ⟨n, hn, houter, hreaches⟩ := exists_entry hx
  obtain ⟨k, hk, halike⟩ := run_source_of_ok True (fun _ => rfl) hn
  obtain ⟨hbase, hfinish, -, hlevel⟩ := halike.of_closed houter
  refine ⟨k.level.body, ?_, fun s t => ?_⟩
  · rw [run_closing hbase] at hk
    obtain ⟨m, hm, hclosed⟩ := compiles_iff.mp hsource
    obtain rfl := Except.ok.inj (hk.symm.trans hm)
    have hclose : k.level.close = k.level.body := by rw [Level.close, hfinish]; rfl
    rw [Pattern.read, hm, Except.bind, State.finish_eq hclosed, hclose]
    rfl
  · rw [hreaches, hlevel.body_reaches_iff]
    simp [State.opened]

end Behind

end PatternReader

open PatternReader

/-- The backtracking engine keeps the rules of the notation. -/
def PatternEngine.backtrackingNotation : PatternEngine.backtracking.Notation where
  keeps := KeepsSwitches
  names := groupNames
  spans := EntryReaches
  selfContained_bar hx hy := ⟨whole_bar hx.whole hy.whole, keepsSwitches_bar hx.whole hy.whole hx.keeps hy.keeps⟩
  compiles_bar hx hy _ _ _ := compiles_bar_iff hx.whole hy.whole
  mem_names_bar hx hy hbar := mem_groupNames_bar hx.whole hy.whole hbar
  spans_bar hx hy hbar := entryReaches_bar_iff hx.whole hy.whole hx.keeps hbar
  compiles_source hx _ _ := compiles_source_iff hx.whole
  matches_source {x m} hx hm text := by
    have hsource : PatternEngine.backtracking.Compiles (WholeWord.source [x]) := ⟨m, hm⟩
    obtain ⟨p, hp, hreaches⟩ := exists_read_source ((compiles_source_iff hx.whole).mp hsource) hsource
    rw [compile_eq, hp] at hm
    obtain rfl := Except.ok.inj hm
    rw [occursIn_bounded_iff]
    simp only [hreaches]

end SourceArchive
