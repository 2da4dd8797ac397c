import SourceArchive.Proofs.Reaches
import SourceArchive.Proofs.ExtendedRuns

/-!
# The reader in different surroundings

A pattern that is read alone is read in the same way inside a larger one: faults and the sizes of parts do not depend on what was
read before, and if the switches agree, neither do the places that are reached.  Only a closing parenthesis without a group is a
fault in one surrounding and none in the other.
-/

namespace SourceArchive

namespace Pattern

open PatternReader (size maybe)

variable {same : Prop} {p q a b : Pattern}

/-- Patterns of one size; if `same` holds, they reach the same places. -/
structure Alike (same : Prop) (p q : Pattern) : Prop where
  size_eq : size p = size q
  reaches_iff : same → ∀ s t, p.Reaches s t ↔ q.Reaches s t

theorem size_maybe (e : Bool) (a b : Pattern) : size (maybe e a b) = size a + size b + 3 := by
  cases e
  · simp only [maybe, size, Bool.false_eq_true, if_false]
    omega
  · simp only [maybe, size, if_true]

namespace Alike

protected theorem refl (p : Pattern) : Alike same p p := ⟨rfl, fun _ _ _ => Iff.rfl⟩

theorem seq (hp : Alike same p q) (ha : Alike same a b) : Alike same (.seq p a) (.seq q b) where
  size_eq := by simp only [size, hp.size_eq, ha.size_eq]
  reaches_iff h s t := by simp only [Reaches, hp.reaches_iff h, ha.reaches_iff h]

theorem alt (hp : Alike same p q) (ha : Alike same a b) : Alike same (.alt p a) (.alt q b) where
  size_eq := by simp only [size, hp.size_eq, ha.size_eq]
  reaches_iff h s t := by simp only [Reaches, hp.reaches_iff h, ha.reaches_iff h]

theorem star (e e' : Bool) (hp : Alike same p q) : Alike same (.star e p) (.star e' q) where
  size_eq := by simp only [size, hp.size_eq]
  reaches_iff h s t := by simp only [Reaches, hp.reaches_iff h]

theorem capture (n m : Nat) (hp : Alike same p q) : Alike same (.capture n p) (.capture m q) where
  size_eq := by simp only [size, hp.size_eq]
  reaches_iff h s t := by simp only [Reaches, hp.reaches_iff h]

theorem maybe (e e' : Bool) (hp : Alike same p q) (ha : Alike same a b) :
    Alike same (PatternReader.maybe e p a) (PatternReader.maybe e' q b) where
  size_eq := by rw [size_maybe, size_maybe, hp.size_eq, ha.size_eq]
  reaches_iff h s t := by
    cases e <;> cases e' <;> simp [PatternReader.maybe, Reaches, hp.reaches_iff h, ha.reaches_iff h, or_comm]

theorem sequence {ps qs : List Pattern} (h : List.Forall₂ (Alike same) ps qs) :
    Alike same (Pattern.sequence ps) (Pattern.sequence qs) := by
  induction h with
  | nil => exact Alike.refl _
  | cons hp hps ih =>
    cases hps with
    | nil => exact hp
    | cons hq hqs => exact hp.seq ih

theorem oneOf {ps qs : List Pattern} (h : List.Forall₂ (Alike same) ps qs) :
    Alike same (Pattern.oneOf ps) (Pattern.oneOf qs) := by
  induction h with
  | nil => exact Alike.refl _
  | cons hp hps ih =>
    cases hps with
    | nil => exact hp
    | cons hq hqs => exact hp.alt ih

end Alike

end Pattern

namespace PatternReader

open Pattern (Alike)

variable {α β : Type} {same : Prop}

/-- What a second reader makes of a text that a first one has read: the same fault, or a result that is related; anything, if the
first found a closing parenthesis without a group. -/
inductive Follows (r : α → β → Prop) : Except PatternFault α → Except PatternFault β → Prop where
  | fault (f : PatternFault) : Follows r (.error f) (.error f)
  | stray (y : Except PatternFault β) : Follows r (.error .strayParenthesis) y
  | read {a : α} {b : β} : r a b → Follows r (.ok a) (.ok b)

theorem Count.apply_follows (n : Count) (e e' : Bool) {p q : Pattern} (h : Alike same p q) :
    Follows (Alike same) (n.apply e p) (n.apply e' q) := by
  have hreplicate (k : Nat) : List.Forall₂ (Alike same) (List.replicate k p) (List.replicate k q) := by
    induction k with
    | zero => exact .nil
    | succ k ih => exact .cons h ih
  have hextra (k : Nat) : Alike same ((List.replicate k p).foldr (maybe e) .empty)
      ((List.replicate k q).foldr (maybe e') .empty) := by
    induction k with
    | zero => exact .refl _
    | succ k ih => exact h.maybe e e' ih
  simp only [Count.apply, h.size_eq]
  split
  · exact .fault _
  · split
    · exact .read (.sequence (List.rel_append (hreplicate _) (.cons (h.star e e') .nil)))
    · exact .read (.sequence (List.rel_append (hreplicate _) (.cons (hextra _) .nil)))

/-! ## Constructs -/

/-- Constructs that were read alike. -/
inductive Construct.Alike (same : Prop) : Construct → Construct → Prop where
  | group (captured : Bool) (name? : Option Text) {s s' : Switches} : (same → s = s') →
      Construct.Alike same (.opened (.group captured name? s)) (.opened (.group captured name? s'))
  | switches {s s' : Switches} : (same → s = s') → Construct.Alike same (.opened (.switches s)) (.opened (.switches s'))
  | closed : Construct.Alike same .closed .closed
  | bar : Construct.Alike same .bar .bar
  | again (n : Count) (e e' : Bool) : Construct.Alike same (.again n e) (.again n e')
  | piece {p q : Pattern} : Pattern.Alike same p q → Construct.Alike same (.piece p) (.piece q)

protected theorem Construct.Alike.refl (k : Construct) : Construct.Alike same k k := by
  cases k with
  | opened o =>
    cases o with
    | group captured name? s => exact .group captured name? fun _ => rfl
    | switches s => exact .switches fun _ => rfl
  | closed => exact .closed
  | bar => exact .bar
  | again n e => exact .again n e e
  | piece p => exact .piece (.refl p)

theorem Follows.refl {r : α → α → Prop} (hr : ∀ a, r a a) (x : Except PatternFault α) : Follows r x x := by
  cases x with
  | error f => exact .fault f
  | ok a => exact .read (hr a)

theorem Follows.map {γ δ : Type} {r : α → β → Prop} {r' : γ → δ → Prop}
    {x : Except PatternFault α} {y : Except PatternFault β}
    (h : Follows r x y) {f : α → γ} {g : β → δ} (hfg : ∀ a b, r a b → r' (f a) (g b)) :
    Follows r' (x.map f) (y.map g) := by
  cases h with
  | fault f => exact .fault f
  | stray y => exact .stray _
  | read hab => exact .read (hfg _ _ hab)

theorem Follows.bind {γ δ : Type} {r : α → β → Prop} {r' : γ → δ → Prop}
    {x : Except PatternFault α} {y : Except PatternFault β} (h : Follows r x y)
    {f : α → Except PatternFault γ} {g : β → Except PatternFault δ}
    (hfg : ∀ a b, r a b → Follows r' (f a) (g b)) : Follows r' (x.bind f) (y.bind g) := by
  cases h with
  | fault f => exact .fault f
  | stray y => exact .stray _
  | read hab => exact hfg _ _ hab

theorem readClassWithin_follows (ic ic' : Bool) (level level' : Bracket.Level) (outer outer' : List Bracket.Level)
    (houter : outer.length = outer'.length) (t : Text) :
    Follows (fun x y => x.2 = y.2) (Bracket.readWithin ic level outer t) (Bracket.readWithin ic' level' outer' t) := by
  have hgoOn (level level' : Bracket.Level) (outer outer' : List Bracket.Level) (houter : outer.length = outer'.length)
      (rest : Text) :
      Follows (fun x y => x.2 = y.2)
        (if _h : rest.length < t.length then Bracket.readWithin ic level outer rest else .error .unclosedClass)
        (if _h : rest.length < t.length then Bracket.readWithin ic' level' outer' rest else .error .unclosedClass) := by
    split
    · exact readClassWithin_follows ic ic' level level' outer outer' houter rest
    · exact .fault _
  rcases t with _ | ⟨d, r⟩
  · rw [Bracket.readWithin.eq_def, Bracket.readWithin.eq_def]
    exact .fault _
  by_cases hopen : d = '['
  · subst hopen
    rw [Bracket.readWithin.eq_def ic, Bracket.readWithin.eq_def ic']
    simp only []
    split
    · exact hgoOn _ _ _ _ houter _
    · exact hgoOn _ _ _ _ (by simp [houter]) _
  by_cases hclose : d = ']'
  · subst hclose
    rw [Bracket.readWithin.eq_def ic, Bracket.readWithin.eq_def ic']
    cases outer with
    | nil =>
      obtain rfl := List.eq_nil_of_length_eq_zero houter.symm
      exact .read rfl
    | cons parent outer =>
      obtain ⟨parent', outer', rfl⟩ := List.exists_cons_of_length_eq_add_one houter.symm
      exact hgoOn _ _ _ _ (by simpa using houter) _
  rcases r with _ | ⟨e, r⟩
  · obtain ⟨f, -, hf⟩ := readClassWithin_single hopen hclose
    rw [hf, hf]
    exact .fault f
  by_cases hpair : d = e ∧ (d = '&' ∨ d = '-' ∨ d = '~')
  · obtain ⟨rfl, hd⟩ := hpair
    rcases hd with rfl | rfl | rfl
    all_goals
      rw [Bracket.readWithin.eq_def ic, Bracket.readWithin.eq_def ic']
      exact hgoOn _ _ _ _ houter _
  · rw [readClassWithin_item _ _ _ hopen hclose hpair, readClassWithin_item _ _ _ hopen hclose hpair]
    rcases Bracket.readRange (d :: e :: r) with f | ⟨k, rest⟩
    · exact .fault f
    · exact hgoOn _ _ _ _ houter rest
termination_by t.length

/-- The same text was read, up to the switches. -/
def Opened (same : Prop) (x y : Opening × Text) : Prop := (Construct.opened x.1).Alike same (.opened y.1) ∧ x.2 = y.2

theorem readName_follows (hsame : ¬ same) (s s' : Switches) (t : Text) :
    Follows (Opened same) (readName s t) (readName s' t) := by
  rw [readName, readName]
  split
  · split
    · exact .read ⟨.group true _ fun h => absurd h hsame, rfl⟩
    · exact .fault _
  · exact .fault _

theorem readSwitched_follows (hsame : ¬ same) (s s' : Switches) (on : Bool) (seen : List Char) (t : Text) :
    Follows (Opened same) (readSwitched s on seen t) (readSwitched s' on seen t) := by
  induction t generalizing s s' on seen with
  | nil => exact .fault _
  | cons d r ih =>
    rw [readSwitched, readSwitched]
    split
    · split
      · exact .fault _
      · split
        · exact .read ⟨.group false none fun h => absurd h hsame, rfl⟩
        · split
          · exact .fault _
          · exact .read ⟨.switches fun h => absurd h hsame, rfl⟩
    · split
      · exact .fault _
      · split
        · exact ih s s' false _
        · have hset : (s.set d on).isSome = (s'.set d on).isSome := by
            cases on <;> simp only [Switches.set] <;> split <;> rfl
          rcases h : s.set d on with _ | u
          · rcases h' : s'.set d on with _ | u'
            · exact .fault _
            · simp [h, h'] at hset
          · rcases h' : s'.set d on with _ | u'
            · simp [h, h'] at hset
            · exact ih u u' on _

theorem readOpening_follows (hsame : ¬ same) (s s' : Switches) (t : Text) :
    Follows (Opened same) (readOpening s t) (readOpening s' t) := by
  rcases opening_cases t with hplain | ⟨r, rfl | rfl⟩ | ⟨r, rfl, hequal, hbang⟩ | ⟨r, rfl⟩ | ⟨r, rfl, hangle, hname⟩
  · rw [readOpening_plain s hplain, readOpening_plain s' hplain]
    exact .read ⟨.group true none fun h => absurd h hsame, rfl⟩
  · exact .fault _
  · exact .fault _
  · rw [readOpening_angle s ⟨hequal, hbang⟩, readOpening_angle s' ⟨hequal, hbang⟩]
    exact readName_follows hsame s s' r
  · exact readName_follows hsame s s' r
  · rw [readOpening_switched s hname hangle, readOpening_switched s' hname hangle]
    exact readSwitched_follows hsame s s' true [] r

theorem readAgain_follows (s s' : Switches) (n : Count) (t : Text) :
    (readAgain s n t).1.Alike same (readAgain s' n t).1 ∧ (readAgain s n t).2 = (readAgain s' n t).2 := by
  refine ⟨.again n _ _, ?_⟩
  simp only [readAgain, readEagerness]
  split <;> rfl

theorem readConstruct_follows (s s' : Switches) (hs : same → s = s') (repeatable : Bool) (c : Char) (r : Text) :
    Follows (fun x y => x.1.Alike same y.1 ∧ x.2 = y.2) (readConstruct s repeatable c r) (readConstruct s' repeatable c r) := by
  by_cases heq : s = s'
  · subst heq
    exact .refl (fun x => ⟨.refl x.1, rfl⟩) _
  have hsame : ¬ same := fun h => heq (hs h)
  have hpiece {p q : Pattern} (h : size p = size q) : Construct.Alike same (.piece p) (.piece q) :=
    .piece ⟨h, fun h => absurd h hsame⟩
  rw [readConstruct.eq_def s]
  split
  · exact (readOpening_follows hsame s s' r).map fun _ _ h => h
  · exact .read ⟨.closed, rfl⟩
  · exact .read ⟨.bar, rfl⟩
  · exact (readClassWithin_follows _ _ _ _ [] [] rfl _).map fun _ _ h => ⟨hpiece rfl, h⟩
  · exact .read (readAgain_follows s s' _ r)
  · exact .read (readAgain_follows s s' _ r)
  · exact .read (readAgain_follows s s' _ r)
  · simp only [readConstruct]
    split
    · exact (Follows.refl (r := Eq) (fun _ => rfl) (readCount r)).map fun _ _ h => h ▸ readAgain_follows s s' _ _
    · exact .fault _
  · exact .read ⟨hpiece rfl, rfl⟩
  · exact .read ⟨hpiece rfl, rfl⟩
  · exact .read ⟨hpiece rfl, rfl⟩
  · refine (Follows.refl (r := Eq) (fun _ => rfl) (Escape.read r)).map fun x _ h => ⟨hpiece ?_, h ▸ rfl⟩
    subst h
    cases x.1 <;> rfl
  · simp only [readConstruct, *, -hsame, -hpiece]
    exact .read ⟨hpiece rfl, rfl⟩

/-! ## Open groups -/

/-- Levels with the same pieces and alternatives, up to alternatives that the second had before. -/
structure Level.Alike (same : Prop) (earlier : List Pattern) (l l' : Level) : Prop where
  alternatives : ∃ ps, l'.alternatives = ps ++ earlier ∧ List.Forall₂ (Pattern.Alike same) l.alternatives ps
  pieces : List.Forall₂ (Option.Rel (Pattern.Alike same)) l.pieces l'.pieces

/-- Open groups that were opened alike above a level `b` in which the second reader began, with the groups `base` around. -/
inductive Nested (same : Prop) (b : Level) (base : List Level) : List Level → List Level → Prop where
  | bottom {l l' : Level} : l.Alike same b.alternatives l' → l'.finish = b.finish → l'.outside = b.outside →
      Nested same b base [l] (l' :: base)
  | inner {l l' : Level} {ls ls' : List Level} : l.Alike same [] l' → l.finish.isSome = l'.finish.isSome →
      (same → l.outside = l'.outside) → Nested same b base ls ls' → Nested same b base (l :: ls) (l' :: ls')

/-- States that were reached alike, the second by a reader that had met the names `used` before. -/
structure State.Alike (same : Prop) (b : Level) (base : List Level) (used : List Text) (st st' : State) : Prop where
  switches : same → st.switches = st'.switches
  names : st'.names = st.names ++ used
  nested : Nested same b base (st.level :: st.outer) (st'.level :: st'.outer)

section Alike

variable {earlier : List Pattern} {l l' : Level} {b : Level} {base ls ls' : List Level}

namespace Level.Alike

theorem push (h : l.Alike same earlier l') {p q : Pattern} (hp : p.Alike same q) :
    (l.push p).Alike same earlier (l'.push q) :=
  ⟨h.alternatives, .cons (.some hp) h.pieces⟩

theorem sequence (h : l.Alike same earlier l') : l.sequence.Alike same l'.sequence :=
  .sequence (List.rel_filterMap (fun _ _ hp => hp) (List.rel_reverse h.pieces))

theorem bar (h : l.Alike same earlier l') : l.bar.Alike same earlier l'.bar := by
  obtain ⟨ps, heq, hps⟩ := h.alternatives
  exact ⟨⟨l'.sequence :: ps, by simp [Level.bar, heq], .cons h.sequence hps⟩, .nil⟩

theorem close (h : l.Alike same [] l') (hfinish : l.finish.isSome = l'.finish.isSome) : l.close.Alike same l'.close := by
  obtain ⟨ps, heq, hps⟩ := h.alternatives
  have hbody : l.body.Alike same l'.body := by
    rw [Level.body, Level.body, heq, List.append_nil]
    exact .oneOf (List.rel_reverse (.cons h.sequence hps))
  rw [Level.close, Level.close]
  rcases hl : l.finish with _ | n
  · rcases hl' : l'.finish with _ | m
    · exact hbody
    · simp [hl, hl'] at hfinish
  · rcases hl' : l'.finish with _ | m
    · simp [hl, hl'] at hfinish
    · exact hbody.capture n m

end Level.Alike

/-- The innermost groups may be changed alike. -/
theorem Nested.top (h : Nested same b base (l :: ls) (l' :: ls')) {m m' : Level}
    (hm : ∀ earlier, l.Alike same earlier l' → m.Alike same earlier m') (hf : m.finish = l.finish) (hf' : m'.finish = l'.finish)
    (ho : m.outside = l.outside) (ho' : m'.outside = l'.outside) : Nested same b base (m :: ls) (m' :: ls') := by
  cases h with
  | bottom hl hfinish houtside => exact .bottom (hm _ hl) (hf'.trans hfinish) (ho'.trans houtside)
  | inner hl hfinish houtside hls =>
    exact .inner (hm _ hl) (by rw [hf, hf', hfinish]) (fun h => by rw [ho, ho', houtside h]) hls

theorem Nested.exists_alike (h : Nested same b base (l :: ls) (l' :: ls')) : ∃ earlier, l.Alike same earlier l' := by
  cases h with
  | bottom hl => exact ⟨_, hl⟩
  | inner hl => exact ⟨_, hl⟩

/-- Levels that may take the place of others at the top of open groups. -/
structure Level.Replaces (same : Prop) (l l' m m' : Level) : Prop where
  alike : ∀ earlier, l.Alike same earlier l' → m.Alike same earlier m'
  finish_left : m.finish = l.finish
  finish_right : m'.finish = l'.finish
  outside_left : m.outside = l.outside
  outside_right : m'.outside = l'.outside

theorem repeatLast_follows (h : l.Alike same earlier l') (n : Count) (e e' : Bool) :
    Follows (Level.Replaces same l l') (repeatLast l n e) (repeatLast l' n e') := by
  have hpieces := h.pieces
  rw [repeatLast, repeatLast]
  rcases hl : l.pieces with _ | ⟨p, ps⟩
  · rw [hl, List.forall₂_nil_left_iff] at hpieces
    rw [hpieces]
    exact .fault _
  · obtain ⟨q, qs, hpq, hps, hl'⟩ := List.forall₂_cons_left_iff.mp (hl ▸ hpieces)
    rw [hl']
    cases hpq with
    | none => exact .fault _
    | some hpq =>
      refine (Count.apply_follows n e e' hpq).map fun a b hab => ⟨fun earlier h => ?_, rfl, rfl, rfl, rfl⟩
      exact ⟨h.alternatives, .cons (.some hab) hps⟩

end Alike

namespace State

variable {b : Level} {base : List Level} {used : List Text} {st st' : State}

theorem Alike.repeatable_eq (h : st.Alike same b base used st') : st.repeatable = st'.repeatable := by
  obtain ⟨earlier, hl⟩ := h.nested.exists_alike
  rw [repeatable, repeatable]
  have hpieces := hl.pieces
  generalize st.level.pieces = ps at hpieces
  generalize st'.level.pieces = qs at hpieces
  cases hpieces with
  | nil => rfl
  | cons hp hps => cases hp <;> rfl

/-- A construct does the same to groups that are open alike. -/
theorem Alike.apply_follows (h : st.Alike same b base used st') {k k' : Construct} (hk : k.Alike same k') :
    Follows (State.Alike same b base used) (st.apply k) (st'.apply k') := by
  cases hk with
  | group captured name? hs =>
    refine .read ⟨hs, ?_, .inner ⟨⟨[], rfl, .nil⟩, .nil⟩ ?_ h.switches h.nested⟩
    · simp [h.names]
    · cases captured <;> rfl
  | switches hs => exact .read ⟨hs, h.names, h.nested.top (fun _ hl => ⟨hl.alternatives, .cons .none hl.pieces⟩) rfl rfl rfl rfl⟩
  | closed =>
    obtain ⟨s, groups, names, l, ls⟩ := st
    obtain ⟨s', groups', names', l', ls'⟩ := st'
    obtain ⟨-, hnames, hnested⟩ := h
    cases hnested with
    | bottom => exact .stray _
    | inner hl hfinish houtside hls =>
      rcases ls with _ | ⟨parent, ls⟩
      · exact .stray _
      · rcases ls' with _ | ⟨parent', ls'⟩
        · cases hls
        · exact .read ⟨houtside, hnames, hls.top (fun _ hp => hp.push (hl.close hfinish)) rfl rfl rfl rfl⟩
  | bar => exact .read ⟨h.switches, h.names, h.nested.top (fun _ hl => hl.bar) rfl rfl rfl rfl⟩
  | again n e e' =>
    obtain ⟨earlier, hl⟩ := h.nested.exists_alike
    refine (repeatLast_follows hl n e e').map fun m m' hm => ⟨h.switches, h.names, ?_⟩
    exact h.nested.top hm.alike hm.finish_left hm.finish_right hm.outside_left hm.outside_right
  | piece hp => exact .read ⟨h.switches, h.names, h.nested.top (fun _ hl => hl.push hp) rfl rfl rfl rfl⟩

theorem Alike.step_follows (h : st.Alike same b base used st') (c : Char) (r : Text) :
    Follows (fun x y => x.1.Alike same b base used y.1 ∧ x.2 = y.2) (st.step c r) (st'.step c r) := by
  rw [step, step, ← h.repeatable_eq]
  exact (readConstruct_follows _ _ h.switches _ c r).bind fun x y hxy =>
    (h.apply_follows hxy.1).map fun _ _ hst => ⟨hst, hxy.2⟩

/-- The run of a reader that began in a level with other groups around follows the run alone. -/
theorem Alike.run_follows {st st' : State} (h : st.Alike same b base used st') (t : Text) :
    Follows (State.Alike same b base used) (st.run t) (st'.run t) := by
  rw [run.eq_def, run.eq_def st']
  rcases t with _ | ⟨c, r⟩
  · exact .read h
  have hstep := h.step_follows c r
  simp only []
  generalize st.step c r = x at hstep
  generalize st'.step c r = y at hstep
  cases hstep with
  | fault f => exact .fault f
  | stray y => exact .stray _
  | @read x y hxy =>
    obtain ⟨st, rest⟩ := x
    obtain ⟨st', rest'⟩ := y
    obtain ⟨hst, rfl⟩ : st.Alike same b base used st' ∧ rest = rest' := hxy
    by_cases hlt : rest.length < (c :: r).length
    · simp only [dif_pos hlt]
      exact Alike.run_follows hst rest
    · simp only [dif_neg hlt]
      exact .fault _
termination_by t.length
decreasing_by exact hlt

/-- A reader that stands before a piece reads as if nothing were around. -/
theorem start_alike (same : Prop) {s : Switches} (hs : same → s = st.switches) (hpieces : st.level.pieces = []) :
    (start s).Alike same st.level st.outer st.names st where
  switches := hs
  names := rfl
  nested := .bottom ⟨⟨[], rfl, .nil⟩, hpieces ▸ .nil⟩ rfl rfl

end State

end PatternReader

end SourceArchive
