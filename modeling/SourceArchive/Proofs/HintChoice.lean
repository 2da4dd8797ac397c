import SourceArchive.Proofs.HintPlaces

/-!
# Which variables lines take

Hints may be inserted for any list of variables, whether or not the body declares them.  A line takes the first
variable that fits it and that no line above has taken, and stands below the hint for it; a line without a hint has
none left that fits.  `Assigned` says so without following the insertion, and only one choice satisfies it.
Variables are told apart by their places in the list, since two of them may be equal.
-/

namespace SourceArchive

open Text

namespace Hint

/-! ## Pairs -/

/-- A name, a comma and a setter between boundaries of identifiers, with blanks around the comma at will. -/
def Pairs (l name setter : Text) : Prop :=
  ∃ a b b' c, l = a ++ name ++ b ++ "," ++ b' ++ setter ++ c ∧ Blank b ∧ Blank b' ∧
    a.getLast?.any isIdentifierChar = false ∧ c.head?.any isIdentifierChar = false

theorem pairs_of_hasPair {l name setter : Text} (h : hasPair l name setter = true) : Pairs l name setter := by
  obtain ⟨o, ho, hpair⟩ := List.any_eq_true.mp h
  obtain ⟨a, hl, hprevious⟩ := foundIn_of_mem_occurrencesAfter ho
  rw [Option.or_none] at hprevious
  unfold pairsWith at hpair
  cases hcomma : after? o.behind.trimStart "," with
  | none =>
    rw [hcomma] at hpair
    cases hpair
  | some rest =>
    rw [hcomma] at hpair
    dsimp only at hpair
    cases hsetter : after? rest.trimStart setter with
    | none =>
      rw [hsetter] at hpair
      cases hpair
    | some c =>
      simp only [hsetter, Bool.and_eq_true, Bool.not_eq_true', hprevious] at hpair
      refine ⟨a, o.behind.indentation, rest.indentation, c, ?_, blank_indentation _, blank_indentation _, hpair.1, hpair.2⟩
      have hrest : rest = rest.indentation ++ (setter ++ c) := by
        rw [after?_eq_some_iff.mp hsetter, indentation_append_trimStart]
      have hbehind : o.behind = o.behind.indentation ++ (",".toList ++ rest) := by
        rw [after?_eq_some_iff.mp hcomma, indentation_append_trimStart]
      calc l = a ++ name ++ (o.behind.indentation ++ (",".toList ++ (rest.indentation ++ (setter ++ c)))) := by
            rw [← hrest, ← hbehind, hl]
        _ = _ := by simp only [List.append_assoc]

/-! ## Choices -/

/-- A line of the body, with the variable that it takes and the place of this in the list of all. -/
abbrev Row := Text × Option (StateVariable × Nat)

/-- The line, below the hint for its variable. -/
def Row.written (r : Row) : List Text := hinted r.1 (r.2.map (·.1))

/-- The variables that rows take. -/
def takenBy (rows : List Row) : List (StateVariable × Nat) := rows.filterMap (·.2)

/-- Lines take variables that fit them, each at most once, and none that could be taken is passed over. -/
structure Assigned (unused : List (StateVariable × Nat)) (rows : List Row) : Prop where
  fitting : ∀ l q, (l, some q) ∈ rows → q ∈ unused ∧ mentionsState l = true ∧ fits l q.1 = true
  once : ((takenBy rows).map (·.2)).Nodup
  first : ∀ above l taken below, rows = above ++ (l, taken) :: below → mentionsState l = true →
    ∀ q ∈ unused, fits l q.1 = true → q ∈ takenBy above ∨ ∃ q' ∈ taken, q'.2 ≤ q.2

/-- The choice that insertion makes. -/
def assign (unused : List (StateVariable × Nat)) : List Text → List Row
  | [] => []
  | l :: rest =>
    match if mentionsState l then unused.find? (fits l ·.1) else none with
    | none => (l, none) :: assign unused rest
    | some q => (l, some q) :: assign (unused.eraseP (fits l ·.1)) rest

theorem map_fst_assign (unused : List (StateVariable × Nat)) (body : List Text) :
    (assign unused body).map (·.1) = body := by
  induction body generalizing unused with
  | nil => rfl
  | cons l rest ih =>
    rw [assign]
    split
    · rw [List.map_cons, ih]
    · rw [List.map_cons, ih]

theorem insert_map_fst (unused : List (StateVariable × Nat)) (body : List Text) :
    insert (unused.map (·.1)) body = (assign unused body).flatMap Row.written := by
  induction body generalizing unused with
  | nil => rfl
  | cons l rest ih =>
    have hfind : (unused.map (·.1)).find? (fits l) = (unused.find? (fits l ·.1)).map (·.1) := List.find?_map
    have herase : (unused.map (·.1)).eraseP (fits l) = (unused.eraseP (fits l ·.1)).map (·.1) := List.eraseP_map
    rw [insert, assign, hfind, herase]
    by_cases hl : mentionsState l = true
    · rw [if_pos hl, if_pos hl]
      cases unused.find? (fits l ·.1) with
      | none =>
        show l :: insert _ rest = _
        rw [ih]
        rfl
      | some q =>
        show line l q.1 :: l :: insert _ rest = _
        rw [ih]
        rfl
    · rw [if_neg hl, if_neg hl]
      show l :: insert _ rest = _
      rw [ih]
      rfl

/-- A line without a hint, above a choice for the lines below. -/
theorem Assigned.cons_none {unused : List (StateVariable × Nat)} {l : Text} {rows : List Row}
    (h : Assigned unused rows) (hl : mentionsState l = true → ∀ q ∈ unused, ¬ fits l q.1 = true) :
    Assigned unused ((l, none) :: rows) where
  fitting := by
    intro k q hq
    cases hq with
    | tail _ hq => exact h.fitting k q hq
  once := h.once
  first := by
    intro above k taken below hrows hk q hq hfits
    cases above with
    | nil =>
      obtain ⟨hhead, -⟩ := List.cons.inj hrows
      obtain ⟨rfl, -⟩ := Prod.mk.inj hhead
      exact absurd hfits (hl hk q hq)
    | cons r above =>
      obtain ⟨rfl, hbelow⟩ := List.cons.inj hrows
      exact h.first above k taken below hbelow hk q hq hfits

section Step

variable {as bs : List (StateVariable × Nat)} {q : StateVariable × Nat} {l : Text} {rows : List Row}
  (hplaces : (as ++ q :: bs).Pairwise (·.2 < ·.2))

include hplaces

theorem places_apart : (∀ a ∈ as, a.2 < q.2) ∧ (∀ b ∈ bs, q.2 < b.2) ∧ (as ++ bs).Pairwise (·.2 < ·.2) := by
  obtain ⟨has, hbs, hab⟩ := List.pairwise_append.mp hplaces
  obtain ⟨hq, hbs⟩ := List.pairwise_cons.mp hbs
  refine ⟨fun a ha => hab a ha q List.mem_cons_self, hq, List.pairwise_append.mpr ⟨has, hbs, ?_⟩⟩
  intro a ha b hb
  exact hab a ha b (List.mem_cons_of_mem _ hb)

theorem place_ne {p : StateVariable × Nat} (hp : p ∈ as ++ bs) : p.2 ≠ q.2 := by
  obtain ⟨hbefore, hbehind, -⟩ := places_apart hplaces
  rcases List.mem_append.mp hp with hp | hp
  · exact Nat.ne_of_lt (hbefore p hp)
  · exact Nat.ne_of_gt (hbehind p hp)

/-- A line below its hint, above a choice for the lines below from what is left. -/
theorem Assigned.cons_some (h : Assigned (as ++ bs) rows) (hl : mentionsState l = true) (hq : fits l q.1 = true)
    (has : ∀ a ∈ as, ¬ fits l a.1 = true) : Assigned (as ++ q :: bs) ((l, some q) :: rows) where
  fitting := by
    intro k p hp
    cases hp with
    | head => exact ⟨by simp, hl, hq⟩
    | tail _ hp =>
      obtain ⟨hmem, hfits⟩ := h.fitting k p hp
      refine ⟨?_, hfits⟩
      simp only [List.mem_append, List.mem_cons] at hmem ⊢
      tauto
  once := by
    show (q.2 :: (takenBy rows).map (·.2)).Nodup
    refine List.nodup_cons.mpr ⟨?_, h.once⟩
    intro hmem
    obtain ⟨p, hp, heq⟩ := List.mem_map.mp hmem
    obtain ⟨⟨k, t⟩, hr, hrp⟩ := List.mem_filterMap.mp hp
    obtain rfl : t = some p := hrp
    exact place_ne hplaces (h.fitting k p hr).1 heq
  first := by
    obtain ⟨-, hbehind, -⟩ := places_apart hplaces
    intro above k taken below hrows hk p hp hfits
    simp only [List.mem_append, List.mem_cons] at hp
    cases above with
    | nil =>
      obtain ⟨hhead, -⟩ := List.cons.inj hrows
      obtain ⟨rfl, rfl⟩ := Prod.mk.inj hhead
      refine Or.inr ⟨q, rfl, ?_⟩
      rcases hp with hp | rfl | hp
      · exact absurd hfits (has p hp)
      · exact Nat.le_refl _
      · exact Nat.le_of_lt (hbehind p hp)
    | cons r above =>
      obtain ⟨rfl, hbelow⟩ := List.cons.inj hrows
      show p ∈ q :: takenBy above ∨ _
      by_cases hpq : p = q
      · exact Or.inl (by simp [hpq])
      · have hleft : p ∈ as ++ bs := by
          rw [List.mem_append]
          tauto
        rcases h.first above k taken below hbelow hk p hleft hfits with hmem | hmem
        · exact Or.inl (List.mem_cons_of_mem _ hmem)
        · exact Or.inr hmem

end Step

theorem eraseP_of_split {α : Type} {p : α → Bool} {as bs : List α} {q : α} (has : ∀ a ∈ as, ¬ p a = true)
    (hq : p q = true) : (as ++ q :: bs).eraseP p = as ++ bs := by
  rw [List.eraseP_append_right _ has, List.eraseP_cons_of_pos hq]

theorem assigned_assign {unused : List (StateVariable × Nat)} (h : unused.Pairwise (·.2 < ·.2)) (body : List Text) :
    Assigned unused (assign unused body) := by
  induction body generalizing unused with
  | nil =>
    refine ⟨?_, List.nodup_nil, ?_⟩
    · intro l q hq
      cases hq
    · intro above l taken below hrows
      cases above <;> cases hrows
  | cons l rest ih =>
    rw [assign]
    by_cases hl : mentionsState l = true
    · rw [if_pos hl]
      cases hfind : unused.find? (fits l ·.1) with
      | none => exact (ih h).cons_none fun _ q hq => List.find?_eq_none.mp hfind q hq
      | some q =>
        obtain ⟨hq, as, bs, rfl, has⟩ := List.find?_eq_some_iff_append.mp hfind
        have has : ∀ a ∈ as, ¬ fits l a.1 = true := fun a ha => by simpa using has a ha
        obtain ⟨-, -, hleft⟩ := places_apart h
        dsimp only
        rw [eraseP_of_split has hq]
        exact (ih hleft).cons_some h hl hq has
    · rw [if_neg hl]
      exact (ih h).cons_none fun hmentions => absurd hmentions hl

/-! ## No other choice -/

theorem Assigned.of_cons_none {unused : List (StateVariable × Nat)} {l : Text} {rows : List Row}
    (h : Assigned unused ((l, none) :: rows)) :
    (mentionsState l = true → ∀ q ∈ unused, ¬ fits l q.1 = true) ∧ Assigned unused rows := by
  constructor
  · intro hl q hq hfits
    rcases h.first [] l none rows rfl hl q hq hfits with hmem | ⟨q', hq', -⟩
    · cases hmem
    · cases hq'
  · refine ⟨fun k q hq => h.fitting k q (List.mem_cons_of_mem _ hq), h.once, ?_⟩
    intro above k taken below hrows
    exact h.first ((l, none) :: above) k taken below (by rw [hrows]; rfl)

theorem Assigned.of_cons_some {unused : List (StateVariable × Nat)} {l : Text} {q : StateVariable × Nat} {rows : List Row}
    (hplaces : unused.Pairwise (·.2 < ·.2)) (h : Assigned unused ((l, some q) :: rows)) :
    mentionsState l = true ∧ fits l q.1 = true ∧
      ∃ as bs, unused = as ++ q :: bs ∧ (∀ a ∈ as, ¬ fits l a.1 = true) ∧ Assigned (as ++ bs) rows := by
  obtain ⟨hmem, hl, hq⟩ := h.fitting l q List.mem_cons_self
  obtain ⟨as, bs, rfl⟩ := List.append_of_mem hmem
  obtain ⟨hbefore, -, -⟩ := places_apart hplaces
  refine ⟨hl, hq, as, bs, rfl, ?_, ?_, ?_, ?_⟩
  · intro a ha hfits
    rcases h.first [] l (some q) rows rfl hl a (List.mem_append_left _ ha) hfits with hmem | ⟨q', hq', hle⟩
    · cases hmem
    · obtain rfl : q = q' := Option.some.inj hq'
      have := hbefore a ha
      omega
  · intro k p hp
    obtain ⟨hleft, hk⟩ := h.fitting k p (List.mem_cons_of_mem _ hp)
    have hother : p ≠ q := by
      rintro rfl
      have hagain : p.2 ∈ (takenBy rows).map (·.2) := List.mem_map_of_mem (List.mem_filterMap.mpr ⟨_, hp, rfl⟩)
      exact (List.nodup_cons.mp h.once).1 hagain
    simp only [List.mem_append, List.mem_cons] at hleft ⊢
    tauto
  · exact (List.nodup_cons.mp h.once).2
  · intro above k taken below hrows hk p hp hfits
    have hmem : p ∈ as ++ q :: bs := by
      simp only [List.mem_append, List.mem_cons] at hp ⊢
      tauto
    rcases h.first ((l, some q) :: above) k taken below (by rw [hrows]; rfl) hk p hmem hfits with htaken | hle
    · rcases List.mem_cons.mp htaken with rfl | htaken
      · exact absurd rfl (place_ne hplaces hp)
      · exact Or.inl htaken
    · exact Or.inr hle

theorem Assigned.eq_assign {unused : List (StateVariable × Nat)} {rows : List Row} (hplaces : unused.Pairwise (·.2 < ·.2))
    (h : Assigned unused rows) : rows = assign unused (rows.map (·.1)) := by
  induction rows generalizing unused with
  | nil => rfl
  | cons r rows ih =>
    obtain ⟨l, taken⟩ := r
    rw [List.map_cons, assign]
    cases taken with
    | none =>
      obtain ⟨hfree, hrows⟩ := h.of_cons_none
      have hnone : (if mentionsState l then unused.find? (fits l ·.1) else none) = none := by
        split
        · rename_i hl
          exact List.find?_eq_none.mpr (hfree hl)
        · rfl
      rw [hnone]
      dsimp only
      rw [← ih hplaces hrows]
    | some q =>
      obtain ⟨hl, hq, as, bs, rfl, has, hrows⟩ := h.of_cons_some hplaces
      obtain ⟨-, -, hleft⟩ := places_apart hplaces
      have hfind : (as ++ q :: bs).find? (fits l ·.1) = some q :=
        List.find?_eq_some_iff_append.mpr ⟨hq, as, bs, rfl, fun a ha => by simpa using has a ha⟩
      rw [if_pos hl, hfind]
      dsimp only
      rw [eraseP_of_split has hq, ← ih hleft hrows]

/-! ## Insertion for any variables -/

/-- Insertion keeps each line and puts at most one hint above it, for a variable whose name and setter the line holds as a
pair.  No place of the list is taken twice, and a line that mentions a call takes the first that is left and fits; this
fixes what is inserted. -/
theorem insert_assigns (vs : List StateVariable) (body : List Text) :
    ∃ rows : List Row, rows.map (·.1) = body ∧ insert vs body = rows.flatMap Row.written ∧ Assigned vs.zipIdx rows ∧
      (∀ l q, (l, some q) ∈ rows → Pairs l q.1.name q.1.setter) ∧
      ∀ rows' : List Row, rows'.map (·.1) = body → Assigned vs.zipIdx rows' → rows' = rows := by
  have hplaces : vs.zipIdx.Pairwise (·.2 < ·.2) := by
    have hrange : (vs.zipIdx.map (·.2)).Pairwise (· < ·) := by
      rw [List.zipIdx_map_snd]
      exact List.pairwise_lt_range'
    exact List.pairwise_map.mp hrange
  have hassigned := assigned_assign hplaces body
  refine ⟨assign vs.zipIdx body, map_fst_assign _ _, ?_, hassigned, ?_, ?_⟩
  · have hinsert := insert_map_fst vs.zipIdx body
    rwa [List.zipIdx_map_fst] at hinsert
  · intro l q hq
    obtain ⟨-, -, hfits⟩ := hassigned.fitting l q hq
    exact pairs_of_hasPair hfits
  · intro rows' hbody hrows'
    rw [← hbody]
    exact hrows'.eq_assign hplaces

example :
    insert [⟨"a", "setA", "number", "0", .useState⟩, ⟨"a", "setA", "string", "b", .useState⟩]
      ["\u3000[a,setA] = useState(0)", "[a , setA] = useState(b)", "[a, setA] = useState(1)"] =
    ["\u3000// TYPE: number", "\u3000[a,setA] = useState(0)", "// TYPE: string", "[a , setA] = useState(b)",
      "[a, setA] = useState(1)"].map String.toList := by decide +kernel

end Hint

end SourceArchive
