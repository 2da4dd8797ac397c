import SourceArchive.Annotated.Hint
import SourceArchive.Proofs.Bindings
import SourceArchive.Proofs.Declarations
import SourceArchive.Proofs.Searches

/-!
# Where hints stand

Hints are placed by a search for names that knows nothing of the matches that gave the variables: a line takes the first
variable left whose name and setter it holds.  A declaration holds its own name and setter, so if each stands in a line of
its own and no other line mentions a call and a pair (`Hint.Placeable`), the variables are taken in the order in which they
were found, each in the line that declares it, whatever the names are.
-/

namespace SourceArchive

open Text Pattern

/-! ## Matches from left to right -/

/-- The match `m'` begins further behind. -/
def Match.Before (m m' : Match) : Prop := m'.opened.left < m.opened.left

instance : Std.Irrefl Match.Before := ⟨fun _ => Nat.lt_irrefl _⟩

instance : Std.Antisymm Match.Before := ⟨fun _ _ h h' => absurd h' (Nat.lt_asymm h)⟩

namespace Pattern

theorem left_le_of_mem_matchesFrom {p : Pattern} {s : Spot} {m : Match} (h : m ∈ p.matchesFrom s) :
    m.opened.left ≤ s.left := by
  rw [matchesFrom] at h
  rcases hsearch : p.search s with _ | found
  · simp [hsearch] at h
  · simp only [hsearch, List.mem_cons] at h
    rcases h with rfl | h
    · obtain ⟨⟨w, hw⟩, -⟩ := search_spec hsearch
      have hleft := hw.left_eq
      omega
    · rcases hr : found.resume? with _ | t
      · simp [hr] at h
      · simp only [hr] at h
        split at h
        · rename_i hlt
          exact Nat.le_of_lt (Nat.lt_of_le_of_lt (left_le_of_mem_matchesFrom h) hlt)
        · simp at h
termination_by s.left

/-- Each match begins behind the beginning of the one before. -/
theorem pairwise_matchesFrom (p : Pattern) (s : Spot) : (p.matchesFrom s).Pairwise Match.Before := by
  rw [matchesFrom]
  rcases hsearch : p.search s with _ | m
  · exact List.Pairwise.nil
  · dsimp only
    rcases hr : m.resume? with _ | t
    · simp
    · dsimp only
      split
      · refine List.pairwise_cons.mpr ⟨fun m' hm' => ?_, pairwise_matchesFrom p t⟩
        exact Nat.lt_of_le_of_lt (left_le_of_mem_matchesFrom hm') (left_lt_of_resume? hsearch hr)
      · simp
termination_by s.left

end Pattern

namespace Hint

/-! ## Lines of matches -/

/-- The match stands in line `i`: it begins behind the lines above, and ends before the end of that line. -/
structure StandsIn (body : List Text) (i : Nat) (m : Match) : Prop where
  lt_length : i < body.length
  begins : (endLines (body.take i)).length + m.opened.left ≤ (joinLines body).length
  ends : (joinLines body).length ≤ (joinLines (body.take (i + 1))).length + m.closed.spot.left

instance (body : List Text) (i : Nat) (m : Match) : Decidable (StandsIn body i m) :=
  decidable_of_iff (_ ∧ _ ∧ _) ⟨fun h => ⟨h.1, h.2.1, h.2.2⟩, fun h => ⟨h.lt_length, h.begins, h.ends⟩⟩

section Lines

variable {body : List Text} {i j : Nat}

theorem take_succ_ne_nil (hi : i < body.length) : body.take (i + 1) ≠ [] := by
  rw [List.take_succ_eq_append_getElem hi]
  exact List.append_ne_nil_of_right_ne_nil _ (List.cons_ne_nil _ _)

theorem joinLines_take_succ (hi : i < body.length) :
    joinLines (body.take (i + 1)) = endLines (body.take i) ++ body[i] := by
  rw [List.take_succ_eq_append_getElem hi, joinLines_concat]

theorem joinLines_take_succ_isPrefix (hi : i < body.length) : joinLines (body.take (i + 1)) <+: joinLines body := by
  by_cases hrest : body.drop (i + 1) = []
  · rw [List.take_of_length_le (List.drop_eq_nil_iff.mp hrest)]
  · have happ := joinLines_append (body.take (i + 1)) hrest
    rw [List.take_append_drop, endLines_eq (take_succ_ne_nil hi), List.append_assoc] at happ
    rw [happ]
    exact List.prefix_append _ _

/-- A line ends before those below begin. -/
theorem length_joinLines_take_lt (hj : j < body.length) (hlt : j < i) :
    (joinLines (body.take (j + 1))).length < (endLines (body.take i)).length := by
  have hsplit : body.take i = body.take (j + 1) ++ (body.take i).drop (j + 1) := by
    have htake : body.take (j + 1) = (body.take i).take (j + 1) := by
      rw [List.take_take, Nat.min_eq_left hlt]
    rw [htake, List.take_append_drop]
  rw [hsplit, endLines, List.flatMap_append, ← endLines, endLines_eq (take_succ_ne_nil hj)]
  simp only [List.length_append, List.length_cons, List.length_nil]
  omega

end Lines

namespace StandsIn

variable {body : List Text} {i j : Nat} {m m' : Match}

/-- What a match reads is a part of its line. -/
theorem isInfix {p : Pattern} {l x : Text} (h : StandsIn body i m) (hm : IsMatch p (joinLines body) m)
    (hl : body[i]? = some l) (hx : m.opened.Reads x m.closed.spot) : x <:+: l := by
  obtain ⟨hlt, rfl⟩ := List.getElem?_eq_some_iff.mp hl
  obtain ⟨w, hw⟩ := hm.opened_behind
  have hcode : joinLines body = w ++ x ++ m.closed.spot.ahead := by
    rw [List.append_assoc, ← hx.ahead_eq]
    exact hw.ahead_eq
  have hopened : (joinLines body).length = w.length + m.opened.left := hw.left_eq
  have hclosed := hx.left_eq
  have hbegins := h.begins
  have hends := h.ends
  -- what was read up to the end of the match ends in line `i`, and the lines above it end before the match begins
  have hwhole : w ++ x <+: joinLines (body.take (i + 1)) := by
    refine List.prefix_of_prefix_length_le ⟨_, hcode.symm⟩ (joinLines_take_succ_isPrefix hlt) ?_
    rw [List.length_append]
    omega
  obtain ⟨b, hb⟩ := hwhole
  rw [joinLines_take_succ hlt] at hb
  have habove : endLines (body.take i) <+: w := by
    refine List.prefix_of_prefix_length_le (List.prefix_append _ body[i]) ⟨x ++ b, ?_⟩ (by omega)
    rw [← List.append_assoc, hb]
  obtain ⟨a, rfl⟩ := habove
  refine ⟨a, b, ?_⟩
  simpa only [List.append_assoc, List.append_cancel_left_eq] using hb

theorem le_of_left_le (h : StandsIn body i m) (h' : StandsIn body j m') (hleft : m'.opened.left ≤ m.opened.left)
    (hread : m'.closed.spot.left ≤ m'.opened.left) : i ≤ j := by
  by_contra hj
  have hlines := length_joinLines_take_lt h'.lt_length (Nat.lt_of_not_le hj)
  have hbegins := h.begins
  have hends := h'.ends
  omega

end StandsIn

/-! ## Declarations and pairs -/

/-- What stands next to the names of a declaration. -/
def Bounds : Char → Prop := BlankOr ['[', ']']

/-- A pair is found where the character before the name is not one of the name. -/
theorem hasPair_append {a x b b' y c : Text} (hx : x ≠ []) (hy : StartsInked y) (hb : Blank b) (hb' : Blank b')
    (ha : ∀ e ∈ a.getLast?, e ∉ x) (hprevious : a.getLast?.any isIdentifierChar = false)
    (hnext : c.head?.any isIdentifierChar = false) :
    hasPair (a ++ x ++ (b ++ "," ++ b' ++ y ++ c)) x y = true := by
  have hfound := mem_occurrences (b := b ++ ",".toList ++ b' ++ y ++ c) hx ha
  have hbehind : trimStart (b ++ ",".toList ++ b' ++ y ++ c) = ",".toList ++ (b' ++ (y ++ c)) := by
    rw [List.append_assoc, List.append_assoc, List.append_assoc, trimStart_blank_append hb]
    exact trimStart_cons (by decide) _
  have hrest : trimStart (b' ++ (y ++ c)) = y ++ c := by
    rw [trimStart_blank_append hb', (hy.append c).trimStart_eq]
  refine List.any_eq_true.mpr ⟨_, hfound, ?_⟩
  simp only [pairsWith, hbehind, after?_append, hrest, hprevious, hnext]
  rfl

theorem hasPair_of_parts {a x b b' y c : Text} (hx : x ∈ word.language) (hy : y ∈ word.language)
    (ha : ∀ e ∈ a.getLast?, Bounds e) (hb : Blank b) (hb' : Blank b') (hc : ∀ e ∈ c.head?, Bounds e) :
    hasPair (a ++ x ++ (b ++ "," ++ b' ++ y ++ c)) x y = true := by
  obtain ⟨hne, hword⟩ := mem_language_word.mp hx
  have hbound {e : Char} (he : Bounds e) : isIdentifierChar e = false := he.isIdentifierChar_eq_false (by decide +kernel)
  refine hasPair_append hne (solid_word.startsInked y hy) hb hb' (fun e he hm => ?_) ?_ ?_
  · have hchar := (ha e he).isWordChar_eq_false (by decide +kernel)
    rw [hword e hm] at hchar
    contradiction
  · exact (Option.any_eq_false _ _).mpr fun e he => hbound (ha e he)
  · exact (Option.any_eq_false _ _).mpr fun e he => hbound (hc e he)

theorem endsIn_before_names : EndsIn Bounds (sequence (capturedParts.take 4)).language := by
  change EndsIn Bounds ((lit "const").language * (blanks1.language * ((lit "[").language * blanks.language)))
  have hopen : EndsIn Bounds (lit "[").language := endsIn_lit ⟨'[', rfl, Or.inr (by decide)⟩
  exact ((hopen.mul_blanks fun _ => Or.inl).mul _).mul _

theorem startsIn_behind_names : StartsIn Bounds (sequence (capturedParts.drop 9 ++ [assert .wordEdge])).language := by
  change StartsIn Bounds (blanks.language * ((lit "]").language * _))
  have hclose : StartsIn Bounds (lit "]").language := startsIn_lit ⟨']', rfl, Or.inr (by decide)⟩
  exact (hclose.mul _).blanks_mul fun _ => Or.inl

namespace StandsIn

variable {body : List Text} {i : Nat} {l : Text} {m : Match}

/-- The line of a declaration may take the hint of the variable. -/
theorem fits (h : StandsIn body i m) (hm : IsMatch StateVariable.declaration (joinLines body) m)
    (hl : body[i]? = some l) : fits l (.ofDeclaration m) = true := by
  have hparts : IsMatch (sequence (capturedParts.take 4 ++ capture 1 word :: ([blanks, lit ",", blanks] ++
      capture 2 word :: (capturedParts.drop 9 ++ [assert .wordEdge])))) (joinLines body) m := hm
  obtain ⟨hname, hsetter, u, hu, v, hv, w, hw, hread⟩ := hparts.exists_groups (by decide) rfl rfl (by decide)
  obtain ⟨a, b, rfl⟩ := h.isInfix hm hl hread
  obtain ⟨v₁, hv₁, _, ⟨x, hx, v₂, hv₂, rfl⟩, rfl⟩ : v ∈ blanks.language * ((lit ",").language * blanks.language) := hv
  obtain rfl : x = ",".toList := mem_language_lit.mp hx
  obtain ⟨c, hc, hbefore⟩ := endsIn_before_names u hu
  obtain ⟨e, he, hbehind⟩ := startsIn_behind_names w hw
  have hends : ∀ x ∈ (a ++ u).getLast?, Bounds x := by
    rw [List.getLast?_append, Option.mem_def.mp hc]
    simpa using hbefore
  have hstarts : ∀ x ∈ (w ++ b).head?, Bounds x := by
    rw [List.head?_append, Option.mem_def.mp he]
    simpa using hbehind
  have hpair := hasPair_of_parts hname hsetter hends (mem_language_blanks.mp hv₁) (mem_language_blanks.mp hv₂) hstarts
  rw [Hint.fits, StateVariable.ofDeclaration_name, StateVariable.ofDeclaration_setter]
  simpa only [List.append_assoc] using hpair

theorem mentionsState (h : StandsIn body i m) (hm : IsMatch StateVariable.declaration (joinLines body) m)
    (hl : body[i]? = some l) : mentionsState l = true := by
  have hcall : m.group 3 ∈ (oneOf [lit "useState", lit "useReducer"]).language :=
    hm.group_mem_kept (by decide) rfl
  obtain ⟨x, hx⟩ := Option.isSome_iff_exists.mp (hm.isSome_group? (n := 3) (by decide))
  obtain ⟨f, -, y, -, -, z, -, hread⟩ := hm.framed hx
  have hmention : x <:+: l := List.IsInfix.trans ⟨y, z, rfl⟩ (h.isInfix hm hl hread)
  rw [Match.group, hx, Option.getD_some] at hcall
  rw [Hint.mentionsState, Bool.or_eq_true, contains_iff, contains_iff]
  rcases hcall with hcall | hcall
  · exact Or.inl (mem_language_lit.mp hcall ▸ hmention)
  · exact Or.inr (mem_language_lit.mp hcall ▸ hmention)

end StandsIn

/-! ## One line after the other -/

/-- A line that may take the first variable takes it. -/
theorem insert_cons_of_fits {unused : List StateVariable} {v : StateVariable} {l : Text} (rest : List Text)
    (hl : mentionsState l = true) (hv : fits l v = true) :
    insert (v :: unused) (l :: rest) = line l v :: l :: insert unused rest := by
  rw [insert, if_pos hl, List.find?_cons_of_pos hv]
  dsimp only
  rw [List.eraseP_cons_of_pos hv]

/-- A line that may take no variable is left alone. -/
theorem insert_cons_of_not_fits {unused : List StateVariable} {l : Text} (rest : List Text)
    (h : mentionsState l = true → ∀ v ∈ unused, ¬ fits l v = true) :
    insert unused (l :: rest) = l :: insert unused rest := by
  have hnone : (if mentionsState l then unused.find? (fits l) else none) = none := by
    split
    · rename_i hl
      exact List.find?_eq_none.mpr (h hl)
    · rfl
  rw [insert, hnone]

/-- A line, below the hint that it is meant to have. -/
def hinted (l : Text) (v : Option StateVariable) : List Text := (v.map (line l)).toList ++ [l]

section Meant

variable (meant : Text × Nat → Option StateVariable) (qs : List (Text × Nat))

/-- If each variable may be taken by the line that it is meant for, and by no line that none is meant for, then the
variables are taken as they are meant. -/
theorem insert_eq_flatMap_hinted
    (hfits : ∀ q ∈ qs, ∀ v ∈ meant q, mentionsState q.1 = true ∧ fits q.1 v = true)
    (hsilent : ∀ q ∈ qs, meant q = none → mentionsState q.1 = true → ∀ v ∈ qs.filterMap meant, ¬ fits q.1 v = true) :
    insert (qs.filterMap meant) (qs.map (·.1)) = qs.flatMap fun q => hinted q.1 (meant q) := by
  induction qs with
  | nil => rfl
  | cons q qs ih =>
    obtain ⟨hfirst, hfits⟩ := List.forall_mem_cons.mp hfits
    obtain ⟨hfree, hsilent⟩ := List.forall_mem_cons.mp hsilent
    rcases hq : meant q with _ | v
    · rw [List.filterMap_cons_none hq] at hfree hsilent ⊢
      rw [List.map_cons, insert_cons_of_not_fits _ (hfree hq), ih hfits hsilent, List.flatMap_cons, hq]
      rfl
    · obtain ⟨hmentions, hv⟩ := hfirst v hq
      rw [List.filterMap_cons_some hq] at hsilent ⊢
      have hrest := ih hfits fun q' hq' hnone hm u hu => hsilent q' hq' hnone hm u (List.mem_cons_of_mem _ hu)
      rw [List.map_cons, insert_cons_of_fits _ hmentions hv, hrest, List.flatMap_cons, hq]
      rfl

theorem length_flatMap_hinted :
    (qs.flatMap fun q => hinted q.1 (meant q)).length = qs.length + (qs.filterMap meant).length := by
  induction qs with
  | nil => rfl
  | cons q qs ih =>
    rw [List.flatMap_cons, List.length_append, ih, List.length_cons]
    rcases hq : meant q with _ | v
    · rw [List.filterMap_cons_none hq, hinted, Option.map_none, Option.toList_none, List.nil_append, List.length_singleton]
      omega
    · rw [List.filterMap_cons_some hq, hinted, Option.map_some, Option.toList_some, List.length_append,
        List.length_singleton, List.length_singleton, List.length_cons]
      omega

end Meant

/-! ## Hints above declarations -/

/-- Each declaration stands in one line, no line holds two, and a line that mentions a call and holds the name and setter
of some variable holds a declaration. -/
structure Placeable (body : List Text) : Prop where
  within : ∀ m ∈ StateVariable.declaration.matchesIn (joinLines body), ∃ i < body.length, StandsIn body i m
  alone : ∀ i < body.length, ((StateVariable.declaration.matchesIn (joinLines body)).filter (StandsIn body i ·)).length ≤ 1
  paired : ∀ q ∈ body.zipIdx, mentionsState q.1 = true → ∀ v ∈ StateVariable.allIn (joinLines body), fits q.1 v = true →
    ∃ m ∈ StateVariable.declaration.matchesIn (joinLines body), StandsIn body q.2 m

instance (body : List Text) : Decidable (Placeable body) :=
  decidable_of_iff (_ ∧ _ ∧ _) ⟨fun h => ⟨h.1, h.2.1, h.2.2⟩, fun h => ⟨h.within, h.alone, h.paired⟩⟩

/-- The declaration that stands in line `i`. -/
def declarationIn? (body : List Text) (i : Nat) : Option Match :=
  (StateVariable.declaration.matchesIn (joinLines body)).find? (StandsIn body i ·)

/-- The variable that is declared in line `i`. -/
def variableIn? (body : List Text) (i : Nat) : Option StateVariable :=
  (declarationIn? body i).map StateVariable.ofDeclaration

section Declared

variable {body : List Text}

theorem Placeable.declarationIn?_eq_some_iff (h : Placeable body) {i : Nat} {m : Match} :
    declarationIn? body i = some m ↔
      m ∈ StateVariable.declaration.matchesIn (joinLines body) ∧ StandsIn body i m := by
  constructor
  · intro hm
    exact ⟨List.mem_of_find?_eq_some hm, by simpa using List.find?_some hm⟩
  · rintro ⟨hm, hstands⟩
    have hsome : (declarationIn? body i).isSome = true := List.find?_isSome.mpr ⟨m, hm, by simpa using hstands⟩
    obtain ⟨m', hm'⟩ := Option.isSome_iff_exists.mp hsome
    have hstands' : StandsIn body i m' := by simpa using List.find?_some hm'
    have hmem {k : Match} (hk : k ∈ StateVariable.declaration.matchesIn (joinLines body)) (hline : StandsIn body i k) :
        k ∈ (StateVariable.declaration.matchesIn (joinLines body)).filter (StandsIn body i ·) :=
      List.mem_filter.mpr ⟨hk, decide_eq_true hline⟩
    have hfirst := hmem (List.mem_of_find?_eq_some hm') hstands'
    have hsecond := hmem hm hstands
    obtain ⟨k, hk⟩ := List.length_eq_one_iff.mp
      (Nat.le_antisymm (h.alone i hstands.lt_length) (List.length_pos_of_mem hsecond))
    rw [hk, List.mem_singleton] at hfirst hsecond
    rw [hm', hfirst, hsecond]

theorem closed_le_opened {m : Match} (hm : m ∈ StateVariable.declaration.matchesIn (joinLines body)) :
    m.closed.spot.left ≤ m.opened.left := by
  obtain ⟨w, hw⟩ := exists_reads (isMatch_of_mem_matchesIn hm).closed_mem
  have hleft := hw.left_eq
  exact hleft ▸ Nat.le_add_left _ _

/-- From line to line, the declarations are those that are found in the code. -/
theorem Placeable.filterMap_declarationIn? (h : Placeable body) :
    (List.range body.length).filterMap (declarationIn? body) = StateVariable.declaration.matchesIn (joinLines body) := by
  -- both lists go from the beginning of the code to its end, so it is enough that they have the same members
  refine List.Pairwise.eq_of_mem_iff (r := Match.Before) ?_ (pairwise_matchesFrom _ _) fun m => ?_
  · refine List.pairwise_filterMap.mpr (List.pairwise_lt_range.imp fun {i j} hlt m hm m' hm' => ?_)
    obtain ⟨hfound, hstands⟩ := h.declarationIn?_eq_some_iff.mp hm
    obtain ⟨-, hstands'⟩ := h.declarationIn?_eq_some_iff.mp hm'
    by_contra hleft
    have hle := hstands'.le_of_left_le hstands (Nat.le_of_not_lt hleft) (closed_le_opened hfound)
    omega
  · simp only [List.mem_filterMap, List.mem_range]
    constructor
    · rintro ⟨i, -, hm⟩
      exact (h.declarationIn?_eq_some_iff.mp hm).1
    · intro hm
      obtain ⟨i, hi, hstands⟩ := h.within m hm
      exact ⟨i, hi, h.declarationIn?_eq_some_iff.mpr ⟨hm, hstands⟩⟩

theorem Placeable.filterMap_variableIn? (h : Placeable body) :
    body.zipIdx.filterMap (fun q => variableIn? body q.2) = StateVariable.allIn (joinLines body) := by
  calc body.zipIdx.filterMap (fun q => variableIn? body q.2)
      = (body.zipIdx.map (·.2)).filterMap (variableIn? body) := by
        rw [List.filterMap_map]
        rfl
    _ = (List.range body.length).filterMap (variableIn? body) := by
        rw [List.zipIdx_map_snd, ← List.range_eq_range']
    _ = ((List.range body.length).filterMap (declarationIn? body)).map StateVariable.ofDeclaration :=
        List.map_filterMap.symm
    _ = StateVariable.allIn (joinLines body) := by rw [h.filterMap_declarationIn?, StateVariable.allIn]

/-- Each line stands below the hint for the variable that is declared in it, and from line to line these are all variables
in the order of their declarations. -/
theorem insert_allIn (h : Placeable body) :
    (List.range body.length).filterMap (declarationIn? body) = StateVariable.declaration.matchesIn (joinLines body) ∧
      insert (StateVariable.allIn (joinLines body)) body =
        body.zipIdx.flatMap (fun q => hinted q.1 (variableIn? body q.2)) ∧
      (insert (StateVariable.allIn (joinLines body)) body).length =
        body.length + (StateVariable.allIn (joinLines body)).length := by
  have hvariables := h.filterMap_variableIn?
  have hinsert : insert (StateVariable.allIn (joinLines body)) body =
      body.zipIdx.flatMap (fun q => hinted q.1 (variableIn? body q.2)) := by
    have hfits : ∀ q ∈ body.zipIdx, ∀ v ∈ variableIn? body q.2,
        mentionsState q.1 = true ∧ Hint.fits q.1 v = true := by
      intro q hq v hv
      obtain ⟨m, hm, rfl⟩ := Option.map_eq_some_iff.mp hv
      obtain ⟨hfound, hstands⟩ := h.declarationIn?_eq_some_iff.mp hm
      have hmatch := isMatch_of_mem_matchesIn hfound
      have hline : body[q.2]? = some q.1 := List.mem_zipIdx_iff_getElem?.mp hq
      exact ⟨hstands.mentionsState hmatch hline, hstands.fits hmatch hline⟩
    have hsilent : ∀ q ∈ body.zipIdx, variableIn? body q.2 = none → mentionsState q.1 = true →
        ∀ v ∈ body.zipIdx.filterMap (fun q => variableIn? body q.2), ¬ Hint.fits q.1 v = true := by
      intro q hq hnone hmentions v hv hfits
      rw [hvariables] at hv
      obtain ⟨m, hm, hstands⟩ := h.paired q hq hmentions v hv hfits
      rw [variableIn?, h.declarationIn?_eq_some_iff.mpr ⟨hm, hstands⟩] at hnone
      contradiction
    have hmeant := insert_eq_flatMap_hinted (fun q => variableIn? body q.2) body.zipIdx hfits hsilent
    rwa [hvariables, List.zipIdx_map_fst] at hmeant
  refine ⟨h.filterMap_declarationIn?, hinsert, ?_⟩
  rw [hinsert, length_flatMap_hinted, hvariables, List.length_zipIdx]

end Declared

/-- Two components that give their variables the same names. -/
def twins : List Text := [
  "function A() \x7b",
  "  const [loading, setLoading] = useState(true);",
  "\x7d",
  "const B = () => \x7b",
  "\tconst [loading, setLoading] = useReducer(reload, false);"]

theorem insert_allIn_twins : Placeable twins ∧ insert (StateVariable.allIn (joinLines twins)) twins = [
    "function A() \x7b".toList,
    "  // TYPE: boolean".toList,
    "  const [loading, setLoading] = useState(true);".toList,
    "\x7d".toList,
    "const B = () => \x7b".toList,
    "\t// TYPE: Reducer".toList,
    "\tconst [loading, setLoading] = useReducer(reload, false);".toList] := by
  have hplaceable : Placeable twins := by decide +kernel
  obtain ⟨-, hinsert, -⟩ := insert_allIn hplaceable
  exact ⟨hplaceable, hinsert.trans (by decide +kernel)⟩

end Hint

end SourceArchive
