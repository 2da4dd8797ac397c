import SourceArchive.Proofs.Captures
import SourceArchive.Proofs.Declarations

/-!
# The names that declarations bind

A declaration can be read in one way only, and no declaration continues another (`Binds.unique`).  Extraction and
counting use patterns that are written differently, but both read declarations; so at every place they match the same
text, and the names that are captured are those that the text binds.
-/

namespace SourceArchive

open Pattern Text

/-! ## Reading a declaration -/

/-- A text with blanks around it at will. -/
def Padded (x t : Text) : Prop := ∃ a b, t = a ++ x ++ b ∧ Blank a ∧ Blank b

/-- The text `w` declares state: it binds `name` and `setter` to a call of `called`. -/
structure Binds (w name setter called : Text) : Prop where
  name_mem : name ∈ word.language
  setter_mem : setter ∈ word.language
  called_mem : called = "useState".toList ∨ called = "useReducer".toList
  spelled : ∃ a x y b c q, w = "const" ++ a ++ '[' :: (x ++ ',' :: (y ++ ']' :: (b ++ '=' :: (c ++ (q ++ called))))) ∧
    a ≠ [] ∧ Blank a ∧ Padded name x ∧ Padded setter y ∧ Blank b ∧ Blank c ∧ (q = [] ∨ q = "React.".toList)

section Padded

variable {x t : Text} (hx : x ∈ word.language)

include hx

theorem Padded.not_mem (h : Padded x t) {c : Char} (hb : isBlank c = false) (hw : isWordChar c = false) : c ∉ t := by
  obtain ⟨a, b, rfl, ha, hb'⟩ := h
  intro hm
  simp only [List.mem_append] at hm
  rcases hm with (hm | hm) | hm
  · exact ha.not_mem hb hm
  · rw [(mem_language_word.mp hx).2 c hm] at hw
    cases hw
  · exact hb'.not_mem hb hm

theorem Padded.trim_eq (h : Padded x t) : t.trim = x := by
  obtain ⟨a, b, rfl, ha, hb⟩ := h
  exact trim_of_parts ha (solid_word.startsInked x hx) (solid_word.endsInked x hx) hb

end Padded

/-- What is called is told from what stands before it and behind it. -/
theorem eq_of_calls {q q' c c' x x' : Text} (hq : q = [] ∨ q = "React.".toList) (hq' : q' = [] ∨ q' = "React.".toList)
    (hc : c = "useState".toList ∨ c = "useReducer".toList) (hc' : c' = "useState".toList ∨ c' = "useReducer".toList)
    (h : q ++ (c ++ x) = q' ++ (c' ++ x')) : c = c' ∧ x = x' := by
  rcases hq with rfl | rfl <;> rcases hq' with rfl | rfl <;> rcases hc with rfl | rfl <;> rcases hc' with rfl | rfl <;>
    simp at h ⊢ <;> exact h

theorem startsInked_call {q c : Text} (hq : q = [] ∨ q = "React.".toList)
    (hc : c = "useState".toList ∨ c = "useReducer".toList) (x : Text) : StartsInked (q ++ (c ++ x)) := by
  have hcall : StartsInked c := by rcases hc with rfl | rfl <;> decide
  rcases hq with rfl | rfl
  · exact hcall.append x
  · exact ⟨'R', _, rfl, by decide⟩

/-- Of two declarations at the beginning of one text, neither is longer, and they bind the same names. -/
theorem Binds.unique {w w' x x' name name' setter setter' called called' : Text} (h : Binds w name setter called)
    (h' : Binds w' name' setter' called') (heq : w ++ x = w' ++ x') :
    w = w' ∧ name = name' ∧ setter = setter' ∧ called = called' := by
  obtain ⟨a, n, s, b, c, q, rfl, -, ha, hn, hs, hb, hc, hq⟩ := h.spelled
  obtain ⟨a', n', s', b', c', q', rfl, -, ha', hn', hs', hb', hc', hq'⟩ := h'.spelled
  have hopen {t : Text} (ht : Blank t) : '[' ∉ "const".toList ++ t := by
    intro hm
    rcases List.mem_append.mp hm with hm | hm
    · exact absurd hm (by decide)
    · exact ht.not_mem (by decide) hm
  have hwhole := heq
  simp only [List.append_assoc, List.cons_append] at heq
  rw [← List.append_assoc, ← List.append_assoc _ a'] at heq
  obtain ⟨-, hbehind⟩ := eq_of_first '[' (hopen ha) (hopen ha') heq
  obtain ⟨hname, hbehind⟩ := eq_of_first ',' (hn.not_mem h.name_mem (by decide) (by decide))
    (hn'.not_mem h'.name_mem (by decide) (by decide)) hbehind
  obtain ⟨hsetter, hbehind⟩ := eq_of_first ']' (hs.not_mem h.setter_mem (by decide) (by decide))
    (hs'.not_mem h'.setter_mem (by decide) (by decide)) hbehind
  obtain ⟨-, hbehind⟩ := eq_of_first '=' (hb.not_mem (by decide)) (hb'.not_mem (by decide)) hbehind
  have hcall := congrArg trimStart hbehind
  rw [trimStart_append_of_inked hc (startsInked_call hq h.called_mem x),
    trimStart_append_of_inked hc' (startsInked_call hq' h'.called_mem x')] at hcall
  obtain ⟨hcalled, hrest⟩ := eq_of_calls hq hq' h.called_mem h'.called_mem hcall
  rw [hrest] at hwhole
  refine ⟨List.append_cancel_right hwhole, ?_, ?_, hcalled⟩
  · rw [← hn.trim_eq h.name_mem, hname, hn'.trim_eq h'.name_mem]
  · rw [← hs.trim_eq h.setter_mem, hsetter, hs'.trim_eq h'.setter_mem]

/-! ## Declarations and their parts -/

theorem mem_lit_cons {t w : Text} {ps : List Pattern} :
    w ∈ (sequence (lit t :: ps)).language ↔ ∃ r ∈ (sequence ps).language, w = t ++ r := by
  rw [language_sequence_cons, Language.mem_mul]
  constructor
  · intro h
    obtain ⟨x, hx, r, hr, rfl⟩ := h
    rw [mem_language_lit.mp hx]
    exact ⟨r, hr, rfl⟩
  · intro h
    obtain ⟨r, hr, rfl⟩ := h
    exact ⟨t, mem_language_lit.mpr rfl, r, hr, rfl⟩

theorem mem_blanks_cons {w : Text} {ps : List Pattern} :
    w ∈ (sequence (blanks :: ps)).language ↔ ∃ b, Blank b ∧ ∃ r ∈ (sequence ps).language, w = b ++ r := by
  rw [language_sequence_cons, Language.mem_mul]
  constructor
  · intro h
    obtain ⟨b, hb, r, hr, rfl⟩ := h
    exact ⟨b, mem_language_blanks.mp hb, r, hr, rfl⟩
  · intro h
    obtain ⟨b, hb, r, hr, rfl⟩ := h
    exact ⟨b, mem_language_blanks.mpr hb, r, hr, rfl⟩

/-- What is read up to the first name. -/
theorem mem_before_names {u : Text} : u ∈ (sequence (declarationParts.take 4)).language ↔
    ∃ a b, u = "const" ++ a ++ '[' :: b ∧ a ≠ [] ∧ Blank a ∧ Blank b := by
  show u ∈ (sequence [lit "const", blanks1, lit "[", blanks]).language ↔ _
  rw [mem_lit_cons]
  constructor
  · intro h
    obtain ⟨r, hr, rfl⟩ := h
    rw [language_sequence_cons] at hr
    obtain ⟨a, ha, s, hs, rfl⟩ := hr
    obtain ⟨b, hb, rfl⟩ := mem_lit_cons.mp hs
    obtain ⟨hne, ha⟩ := mem_language_blanks1.mp ha
    exact ⟨a, b, by simp, hne, ha, mem_language_blanks.mp hb⟩
  · intro h
    obtain ⟨a, b, rfl, hne, ha, hb⟩ := h
    refine ⟨a ++ '[' :: b, ?_, by simp⟩
    rw [language_sequence_cons]
    exact ⟨a, mem_language_blanks1.mpr ⟨hne, ha⟩, '[' :: b, mem_lit_cons.mpr ⟨b, mem_language_blanks.mpr hb, rfl⟩, rfl⟩

/-- What is read between the names. -/
theorem mem_between_names {v : Text} : v ∈ (sequence [blanks, lit ",", blanks]).language ↔
    ∃ a b, v = a ++ ',' :: b ∧ Blank a ∧ Blank b := by
  rw [mem_blanks_cons]
  constructor
  · intro h
    obtain ⟨a, ha, r, hr, rfl⟩ := h
    obtain ⟨b, hb, rfl⟩ := mem_lit_cons.mp hr
    exact ⟨a, b, rfl, ha, mem_language_blanks.mp hb⟩
  · intro h
    obtain ⟨a, b, rfl, ha, hb⟩ := h
    exact ⟨a, ha, ',' :: b, mem_lit_cons.mpr ⟨b, mem_language_blanks.mpr hb, rfl⟩, rfl⟩

theorem mem_call {z : Text} :
    z ∈ (sequence [Pattern.optional (lit "React."), lit "use", oneOf [lit "State", lit "Reducer"]]).language ↔
    ∃ q called, z = q ++ called ∧ (q = [] ∨ q = "React.".toList) ∧
      (called = "useState".toList ∨ called = "useReducer".toList) := by
  rw [language_sequence_cons, language_call, Language.mem_mul]
  constructor
  · intro h
    obtain ⟨q, hq, called, hcalled, rfl⟩ := h
    refine ⟨q, called, rfl, ?_, hcalled.imp mem_language_lit.mp mem_language_lit.mp⟩
    exact Or.symm (hq.imp mem_language_lit.mp id)
  · intro h
    obtain ⟨q, called, rfl, hq, hcalled⟩ := h
    refine ⟨q, (Or.symm hq).imp mem_language_lit.mpr id, called, ?_, rfl⟩
    exact hcalled.imp mem_language_lit.mpr mem_language_lit.mpr

/-- What is read behind the names. -/
theorem mem_behind_names {z : Text} : z ∈ (sequence (declarationParts.drop 9)).language ↔
    ∃ a b c q called, z = a ++ ']' :: (b ++ '=' :: (c ++ (q ++ called))) ∧ Blank a ∧ Blank b ∧ Blank c ∧
      (q = [] ∨ q = "React.".toList) ∧ (called = "useState".toList ∨ called = "useReducer".toList) := by
  show z ∈ (sequence (blanks :: lit "]" :: blanks :: lit "=" :: blanks :: declarationParts.drop 14)).language ↔ _
  rw [mem_blanks_cons]
  constructor
  · intro h
    obtain ⟨a, ha, _, hclose, rfl⟩ := h
    obtain ⟨_, hclosed, rfl⟩ := mem_lit_cons.mp hclose
    obtain ⟨b, hb, _, hequals, rfl⟩ := mem_blanks_cons.mp hclosed
    obtain ⟨_, hbound, rfl⟩ := mem_lit_cons.mp hequals
    obtain ⟨c, hc, _, hcall, rfl⟩ := mem_blanks_cons.mp hbound
    obtain ⟨q, called, rfl, hq, hcalled⟩ := mem_call.mp hcall
    exact ⟨a, b, c, q, called, rfl, ha, hb, hc, hq, hcalled⟩
  · intro h
    obtain ⟨a, b, c, q, called, rfl, ha, hb, hc, hq, hcalled⟩ := h
    have hcall := mem_call.mpr ⟨q, called, rfl, hq, hcalled⟩
    refine ⟨a, ha, _, mem_lit_cons.mpr ⟨_, mem_blanks_cons.mpr ⟨b, hb, _, mem_lit_cons.mpr ⟨_, ?_, rfl⟩, rfl⟩, rfl⟩, rfl⟩
    exact mem_blanks_cons.mpr ⟨c, hc, _, hcall, rfl⟩

theorem exists_binds {u n v s z : Text} (hu : u ∈ (sequence (declarationParts.take 4)).language) (hn : n ∈ word.language)
    (hv : v ∈ (sequence [blanks, lit ",", blanks]).language) (hs : s ∈ word.language)
    (hz : z ∈ (sequence (declarationParts.drop 9)).language) : ∃ called, Binds (u ++ n ++ v ++ s ++ z) n s called := by
  obtain ⟨a, b, rfl, hne, ha, hb⟩ := mem_before_names.mp hu
  obtain ⟨c, d, rfl, hc, hd⟩ := mem_between_names.mp hv
  obtain ⟨e, f, g, q, called, rfl, he, hf, hg, hq, hcalled⟩ := mem_behind_names.mp hz
  have hname : Padded n (b ++ n ++ c) := ⟨b, c, rfl, hb, hc⟩
  have hsetter : Padded s (d ++ s ++ e) := ⟨d, e, rfl, hd, he⟩
  refine ⟨called, hn, hs, hcalled, a, b ++ n ++ c, d ++ s ++ e, f, g, q, ?_, hne, ha, hname, hsetter, hf, hg, hq⟩
  simp only [List.append_assoc, List.cons_append]

theorem mem_declarations_iff {w : Text} : w ∈ declarations ↔ ∃ name setter called, Binds w name setter called := by
  have hparts : declarations = (sequence (declarationParts.take 4)).language * (word.language *
      ((sequence [blanks, lit ",", blanks]).language * (word.language * (sequence (declarationParts.drop 9)).language))) := by
    rw [← language_sequence_cons, ← language_sequence_append, ← language_sequence_cons, ← language_sequence_append]
    rfl
  rw [hparts]
  constructor
  · intro h
    obtain ⟨u, hu, _, ⟨n, hn, _, ⟨v, hv, _, ⟨s, hs, z, hz, rfl⟩, rfl⟩, rfl⟩, rfl⟩ := h
    obtain ⟨called, h⟩ := exists_binds hu hn hv hs hz
    refine ⟨n, s, called, ?_⟩
    simpa only [List.append_assoc] using h
  · intro h
    obtain ⟨n, s, called, hn, hs, hcalled, a, x, y, b, c, q, rfl, hne, ha, hx, hy, hb, hc, hq⟩ := h
    obtain ⟨x₁, x₂, rfl, hx₁, hx₂⟩ := hx
    obtain ⟨y₁, y₂, rfl, hy₁, hy₂⟩ := hy
    have hbefore := mem_before_names.mpr ⟨a, x₁, rfl, hne, ha, hx₁⟩
    have hbetween := mem_between_names.mpr ⟨x₂, y₁, rfl, hx₂, hy₁⟩
    have hbehind := mem_behind_names.mpr ⟨y₂, b, c, q, called, rfl, hy₂, hb, hc, hq, hcalled⟩
    refine ⟨_, hbefore, _, ⟨n, hn, _, ⟨_, hbetween, _, ⟨s, hs, _, hbehind, rfl⟩, rfl⟩, rfl⟩, ?_⟩
    simp only [List.append_assoc, List.cons_append]

/-! ## Names that are captured -/

theorem language_behind_names : (sequence (capturedParts.drop 9 ++ [assert .wordEdge])).language =
    (sequence (declarationParts.drop 9)).language := by
  have hcall : (sequence [capture 3 (oneOf [lit "useState", lit "useReducer"])]).language =
      (sequence [lit "use", oneOf [lit "State", lit "Reducer"]]).language := language_call.symm
  rw [language_sequence_append]
  show _ * 1 = _
  rw [mul_one]
  simp only [capturedParts, declarationParts, List.drop, language_sequence_cons _ (_ :: _), hcall]

theorem eq_of_endings {c c' x x' : Text} (hc : c = "useState".toList ∨ c = "useReducer".toList)
    (hc' : c' = "useState".toList ∨ c' = "useReducer".toList) (h : x ++ c = x' ++ c') : c = c' := by
  have hlast := congrArg List.getLast? h
  rcases hc with rfl | rfl <;> rcases hc' with rfl | rfl
  · rfl
  · simp at hlast
  · simp at hlast
  · rfl

theorem Binds.exists_ending {w name setter called : Text} (h : Binds w name setter called) : ∃ x, w = x ++ called := by
  obtain ⟨a, x, y, b, c, q, rfl, -⟩ := h.spelled
  refine ⟨"const" ++ a ++ '[' :: (x ++ ',' :: (y ++ ']' :: (b ++ '=' :: (c ++ q)))), ?_⟩
  simp only [List.append_assoc, List.cons_append]

/-- What is captured is what the matched text binds. -/
theorem IsMatch.binds {code : Text} {m : Match} (h : IsMatch StateVariable.declaration code m) :
    Binds m.text (m.group 1) (m.group 2) (m.group 3) := by
  have hparts : IsMatch (sequence (capturedParts.take 4 ++ capture 1 word :: ([blanks, lit ",", blanks] ++
      capture 2 word :: (capturedParts.drop 9 ++ [assert .wordEdge])))) code m := h
  obtain ⟨hname, hsetter, u, hu, v, hv, z, hz, hread⟩ := hparts.exists_groups (by decide) rfl rfl (by decide)
  rw [language_behind_names] at hz
  obtain ⟨called, hbinds⟩ := exists_binds hu hname hv hsetter hz
  have htext : m.text = u ++ m.group 1 ++ v ++ m.group 2 ++ z := hread.take_eq
  rw [← htext] at hbinds
  have hkept : m.group 3 ∈ (oneOf [lit "useState", lit "useReducer"]).language := h.group_mem_kept (by decide) rfl
  obtain ⟨x, hx⟩ := Option.isSome_iff_exists.mp (h.isSome_group? (n := 3) (by decide))
  obtain ⟨f, hf, y, -, -, r, hr, hlast⟩ := h.framed hx
  have hbehind : f.behind ∈ (StateVariable.declaration.frames 3).map (·.behind) := List.mem_map_of_mem hf
  have hnothing : (StateVariable.declaration.frames 3).map (·.behind) = [1 * 1] := rfl
  rw [hnothing, List.mem_singleton] at hbehind
  rw [hbehind, mul_one] at hr
  obtain rfl : r = [] := hr
  have hgroup : m.group 3 = x := by rw [Match.group, hx, Option.getD_some]
  have hending : m.text = y ++ m.group 3 := by
    rw [hgroup, ← List.append_nil (y ++ x)]
    exact hlast.take_eq
  obtain ⟨y', hy'⟩ := hbinds.exists_ending
  have hcalled : called = m.group 3 :=
    eq_of_endings hbinds.called_mem (hkept.imp mem_language_lit.mp mem_language_lit.mp) (hy'.symm.trans hending)
  rwa [hcalled] at hbinds

/-! ## Matches at the same places -/

/-- Where a match begins and where it ends. -/
def Match.extent (m : Match) : Spot × Spot := (m.opened, m.closed.spot)

theorem Match.resume?_congr {m m' : Match} (h : m.extent = m'.extent) : m.resume? = m'.resume? := by
  obtain ⟨hopened, hclosed⟩ := Prod.mk.inj h
  rw [resume?, resume?, hopened, hclosed]

namespace Pattern

variable {p q : Pattern} (h : ∀ s, (p.at? s).map Match.extent = (q.at? s).map Match.extent)

include h

theorem map_extent_search (s : Spot) : (p.search s).map Match.extent = (q.search s).map Match.extent := by
  have hat := h s
  rw [search, search]
  cases hp : p.at? s with
  | some m =>
    cases hq : q.at? s with
    | some m' => rwa [hp, hq] at hat
    | none => simp [hp, hq] at hat
  | none =>
    cases hq : q.at? s with
    | some m' => simp [hp, hq] at hat
    | none =>
      dsimp only
      split
      · rfl
      · exact map_extent_search _
termination_by s.left
decreasing_by exact Spot.left_lt_of_next? ‹_›

/-- Patterns that match the same texts everywhere find the same matches, one after the other. -/
theorem map_extent_matchesFrom (s : Spot) : (p.matchesFrom s).map Match.extent = (q.matchesFrom s).map Match.extent := by
  have hsearch := map_extent_search h s
  rw [matchesFrom, matchesFrom]
  cases hp : p.search s with
  | none =>
    cases hq : q.search s with
    | none => rfl
    | some m' => simp [hp, hq] at hsearch
  | some m =>
    cases hq : q.search s with
    | none => simp [hp, hq] at hsearch
    | some m' =>
      rw [hp, hq] at hsearch
      have hextent : m.extent = m'.extent := Option.some.inj hsearch
      dsimp only
      rw [List.map_cons, List.map_cons, hextent, Match.resume?_congr hextent]
      cases hresume : m'.resume? with
      | none => rfl
      | some t =>
        dsimp only
        by_cases hlt : t.left < s.left
        · rw [dif_pos hlt, dif_pos hlt, map_extent_matchesFrom t]
        · rw [dif_neg hlt, dif_neg hlt]
termination_by s.left

end Pattern

theorem Match.text_congr {m m' : Match} (h : m.extent = m'.extent) : m.text = m'.text := by
  obtain ⟨hopened, hclosed⟩ := Prod.mk.inj h
  rw [text, text, hopened, hclosed]

section Declarations

variable {ps qs : List Pattern} (hps : (sequence ps).language = declarations) (hqs : (sequence qs).language = declarations)

include hps

theorem declared_of_at? {s : Spot} {m : Match} (h : (sequence (ps ++ [assert .wordEdge])).at? s = some m) :
    m.opened = s ∧ ∃ w ∈ declarations, s.Reads w m.closed.spot := by
  obtain ⟨w, hw, hread, -⟩ := reads_of_at? (any_getLast?_of_language hps) h
  obtain ⟨t, -, rfl⟩ := Option.map_eq_some_iff.mp h
  exact ⟨rfl, w, hps ▸ hw, hread⟩

include hqs

/-- Patterns that read declarations match the same text wherever both match: only one declaration begins there. -/
theorem extent_eq_of_at? {s : Spot} {m m' : Match} (h : (sequence (ps ++ [assert .wordEdge])).at? s = some m)
    (h' : (sequence (qs ++ [assert .wordEdge])).at? s = some m') : m.extent = m'.extent := by
  obtain ⟨hopened, w, hw, hread⟩ := declared_of_at? hps h
  obtain ⟨hopened', w', hw', hread'⟩ := declared_of_at? hqs h'
  obtain ⟨_, _, _, hbinds⟩ := mem_declarations_iff.mp hw
  obtain ⟨_, _, _, hbinds'⟩ := mem_declarations_iff.mp hw'
  have hahead : w ++ m.closed.spot.ahead = w' ++ m'.closed.spot.ahead := hread.ahead_eq.symm.trans hread'.ahead_eq
  obtain ⟨rfl, -⟩ := hbinds.unique hbinds' hahead
  have hclosed := hread.eq_of_reads hread'
  rw [Match.extent, Match.extent, hopened, hopened', hclosed]

theorem map_extent_at? (hp : (sequence ps).plain = true) (hq : (sequence qs).plain = true) (s : Spot) :
    ((sequence (ps ++ [assert .wordEdge])).at? s).map Match.extent =
      ((sequence (qs ++ [assert .wordEdge])).at? s).map Match.extent := by
  have hsome : ((sequence (ps ++ [assert .wordEdge])).at? s).isSome =
      ((sequence (qs ++ [assert .wordEdge])).at? s).isSome := by
    rw [Bool.eq_iff_iff, isSome_at?_iff hp (any_getLast?_of_language hps),
      isSome_at?_iff hq (any_getLast?_of_language hqs), hps, hqs]
  cases hm : (sequence (ps ++ [assert .wordEdge])).at? s with
  | none =>
    rw [hm] at hsome
    rw [Option.not_isSome_iff_eq_none.mp (Bool.eq_false_iff.mp hsome.symm)]
  | some m =>
    rw [hm] at hsome
    obtain ⟨m', hm'⟩ := Option.isSome_iff_exists.mp hsome.symm
    rw [hm', Option.map_some, Option.map_some, extent_eq_of_at? hps hqs hm hm']

end Declarations

namespace StateVariable

/-- What is extracted and what is counted stands at the same places. -/
theorem forall₂_extent (code : Text) : List.Forall₂ (fun m m' => m.extent = m'.extent) (declaration.matchesIn code)
    (Evidenced.stateDeclaration.matchesIn code) := by
  have hextents : (declaration.matchesIn code).map Match.extent =
      (Evidenced.stateDeclaration.matchesIn code).map Match.extent := by
    rw [declaration_eq, stateDeclaration_eq]
    exact map_extent_matchesFrom (map_extent_at? language_capturedParts rfl rfl rfl) _
  rw [← List.forall₂_eq_eq_eq, List.forall₂_map_left_iff, List.forall₂_map_right_iff] at hextents
  exact hextents

/-- As many variables are extracted as declarations are counted; one after the other, the name and the setter of a
variable are those that the text of the counted declaration binds. -/
theorem allIn_binds (code : Text) :
    (allIn code).length = Evidenced.stateDeclarations code ∧
      List.Forall₂
        (fun v m => ∀ name setter, (∃ called, Binds m.text name setter called) ↔ name = v.name ∧ setter = v.setter)
        (allIn code) (Evidenced.stateDeclaration.matchesIn code) := by
  have hextents := forall₂_extent code
  have hmatches : ∀ m ∈ declaration.matchesIn code, IsMatch declaration code m := fun m => isMatch_of_mem_matchesIn
  refine ⟨(List.length_map _).trans hextents.length_eq, ?_⟩
  rw [allIn, List.forall₂_map_left_iff]
  refine List.Forall₂.imp ?_ ((List.forall₂_and_left _ _).mpr ⟨hmatches, hextents⟩)
  intro m m' h name setter
  obtain ⟨hm, hextent⟩ := h
  rw [← Match.text_congr hextent, ofDeclaration_name, ofDeclaration_setter]
  constructor
  · intro h
    obtain ⟨called, h⟩ := h
    obtain ⟨-, hname, hsetter, -⟩ := h.unique hm.binds (rfl : m.text ++ [] = m.text ++ [])
    exact ⟨hname, hsetter⟩
  · intro h
    obtain ⟨rfl, rfl⟩ := h
    exact ⟨_, hm.binds⟩

end StateVariable

end SourceArchive
