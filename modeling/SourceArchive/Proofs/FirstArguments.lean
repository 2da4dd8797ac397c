import SourceArchive.Proofs.Initializers

/-!
# The first of several arguments

The end of a call is looked for with strings left aside; the comma behind the first argument is not.  A bracket or a
comma in a string of the argument counts like any other, so the argument is cut short or runs on, unless the brackets
that are seen are balanced and no comma is seen outside them.
-/

namespace SourceArchive

open Text Delimiter

namespace Delimiter

/-- What a character adds to the number of open brackets. -/
def weight (c : Char) : Int := if opens c then 1 else if closes c then -1 else 0

/-- How many more brackets a text opens than it closes, with those in its strings. -/
def level : Text → Int
  | [] => 0
  | c :: r => weight c + level r

@[simp] theorem level_nil : level [] = 0 := rfl

@[simp] theorem level_cons (c : Char) (r : Text) : level (c :: r) = weight c + level r := rfl

/-- A character that neither brackets nor separates arguments. -/
def Inert (c : Char) : Prop := opens c = false ∧ closes c = false ∧ c ≠ ','

theorem inert_of_quotes {c : Char} (h : quotes c = true) : Inert c := by
  have hc : (c = '\'' ∨ c = '"') ∨ c = '\x60' := by simpa [quotes] using h
  unfold Inert
  rcases hc with (rfl | rfl) | rfl
  · decide
  · decide
  · decide

theorem Inert.weight_eq {c : Char} (h : Inert c) : weight c = 0 := by
  unfold weight
  rw [h.1, h.2.1]
  rfl

theorem Pair.weight_eq {o c : Char} (h : Pair o c) : weight o = 1 ∧ weight c = -1 ∧ o ≠ ',' ∧ c ≠ ',' := by
  cases h <;> decide

end Delimiter

namespace StateVariable

/-! ## Up to the first comma -/

theorem upToComma_cons (depth : Int) (c : Char) (r : Text) :
    upToComma depth (c :: r) = if c = ',' ∧ depth = 0 then [] else c :: upToComma (depth + weight c) r := by
  have hdepth : (if opens c then depth + 1 else if closes c then depth - 1 else depth) = depth + weight c := by
    unfold weight
    by_cases hopen : opens c = true
    · rw [if_pos hopen, if_pos hopen]
    · by_cases hclose : closes c = true
      · rw [if_neg hopen, if_neg hopen, if_pos hclose, if_pos hclose]
        omega
      · rw [if_neg hopen, if_neg hopen, if_neg hclose, if_neg hclose]
        omega
  rw [upToComma]
  dsimp only
  rw [hdepth]

/-- The text ends before a comma at level zero, at the latest. -/
theorem upToComma_isPrefix {depth : Int} {a : Text} (h : depth + level a = 0) (b : Text) :
    upToComma depth (a ++ ',' :: b) <+: a := by
  induction a generalizing depth with
  | nil =>
    have hdepth : depth = 0 := by simpa using h
    rw [List.nil_append, upToComma_cons, if_pos ⟨rfl, hdepth⟩]
  | cons c r ih =>
    rw [List.cons_append, upToComma_cons]
    by_cases hcomma : c = ',' ∧ depth = 0
    · rw [if_pos hcomma]
      exact List.nil_prefix
    · rw [if_neg hcomma, List.prefix_cons_inj]
      apply ih
      rw [level_cons] at h
      omega

/-- Commas at other levels are passed over. -/
theorem upToComma_append {depth : Int} {w : Text} (h : ∀ a b, w = a ++ ',' :: b → depth + level a ≠ 0) (x : Text) :
    upToComma depth (w ++ x) = w ++ upToComma (depth + level w) x := by
  induction w generalizing depth with
  | nil => simp
  | cons c r ih =>
    have hcomma : ¬ (c = ',' ∧ depth = 0) := by
      intro hc
      apply h [] r
      · rw [hc.1]
        rfl
      · simpa using hc.2
    have hbehind : ∀ a b, r = a ++ ',' :: b → depth + weight c + level a ≠ 0 := by
      intro a b hr
      have hlevel := h (c :: a) b (by rw [hr]; rfl)
      rw [level_cons] at hlevel
      omega
    rw [List.cons_append, upToComma_cons, if_neg hcomma, ih hbehind, level_cons]
    show c :: (r ++ upToComma (depth + weight c + level r) x) = c :: (r ++ upToComma (depth + (weight c + level r)) x)
    rw [Int.add_assoc]

theorem count_singleLine (t : Text) : t.singleLine.count ',' = t.count ',' := by
  have hcomma : (!isBlank ',') = true := by decide
  rw [← List.count_filter (p := (!isBlank ·)) hcomma, filter_singleLine, List.count_filter (p := (!isBlank ·)) hcomma]

/-- What stands in front of a comma is the first argument exactly if the brackets in it are balanced and every comma
in it stands between them, strings not left aside. -/
theorem singleLine_upToComma_iff {w : Text} (x : Text) :
    (upToComma 0 (w ++ ',' :: x)).singleLine = w.singleLine ↔
      level w = 0 ∧ ∀ a b, w = a ++ ',' :: b → level a ≠ 0 := by
  have hpass (hinner : ∀ a b, w = a ++ ',' :: b → level a ≠ 0) :
      upToComma 0 (w ++ ',' :: x) = w ++ upToComma (level w) (',' :: x) := by
    have happ := @upToComma_append 0 w (fun a b hw => by rw [Int.zero_add]; exact hinner a b hw) (',' :: x)
    rwa [Int.zero_add] at happ
  constructor
  · intro h
    have hcount := congrArg (List.count ',') h
    rw [count_singleLine, count_singleLine] at hcount
    have hinner : ∀ a b, w = a ++ ',' :: b → level a ≠ 0 := by
      intro a b hw hlevel
      -- the argument would end before this comma, and hold fewer commas than `w`
      have hprefix : upToComma 0 (w ++ ',' :: x) <+: a := by
        rw [hw, List.append_assoc]
        exact upToComma_isPrefix (by omega) _
      have hle := hprefix.sublist.count_le ','
      rw [hcount, hw, List.count_append, List.count_cons_self] at hle
      omega
    refine ⟨?_, hinner⟩
    by_contra hlevel
    -- the argument would run on behind the comma that follows, and hold more commas than `w`
    have hnot : ¬ (',' = ',' ∧ level w = 0) := fun h => hlevel h.2
    rw [hpass hinner, upToComma_cons, if_neg hnot, List.count_append, List.count_cons_self] at hcount
    omega
  · intro h
    obtain ⟨hlevel, hinner⟩ := h
    rw [hpass hinner, upToComma_cons, if_pos ⟨rfl, hlevel⟩, List.append_nil]

theorem upToComma_inert {depth : Int} {s : Text} (h : ∀ c ∈ s, Inert c) (x : Text) :
    upToComma depth (s ++ x) = s ++ upToComma depth x := by
  induction s with
  | nil => rfl
  | cons c s ih =>
    have hc := h c List.mem_cons_self
    have hnot : ¬ (c = ',' ∧ depth = 0) := fun heq => hc.2.2 heq.1
    rw [List.cons_append, upToComma_cons, if_neg hnot, hc.weight_eq, Int.add_zero,
      ih fun d hd => h d (List.mem_cons_of_mem c hd)]
    rfl

/-- A bracketed text is passed over if its strings hold no bracket and no comma. -/
theorem upToComma_bracketed {bare : Char → Prop} {t : Text} (h : Bracketed Inert bare t) {depth : Int}
    (hdepth : 0 ≤ depth) (hbare : depth = 0 → ∀ c, bare c → c ≠ ',') (x : Text) :
    upToComma depth (t ++ x) = t ++ upToComma depth x := by
  induction h generalizing depth x with
  | nil => rfl
  | @plain bare c r _ hopen hclose hc _ ih =>
    have hweight : weight c = 0 := by simp [weight, hopen, hclose]
    have hnot : ¬ (c = ',' ∧ depth = 0) := fun h => hbare h.2 c hc h.1
    rw [List.cons_append, upToComma_cons, if_neg hnot, hweight, Int.add_zero, ih hdepth hbare]
    rfl
  | @quoted bare mark s r hmark _ hin _ ih =>
    have htext (y : Text) : mark :: (s ++ mark :: y) = (mark :: (s ++ [mark])) ++ y := by simp
    have hinert : ∀ c ∈ mark :: (s ++ [mark]), Inert c := by
      intro c hc
      have hcases : c = mark ∨ c ∈ s ∨ c = mark := by simpa using hc
      rcases hcases with rfl | hs | rfl
      · exact inert_of_quotes hmark
      · exact hin c hs
      · exact inert_of_quotes hmark
    rw [htext, List.append_assoc, upToComma_inert hinert, ih hdepth hbare, List.append_assoc]
  | @group bare o c t r hpair _ _ iht ihr =>
    obtain ⟨hopen, hclose, ho, hc⟩ := hpair.weight_eq
    have hinside : depth + 1 = 0 → ∀ c, True → c ≠ ',' := by omega
    have hback : depth + 1 + -1 = depth := by omega
    rw [enclosed_append, upToComma_cons, if_neg (fun h => ho h.1), hopen, iht (by omega) hinside, upToComma_cons,
      if_neg (fun h => hc h.1), hclose, hback, ihr hdepth hbare]
    simp

/-! ## Variables of `useReducer` -/

theorem ofDeclaration_useReducer {m : Match} (h : m.group 3 = "useReducer") :
    ofDeclaration m = {
      name := m.group 1, setter := m.group 2, kind := .useReducer, type := "Reducer",
      initial := (firstArgument (callParts m.behind).2).singleLine } := by
  have hcall : "useReducer".toList = StateKind.callName .useReducer := by decide
  unfold ofDeclaration
  rw [h]
  dsimp only
  rw [if_pos hcall]

/-- The initial value of a reducer's variable is its first argument exactly if the argument's brackets are balanced and
its commas stand between them, those in its strings included; so it is if the strings hold neither. -/
theorem allIn_useReducer {name setter w₁ w₂ : Text} (hname : Word name) (hsetter : Word setter)
    (hw₁ : Bracketed (fun _ => True) (· ≠ ',') w₁) (hw₂ : WellBracketed w₂) (rest : Text) :
    ∃ initial, (allIn (declaring name setter "useReducer" ++ ("(" ++ w₁ ++ "," ++ w₂ ++ ")" ++ rest))).head? =
        some { name, setter, kind := .useReducer, type := "Reducer", initial } ∧
      (initial = w₁.singleLine ↔ level w₁ = 0 ∧ ∀ a b, w₁ = a ++ ',' :: b → level a ≠ 0) ∧
      (Bracketed Inert (· ≠ ',') w₁ → initial = w₁.singleLine) := by
  have harguments : WellBracketed (w₁ ++ ',' :: w₂) :=
    (hw₁.imp (fun _ h => h) (fun _ _ => trivial)).append (.plain rfl rfl rfl trivial hw₂)
  have hbehind : "(" ++ w₁ ++ "," ++ w₂ ++ ")" ++ rest =
      typeArgument none ++ "(" ++ (w₁ ++ ',' :: w₂) ++ ")" ++ rest := by
    unfold typeArgument
    simp
  obtain ⟨m, hm, hname, hsetter, hcalled, hm'⟩ := head?_allIn hname hsetter (.inr rfl)
    (rfl : ("(" ++ w₁ ++ "," ++ w₂ ++ ")" ++ rest).head?.any isWordChar = false)
  have hparts : (callParts m.behind).2 = w₁ ++ ',' :: w₂ := by
    rw [hm', hbehind, callParts_written harguments (fun t ht => by cases ht)]
  rw [hm, ofDeclaration_useReducer hcalled, hname, hsetter, hparts, firstArgument, singleLine_trim]
  refine ⟨_, rfl, singleLine_upToComma_iff w₂, ?_⟩
  intro hinert
  rw [upToComma_bracketed hinert (Int.le_refl 0) (fun _ _ hc => hc), upToComma_cons, if_pos ⟨rfl, rfl⟩, List.append_nil]

theorem allIn_useReducer_nested :
    (Word "on" ∧ Word "toggle" ∧ Bracketed (fun _ => True) (· ≠ ',') "(s, a) => next([s, 'on'], a)" ∧
      WellBracketed " init(')')") ∧
    (allIn (declaring "on" "toggle" "useReducer" ++ ("(" ++ "(s, a) => next([s, 'on'], a)" ++ "," ++ " init(')')" ++
      ")" ++ ";\nconst [s, t] = useReducer(',"))).head? = some {
        name := "on", setter := "toggle", kind := .useReducer, type := "Reducer",
        initial := "(s, a) => next([s, 'on'], a)" } := by
  have hname : Word "on" := ⟨by decide, by decide +kernel⟩
  have hsetter : Word "toggle" := ⟨by decide, by decide +kernel⟩
  have hstring : Escaped '\'' "on".toList := .plain (by decide) (by decide) (.plain (by decide) (by decide) .nil)
  have hlist : Bracketed Inert (fun _ => True) ("s, ".toList ++ '\'' :: ("on".toList ++ '\'' :: [])) :=
    .plain_append (by decide) (by simp) (.quoted rfl hstring (by simp [Inert, opens, closes]) .nil)
  have harguments : Bracketed Inert (fun _ => True) ('[' :: ("s, 'on'".toList ++ ']' :: (", a".toList ++ []))) :=
    .group .square hlist (.plain_append (by decide) (by simp) .nil)
  have hcall : Bracketed Inert (· ≠ ',') " => next([s, 'on'], a)" :=
    .plain_append (a := " => next".toList) (by decide) (by simp) (.group .round harguments .nil)
  have hreducer : Bracketed Inert (· ≠ ',') "(s, a) => next([s, 'on'], a)" :=
    .group (t := "s, a".toList ++ []) .round (.plain_append (by decide) (by simp) .nil) hcall
  have hfirst : Bracketed (fun _ => True) (· ≠ ',') "(s, a) => next([s, 'on'], a)" :=
    hreducer.imp (fun _ _ => trivial) (fun _ h => h)
  have hsecond : WellBracketed " init(')')" := by
    have hbracket : Escaped '\'' ")".toList := .plain (by decide) (by decide) .nil
    exact .plain_append (a := " init".toList) (by decide) (by simp)
      (.group (t := '\'' :: (")".toList ++ '\'' :: [])) .round (.quoted rfl hbracket (fun _ _ => trivial) .nil) .nil)
  refine ⟨⟨hname, hsetter, hfirst, hsecond⟩, ?_⟩
  obtain ⟨initial, hhead, -, hinitial⟩ := allIn_useReducer hname hsetter hfirst hsecond ";\nconst [s, t] = useReducer(',"
  rw [hhead, hinitial hreducer]
  decide +kernel

/-- Not every first argument without a comma outside strings and brackets is taken whole. -/
theorem not_allIn_useReducer :
    ¬ ∀ name setter w₁ w₂ rest : Text, Word name → Word setter → Bracketed (fun _ => True) (· ≠ ',') w₁ →
      WellBracketed w₂ → (allIn (declaring name setter "useReducer" ++ ("(" ++ w₁ ++ "," ++ w₂ ++ ")" ++ rest))).head? =
        some { name, setter, kind := .useReducer, type := "Reducer", initial := w₁.singleLine } := by
  intro h
  have hname : Word "s" := ⟨by decide, by decide +kernel⟩
  have hsetter : Word "d" := ⟨by decide, by decide +kernel⟩
  have hcomma : Escaped '"' ",".toList := .plain (by decide) (by decide) .nil
  have hstring : Bracketed (fun _ => True) (· ≠ ',') ('"' :: (",".toList ++ '"' :: (" ? 0 : s".toList ++ []))) :=
    .quoted rfl hcomma (fun _ _ => trivial) (.plain_append (by decide) (by simp) .nil)
  have hbehind : Bracketed (fun _ => True) (· ≠ ',') " => a === \",\" ? 0 : s" :=
    .plain_append (a := " => a === ".toList) (by decide) (by simp) hstring
  have hfirst : Bracketed (fun _ => True) (· ≠ ',') "(s, a) => a === \",\" ? 0 : s" :=
    .group (t := "s, a".toList ++ []) .round (.plain_append (by decide) (by simp) .nil) hbehind
  have hsecond : WellBracketed " 0" := .plain_append (a := " 0".toList) (by decide) (by simp) .nil
  have hhead := h "s" "d" "(s, a) => a === \",\" ? 0 : s" " 0" ";" hname hsetter hfirst hsecond
  exact absurd hhead (by decide +kernel)

end StateVariable

end SourceArchive
