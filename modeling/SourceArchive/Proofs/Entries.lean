import SourceArchive.Check.Evidence
import SourceArchive.Facts.State
import SourceArchive.Proofs.Splitting

/-!
# Counting the entries of a written list

The counter of entries knows brackets only, so it counts the entries that were written if each of them is `Balanced`:
brackets close, and commas stand within them.  It drops the brackets at both ends before it counts, those
of the last entry among them; brackets that close at the end of a text close no entry, so nothing is lost.  For the state
variables of a section this makes the counter the inverse of the writer (`Metadata.listedEntries_state`).
-/

namespace SourceArchive

open Layout (metaFields metaLine)

namespace Evidenced

/-- By how much a character behind another changes the number of open brackets. -/
def weight (previous : Option Char) (c : Char) : Int :=
  if c = '(' ∨ c = '[' ∨ c = '{' ∨ c = '<' then 1
  else if c = '>' ∧ previous = some '=' then 0
  else if c = ')' ∨ c = ']' ∨ c = '}' ∨ c = '>' then -1
  else 0

/-- Whether, of `depth` open brackets, all are closed at the end of a text and no comma stands where none is open. -/
def balancedFrom (depth : Int) (previous : Option Char) : Text → Bool
  | [] => depth == 0
  | c :: r => !(c == ',' && depth == 0) && balancedFrom (depth + weight previous c) (some c) r

/-- All brackets close, but for arrows, and commas stand within them. -/
def Balanced (t : Text) : Prop := balancedFrom 0 none t = true

instance : DecidablePred Balanced := fun t => inferInstanceAs (Decidable (balancedFrom 0 none t = true))

theorem entriesFrom_cons (depth : Int) (previous : Option Char) (c : Char) (r : Text) :
    entriesFrom depth previous (c :: r) =
      entriesFrom (depth + weight previous c) (some c) r + if c = ',' ∧ depth = 0 then 1 else 0 := by
  rw [entriesFrom, weight]
  by_cases hopen : c = '(' ∨ c = '[' ∨ c = '{' ∨ c = '<'
  · have hcomma : c ≠ ',' := by rcases hopen with rfl | rfl | rfl | rfl <;> decide
    simp [hopen, hcomma]
  by_cases harrow : c = '>' ∧ previous = some '='
  · simp [harrow]
  by_cases hclose : c = ')' ∨ c = ']' ∨ c = '}' ∨ c = '>'
  · have hcomma : c ≠ ',' := by rcases hclose with rfl | rfl | rfl | rfl <;> decide
    simp [hopen, harrow, hclose, hcomma, Int.sub_eq_add_neg]
  · simp only [hopen, harrow, hclose, if_false, Int.add_zero]
    split
    · rfl
    · rfl

/-! ## Balanced texts -/

theorem weight_congr {p q : Option Char} (hp : p ≠ some '=') (hq : q ≠ some '=') (c : Char) : weight p c = weight q c := by
  simp [weight, hp, hq]

theorem balancedFrom_congr {p q : Option Char} (hp : p ≠ some '=') (hq : q ≠ some '=') (depth : Int) (t : Text) :
    balancedFrom depth p t = balancedFrom depth q t := by
  cases t with
  | nil => rfl
  | cons c r => rw [balancedFrom, balancedFrom, weight_congr hp hq]

theorem balancedFrom_append {depth : Int} {p : Option Char} {t u : Text} (ht : balancedFrom depth p t = true)
    (hu : balancedFrom 0 (t.getLast?.or p) u = true) : balancedFrom depth p (t ++ u) = true := by
  induction t generalizing depth p with
  | nil =>
    obtain rfl : depth = 0 := by simpa [balancedFrom] using ht
    simpa using hu
  | cons c r ih =>
    rw [balancedFrom, Bool.and_eq_true] at ht
    rw [Text.getLast?_cons_or] at hu
    rw [List.cons_append, balancedFrom, Bool.and_eq_true]
    exact ⟨ht.1, ih ht.2 hu⟩

/-- A character that is no bracket and no comma. -/
def Unbracketed (c : Char) : Prop := c ∉ ['(', '[', '{', '<', ')', ']', '}', '>', ',']

theorem Unbracketed.weight_eq {c : Char} (h : Unbracketed c) (p : Option Char) : weight p c = 0 := by
  simp only [Unbracketed, List.mem_cons, List.not_mem_nil, or_false, not_or] at h
  simp [weight, h]

theorem balancedFrom_of_unbracketed {t : Text} (h : ∀ c ∈ t, Unbracketed c) (p : Option Char) :
    balancedFrom 0 p t = true := by
  induction t generalizing p with
  | nil => rfl
  | cons c r ih =>
    obtain ⟨hc, hr⟩ := List.forall_mem_cons.mp h
    have hcomma : (c == ',') = false := by
      rw [beq_eq_false_iff_ne]
      rintro rfl
      exact hc (by simp)
    rw [balancedFrom, hc.weight_eq, hcomma]
    exact ih hr (some c)

/-! ## Counting -/

/-- A balanced text adds no entry. -/
theorem entriesFrom_append {depth : Int} {p : Option Char} {t : Text} (ht : balancedFrom depth p t = true) (rest : Text) :
    entriesFrom depth p (t ++ rest) = entriesFrom 0 (t.getLast?.or p) rest := by
  induction t generalizing depth p with
  | nil =>
    obtain rfl : depth = 0 := by simpa [balancedFrom] using ht
    rfl
  | cons c r ih =>
    rw [balancedFrom, Bool.and_eq_true] at ht
    have hcomma : ¬ (c = ',' ∧ depth = 0) := by
      rintro ⟨rfl, rfl⟩
      simp at ht
    rw [List.cons_append, entriesFrom_cons, if_neg hcomma, ih ht.2, Text.getLast?_cons_or, Nat.add_zero]

theorem entriesFrom_join {items : List Text} (hne : items ≠ []) (h : ∀ x ∈ items, Balanced x) {p : Option Char}
    (hp : p ≠ some '=') : entriesFrom 0 p (Text.join ", " items) = items.length := by
  induction items generalizing p with
  | nil => contradiction
  | cons x items ih =>
    obtain ⟨hx, hitems⟩ := List.forall_mem_cons.mp h
    have hx : balancedFrom 0 p x = true := by
      rw [balancedFrom_congr hp (by decide : none ≠ some '=')]
      exact hx
    cases items with
    | nil =>
      have hcount := entriesFrom_append hx []
      rw [List.append_nil] at hcount
      rw [Text.join_singleton, hcount]
      rfl
    | cons y items =>
      have hrest : Text.join ", " (x :: y :: items) = x ++ (',' :: ' ' :: Text.join ", " (y :: items)) := by
        rw [Text.join_cons_cons, List.append_assoc]
        rfl
      have hcomma : weight (x.getLast?.or p) ',' = 0 := by simp [weight]
      have hspace : weight (some ',') ' ' = 0 := by decide
      rw [hrest, entriesFrom_append hx, entriesFrom_cons, hcomma, Int.add_zero, entriesFrom_cons, hspace, Int.add_zero,
        ih (by simp) hitems (by decide)]
      simp

/-- Brackets that close at the end of a text close no entry. -/
theorem entriesFrom_append_closing {u : Text} (hu : ∀ c ∈ u, c = ']') (depth : Int) (p : Option Char) (t : Text) :
    entriesFrom depth p (t ++ u) = entriesFrom depth p t := by
  induction t generalizing depth p with
  | nil =>
    induction u generalizing depth p with
    | nil => rfl
    | cons c r ih =>
      obtain ⟨rfl, hr⟩ := List.forall_mem_cons.mp hu
      rw [List.nil_append] at ih ⊢
      rw [entriesFrom_cons, ih hr, if_neg (by simp)]
      rfl
  | cons c t ih => rw [List.cons_append, entriesFrom_cons, ih, ← entriesFrom_cons]

theorem trim_ne_nil_of_mem {t : Text} {c : Char} (hc : c ∈ t) (hb : isBlank c = false) : t.trim ≠ [] := by
  rcases Text.blank_or_exists_trim t with hblank | ⟨a, m, b, rfl, ha, hs, he, hblank⟩
  · rw [hblank c hc] at hb
    contradiction
  · rw [Text.trim_of_parts ha hs he hblank]
    obtain ⟨d, r, rfl, -⟩ := hs
    exact List.cons_ne_nil d r

/-- A list is counted by what stands between its brackets. -/
theorem listedEntries_brackets {x : Text} (hfirst : ∀ c ∈ x.head?, c ≠ '[') (hcolon : ':' ∈ x) :
    listedEntries ("[".toList ++ x ++ "]".toList) = entriesFrom 0 none x := by
  have hdrop : listedEntries.dropBrackets ("[".toList ++ x ++ "]".toList) = dropTrailing (· == ']') (x ++ "]".toList) := by
    have hstart : ("[".toList ++ x ++ "]".toList).dropWhile (· == '[') = x ++ "]".toList := by
      cases x with
      | nil => exact absurd hcolon List.not_mem_nil
      | cons c r => simp [hfirst c rfl]
    rw [listedEntries.dropBrackets, hstart]
    rfl
  have hclosing : ∀ c ∈ takeTrailing (· == ']') (x ++ "]".toList), c = ']' := by
    intro c hc
    simpa using eq_true_of_mem_takeTrailing hc
  have happ := dropTrailing_append_takeTrailing (· == ']') (x ++ "]".toList)
  have hinner : ':' ∈ dropTrailing (· == ']') (x ++ "]".toList) := by
    have hmem : ':' ∈ x ++ "]".toList := List.mem_append_left _ hcolon
    rw [← happ] at hmem
    rcases List.mem_append.mp hmem with hmem | hmem
    · exact hmem
    · exact absurd (hclosing _ hmem) (by decide)
  have htrim : Text.trim ("[".toList ++ x ++ "]".toList) = "[".toList ++ x ++ "]".toList :=
    Text.trim_eq_self (.append (.append ⟨'[', [], rfl, rfl⟩ x) _) (.append ⟨[], ']', rfl, rfl⟩ _)
  have hnone : "[".toList ++ x ++ "]".toList ≠ Layout.noneListed := by
    intro heq
    have hmem : ':' ∈ Layout.noneListed := by
      rw [← heq]
      exact List.mem_append_left _ (List.mem_append_right _ hcolon)
    exact absurd hmem (by decide)
  have hempty : (Text.trim (dropTrailing (· == ']') (x ++ "]".toList))).isEmpty = false := by
    simpa using trim_ne_nil_of_mem hinner (by decide)
  rw [listedEntries, htrim, hdrop]
  simp only [hempty, hnone, Bool.false_eq_true, or_self, if_false]
  calc entriesFrom 0 none (dropTrailing (· == ']') (x ++ "]".toList))
      = entriesFrom 0 none (x ++ "]".toList) := by
        rw [← entriesFrom_append_closing hclosing, happ]
    _ = entriesFrom 0 none x := entriesFrom_append_closing (by simp) 0 none x

/-- Written state variables are counted. -/
theorem listedEntries_list {vs : List StateVariable} (hname : ∀ v ∈ vs, ∀ c ∈ v.name, Unbracketed c)
    (htype : ∀ v ∈ vs, Balanced v.type) :
    listedEntries (Layout.list (vs.map fun v => v.name ++ ":" ++ v.type)) = vs.length := by
  rcases vs with _ | ⟨v, vs⟩
  · decide
  let items := (v :: vs).map fun v => v.name ++ ":".toList ++ v.type
  have hplain : ∀ u ∈ v :: vs, ∀ c ∈ u.name ++ ":".toList, Unbracketed c := by
    intro u hu
    rw [List.forall_mem_append]
    refine ⟨hname u hu, fun c hc => ?_⟩
    obtain rfl : c = ':' := List.mem_singleton.mp hc
    simp [Unbracketed]
  have hbalanced : ∀ x ∈ items, Balanced x := by
    intro x hx
    obtain ⟨u, hu, rfl⟩ := List.mem_map.mp hx
    refine balancedFrom_append (balancedFrom_of_unbracketed (hplain u hu) none) ?_
    have hcolon : (u.name ++ ":".toList).getLast? = some ':' := List.getLast?_concat
    rw [hcolon, Option.some_or, balancedFrom_congr (by decide) (by decide : none ≠ some '=')]
    exact htype u hu
  -- the first entry begins the text between the brackets
  have hjoin : Text.join ", ".toList items =
      (v.name ++ ":".toList) ++ (v.type ++ (vs.map fun v => v.name ++ ":".toList ++ v.type).flatMap (", ".toList ++ ·)) := by
    rw [← List.append_assoc]
    exact Text.join_cons _ _ _
  have hfirst : ∀ c ∈ (Text.join ", ".toList items).head?, c ≠ '[' := by
    rw [hjoin, List.head?_append_of_ne_nil _ (by simp)]
    rintro c hc rfl
    exact absurd (hplain v List.mem_cons_self _ (List.mem_of_mem_head? hc)) (by simp [Unbracketed])
  have hcolon : ':' ∈ Text.join ", ".toList items := by
    rw [hjoin]
    simp
  have hlist : Layout.list items = "[".toList ++ Text.join ", ".toList items ++ "]".toList := rfl
  rw [hlist, listedEntries_brackets hfirst hcolon, entriesFrom_join (by simp [items]) hbalanced (by decide)]
  exact List.length_map _

end Evidenced

/-! ## The written value of the state variables -/

theorem Evidenced.unbracketed_of_isIdentifierChar_or_isWordChar {c : Char}
    (h : isIdentifierChar c = true ∨ isWordChar c = true) : Unbracketed c := by
  have hsigns : ∀ s ∈ ['(', '[', '{', '<', ')', ']', '}', '>', ','], isIdentifierChar s = false ∧ isWordChar s = false := by
    decide +kernel
  intro hc
  obtain ⟨hidentifier, hword⟩ := hsigns c hc
  rw [hidentifier, hword] at h
  simp at h

namespace Metadata

/-- What introduces one field introduces no other. -/
theorem after?_metaLine {field name : Text} (hfield : field ∈ metaFields) (hname : name ∈ metaFields) (value : Text) :
    Text.after? (metaLine field value) (metaLine name []) = if field = name then some value else none := by
  have happart : ∀ f ∈ metaFields, ∀ n ∈ metaFields, f ≠ n → ¬ metaLine n [] <+: metaLine f [] := by decide
  have hline : metaLine field value = metaLine field [] ++ value := by simp [metaLine]
  rw [hline]
  split
  · rename_i heq
    rw [heq, Text.after?_append]
  · rename_i hne
    rw [Text.after?_eq_none_iff]
    intro hprefix
    rcases Text.prefix_total hprefix (List.prefix_append _ value) with h | h
    · exact happart field hfield name hname hne h
    · exact happart name hname field hfield (Ne.symm hne) h

/-- One metadata line states the state variables, and its value is their list. -/
theorem filterMap_lines_state (m : Metadata) : m.lines.filterMap (Text.after? · (metaLine "State" [])) =
    [Layout.list (m.state.map fun v => v.name ++ ":" ++ v.type)] := by
  have hlines : ∀ p ∈ metaFields.zip m.values,
      Text.after? (metaLine p.1 p.2) (metaLine "State" []) = if p.1 = "State".toList then some p.2 else none :=
    fun p hp => after?_metaLine (List.of_mem_zip hp).1 (by decide) p.2
  rw [lines_eq_map, List.filterMap_map]
  calc (metaFields.zip m.values).filterMap (fun p => Text.after? (metaLine p.1 p.2) (metaLine "State" []))
      = (metaFields.zip m.values).filterMap (fun p => if p.1 = "State".toList then some p.2 else none) :=
        List.filterMap_congr hlines
    _ = [Layout.list (m.state.map fun v => v.name ++ ":" ++ v.type)] := by
        simp [metaFields, values]

/-- The counter of entries inverts the writer of state variables: of the one value that states them it reads off how many
there are, if their names are identifiers and their types balanced. -/
theorem listedEntries_state (m : Metadata)
    (hname : ∀ v ∈ m.state, ∀ c ∈ v.name, isIdentifierChar c = true ∨ isWordChar c = true)
    (htype : ∀ v ∈ m.state, Evidenced.Balanced v.type) :
    (m.lines.filterMap (Text.after? · (metaLine "State" []))).map Evidenced.listedEntries = [m.state.length] := by
  have hplain : ∀ v ∈ m.state, ∀ c ∈ v.name, Evidenced.Unbracketed c :=
    fun v hv c hc => Evidenced.unbracketed_of_isIdentifierChar_or_isWordChar (hname v hv c hc)
  rw [m.filterMap_lines_state, List.map_singleton, Evidenced.listedEntries_list hplain htype]

/-- Types with commas, an arrow and brackets within one another, the last of them ending in brackets. -/
def nestedTypes : Metadata where
  role := .module
  flow := .shared
  framework := .nextJs
  state := [
    { name := "m", setter := "setM", type := "Map<K, [A, B]>", initial := "m0", kind := .useState },
    { name := "cb", setter := "setCb", type := "(a: A, b: B) => C", initial := "f", kind := .useState },
    { name := "rows_1", setter := "setRows", type := "[T[], \x7b a: U \x7d][]", initial := "[]", kind := .useState }]
  props := []
  contexts := []
  endpoints := []
  imports := []

theorem listedEntries_state_nestedTypes :
    (nestedTypes.lines.filterMap (Text.after? · (metaLine "State" []))).map Evidenced.listedEntries = [3] :=
  nestedTypes.listedEntries_state (by decide +kernel) (by decide)

end Metadata

end SourceArchive
