import SourceArchive.Proofs.Notation

/-!
# Patterns with more text behind

What the reader makes of a text does not change if the text goes on with a bar or a closing parenthesis, unless the text was
torn: unless it ended within a class, within the switches of a group or behind a backslash.
-/

namespace SourceArchive

namespace PatternReader

variable {α β : Type} {t u r : Text}

/-- What a reader makes of `t`, and what it makes of `t` with `u` behind.  What was read stays, and so does a fault, unless the
text was torn. -/
inductive Extends (t u : Text) : Except PatternFault (α × Text) → Except PatternFault (α × Text) → Prop where
  | read {a : α} {rest : Text} : rest <:+ t → Extends t u (.ok (a, rest)) (.ok (a, rest ++ u))
  | fault (f : PatternFault) : Extends t u (.error f) (.error f)
  | torn {f : PatternFault} (y : Except PatternFault (α × Text)) : f.isTorn = true → Extends t u (.error f) y

namespace Extends

variable {x y : Except PatternFault (α × Text)}

theorem of_isSuffix (h : Extends r u x y) (hr : r <:+ t) : Extends t u x y := by
  cases h with
  | read hrest => exact read (hrest.trans hr)
  | fault f => exact fault f
  | torn y hf => exact torn y hf

theorem bind {f g : α × Text → Except PatternFault (β × Text)} (h : Extends t u x y)
    (hfg : ∀ a rest, rest <:+ t → Extends t u (f (a, rest)) (g (a, rest ++ u))) :
    Extends t u (x.bind f) (y.bind g) := by
  cases h with
  | read hrest => exact hfg _ _ hrest
  | fault f => exact fault f
  | torn y hf => exact torn _ hf

theorem mapTo (h : Extends t u x y) (f : α × Text → β × Text)
    (hf : ∀ a rest, rest <:+ t → Extends t u (.ok (f (a, rest))) (.ok (f (a, rest ++ u)))) :
    Extends t u (x.map f) (y.map f) := by
  cases h with
  | read hrest => exact hf _ _ hrest
  | fault f => exact fault f
  | torn y hf => exact torn _ hf

theorem map (h : Extends t u x y) (f : α → β) :
    Extends t u (x.map fun z => (f z.1, z.2)) (y.map fun z => (f z.1, z.2)) :=
  h.mapTo _ fun _ _ hrest => read hrest

end Extends

section Behind

variable {c : Char} (hc : c = '|' ∨ c = ')') (v : Text)
include hc

/-! ## Escapes -/

theorem valueIn?_eq_none {digits : Text} (hmem : c ∈ digits) : valueIn? 16 digits = none := by
  have hno : digitValue? c = none := by rcases hc with rfl | rfl <;> decide
  rw [valueIn?]
  generalize 0 = n
  induction digits generalizing n with
  | nil => simp at hmem
  | cons d digits ih =>
    rw [List.foldlM_cons, Option.bind_eq_bind, Option.bind_eq_none_iff]
    intro m hm
    rcases List.mem_cons.mp hmem with rfl | hmem
    · simp [hno] at hm
    · exact ih hmem m

/-- The digits of a code point and what follows them. -/
def hexDigits? (width : Nat) (t : Text) : Option (Text × Text) :=
  match t with
  | '{' :: r => Text.cutAt? '}' r
  | _ => if width ≤ t.length then some (t.take width, t.drop width) else none

/-- The character that digits in hexadecimal stand for. -/
def hexCharacter? (digits : Text) : Option Char := if digits.isEmpty then none else (valueIn? 16 digits).bind charOf?

omit hc in
theorem readHex_eq (width : Nat) (t : Text) :
    Escape.readHex width t = match hexDigits? width t with
      | none => .error .unknownEscape
      | some (digits, rest) =>
        match hexCharacter? digits with
        | some c => .ok (c, rest)
        | none => .error .unknownEscape := rfl

omit hc in
theorem hexDigits?_of_ne {width : Nat} {t : Text} (h : t.head? ≠ some '{') :
    hexDigits? width t = if width ≤ t.length then some (t.take width, t.drop width) else none := by
  rw [hexDigits?.eq_def]
  split
  · simp at h
  · rfl

theorem hexDigits?_append_cases (width : Nat) (t : Text) :
    (∃ digits rest, rest <:+ t ∧ hexDigits? width t = some (digits, rest) ∧
      hexDigits? width (t ++ c :: v) = some (digits, rest ++ c :: v)) ∨
    (hexDigits? width t = none ∧ ∀ digits rest, hexDigits? width (t ++ c :: v) = some (digits, rest) → c ∈ digits) := by
  by_cases hbrace : t.head? = some '{'
  · obtain ⟨r, rfl⟩ : ∃ r, t = '{' :: r := ⟨t.tail, List.eq_cons_of_mem_head? hbrace⟩
    have hne : c ≠ '}' := by rcases hc with rfl | rfl <;> decide
    rcases Text.cutAt?_append_cases r hne v with ⟨digits, rest, hcut, hcut'⟩ | hcut
    · obtain ⟨-, rfl⟩ := Text.cutAt?_eq_some_iff.mp hcut
      exact Or.inl ⟨digits, rest, ⟨'{' :: digits ++ ['}'], by simp⟩, hcut, hcut'⟩
    · exact Or.inr hcut
  · have hbrace' : (t ++ c :: v).head? ≠ some '{' := by
      cases t with
      | nil => rcases hc with rfl | rfl <;> simp
      | cons d r => simpa using hbrace
    rw [hexDigits?_of_ne hbrace, hexDigits?_of_ne hbrace']
    by_cases hwidth : width ≤ t.length
    · refine Or.inl ⟨t.take width, t.drop width, List.drop_suffix width t, if_pos hwidth, ?_⟩
      rw [if_pos (by simp; omega), List.take_append_of_le_length hwidth, List.drop_append_of_le_length hwidth]
    · refine Or.inr ⟨if_neg hwidth, fun digits rest h => ?_⟩
      obtain ⟨-, rfl, -⟩ : _ ∧ (t ++ c :: v).take width = digits ∧ _ := by simpa using h
      obtain ⟨k, hk⟩ : ∃ k, width - t.length = k + 1 := ⟨width - t.length - 1, by omega⟩
      simp [List.take_append, hk]

theorem readHex_append (width : Nat) (t : Text) :
    Extends t (c :: v) (Escape.readHex width t) (Escape.readHex width (t ++ c :: v)) := by
  rw [readHex_eq, readHex_eq]
  rcases hexDigits?_append_cases hc v width t with ⟨digits, rest, hrest, h, h'⟩ | ⟨h, hmem⟩
  · simp only [h, h']
    split
    · exact .read hrest
    · exact .fault _
  · simp only [h]
    rcases h' : hexDigits? width (t ++ c :: v) with _ | ⟨digits, rest⟩
    · exact .fault _
    · simp only [hexCharacter?, valueIn?_eq_none hc (hmem digits rest h'), Option.bind_none, ite_self]
      exact .fault _

theorem readEscape_append (t : Text) : Extends t (c :: v) (Escape.read t) (Escape.read (t ++ c :: v)) := by
  rcases t with _ | ⟨d, r⟩
  · exact .torn _ rfl
  have hr : r <:+ d :: r := List.suffix_cons d r
  rw [List.cons_append, Escape.read.eq_def, Escape.read.eq_def]
  simp only []
  split
  all_goals first
    | exact .read hr
    | exact ((readHex_append hc v _ r).map _).of_isSuffix hr
    | skip
  split
  · exact .read hr
  · exact .fault _

/-! ## Classes -/

/-- Whether a class is negated, and what follows. -/
def readNegation (t : Text) : Bool × Text :=
  match t with
  | '^' :: r => (true, r)
  | _ => (false, t)

theorem readNegation_append (t : Text) :
    readNegation (t ++ c :: v) = ((readNegation t).1, (readNegation t).2 ++ c :: v) := by
  cases t with
  | nil => rcases hc with rfl | rfl <;> rfl
  | cons d r =>
    simp only [readNegation.eq_def, List.cons_append]
    split <;> simp_all

omit hc in
theorem readNegation_isSuffix (t : Text) : (readNegation t).2 <:+ t := by
  rw [readNegation.eq_def]
  split
  · exact List.suffix_cons _ _
  · exact List.suffix_rfl

theorem named?_eq_none {name : Text} (hmem : c ∈ name) : Bracket.named? name = none := by
  have hno (key : Text) (hkey : '|' ∉ key ∧ ')' ∉ key) : (name != key) = true := by
    rw [bne_iff_ne]
    rintro rfl
    rcases hc with rfl | rfl
    · exact hkey.1 hmem
    · exact hkey.2 hmem
  simp only [Bracket.named?, List.lookup_eq_none_iff, List.forall_mem_cons, List.not_mem_nil, false_implies, implies_true,
    and_true]
  and_intros
  all_goals
    refine hno _ ?_
    decide

omit hc in
theorem readNamed?_eq (t : Text) :
    Bracket.readNamed? t = (Text.after? t ":").bind fun r =>
      (Text.cutAt? ':' (readNegation r).2).bind fun x =>
        (Text.after? x.2 "]").bind fun rest =>
          (Bracket.named? x.1).map fun k => (if (readNegation r).1 then .compl k else k, rest) := by
  simp only [Option.map_eq_bind]
  rfl

theorem readNamed?_append (t : Text) :
    Bracket.readNamed? (t ++ c :: v) = (Bracket.readNamed? t).map fun x => (x.1, x.2 ++ c :: v) := by
  have hcolon : c ≠ ':' := by rcases hc with rfl | rfl <;> decide
  have hstart : c ∉ (":" : Text) := by rcases hc with rfl | rfl <;> decide
  have hend : c ∉ ("]" : Text) := by rcases hc with rfl | rfl <;> decide
  rw [readNamed?_eq, readNamed?_eq, Text.after?_append_cons hstart]
  cases Text.after? t ":" with
  | none => rfl
  | some r =>
    simp only [Option.map_some, Option.bind_some, readNegation_append hc]
    rcases Text.cutAt?_append_cases (readNegation r).2 hcolon v with ⟨name, rest, h, h'⟩ | ⟨h, hmem⟩
    · simp only [h, h', Option.bind_some, Text.after?_append_cons hend]
      cases Text.after? rest "]" with
      | none => rfl
      | some rest => cases Bracket.named? name <;> rfl
    · rcases h' : Text.cutAt? ':' ((readNegation r).2 ++ c :: v) with _ | ⟨name, rest⟩
      · simp [h]
      · simp [h, named?_eq_none hc (hmem name rest h')]

omit hc in
theorem readNamed?_isSuffix {t rest : Text} {k : CharClass} (h : Bracket.readNamed? t = some (k, rest)) : rest <:+ t := by
  simp only [readNamed?_eq, Option.bind_eq_some_iff, Option.map_eq_some_iff, Prod.mk.injEq] at h
  obtain ⟨r, hr, ⟨name, r'⟩, hcut, rest', hrest, k, -, -, rfl⟩ := h
  obtain ⟨-, hr'⟩ := Text.cutAt?_eq_some_iff.mp hcut
  have hsuffix : r' <:+ (readNegation r).2 := hr' ▸ (List.suffix_cons ':' r').trans (List.suffix_append name _)
  exact (Text.after?_isSuffix hrest).trans
    (hsuffix.trans ((readNegation_isSuffix r).trans (Text.after?_isSuffix hr)))

theorem readItem_append (t : Text) :
    Extends t (c :: v) (Bracket.readItem t) (Bracket.readItem (t ++ c :: v)) := by
  rcases t with _ | ⟨d, r⟩
  · exact .torn _ rfl
  by_cases hd : d = '\\'
  · subst hd
    exact (readEscape_append hc v r).of_isSuffix (List.suffix_cons _ r)
  · have hitem (r : Text) : Bracket.readItem (d :: r) = .ok (.char d, r) := by simp [Bracket.readItem]
    rw [List.cons_append, hitem, hitem]
    exact .read (List.suffix_cons d r)

theorem readRange_append (t : Text) :
    Extends t (c :: v) (Bracket.readRange t) (Bracket.readRange (t ++ c :: v)) := by
  have hsingle (x : Except PatternFault CharClass) {r : Text} (hr : r <:+ t) :
      Extends t (c :: v) (x.map fun k => (k, r)) (x.map fun k => (k, r ++ c :: v)) := by
    cases x with
    | ok k => exact .read hr
    | error f => exact .fault f
  refine (readItem_append hc v t).bind fun first r hr => ?_
  rcases r with _ | ⟨d, r⟩
  · exact .torn _ rfl
  by_cases hd : d = '-'
  · subst hd
    rcases r with _ | ⟨next, r⟩
    · exact .torn _ rfl
    · simp only [List.cons_append]
      split
      · exact hsingle _ hr
      · rw [← List.cons_append]
        refine ((readItem_append hc v (next :: r)).of_isSuffix ((List.suffix_cons _ _).trans hr)).bind
          fun last rest hrest => ?_
        simp only []
        split
        · split
          · exact .read hrest
          · exact .fault _
        · exact .fault _
  · cases first with
    | char k => simpa [hd] using hsingle (.ok (.only k)) hr
    | «class» k => simpa [hd] using hsingle (.ok k) hr
    | assertion _ => simpa [hd] using hsingle (.error .unknownEscape) hr

omit hc in
theorem readRange_single (d : Char) : ∃ f, Bracket.readRange [d] = .error f ∧ f.isTorn = true := by
  by_cases hd : d = '\\'
  · subst hd
    exact ⟨.unfinishedEscape, rfl, rfl⟩
  · have hitem : Bracket.readItem [d] = .ok (.char d, []) := by simp [Bracket.readItem]
    exact ⟨.unclosedClass, by rw [Bracket.readRange, hitem]; rfl, rfl⟩

/-- What may stand behind the circumflex of a class: hyphens or a closing bracket that are meant as characters. -/
def readClassStart (negated : Bool) (t : Text) : Bracket.Level × Text :=
  let hyphens := t.takeWhile (· == '-')
  let t := t.drop hyphens.length
  let level : Bracket.Level := { negated }
  if hyphens.isEmpty then
    match t with
    | ']' :: r => (level.add (.only ']'), r)
    | _ => (level, t)
  else (level.add (.only '-'), t)

omit hc in
theorem readClassOpening_eq (t : Text) :
    Bracket.readOpening t = readClassStart (readNegation t).1 (readNegation t).2 := rfl

theorem readClassStart_append (negated : Bool) (t : Text) :
    readClassStart negated (t ++ c :: v) = ((readClassStart negated t).1, (readClassStart negated t).2 ++ c :: v) := by
  have hc' : (c == '-') = false ∧ c ≠ ']' := by rcases hc with rfl | rfl <;> decide
  have hhyphens : (t ++ c :: v).takeWhile (· == '-') = t.takeWhile (· == '-') :=
    Text.takeWhile_append_cons (p := (· == '-')) hc'.1 t v
  have hdrop : (t ++ c :: v).drop (t.takeWhile (· == '-')).length = t.drop (t.takeWhile (· == '-')).length ++ c :: v :=
    List.drop_append_of_le_length (List.takeWhile_prefix _).length_le
  simp only [readClassStart, hhyphens, hdrop]
  split
  · rcases t.drop (t.takeWhile (· == '-')).length with _ | ⟨d, r⟩
    · simp [hc'.2]
    · by_cases hd : d = ']'
      · subst hd
        rfl
      · simp [hd]
  · rfl

theorem readClassOpening_append (t : Text) :
    Bracket.readOpening (t ++ c :: v) = ((Bracket.readOpening t).1, (Bracket.readOpening t).2 ++ c :: v) := by
  rw [readClassOpening_eq, readClassOpening_eq, readNegation_append hc, readClassStart_append hc]

omit hc in
theorem readClassOpening_isSuffix (t : Text) : (Bracket.readOpening t).2 <:+ t := by
  refine List.IsSuffix.trans ?_ (readNegation_isSuffix t)
  rw [readClassOpening_eq, readClassStart.eq_def]
  simp only []
  split
  · split
    · rename_i r h
      exact (List.suffix_cons _ r).trans (h ▸ List.drop_suffix _ _)
    · exact List.drop_suffix _ _
  · exact List.drop_suffix _ _

omit hc in
theorem readClassWithin_single {d : Char} (hopen : d ≠ '[') (hclose : d ≠ ']') :
    ∃ f, f.isTorn = true ∧ ∀ ignoreCase level outer, Bracket.readWithin ignoreCase level outer [d] = .error f := by
  obtain ⟨f, hf, htorn⟩ := readRange_single d
  refine ⟨f, htorn, fun ignoreCase level outer => ?_⟩
  rw [Bracket.readWithin.eq_def]
  simp only []
  split <;> simp_all

omit hc in
theorem readClassWithin_item (ignoreCase : Bool) (level : Bracket.Level) (outer : List Bracket.Level) {d e : Char} {r : Text}
    (hopen : d ≠ '[') (hclose : d ≠ ']') (hpair : ¬ (d = e ∧ (d = '&' ∨ d = '-' ∨ d = '~'))) :
    Bracket.readWithin ignoreCase level outer (d :: e :: r) =
      match Bracket.readRange (d :: e :: r) with
      | .error f => .error f
      | .ok (k, rest) =>
        if _h : rest.length < (d :: e :: r).length then Bracket.readWithin ignoreCase (level.add k) outer rest
        else .error .unclosedClass := by
  rw [Bracket.readWithin.eq_def]
  simp only []
  split
  all_goals first
    | rfl
    | simp_all

theorem readClassWithin_append (ignoreCase : Bool) (level : Bracket.Level) (outer : List Bracket.Level) (t : Text) :
    Extends t (c :: v) (Bracket.readWithin ignoreCase level outer t)
      (Bracket.readWithin ignoreCase level outer (t ++ c :: v)) := by
  have hgoOn (level : Bracket.Level) (outer : List Bracket.Level) (rest : Text) (hrest : rest <:+ t) :
      Extends t (c :: v)
        (if _h : rest.length < t.length then Bracket.readWithin ignoreCase level outer rest else .error .unclosedClass)
        (if _h : (rest ++ c :: v).length < (t ++ c :: v).length then
          Bracket.readWithin ignoreCase level outer (rest ++ c :: v) else .error .unclosedClass) := by
    by_cases hlt : rest.length < t.length
    · rw [dif_pos hlt, dif_pos (by simpa using hlt)]
      exact (readClassWithin_append ignoreCase level outer rest).of_isSuffix hrest
    · rw [dif_neg hlt, dif_neg (by simpa using hlt)]
      exact .fault _
  rcases t with _ | ⟨d, r⟩
  · rw [Bracket.readWithin.eq_def]
    exact .torn _ rfl
  by_cases hopen : d = '['
  · subst hopen
    rw [Bracket.readWithin.eq_def, List.cons_append, Bracket.readWithin.eq_def]
    simp only [readNamed?_append hc]
    rcases hnamed : Bracket.readNamed? r with _ | ⟨k, rest⟩
    · simp only [Option.map_none, readClassOpening_append hc]
      exact hgoOn _ _ _ ((readClassOpening_isSuffix r).trans (List.suffix_cons _ r))
    · exact hgoOn _ _ _ ((readNamed?_isSuffix hnamed).trans (List.suffix_cons _ r))
  by_cases hclose : d = ']'
  · subst hclose
    rw [Bracket.readWithin.eq_def, List.cons_append, Bracket.readWithin.eq_def]
    cases outer with
    | nil => exact .read (List.suffix_cons _ r)
    | cons parent outer => exact hgoOn _ _ _ (List.suffix_cons _ r)
  rcases r with _ | ⟨e, r⟩
  · obtain ⟨f, htorn, hf⟩ := readClassWithin_single hopen hclose
    rw [hf]
    exact .torn _ htorn
  by_cases hpair : d = e ∧ (d = '&' ∨ d = '-' ∨ d = '~')
  · obtain ⟨rfl, hd⟩ := hpair
    rcases hd with rfl | rfl | rfl
    all_goals
      rw [Bracket.readWithin.eq_def, List.cons_append, List.cons_append, Bracket.readWithin.eq_def]
      exact hgoOn _ _ _ ((List.suffix_cons _ _).trans (List.suffix_cons _ _))
  · have hrange := readRange_append hc v (d :: e :: r)
    simp only [List.cons_append] at hrange hgoOn ⊢
    rw [readClassWithin_item _ _ _ hopen hclose hpair, readClassWithin_item _ _ _ hopen hclose hpair]
    generalize Bracket.readRange (d :: e :: r) = x at hrange
    generalize Bracket.readRange (d :: e :: (r ++ c :: v)) = y at hrange
    cases hrange with
    | read hrest => exact hgoOn _ _ _ hrest
    | fault f => exact .fault f
    | torn y htorn => exact .torn _ htorn
termination_by t.length

theorem readClass_append (ignoreCase : Bool) (t : Text) :
    Extends t (c :: v) (Bracket.read ignoreCase t) (Bracket.read ignoreCase (t ++ c :: v)) := by
  simp only [Bracket.read, readClassOpening_append hc]
  exact (readClassWithin_append hc v ignoreCase _ [] _).of_isSuffix (readClassOpening_isSuffix t)

end Behind

end PatternReader

end SourceArchive
