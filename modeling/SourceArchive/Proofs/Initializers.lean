import SourceArchive.Proofs.Brackets
import SourceArchive.Proofs.DeclaredNames

/-!
# Initial values and types

A declaration is followed by its call.  The type argument and the initial value that the call is written with are what
is extracted, on one line, if the angle brackets of the one and the brackets of the other are closed in order; nothing
that follows the call matters.  Without a type argument the type is inferred from the initial value.
-/

namespace SourceArchive

open Pattern Text Delimiter

namespace StateVariable

/-- A declaration at the beginning of a text is the first that is found there. -/
theorem exists_head?_matchesIn {w r name setter called : Text} (h : Binds w name setter called)
    (hr : r.head?.any isWordChar = false) :
    ∃ m, (declaration.matchesIn (w ++ r)).head? = some m ∧ m.group 1 = name ∧ m.group 2 = setter ∧ m.group 3 = called ∧
      m.behind = r := by
  have hsome : (declaration.at? (Spot.start (w ++ r))).isSome = true := by
    rw [declaration_eq, isSome_at?_iff rfl (any_getLast?_of_language language_capturedParts), language_capturedParts]
    exact ⟨w, mem_declarations_iff.mpr ⟨name, setter, called, h⟩, r, rfl, hr⟩
  obtain ⟨m, hm⟩ := Option.isSome_iff_exists.mp hsome
  have hhead : (declaration.matchesIn (w ++ r)).head? = some m := by
    rw [matchesIn, matchesFrom, search, hm]
    rfl
  have hbinds := (isMatch_of_mem_matchesIn (List.mem_of_mem_head? hhead)).binds
  obtain ⟨hopened, w', -, hread⟩ := declared_of_at? language_capturedParts hm
  have hbehind : m.text ++ m.behind = w ++ r := by
    rw [Match.text, hopened, hread.take_eq]
    exact hread.ahead_eq.symm
  obtain ⟨htext, hname, hsetter, hcalled⟩ := hbinds.unique h hbehind
  rw [htext] at hbehind
  exact ⟨m, hhead, hname, hsetter, hcalled, List.append_cancel_left hbehind⟩

/-! ## What is called and how -/

/-- One or more word characters. -/
def Word (t : Text) : Prop := t ≠ [] ∧ t.all isWordChar = true

/-- A declaration up to the name of the function that it calls. -/
def declaring (name setter called : Text) : Text := "const [" ++ name ++ ", " ++ setter ++ "] = " ++ called

/-- A type argument as it is written. -/
def typeArgument : Option Text → Text
  | none => []
  | some t => "<" ++ t ++ ">"

theorem Word.mem_language {t : Text} (h : Word t) : t ∈ word.language :=
  mem_language_word.mpr ⟨h.1, List.all_eq_true.mp h.2⟩

theorem word_of_mem_language {t : Text} (h : t ∈ word.language) : Word t := by
  obtain ⟨hne, hword⟩ := mem_language_word.mp h
  exact ⟨hne, List.all_eq_true.mpr hword⟩

theorem Word.not_mem {t : Text} (h : Word t) {c : Char} (hc : isWordChar c = false) : c ∉ t := by
  intro hm
  rw [List.all_eq_true.mp h.2 c hm] at hc
  cases hc

theorem Word.isBlank_eq_false {t : Text} (h : Word t) : ∀ c ∈ t, isBlank c = false :=
  (solid_word _ h.mem_language).2

theorem Word.startsInked {t : Text} (h : Word t) : StartsInked t := solid_word.startsInked _ h.mem_language

theorem Word.endsInked {t : Text} (h : Word t) : EndsInked t := solid_word.endsInked _ h.mem_language

theorem binds_declaring {name setter called : Text} (hname : Word name) (hsetter : Word setter)
    (hcalled : called = "useState".toList ∨ called = "useReducer".toList) :
    Binds (declaring name setter called) name setter called where
  name_mem := hname.mem_language
  setter_mem := hsetter.mem_language
  called_mem := hcalled
  spelled := by
    have hspace : Blank [' '] := blank_space
    have hpadded : Padded setter (' ' :: setter) := ⟨[' '], [], by simp, hspace, blank_nil⟩
    have htext : declaring name setter called =
        "const" ++ [' '] ++
          '[' :: (name ++ ',' :: (' ' :: setter ++ ']' :: ([' '] ++ '=' :: ([' '] ++ ([] ++ called))))) := by
      unfold declaring
      simp
    have hplain : Padded name name := ⟨[], [], by simp, blank_nil, blank_nil⟩
    refine ⟨[' '], name, ' ' :: setter, [' '], [' '], [], htext, ?_, hspace, hplain, hpadded, hspace, hspace, ?_⟩
    · simp
    · exact Or.inl rfl

theorem isEmpty_trim (t : Text) : t.trim.isEmpty = t.all isBlank := by
  rw [Bool.eq_iff_iff, List.isEmpty_iff, List.all_eq_true]
  constructor
  · intro h
    rcases blank_or_exists_trim t with hblank | ⟨a, m, b, rfl, ha, hs, he, hb⟩
    · exact hblank
    · rw [trim_of_parts ha hs he hb] at h
      obtain ⟨c, r, rfl, -⟩ := hs
      cases h
  · exact Blank.trim_eq

section Call

variable {inside bare : Char → Prop} {w : Text} (hw : Bracketed inside bare w)

include hw

theorem callParts_round (rest : Text) : callParts ('(' :: (w ++ ')' :: rest)) = (none, w) := by
  have hinked : isBlank '(' = false := by decide
  have hangle : ¬ startsWith ('(' :: (w ++ ')' :: rest)) "<" = true := Bool.false_ne_true
  have hround : startsWith ('(' :: (w ++ ')' :: rest)) "(" = true := rfl
  rw [callParts, trimStart_cons hinked, if_neg hangle]
  dsimp only
  rw [if_pos hround, hw.balancedLength? .round]
  dsimp only
  rw [inner_cons_append]

theorem callParts_angle {t : Text} (ht : AngleBalanced t) (rest : Text) :
    callParts ('<' :: (t ++ '>' :: '(' :: (w ++ ')' :: rest))) = (if t.all isBlank then none else some t.trim, w) := by
  have hinked : isBlank '<' = false := by decide
  have hinked' : isBlank '(' = false := by decide
  have hangle : startsWith ('<' :: (t ++ '>' :: '(' :: (w ++ ')' :: rest))) "<" = true := rfl
  have hround : startsWith ('(' :: (w ++ ')' :: rest)) "(" = true := rfl
  have hdrop : ('<' :: (t ++ '>' :: '(' :: (w ++ ')' :: rest))).drop (t.length + 2) = '(' :: (w ++ ')' :: rest) := by
    simp
  rw [callParts, trimStart_cons hinked, if_pos hangle, ht.genericLength?]
  dsimp only
  rw [inner_cons_append, hdrop, trimStart_cons hinked', if_pos hround, hw.balancedLength? .round]
  dsimp only
  rw [inner_cons_append, isEmpty_trim]

/-- The type argument and the arguments of a written call are found again, whatever follows it. -/
theorem callParts_written {g : Option Text} (hg : ∀ t ∈ g, AngleBalanced t) (rest : Text) :
    callParts (typeArgument g ++ "(" ++ w ++ ")" ++ rest) = ((g.filter fun t => !t.all isBlank).map trim, w) := by
  cases g with
  | none =>
    have hbehind : typeArgument none ++ "(" ++ w ++ ")" ++ rest = '(' :: (w ++ ')' :: rest) := by
      unfold typeArgument
      simp
    rw [hbehind, callParts_round hw]
    rfl
  | some t =>
    have hbehind : typeArgument (some t) ++ "(" ++ w ++ ")" ++ rest = '<' :: (t ++ '>' :: '(' :: (w ++ ')' :: rest)) := by
      unfold typeArgument
      simp
    rw [hbehind, callParts_angle hw (hg t rfl), Option.filter_some]
    cases t.all isBlank <;> rfl

end Call

/-! ## Variables of `useState` -/

theorem ofDeclaration_useState {m : Match} (h : m.group 3 = "useState") :
    ofDeclaration m = {
      name := m.group 1, setter := m.group 2, kind := .useState, initial := (callParts m.behind).2.singleLine,
      type := ((callParts m.behind).1.map singleLine).getD (inferType (callParts m.behind).2.singleLine) } := by
  have hcall : ¬ "useState".toList = StateKind.callName .useReducer := by decide
  unfold ofDeclaration
  rw [h]
  dsimp only
  rw [if_neg hcall]
  cases (callParts m.behind).1 <;> rfl

/-- The first variable that is extracted, if a text begins with a declaration. -/
theorem head?_allIn {name setter called behind : Text} (hname : Word name) (hsetter : Word setter)
    (hcalled : called = "useState".toList ∨ called = "useReducer".toList) (hbehind : behind.head?.any isWordChar = false) :
    ∃ m, (allIn (declaring name setter called ++ behind)).head? = some (ofDeclaration m) ∧ m.group 1 = name ∧
      m.group 2 = setter ∧ m.group 3 = called ∧ m.behind = behind := by
  obtain ⟨m, hm, hgroups⟩ := exists_head?_matchesIn (binds_declaring hname hsetter hcalled) hbehind
  refine ⟨m, ?_, hgroups⟩
  rw [allIn, List.head?_map, hm]
  rfl

/-- The initial value and the type of a variable are what stands between the brackets of the call: the whole of it,
whatever brackets stand in its strings and whatever follows. -/
theorem allIn_useState {name setter w : Text} {g : Option Text} (hname : Word name) (hsetter : Word setter)
    (hg : ∀ t ∈ g, AngleBalanced t) (hw : WellBracketed w) (rest : Text) :
    (allIn (declaring name setter "useState" ++ (typeArgument g ++ "(" ++ w ++ ")" ++ rest))).head? = some {
      name, setter, kind := .useState, initial := w.singleLine,
      type := ((g.filter fun t => !t.all isBlank).map singleLine).getD (inferType w.singleLine) } := by
  have hbehind : (typeArgument g ++ "(" ++ w ++ ")" ++ rest).head?.any isWordChar = false := by
    cases g <;> rfl
  obtain ⟨m, hm, hname, hsetter, hcalled, hm'⟩ := head?_allIn hname hsetter (.inl rfl) hbehind
  rw [hm, ofDeclaration_useState hcalled, hname, hsetter, hm', callParts_written hw hg, Option.map_map]
  have hline : singleLine ∘ trim = singleLine := funext singleLine_trim
  rw [hline]

theorem wellBracketed_nested : WellBracketed "load([\"\\\")\", 2],  (x) => x)" := by
  have hstring : Escaped '"' "\\\")".toList := .hidden (.plain (by decide) (by decide) .nil)
  have hlist : WellBracketed ('"' :: ("\\\")".toList ++ '"' :: (", 2".toList ++ []))) :=
    .quoted rfl hstring (fun _ _ => trivial) (.plain_append (by decide) (fun _ _ => trivial) .nil)
  have harrow : WellBracketed (",  ".toList ++ '(' :: ("x".toList ++ [] ++ ')' :: (" => x".toList ++ []))) := by
    refine .plain_append (by decide) (fun _ _ => trivial) (.group .round ?_ ?_)
    · exact .plain_append (by decide) (fun _ _ => trivial) .nil
    · exact .plain_append (by decide) (fun _ _ => trivial) .nil
  have harguments := Bracketed.group .square hlist harrow
  exact .plain_append (a := "load".toList) (by decide) (fun _ _ => trivial) (.group .round harguments .nil)

theorem allIn_useState_nested :
    (Word "items" ∧ Word "setItems" ∧ AngleBalanced "Map<string, (k: K) => V[]>" ∧
      WellBracketed "load([\"\\\")\", 2],  (x) => x)") ∧
    (allIn (declaring "items" "setItems" "useState" ++ (typeArgument (some "Map<string, (k: K) => V[]>") ++ "(" ++
      "load([\"\\\")\", 2],  (x) => x)" ++ ")" ++ ";\nconst [next, setNext] = useState("))).head? = some {
      name := "items", setter := "setItems", kind := .useState, initial := "load([\"\\\")\", 2], (x) => x)",
      type := "Map<string, (k: K) => V[]>" } := by
  have hname : Word "items" := ⟨by decide, by decide +kernel⟩
  have hsetter : Word "setItems" := ⟨by decide, by decide +kernel⟩
  have hangle : AngleBalanced "Map<string, (k: K) => V[]>" := ⟨by decide, by decide⟩
  refine ⟨⟨hname, hsetter, hangle, wellBracketed_nested⟩, ?_⟩
  rw [allIn_useState hname hsetter (fun t ht => Option.some.inj ht ▸ hangle) wellBracketed_nested]
  decide +kernel

end StateVariable

end SourceArchive
