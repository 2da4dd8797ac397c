import SourceArchive.Check.Evidence
import SourceArchive.Facts.State
import SourceArchive.Proofs.Places
import SourceArchive.Proofs.Spacing

/-!
# Declarations of state in a text

The pattern that finds state variables and the one that counts their declarations read the same language of
declarations.  A declaration begins with `const` and its one opening bracket follows, so declarations do not overlap and
are counted by their places.  None ends in a blank and none holds a slash: comments and line ends that stand around
code make no declaration and hide none (`Barred`), and neither does a carriage return in front of a line feed.
-/

namespace SourceArchive

open Pattern Text

/-! ## The language of declarations -/

/-- The parts of a declaration up to the end of the name that is called. -/
def declarationParts : List Pattern := [
  lit "const", blanks1, lit "[", blanks, word, blanks, lit ",", blanks, word, blanks, lit "]", blanks, lit "=",
  blanks, Pattern.optional (lit "React."), lit "use", oneOf [lit "State", lit "Reducer"]]

/-- The same parts as the extraction captures them. -/
def capturedParts : List Pattern := [
  lit "const", blanks1, lit "[", blanks, capture 1 word, blanks, lit ",", blanks, capture 2 word, blanks,
  lit "]", blanks, lit "=", blanks, Pattern.optional (lit "React."),
  capture 3 (oneOf [lit "useState", lit "useReducer"])]

theorem stateDeclaration_eq : Evidenced.stateDeclaration = sequence (declarationParts ++ [assert .wordEdge]) := rfl

theorem declaration_eq : StateVariable.declaration = sequence (capturedParts ++ [assert .wordEdge]) := rfl

/-- The texts that declare a state variable. -/
def declarations : Language Char := (sequence declarationParts).language

theorem language_call : (sequence [lit "use", oneOf [lit "State", lit "Reducer"]]).language =
    (lit "useState").language + (lit "useReducer").language := by
  change (lit "use").language * ((lit "State").language + (lit "Reducer").language) = _
  rw [mul_add, language_lit_mul_lit, language_lit_mul_lit]
  rfl

theorem language_capturedParts : (sequence capturedParts).language = declarations := by
  have hlast : (sequence [capture 3 (oneOf [lit "useState", lit "useReducer"])]).language =
      (sequence [lit "use", oneOf [lit "State", lit "Reducer"]]).language := language_call.symm
  simp only [declarations, declarationParts, capturedParts, language_sequence_cons _ (_ :: _), hlast]
  rfl

theorem spaced_declarations : Spaced declarations := by
  have hcall : Solid (sequence [lit "use", oneOf [lit "State", lit "Reducer"]]).language := by
    rw [language_call]
    intro w hw
    rcases hw with hw | hw
    · exact solid_lit (by decide) (by decide) w hw
    · exact solid_lit (by decide) (by decide) w hw
  have hopen : Solid (lit "[").language := solid_lit (by decide) (by decide)
  have hclose : Solid (lit "]").language := solid_lit (by decide) (by decide)
  have hcomma : Solid (lit ",").language := solid_lit (by decide) (by decide)
  have hequals : Solid (lit "=").language := solid_lit (by decide) (by decide)
  have hreact : Solid (lit "React.").language := solid_lit (by decide) (by decide)
  have hconst : Solid (lit "const").language := solid_lit (by decide) (by decide)
  exact spaced_cons_gap hconst (.inr rfl) <| spaced_cons_gap hopen (.inl rfl) <|
    spaced_cons_gap solid_word (.inl rfl) <| spaced_cons_gap hcomma (.inl rfl) <|
    spaced_cons_gap solid_word (.inl rfl) <| spaced_cons_gap hclose (.inl rfl) <|
    spaced_cons_gap hequals (.inl rfl) <| spaced_optional_cons hreact ⟨hcall.startsInked, hcall.elastic⟩

theorem not_mem_of_mem_declarations {w : Text} (hw : w ∈ declarations) : '/' ∉ w := by
  have havoids : (sequence declarationParts).avoids '/' = true := by decide +kernel
  exact not_mem_of_avoids rfl havoids hw

/-- A declaration begins with a word and its only opening bracket. -/
theorem exists_opening {w : Text} (hw : w ∈ declarations) :
    ∃ b v, w = 'c' :: ("onst".toList ++ b ++ '[' :: v) ∧ Blank b ∧ '[' ∉ v := by
  have havoids : (sequence (declarationParts.drop 3)).avoids '[' = true := by decide +kernel
  have hparts : declarationParts = lit "const" :: blanks1 :: lit "[" :: declarationParts.drop 3 := rfl
  rw [declarations, hparts, language_sequence_cons, language_sequence_cons, language_sequence_cons] at hw
  obtain ⟨x, hx, _, ⟨b, hb, _, ⟨y, hy, v, hv, rfl⟩, rfl⟩, rfl⟩ := hw
  refine ⟨b, v, ?_, (mem_language_blanks1.mp hb).2, not_mem_of_avoids rfl havoids hv⟩
  rw [mem_language_lit.mp hx, mem_language_lit.mp hy, List.append_assoc]
  rfl

/-- A declaration ends with the name of one of two functions. -/
theorem exists_ending {w : Text} (hw : w ∈ declarations) : ∃ u c, w = u ++ [c] ∧ (c = 'e' ∨ c = 'r') := by
  have hparts : declarationParts = declarationParts.take 16 ++ [oneOf [lit "State", lit "Reducer"]] := rfl
  rw [declarations, hparts, language_sequence_append] at hw
  obtain ⟨x, -, y, hy, rfl⟩ := hw
  rcases hy with hy | hy
  · rw [mem_language_lit.mp hy]
    exact ⟨x ++ "Stat".toList, 'e', by simp, Or.inl rfl⟩
  · rw [mem_language_lit.mp hy]
    exact ⟨x ++ "Reduce".toList, 'r', by simp, Or.inr rfl⟩

/-! ## Where declarations stand -/

/-- A declaration stands at the beginning of a text. -/
def Declares (t : Text) : Prop := StandsAt declarations t

theorem Declares.head_eq {c : Char} {r : Text} (h : Declares (c :: r)) : c = 'c' := by
  obtain ⟨w, hw, x, heq, -⟩ := h
  obtain ⟨b, v, rfl, -⟩ := exists_opening hw
  exact (List.cons.inj heq).1

theorem Declares.append {a y : Text} (h : Declares a) (hy : y.head?.any isWordChar = false) : Declares (a ++ y) := by
  obtain ⟨w, hw, r, rfl, hr⟩ := h
  refine ⟨w, hw, r ++ y, List.append_assoc _ _ _, ?_⟩
  cases r with
  | nil => exact hy
  | cons c r => exact hr

/-- No declaration ends within a text: what it reads of it holds a slash or ends in a blank. -/
def Barred (y : Text) : Prop := ∀ x, x <+: y → x ≠ [] → '/' ∈ x ∨ ∃ c ∈ x.getLast?, isBlank c = true

theorem barred_of_blank {b : Text} (hb : Blank b) : Barred b := by
  intro x hx hne
  have hlast := List.getLast?_eq_some_getLast hne
  exact Or.inr ⟨_, hlast, hb _ (hx.subset (List.getLast_mem hne))⟩

/-- A comment bars, whatever it says. -/
theorem barred_blank_slash {b : Text} (hb : Blank b) (y : Text) : Barred (b ++ '/' :: y) := by
  rintro x ⟨t, ht⟩ hne
  rcases List.append_eq_append_iff.mp ht with ⟨z, rfl, -⟩ | ⟨z, rfl, hz⟩
  · exact barred_of_blank hb x (List.prefix_append _ _) hne
  · cases z with
    | nil => exact barred_of_blank hb _ (by simp) hne
    | cons c z =>
      obtain rfl : '/' = c := (List.cons.inj hz).1
      exact Or.inl (by simp)

theorem Barred.declares_append_iff {y : Text} (hy : Barred y) (a : Text) : Declares (a ++ y) ↔ Declares a := by
  constructor
  · rintro ⟨w, hw, r, heq, hr⟩
    rcases List.append_eq_append_iff.mp heq with ⟨x, rfl, rfl⟩ | ⟨x, rfl, rfl⟩
    · -- the declaration would end within the text that bars
      by_cases hne : x = []
      · exact ⟨a, by simpa [hne] using hw, [], by simp, rfl⟩
      · rcases hy x (List.prefix_append _ _) hne with hslash | ⟨c, hc, hblank⟩
        · exact absurd (List.mem_append_right a hslash) (not_mem_of_mem_declarations hw)
        · obtain ⟨u, d, heq, hd⟩ := exists_ending hw
          have hlast : (a ++ x).getLast? = some c := by rw [List.getLast?_append, hc, Option.some_or]
          rw [heq, List.getLast?_concat, Option.some_inj] at hlast
          subst hlast
          rcases hd with rfl | rfl
          · exact absurd hblank (by decide)
          · exact absurd hblank (by decide)
    · refine ⟨w, hw, x, rfl, ?_⟩
      cases x with
      | nil => rfl
      | cons c x => exact hr
  · intro h
    refine h.append ?_
    cases y with
    | nil => rfl
    | cons c y =>
      rcases hy [c] (by simp) (by simp) with hslash | ⟨d, hd, hblank⟩
      · obtain rfl : '/' = c := by simpa using hslash
        exact Option.any_some.trans (by decide)
      · obtain rfl : c = d := by simpa using hd
        exact isWordChar_of_isBlank hblank

/-- A blank next to a blank declares nothing and hides nothing. -/
theorem declares_blank_blank_iff {b c : Char} (hb : isBlank b = true) (hc : isBlank c = true) (u v : Text) :
    Declares (u ++ b :: c :: v) ↔ Declares (u ++ c :: v) := by
  have helastic := spaced_declarations.elastic
  have hstay {w : Text} {d : Char} (hd : isBlank d = true) : u ++ [d] ≠ w ∨ w ∉ declarations := by
    by_contra h
    obtain ⟨rfl, hw⟩ : u ++ [d] = w ∧ w ∈ declarations := by simpa using h
    obtain ⟨x, e, heq, he⟩ := exists_ending hw
    obtain ⟨-, heq⟩ := List.append_inj' heq rfl
    rw [(List.cons.inj heq).1] at hd
    rcases he with rfl | rfl
    · exact absurd hd (by decide)
    · exact absurd hd (by decide)
  constructor
  · rintro ⟨w, hw, r, heq, hr⟩
    rcases List.append_eq_append_iff.mp heq with ⟨x, rfl, hx⟩ | ⟨x, rfl, rfl⟩
    · rcases x with _ | ⟨d, _ | ⟨e, x⟩⟩
      · exact ⟨u, by simpa using hw, c :: v, rfl, isWordChar_of_isBlank hc⟩
      · obtain ⟨rfl, -⟩ : b = d ∧ c :: v = r := by simpa using hx
        exact absurd hw ((hstay hb).resolve_left (by simp))
      · obtain ⟨rfl, rfl, rfl⟩ : b = d ∧ c = e ∧ v = x ++ r := by simpa using hx
        exact ⟨u ++ c :: x, (helastic u x b c hb hc).mp hw, r, by simp, hr⟩
    · refine ⟨w, hw, x ++ c :: v, List.append_assoc _ _ _, ?_⟩
      cases x with
      | nil => exact isWordChar_of_isBlank hc
      | cons d x => exact hr
  · rintro ⟨w, hw, r, heq, hr⟩
    rcases List.append_eq_append_iff.mp heq with ⟨x, rfl, hx⟩ | ⟨x, rfl, rfl⟩
    · rcases x with _ | ⟨d, x⟩
      · exact ⟨u, by simpa using hw, b :: c :: v, rfl, isWordChar_of_isBlank hb⟩
      · obtain ⟨rfl, rfl⟩ : c = d ∧ v = x ++ r := by simpa using hx
        exact ⟨u ++ b :: c :: x, (helastic u x b c hb hc).mpr hw, r, by simp, hr⟩
    · refine ⟨w, hw, x ++ b :: c :: v, List.append_assoc _ _ _, ?_⟩
      cases x with
      | nil => exact isWordChar_of_isBlank hb
      | cons d x => exact hr

/-- What stands between the first letter of a declaration and its bracket. -/
theorem ne_of_mem_onst {b : Text} (hb : Blank b) {e : Char} (he : e ∈ "onst".toList ++ b) :
    e ≠ 'c' ∧ e ≠ '[' ∧ e ≠ 'e' ∧ e ≠ 'r' := by
  have hword : "onst".toList.any (fun e => e == 'c' || e == '[' || e == 'e' || e == 'r') = false := by decide
  rcases List.mem_append.mp he with he | he
  · simpa [and_assoc] using List.any_eq_false.mp hword e he
  · have hblank := hb e he
    refine ⟨?_, ?_, ?_, ?_⟩ <;> rintro rfl <;> exact absurd hblank (by decide)

/-- Behind its first letter a declaration has the letter `c` only behind the bracket. -/
theorem not_mem_of_split_at_c {x y : Text} (hw : x ++ 'c' :: y ∈ declarations) (hx : x ≠ []) : '[' ∉ 'c' :: y := by
  obtain ⟨d, x, rfl⟩ := List.exists_cons_of_ne_nil hx
  obtain ⟨b, v, hopen, hb, hv⟩ := exists_opening hw
  have htail : x ++ 'c' :: y = ("onst".toList ++ b ++ ['[']) ++ v := by
    rw [List.append_assoc _ ['['] v]
    exact (List.cons.inj hopen).2
  rcases List.append_eq_append_iff.mp htail with ⟨z, hz, hvz⟩ | ⟨z, -, rfl⟩
  · cases z with
    | nil => rwa [hvz]
    | cons e z =>
      obtain rfl : 'c' = e := (List.cons.inj hvz).1
      have hmem : 'c' ∈ "onst".toList ++ b ++ ['['] := by rw [hz]; simp
      rcases List.mem_append.mp hmem with hmem | hmem
      · exact absurd rfl (ne_of_mem_onst hb hmem).1
      · exact absurd hmem (by decide)
  · exact fun h => hv (List.mem_append_right z h)

/-- A declaration that begins before a bracket has not come further than to its own bracket there. -/
theorem Declares.exists_before_bracket {y r : Text} (h : Declares ('c' :: y ++ r)) (hy : '[' ∉ 'c' :: y) :
    ∃ b z, Blank b ∧ y ++ z = "onst".toList ++ b := by
  obtain ⟨w, hw, r', heq, -⟩ := h
  obtain ⟨b, v, rfl, hb, -⟩ := exists_opening hw
  have htail : y ++ r = ("onst".toList ++ b) ++ ('[' :: v ++ r') := by
    rw [← List.append_assoc]
    exact (List.cons.inj heq).2
  rcases List.append_eq_append_iff.mp htail with ⟨z, hz, -⟩ | ⟨z, hz, hvz⟩
  · exact ⟨b, z, hb, hz.symm⟩
  · cases z with
    | nil => exact ⟨b, [], hb, by rw [hz, List.append_nil, List.append_nil]⟩
    | cons f z =>
      obtain rfl : '[' = f := (List.cons.inj hvz).1
      rw [hz] at hy
      exact absurd (by simp) hy

/-- A declaration that begins within another would need a bracket of its own. -/
theorem not_declares_of_split {x y r : Text} (hw : x ++ y ∈ declarations) (hx : x ≠ []) (hy : y ≠ []) :
    ¬ Declares (y ++ r) := by
  intro hdeclares
  obtain ⟨c, y, rfl⟩ := List.exists_cons_of_ne_nil hy
  obtain rfl : c = 'c' := hdeclares.head_eq
  obtain ⟨b, z, hb, hz⟩ := hdeclares.exists_before_bracket (not_mem_of_split_at_c hw hx)
  obtain ⟨u, e, hlast, he⟩ := exists_ending hw
  have hmem : e ∈ 'c' :: y := by
    have hlast := congrArg List.getLast? hlast
    rw [List.getLast?_append_of_ne_nil _ (by simp), List.getLast?_concat] at hlast
    exact List.mem_of_getLast? hlast
  rcases List.mem_cons.mp hmem with rfl | hmem
  · exact absurd he (by decide)
  · have hmem : e ∈ "onst".toList ++ b := by
      rw [← hz]
      exact List.mem_append_left z hmem
    obtain ⟨-, -, hne, hnr⟩ := ne_of_mem_onst hb hmem
    exact he.elim hne hnr

/-! ## Counting declarations -/

theorem any_getLast?_of_mem_declarations {w : Text} (hw : w ∈ declarations) : w.getLast?.any isWordChar = true := by
  obtain ⟨u, c, rfl, hc⟩ := exists_ending hw
  rw [List.getLast?_concat, Option.any_some]
  rcases hc with rfl | rfl
  · decide
  · decide

theorem any_getLast?_of_language {l : Language Char} (h : l = declarations) : ∀ w ∈ l, w.getLast?.any isWordChar = true := by
  rw [h]
  exact fun w => any_getLast?_of_mem_declarations

section Count

variable {ps : List Pattern} (hplain : (sequence ps).plain = true) (hl : (sequence ps).language = declarations)

include hplain hl

theorem fits_iff_declares {t : Text} : (sequence (ps ++ [assert .wordEdge])).fits t = true ↔ Declares t := by
  rw [fits, isSome_at?_iff hplain (any_getLast?_of_language hl), hl]
  exact Iff.rfl

theorem separate_of_language : (sequence (ps ++ [assert .wordEdge])).Separate where
  ahead := by
    intro s
    rw [Bool.eq_iff_iff, fits_iff_declares hplain hl, isSome_at?_iff hplain (any_getLast?_of_language hl), hl]
    exact Iff.rfl
  apart := by
    intro s m hm
    obtain ⟨w, hw, hr, -⟩ := reads_of_at? (any_getLast?_of_language hl) hm
    rw [hl] at hw
    obtain ⟨u, c, hlast, -⟩ := exists_ending hw
    refine ⟨w, hr, by simp [hlast], ?_⟩
    rintro x y rfl hx hy
    rw [Bool.eq_false_iff, ne_eq, fits_iff_declares hplain hl]
    exact not_declares_of_split hw hx hy

end Count

namespace Evidenced

theorem fits_stateDeclaration_iff {t : Text} : stateDeclaration.fits t = true ↔ Declares t := by
  rw [stateDeclaration_eq]
  exact fits_iff_declares rfl rfl

theorem fits_congr {t u : Text} (h : Declares t ↔ Declares u) : stateDeclaration.fits t = stateDeclaration.fits u := by
  rw [Bool.eq_iff_iff, fits_stateDeclaration_iff, fits_stateDeclaration_iff, h]

theorem stateDeclarations_eq_places (code : Text) : stateDeclarations code = stateDeclaration.places code [] := by
  rw [stateDeclarations, stateDeclaration_eq]
  exact (separate_of_language rfl rfl).length_matchesIn code

/-- As many state variables are found as declarations are counted. -/
theorem length_allIn (code : Text) : (StateVariable.allIn code).length = stateDeclarations code := by
  have hfits : StateVariable.declaration.fits = stateDeclaration.fits := by
    funext t
    rw [Bool.eq_iff_iff, fits_stateDeclaration_iff, declaration_eq]
    exact fits_iff_declares rfl language_capturedParts
  have hplaces : StateVariable.declaration.places code [] = stateDeclaration.places code [] := by
    rw [places, places, hfits]
  rw [StateVariable.allIn, List.length_map, stateDeclarations_eq_places, ← hplaces, declaration_eq]
  exact (separate_of_language rfl language_capturedParts).length_matchesIn code

theorem places_eq_zero_of_not_mem {x : Text} (h : 'c' ∉ x) (y : Text) : stateDeclaration.places x y = 0 := by
  rw [places_eq_zero_iff]
  intro a ha hne
  obtain ⟨c, a, rfl⟩ := List.exists_cons_of_ne_nil hne
  rw [Bool.eq_false_iff, ne_eq, fits_stateDeclaration_iff]
  intro hdeclares
  obtain rfl : c = 'c' := hdeclares.head_eq
  exact h (ha.subset List.mem_cons_self)

theorem places_cons_of_ne {c : Char} (h : c ≠ 'c') (x y : Text) :
    stateDeclaration.places (c :: x) y = stateDeclaration.places x y := by
  have hfits : ¬ stateDeclaration.fits (c :: x ++ y) = true := by
    rw [fits_stateDeclaration_iff]
    exact fun hdeclares => h hdeclares.head_eq
  rw [places_cons, if_neg hfits, Nat.add_zero]

theorem places_barred {y : Text} (hy : Barred y) (x : Text) : stateDeclaration.places x y = stateDeclaration.places x [] := by
  apply places_congr
  intro a _ _
  rw [List.append_nil]
  exact fits_congr (hy.declares_append_iff a)

end Evidenced

/-! ## Declarations in lines -/

/-- The lines, each behind a line feed. -/
def led (ls : List Text) : Text := ls.flatMap ('\n' :: ·)

theorem led_cons (l : Text) (ls : List Text) : led (l :: ls) = '\n' :: (l ++ led ls) := rfl

theorem led_append (ls ks : List Text) : led (ls ++ ks) = led ls ++ led ks := List.flatMap_append

namespace Evidenced

/-- The declarations of code are counted in its lines. -/
theorem stateDeclarations_joinLines (ls : List Text) :
    stateDeclarations (joinLines ls) = stateDeclaration.places (led ls) [] := by
  rw [stateDeclarations_eq_places]
  cases ls with
  | nil => rfl
  | cons l ls =>
    have hled : led (l :: ls) = '\n' :: joinLines (l :: ls) := by
      rw [joinLines, join_cons]
      rfl
    rw [hled, places_cons_of_ne (by decide)]

theorem places_return (u : Text) (ls : List Text) :
    stateDeclaration.places (u ++ '\r' :: led ls) [] = stateDeclaration.places (u ++ led ls) [] := by
  have hreturn : stateDeclaration.places ('\r' :: led ls) [] = stateDeclaration.places (led ls) [] :=
    places_cons_of_ne (by decide) _ _
  have hbefore : stateDeclaration.places u ('\r' :: led ls) = stateDeclaration.places u (led ls) := by
    cases ls with
    | nil => exact places_barred (barred_of_blank (by simp [Blank, isBlank, led])) u
    | cons l ls =>
      apply places_congr
      intro a _ _
      exact fits_congr (declares_blank_blank_iff (by decide) (by decide) a _)
  rw [places_append, places_append, List.append_nil, List.append_nil, hbefore, hreturn]

/-- Carriage returns at the ends of lines make no difference. -/
theorem places_map_dropReturn (u : Text) (ls : List Text) :
    stateDeclaration.places (u ++ led (ls.map dropReturn)) [] = stateDeclaration.places (u ++ led ls) [] := by
  induction ls generalizing u with
  | nil => rfl
  | cons l ls ih =>
    have hcons (k : Text) (ks : List Text) : u ++ led (k :: ks) = (u ++ '\n' :: k) ++ led ks := by
      rw [led_cons, List.append_assoc]
      rfl
    rw [List.map_cons, hcons, ih, hcons]
    rcases dropReturn_eq_or l with h | h
    · rw [h]
    · have happ : u ++ '\n' :: (dropReturn l ++ ['\r']) ++ led ls = (u ++ '\n' :: dropReturn l) ++ '\r' :: led ls := by
        simp
      conv_rhs => rw [h, happ, places_return]

end Evidenced

end SourceArchive
