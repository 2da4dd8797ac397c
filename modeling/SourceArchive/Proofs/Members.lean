import SourceArchive.Proofs.Brackets
import SourceArchive.Proofs.Parameters

/-!
# Members of a type

A type whose name contains `Props` is read if no function and no arrow function before it has destructured parameters.
The text between its brackets is cut at line ends, semicolons and commas, and a comma inside the type of a member is cut
at as well: what stands behind it is taken for a member if it looks like one (`strays`).
-/

namespace SourceArchive

open Pattern Text StateVariable Delimiter

namespace Pattern

/-- A first match reads a text of the language. -/
theorem exists_of_firstIn {p : Pattern} {code : Text} {m : Match} (h : p.firstIn code = some m) :
    ∃ a b, ∃ w ∈ p.language, a ++ (w ++ b) = code := by
  obtain ⟨⟨a, ha⟩, hm⟩ := search_spec h
  obtain ⟨w, hw, hr⟩ := reads_language_of_mem_outcomes hm
  refine ⟨a, m.closed.spot.ahead, w, hw, ?_⟩
  rw [← hr.ahead_eq]
  exact ha.ahead_eq.symm

end Pattern

/-! ## Angle brackets -/

namespace Delimiter

/-- Behind every opening angle bracket there is a closing one. -/
def AngleClosed (t : Text) : Prop := ∀ a b, t = a ++ '<' :: b → '>' ∈ b

theorem le_of_angleDepth? {depth depth' : Nat} {previous : Option Char} {t : Text}
    (h : angleDepth? depth previous t = some depth') (hclose : '>' ∉ t) : depth ≤ depth' := by
  induction t generalizing depth previous with
  | nil => exact Nat.le_of_eq (Option.some.inj h)
  | cons c r ih =>
    obtain ⟨hc, hr⟩ : '>' ≠ c ∧ '>' ∉ r := by simpa using hclose
    rw [angleDepth?] at h
    by_cases hopen : c = '<'
    · rw [if_pos hopen] at h
      have hle := ih h hr
      omega
    · rw [if_neg hopen, if_neg fun hand => hc hand.1.symm] at h
      exact ih h hr

theorem exists_angleDepth?_behind {depth depth' : Nat} {previous : Option Char} {a b : Text}
    (h : angleDepth? depth previous (a ++ b) = some depth') :
    ∃ d p, angleDepth? d p b = some depth' := by
  induction a generalizing depth previous with
  | nil => exact ⟨depth, previous, h⟩
  | cons c a ih =>
    rw [List.cons_append, angleDepth?] at h
    split at h
    · exact ih h
    · split at h
      · split at h
        · cases h
        · exact ih h
      · exact ih h

theorem angleClosed_of_angleDepth? {t : Text} (h : angleDepth? 0 none t = some 0) : AngleClosed t := by
  rintro a b rfl
  by_contra hb
  obtain ⟨d, p, hbehind⟩ := exists_angleDepth?_behind h
  rw [angleDepth?, if_pos rfl] at hbehind
  have hle := le_of_angleDepth? hbehind hb
  omega

theorem AngleClosed.of_not_mem {t : Text} (h : '<' ∉ t) : AngleClosed t := by
  rintro a b rfl
  exact absurd (List.mem_append_right a List.mem_cons_self) h

theorem AngleClosed.append {t u : Text} (ht : AngleClosed t) (hu : AngleClosed u) : AngleClosed (t ++ u) := by
  intro a b h
  rcases List.append_eq_append_iff.mp h with ⟨v, rfl, hv⟩ | ⟨v, rfl, hv⟩
  · exact hu v b hv
  · cases v with
    | nil => exact hu [] b hv.symm
    | cons c v =>
      obtain ⟨rfl, rfl⟩ := List.cons.inj hv
      exact List.mem_append_left u (ht a v rfl)

end Delimiter

namespace Props

/-! ## No parameters before a type -/

section Framed

variable {head inner rest : Text}

/-- What is read from a keyword on begins between the brackets, if a sign that stands nowhere before them comes before any
opening bracket. -/
theorem exists_inside {u k n t : Text} {sign : Char} (hk : '\x7b' ∉ k ∧ '\x7d' ∉ k) (hrest : ¬ k <:+: rest)
    (hn : '\x7b' ∉ n) (hsign : sign ≠ '\x7b') (hhead : sign ∉ head)
    (h : u ++ (k ++ (n ++ sign :: t)) = head ++ '\x7b' :: (inner ++ '\x7d' :: rest)) :
    ∃ v s, inner = v ++ k ++ s ∧ n ++ sign :: t = s ++ '\x7d' :: rest := by
  rcases side_of_not_mem hk.1 h with ⟨s, hleft, ht⟩ | ⟨s, -, hs⟩
  · have hstarts : n ++ [sign] <+: s := by
      refine prefix_of_not_mem (t := t) ?_ (by rw [List.append_assoc]; exact ht)
      simp [hn, Ne.symm hsign]
    have hmem : sign ∈ head := by
      rw [hleft]
      exact List.mem_append_right _ (hstarts.subset (by simp))
    exact absurd hmem hhead
  · rcases side_of_not_mem hk.2 hs.symm with ⟨v, hv, ht⟩ | ⟨v, -, hv⟩
    · exact ⟨s, v, hv, ht⟩
    · exact absurd ⟨v, n ++ sign :: t, by rw [hv, List.append_assoc]⟩ hrest

theorem mem_of_reaches {u t s r : Text} (hu : '\x7d' ∉ u) (h : u ++ '\x7b' :: t = s ++ '\x7d' :: r) : '\x7b' ∈ s := by
  have hstarts : u ++ ['\x7b'] <+: s := by
    refine prefix_of_not_mem (t := t) ?_ (by rw [List.append_assoc]; exact h)
    simp [hu]
  exact hstarts.subset (by simp)

/-- So what is read holds a closing bracket, or there is an opening one between the brackets. -/
theorem open_mem_of_inside {u k n d t : Text} {sign : Char} (hk : '\x7b' ∉ k ∧ '\x7d' ∉ k) (hrest : ¬ k <:+: rest)
    (hn : '\x7b' ∉ n) (hsign : sign ≠ '\x7b') (hhead : sign ∉ head) (hd : '\x7d' ∉ n ++ sign :: d)
    (h : u ++ (k ++ (n ++ sign :: (d ++ '\x7b' :: t))) = head ++ '\x7b' :: (inner ++ '\x7d' :: rest)) :
    '\x7b' ∈ inner := by
  obtain ⟨v, s, rfl, hs⟩ := exists_inside hk hrest hn hsign hhead h
  have hreach : (n ++ sign :: d) ++ '\x7b' :: t = s ++ '\x7d' :: rest := by
    rw [← hs]
    simp
  exact List.mem_append_right _ (mem_of_reaches hd hreach)

/-! ### What the patterns of parameters read -/

def nameParts : List Pattern := [blanks1, word, blanks]

/-- A generic argument: everything up to the first closing angle bracket. -/
def generic : Pattern := sequence [lit "<", many (noneOf ['>']), lit ">"]

/-- The type behind the name of an arrow function, up to its generic argument. -/
def annotationParts : List Pattern := [lit ":", blanks, many1 (one (.union .word (.only '.')))]

/-- What stands between the equals sign of an arrow function and the brackets of its parameters. -/
def bindingParts : List Pattern := [blanks, optional (sequence [lit "async", blanks]), lit "(", blanks]

theorem functionParameters_eq_append : functionParameters = sequence (
    [optional (sequence [lit "export", blanks1, optional (sequence [lit "default", blanks1])]),
      optional (sequence [lit "async", blanks1])] ++
        (lit "function" :: (nameParts ++ (lit "(" :: [blanks, braced])))) := rfl

theorem arrowParameters_eq_append : arrowParameters = sequence (
    [optional (sequence [lit "export", blanks1])] ++ (lit "const" :: (nameParts ++
      (optional (sequence (annotationParts ++ [optional generic, blanks])) ::
        lit "=" :: (bindingParts ++ [braced]))))) := rfl

theorem exists_of_mem_braced {w : Text} (h : w ∈ braced.language) : ∃ r, w = '\x7b' :: r := by
  obtain ⟨v, hv, r, -, rfl⟩ := exists_of_mem_cons h
  rw [mem_language_lit.mp hv]
  exact ⟨r, rfl⟩

theorem not_mem_of_mem_nameParts {n : Text} (h : n ∈ (sequence nameParts).language) : '\x7b' ∉ n ∧ '\x7d' ∉ n :=
  ⟨not_mem_of_avoids rfl (by decide) h, not_mem_of_avoids rfl (by decide) h⟩

theorem exists_of_functionParameters {code : Text} {m : Match} (h : functionParameters.firstIn code = some m) :
    ∃ u n s t, u ++ ("function".toList ++ (n ++ '(' :: (s ++ '\x7b' :: t))) = code ∧
      ('\x7b' ∉ n ∧ '\x7d' ∉ n) ∧ '\x7d' ∉ s := by
  obtain ⟨a, b, w, hw, hcode⟩ := exists_of_firstIn h
  rw [functionParameters_eq_append] at hw
  obtain ⟨e, -, x, hx, rfl⟩ := exists_of_mem_append hw
  obtain ⟨k, hk, y, hy, rfl⟩ := exists_of_mem_cons hx
  obtain ⟨n, hn, z, hz, rfl⟩ := exists_of_mem_append hy
  obtain ⟨o, ho, v, hv, rfl⟩ := exists_of_mem_cons hz
  obtain ⟨s, hs, w', hw', rfl⟩ := exists_of_mem_cons hv
  obtain ⟨r, rfl⟩ := exists_of_mem_braced hw'
  obtain rfl : k = "function".toList := mem_language_lit.mp hk
  obtain rfl : o = ['('] := mem_language_lit.mp ho
  refine ⟨a ++ e, n, s, r ++ b, ?_, not_mem_of_mem_nameParts hn, not_mem_of_avoids rfl (by decide) hs⟩
  rw [← hcode]
  simp

/-- What may stand behind the name of an arrow function: nothing, a type, or a type with a generic argument. -/
inductive Annotation : Text → Prop
  | none : Annotation []
  | plain {c : Text} : '\x7d' ∉ c → Annotation (':' :: c)
  | generic {c q f : Text} : '\x7d' ∉ c → '>' ∉ q → '\x7d' ∉ f → Annotation (':' :: (c ++ '<' :: (q ++ '>' :: f)))

theorem annotation_of_mem {i : Text}
    (h : i ∈ (optional (sequence (annotationParts ++ [optional generic, blanks]))).language) : Annotation i := by
  rcases h with h | rfl
  · obtain ⟨d, hd, x, hx, rfl⟩ := exists_of_mem_append h
    obtain ⟨g, hg, f, hf, rfl⟩ := exists_of_mem_cons hx
    have htype : '\x7d' ∉ d := not_mem_of_avoids rfl (by decide +kernel) hd
    have hgap : '\x7d' ∉ f := not_mem_of_avoids rfl (by decide) hf
    obtain ⟨k, hk, c, -, rfl⟩ := exists_of_mem_cons hd
    obtain rfl : k = [':'] := mem_language_lit.mp hk
    have hc : '\x7d' ∉ c := fun hm => htype (List.mem_append_right _ hm)
    rcases hg with hg | rfl
    · obtain ⟨o, ho, y, hy, rfl⟩ := exists_of_mem_cons hg
      obtain ⟨q, hq, z, hz, rfl⟩ := exists_of_mem_cons hy
      obtain rfl : o = ['<'] := mem_language_lit.mp ho
      obtain rfl : z = ['>'] := mem_language_lit.mp hz
      have htext : [':'] ++ c ++ (['<'] ++ (q ++ ['>']) ++ f) = ':' :: (c ++ '<' :: (q ++ '>' :: f)) := by simp
      rw [htext]
      exact .generic hc (mem_language_many_noneOf.mp hq) hgap
    · have hplain : '\x7d' ∉ c ++ ([] ++ f) := by simp [hc, hgap]
      exact .plain hplain
  · exact .none

theorem exists_of_arrowParameters {code : Text} {m : Match} (h : arrowParameters.firstIn code = some m) :
    ∃ u n i s t, u ++ ("const".toList ++ (n ++ (i ++ '=' :: (s ++ '\x7b' :: t)))) = code ∧
      ('\x7b' ∉ n ∧ '\x7d' ∉ n) ∧ Annotation i ∧ '\x7d' ∉ s := by
  obtain ⟨a, b, w, hw, hcode⟩ := exists_of_firstIn h
  rw [arrowParameters_eq_append] at hw
  obtain ⟨e, -, x, hx, rfl⟩ := exists_of_mem_append hw
  obtain ⟨k, hk, y, hy, rfl⟩ := exists_of_mem_cons hx
  obtain ⟨n, hn, z, hz, rfl⟩ := exists_of_mem_append hy
  obtain ⟨i, hi, v, hv, rfl⟩ := exists_of_mem_cons hz
  obtain ⟨q, hq, v', hv', rfl⟩ := exists_of_mem_cons hv
  obtain ⟨s, hs, w', hw', rfl⟩ := exists_of_mem_append hv'
  obtain ⟨r, rfl⟩ := exists_of_mem_braced hw'
  obtain rfl : k = "const".toList := mem_language_lit.mp hk
  obtain rfl : q = ['='] := mem_language_lit.mp hq
  have hgap : '\x7d' ∉ s := not_mem_of_avoids rfl (by decide +kernel) hs
  refine ⟨a ++ e, n, i, s, r ++ b, ?_, not_mem_of_mem_nameParts hn, annotation_of_mem hi, hgap⟩
  rw [← hcode]
  simp

/-! ### They match nothing before the type -/

variable (hinner : '\x7b' ∉ inner)

include hinner

theorem firstIn_functionParameters (hhead : '(' ∉ head) (hrest : ¬ "function".toList <:+: rest) :
    functionParameters.firstIn (head ++ '\x7b' :: (inner ++ '\x7d' :: rest)) = none := by
  rw [Option.eq_none_iff_forall_not_mem]
  intro m hm
  obtain ⟨u, n, s, t, hcode, hname, hgap⟩ := exists_of_functionParameters hm
  refine hinner (open_mem_of_inside (by decide) hrest hname.1 (by decide) hhead ?_ hcode)
  simp [hname.2, hgap]

theorem firstIn_arrowParameters (hclosed : AngleClosed inner) (hhead : ':' ∉ head ∧ '=' ∉ head)
    (hrest : ¬ "const".toList <:+: rest) :
    arrowParameters.firstIn (head ++ '\x7b' :: (inner ++ '\x7d' :: rest)) = none := by
  rw [Option.eq_none_iff_forall_not_mem]
  intro m hm
  obtain ⟨u, n, i, s, t, hcode, hname, hi, hgap⟩ := exists_of_arrowParameters hm
  cases hi with
  | none =>
    refine hinner (open_mem_of_inside (by decide) hrest hname.1 (by decide) hhead.2 ?_ hcode)
    simp [hname.2, hgap]
  | @plain c hc =>
    have hread : ':' :: c ++ '=' :: (s ++ '\x7b' :: t) = ':' :: ((c ++ '=' :: s) ++ '\x7b' :: t) := by simp
    rw [hread] at hcode
    refine hinner (open_mem_of_inside (by decide) hrest hname.1 (by decide) hhead.1 ?_ hcode)
    simp [hname.2, hc, hgap]
  | @generic c q f hc hq hf =>
    obtain ⟨v, x, rfl, hx⟩ := exists_inside (by decide) hrest hname.1 (by decide) hhead.1 hcode
    -- the generic argument ends between the brackets, as there is a closing angle bracket
    obtain ⟨y, rfl⟩ : n ++ ':' :: (c ++ ['<']) <+: x := by
      refine prefix_of_not_mem (t := q ++ '>' :: (f ++ '=' :: (s ++ '\x7b' :: t))) ?_ (Eq.trans ?_ hx)
      · simp [hname.2, hc]
      · simp
    have hclose : '>' ∈ y := hclosed (v ++ "const" ++ (n ++ ':' :: c)) y (by simp)
    obtain ⟨y, z, rfl, hy⟩ := List.eq_append_cons_of_mem hclose
    have hread : q ++ '>' :: ((f ++ '=' :: s) ++ '\x7b' :: t) = y ++ '>' :: (z ++ '\x7d' :: rest) := by
      simpa using hx
    obtain ⟨-, hbehind⟩ := eq_of_first '>' hq hy hread
    have hopen : '\x7b' ∈ z := mem_of_reaches (by simp [hf, hgap]) hbehind
    refine hinner (List.mem_append_right _ (List.mem_append_right _ ?_))
    exact List.mem_append_right y (List.mem_cons_of_mem _ hopen)

end Framed

/-! ## Members as they are written -/

/-- A member: a name, perhaps a question mark, and a type. -/
structure Member where
  indent : Text := []
  name : Text
  isOptional : Bool := false
  type : Text
  indent_blank : Blank indent ∧ '\n' ∉ indent := by decide
  name_isIdentifier : name.isIdentifier = true := by decide +kernel
  type_within : ∀ c ∈ type, c ∉ ['\x7b', '\x7d', ';', '\n'] := by decide

namespace Member

/-- What stands between the name of a member and its type. -/
def colon (m : Member) : Text := if m.isOptional then "?: " else ": "

/-- The line of a member up to its type. -/
def labelled (m : Member) : Text := m.indent ++ m.name ++ m.colon

def line (m : Member) : Text := m.labelled ++ m.type ++ ";"

theorem colon_qualifies (m : Member) (t : Text) : Qualifies (m.colon ++ t) := by
  unfold colon
  split
  · exact fun c hc => by
      obtain rfl : '?' = c := Option.some.inj hc
      decide
  · exact fun c hc => by
      obtain rfl : ':' = c := Option.some.inj hc
      decide

theorem not_mem_labelled (m : Member) {c : Char} (h : c ∈ ['\x7b', '\x7d', ';', '\n', ',', '<', '>']) :
    c ∉ m.labelled := by
  have hall : ∀ c ∈ ['\x7b', '\x7d', ';', '\n', ',', '<', '>'],
      isIdentifierChar c = false ∧ c ∉ "?: ".toList ∧ c ∉ ": ".toList ∧ (isBlank c = false ∨ c = '\n') := by
    decide +kernel
  obtain ⟨hname, hmark, hcolon, hblank⟩ := hall c h
  have hindent : c ∉ m.indent := by
    rcases hblank with hinked | rfl
    · exact m.indent_blank.1.not_mem hinked
    · exact m.indent_blank.2
  have hname' := not_mem_of_not_identifierChar hname m.name_isIdentifier
  unfold labelled colon
  split <;> simp_all

end Member

/-- What is taken for members in a type: what stands behind its first comma is cut at commas too. -/
def strays (type : Text) : List Text := ((splitAt ',' type).drop 1).filterMap listed?

theorem filterMap_listed?_labelled (m : Member) :
    (splitAt ',' (m.labelled ++ m.type)).filterMap listed? = m.name :: strays m.type := by
  obtain ⟨piece, pieces, hpieces⟩ := List.exists_cons_of_ne_nil (splitWhen_ne_nil (· == ',') m.type)
  have hfirst : listed? (m.labelled ++ piece) = some m.name := by
    have htext : m.labelled ++ piece = m.indent ++ target false m.name ++ [] ++ (m.colon ++ piece) := by
      simp [Member.labelled, target]
    rw [htext]
    exact listed?_of_parts false m.name_isIdentifier m.indent_blank.1 blank_nil (m.colon_qualifies piece)
  have hcut : splitAt ',' m.type = piece :: pieces := hpieces
  rw [splitAt_append_of_not_mem (m.not_mem_labelled (by simp)) hcut, strays, hcut, List.filterMap_cons, hfirst]
  rfl

/-- The lines of members, cut at line ends, semicolons and commas. -/
theorem filterMap_listed?_lines (ms : List Member) :
    (splitWhen (List.elem · "\n;,".toList) (endLines (ms.map (·.line)))).filterMap listed? =
      ms.flatMap fun m => m.name :: strays m.type := by
  induction ms with
  | nil => rfl
  | cons m ms ih =>
    have htext : endLines ((m :: ms).map (·.line)) =
        (m.labelled ++ m.type) ++ ';' :: ([] ++ '\n' :: endLines (ms.map (·.line))) := by
      simp [endLines, Member.line]
    have hcut : splitWhen (List.elem · "\n;,".toList) (m.labelled ++ m.type) = splitAt ',' (m.labelled ++ m.type) := by
      refine splitWhen_congr fun c hc => ?_
      have hother : c ≠ '\n' ∧ c ≠ ';' := by
        rcases List.mem_append.mp hc with hc | hc
        · exact ⟨fun h => m.not_mem_labelled (by simp) (h ▸ hc), fun h => m.not_mem_labelled (by simp) (h ▸ hc)⟩
        · have hwithin := m.type_within c hc
          simp only [List.mem_cons, not_or] at hwithin
          exact ⟨hwithin.2.2.2.1, hwithin.2.2.1⟩
      show List.elem c ['\n', ';', ','] = (c == ',')
      rw [Bool.eq_iff_iff]
      simp [hother]
    rw [htext, splitWhen_append_cons (by decide), splitWhen_append_cons (by decide), hcut, List.filterMap_append,
      List.filterMap_append, filterMap_listed?_labelled, ih]
    rfl

/-- The declaration of a type up to its members, as it is written. -/
def interfaceOpening (name : Text) : Text := "interface " ++ name ++ " "

def memberLines (ms : List Member) : Text := '\n' :: endLines (ms.map (·.line))

def interfaceText (name : Text) (ms : List Member) : Text :=
  interfaceOpening name ++ "\x7b" ++ memberLines ms ++ "\x7d"

/-- The pattern of a type up to its members. -/
def typeParts : List Pattern := [
  oneOf [lit "interface", lit "type"], blanks1, many wordChar, lit "Props", many wordChar, blanks, optional (lit "="),
  blanks]

theorem propsType_eq : propsType = sequence (typeParts ++ [braced]) := rfl

theorem mem_typeParts {name : Text} (hname : Word name) (hprops : "Props".toList <:+: name) :
    interfaceOpening name ∈ (sequence typeParts).language := by
  obtain ⟨a, b, rfl⟩ := hprops
  have hword : ∀ c ∈ a ++ "Props" ++ b, isWordChar c = true := List.all_eq_true.mp hname.2
  have ha : a ∈ (many wordChar).language :=
    mem_language_many_one.mpr fun c hc => hword c (List.mem_append_left _ (List.mem_append_left _ hc))
  have hb : b ∈ (many wordChar).language := mem_language_many_one.mpr fun c hc => hword c (List.mem_append_right _ hc)
  have hsign : [] ++ [] ∈ (sequence [optional (lit "="), blanks]).language :=
    append_mem_cons (Or.inr rfl) nil_mem_blanks
  have hbehind : "Props".toList ++ (b ++ ([' '] ++ ([] ++ []))) ∈
      (sequence [lit "Props", many wordChar, blanks, optional (lit "="), blanks]).language :=
    append_mem_cons (lit_mem _) (append_mem_cons hb (append_mem_cons space_mem_blanks hsign))
  have hkeyword : "interface".toList ∈ (oneOf [lit "interface", lit "type"]).language := Or.inl (lit_mem _)
  have hparts := append_mem_cons hkeyword (append_mem_cons space_mem_blanks1 (append_mem_cons ha hbehind))
  have htext : interfaceOpening (a ++ "Props" ++ b) = "interface".toList ++ ([' '] ++ (a ++ ("Props".toList ++
      (b ++ ([' '] ++ ([] ++ [])))))) := by
    unfold interfaceOpening
    simp
  rw [htext]
  exact hparts

theorem not_mem_interfaceOpening {name : Text} (hname : Word name) {c : Char} (hc : c ∈ ['(', ':', '=']) :
    c ∉ interfaceOpening name := by
  have hsign : ∀ c ∈ ['(', ':', '='], isWordChar c = false ∧ c ∉ "interface ".toList ∧ c ∉ " ".toList := by
    decide +kernel
  obtain ⟨hword, hbefore, hbehind⟩ := hsign c hc
  unfold interfaceOpening
  simp only [List.mem_append, not_or]
  exact ⟨⟨hbefore, hname.not_mem hword⟩, hbehind⟩

theorem not_mem_memberLines {ms : List Member} {c : Char} (hc : c ∈ ['\x7b', '\x7d']) : c ∉ memberLines ms := by
  have hsign : ∀ c ∈ ['\x7b', '\x7d'], c ∉ ";".toList ∧ c ≠ '\n' := by decide
  obtain ⟨hend, hbreak⟩ := hsign c hc
  have hline (m : Member) : c ∉ m.line := by
    have hlabelled := m.not_mem_labelled (List.mem_append_left [';', '\n', ',', '<', '>'] hc)
    have htype : c ∉ m.type := fun hm => m.type_within c hm (List.mem_append_left [';', '\n'] hc)
    simp only [Member.line, List.mem_append, not_or]
    exact ⟨⟨hlabelled, htype⟩, hend⟩
  rw [memberLines, List.mem_cons, not_or]
  refine ⟨hbreak, fun hm => ?_⟩
  obtain ⟨l, hl, hm⟩ := List.mem_flatMap.mp hm
  obtain ⟨m, -, rfl⟩ := List.mem_map.mp hl
  rcases List.mem_append.mp hm with hm | hm
  · exact hline m hm
  · exact hbreak (List.mem_singleton.mp hm)

theorem angleClosed_memberLines {ms : List Member} (h : ∀ m ∈ ms, angleDepth? 0 none m.type = some 0) :
    AngleClosed (memberLines ms) := by
  have hlines : AngleClosed (endLines (ms.map (·.line))) := by
    induction ms with
    | nil => exact .of_not_mem List.not_mem_nil
    | cons m ms ih =>
      obtain ⟨hm, hms⟩ := List.forall_mem_cons.mp h
      have hlabelled : AngleClosed m.labelled := .of_not_mem (m.not_mem_labelled (by simp))
      have hline := (hlabelled.append (angleClosed_of_angleDepth? hm)).append (u := ";") (.of_not_mem (by decide))
      exact (hline.append (u := ['\n']) (.of_not_mem (by decide))).append (ih hms)
  exact AngleClosed.append (t := ['\n']) (.of_not_mem (by decide)) hlines

section Interface

variable {name rest : Text} {ms : List Member} (hname : Word name) (hprops : "Props".toList <:+: name)
  (hangle : ∀ m ∈ ms, angleDepth? 0 none m.type = some 0)
  (hrest : ¬ "function".toList <:+: rest ∧ ¬ "const".toList <:+: rest)

include hname hprops hangle hrest

theorem allIn_interfaceText_eq :
    allIn (interfaceText name ms ++ rest) = distinct (ms.flatMap fun m => m.name :: strays m.type) := by
  have htext : interfaceText name ms ++ rest =
      interfaceOpening name ++ '\x7b' :: (memberLines ms ++ '\x7d' :: rest) := by
    simp [interfaceText]
  have hopen : '\x7b' ∉ memberLines ms := not_mem_memberLines (by simp)
  have hclose : '\x7d' ∉ memberLines ms := not_mem_memberLines (by simp)
  have hfunction : namesBy functionParameters "," (interfaceText name ms ++ rest) = [] := by
    rw [namesBy, htext, firstIn_functionParameters hopen (not_mem_interfaceOpening hname (by simp)) hrest.1]
  have harrow : namesBy arrowParameters "," (interfaceText name ms ++ rest) = [] := by
    have hsigns := And.intro (not_mem_interfaceOpening hname (c := ':') (by simp))
      (not_mem_interfaceOpening hname (c := '=') (by simp))
    rw [namesBy, htext, firstIn_arrowParameters hopen (angleClosed_memberLines hangle) hsigns hrest.2]
  have hmembers := namesBy_of_braced (r := rest) (by decide +kernel) (by decide +kernel) (mem_typeParts hname hprops)
    (show memberLines ms ≠ [] from List.cons_ne_nil _ _) hclose "\n;,"
  have hlisted : (splitWhen (List.elem · "\n;,".toList) (memberLines ms)).filterMap listed? =
      ms.flatMap fun m => m.name :: strays m.type := by
    have hcut : splitWhen (List.elem · "\n;,".toList) (memberLines ms) =
        [] :: splitWhen (List.elem · "\n;,".toList) (endLines (ms.map (·.line))) :=
      splitWhen_append_cons (by decide) [] _
    rw [hcut, List.filterMap_cons, filterMap_listed?_lines]
    rfl
  unfold allIn
  dsimp only
  rw [hfunction, harrow, htext, propsType_eq, hmembers, names_eq, hlisted]
  rfl

/-- The props that are read off a type are the names of the members and, for each comma inside a type, what stands behind
it if it looks like a member.  They are the members alone if nothing does, and only if all that does is named like one. -/
theorem allIn_interfaceText (hnodup : (ms.map (·.name)).Nodup) :
    allIn (interfaceText name ms ++ rest) = distinct (ms.flatMap fun m => m.name :: strays m.type) ∧
      ((∀ m ∈ ms, strays m.type = []) → allIn (interfaceText name ms ++ rest) = ms.map (·.name)) ∧
      (allIn (interfaceText name ms ++ rest) = ms.map (·.name) → ∀ m ∈ ms, strays m.type ⊆ ms.map (·.name)) := by
  have hall := allIn_interfaceText_eq hname hprops hangle hrest
  refine ⟨hall, fun hnone => ?_, fun hexact m hm x hx => ?_⟩
  · have hnames : (ms.flatMap fun m => m.name :: strays m.type) = ms.map (·.name) := by
      rw [← List.flatMap_pure_eq_map]
      exact List.flatMap_congr fun m hm => by rw [hnone m hm]; rfl
    rw [hall, hnames, distinct_eq_self hnodup]
  · rw [← hexact, hall, mem_distinct, List.mem_flatMap]
    exact ⟨m, hm, List.mem_cons_of_mem _ hx⟩

end Interface

/-- Members with commas in their types; behind one of them stands what looks like a member. -/
def commaMembers : List Member := [
  { indent := "  ", name := "title", type := "Map<string, (k: K) => V[]>" },
  { indent := "  ", name := "onSelect", isOptional := true, type := "(id: string, index: number) => void" },
  { name := "range", type := "[0, 1]" }]

theorem allIn_interfaceText_commas :
    (Word "CardProps" ∧ "Props".toList <:+: "CardProps" ∧ (∀ m ∈ commaMembers, angleDepth? 0 none m.type = some 0) ∧
      (¬ "function".toList <:+: "\ntype T = \x7b a: b \x7d" ∧ ¬ "const".toList <:+: "\ntype T = \x7b a: b \x7d") ∧
      (commaMembers.map (·.name)).Nodup) ∧
    allIn (interfaceText "CardProps" commaMembers ++ "\ntype T = \x7b a: b \x7d") =
      ["title".toList, "onSelect".toList, "index".toList, "range".toList] := by
  have hname : Word "CardProps" := ⟨by decide, by decide +kernel⟩
  have hprops : "Props".toList <:+: "CardProps" := by decide
  have hangle : ∀ m ∈ commaMembers, angleDepth? 0 none m.type = some 0 := by decide
  have hrest : ¬ "function".toList <:+: "\ntype T = \x7b a: b \x7d" ∧
      ¬ "const".toList <:+: "\ntype T = \x7b a: b \x7d" := by decide +kernel
  have hnodup : (commaMembers.map (·.name)).Nodup := by decide
  refine ⟨⟨hname, hprops, hangle, hrest, hnodup⟩, ?_⟩
  obtain ⟨hall, -, -⟩ := allIn_interfaceText hname hprops hangle hrest hnodup
  rw [hall]
  decide +kernel

/-- The second parameter of a function is taken for a member. -/
theorem not_allIn_interfaceText :
    ¬ ∀ (name : Text) (ms : List Member) (rest : Text), Word name → "Props".toList <:+: name → ms ≠ [] →
      (ms.map (·.name)).Nodup → (∀ m ∈ ms, WellBracketed m.type ∧ AngleBalanced m.type) →
      ¬ "function".toList <:+: rest → ¬ "const".toList <:+: rest →
        allIn (interfaceText name ms ++ rest) = ms.map (·.name) := by
  intro h
  have hname : Word "CardProps" := ⟨by decide, by decide +kernel⟩
  have hbracketed : WellBracketed "(id: string, index: number) => void" :=
    .group (t := "id: string, index: number".toList ++ []) .round
      (.plain_append (by decide) (fun _ _ => trivial) .nil)
      (.plain_append (a := " => void".toList) (by decide) (fun _ _ => trivial) .nil)
  have hangle : AngleBalanced "(id: string, index: number) => void" := ⟨by decide, by decide⟩
  have hall := h "CardProps" [{ name := "onSelect", type := "(id: string, index: number) => void" }] "\n"
    hname (by decide) (List.cons_ne_nil _ _) (by decide)
    (fun m hm => by rw [List.mem_singleton.mp hm]; exact ⟨hbracketed, hangle⟩) (by decide) (by decide)
  exact absurd hall (by decide +kernel)

end Props

end SourceArchive
