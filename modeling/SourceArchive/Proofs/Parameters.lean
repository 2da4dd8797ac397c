import SourceArchive.Proofs.Facts
import SourceArchive.Proofs.Initializers
import SourceArchive.Proofs.Searches

/-!
# Destructured parameters

The text between the curly brackets of a match is cut at separators, and each piece names at most one prop (`listed?`).
Where the signs of a pattern cannot hold an opening bracket, the captured text is what stands between the first opening
and the first closing bracket (`group_of_braced`); so the parameters of a function are read one by one, whatever follows
them.
-/

namespace SourceArchive

open Pattern Text StateVariable

namespace Text

theorem dropLeading_of_absent {unit t : Text} (h : ¬ unit <+: t) : dropLeading unit t = t := by
  rw [dropLeading, after?_eq_none_iff.mpr h]

theorem dropLeading_append {unit t : Text} (hne : unit ≠ []) : dropLeading unit (unit ++ t) = dropLeading unit t := by
  have hlt : t.length < (unit ++ t).length := by
    have hpos := List.length_pos_iff.mpr hne
    rw [List.length_append]
    omega
  rw [dropLeading, after?_append]
  dsimp only
  rw [if_pos hlt]

theorem not_isBlank_of_isIdentifier {x : Text} (h : x.isIdentifier = true) : ∀ c ∈ x, isBlank c = false := by
  intro c hc
  rw [Bool.eq_false_iff]
  intro hb
  exact not_mem_of_not_identifierChar (isIdentifierChar_of_isBlank hb) h hc

end Text

namespace Props

/-! ## The name in a piece -/

/-- The prop that a piece names, if it names one. -/
def listed? (piece : Text) : Option Text :=
  if piece.trim.isEmpty || piece.trim.startsWith "//" then none
  else if (entryName piece.trim).isIdentifier then some (entryName piece.trim) else none

theorem names_eq (pieces : List Text) : names pieces = distinct (pieces.filterMap listed?) := by
  unfold names
  dsimp only
  congr 1
  induction pieces with
  | nil => rfl
  | cons piece pieces ih =>
    rw [List.map_cons, List.filter_cons, List.filterMap_cons, ← ih, listed?]
    by_cases hskip : piece.trim.isEmpty || piece.trim.startsWith "//"
    · rw [if_pos hskip, if_neg]
      rw [← Bool.not_or, hskip]
      decide
    · rw [if_neg hskip, if_pos, List.map_cons, List.filter_cons]
      · split <;> rfl
      · rw [← Bool.not_or, Bool.eq_false_iff.mpr hskip]
        rfl

theorem listed?_blank {piece : Text} (h : Blank piece) : listed? piece = none := by
  rw [listed?, h.trim_eq]
  rfl

/-- What may stand behind a name: nothing, or a default, a type or a question mark. -/
def Qualifies (tail : Text) : Prop := ∀ c ∈ tail.head?, c ∈ ['=', ':', '?']

instance : DecidablePred Qualifies := fun t => Option.decidableForallMem t.head?

section Named

variable {before name behind tail : Text} (spread : Bool)

/-- A name, with the dots of the rest of an object if there are any. -/
def target (spread : Bool) (name : Text) : Text := (if spread then "...".toList else []) ++ name

variable (hname : name.isIdentifier = true)

include hname

theorem not_mem_target {c : Char} (hc : isIdentifierChar c = false) (hdot : c ≠ '.') : c ∉ target spread name := by
  intro hm
  rcases List.mem_append.mp hm with hm | hm
  · cases spread with
    | false => cases hm
    | true => simp [hdot] at hm
  · exact not_mem_of_not_identifierChar hc hname hm

theorem inked_target : (∀ c ∈ target spread name, isBlank c = false) ∧ target spread name ≠ [] := by
  constructor
  · intro c hc
    rcases List.mem_append.mp hc with hc | hc
    · have hdots : ∀ c ∈ "...".toList, isBlank c = false := by decide
      cases spread with
      | false => cases hc
      | true => exact hdots c hc
    · exact not_isBlank_of_isIdentifier hname c hc
  · exact List.append_ne_nil_of_right_ne_nil _ (ne_nil_of_isIdentifier hname)

/-- A name is cut out of what stands behind it. -/
theorem entryName_of_parts {b t : Text} (hb : Blank b) (ht : Qualifies t) :
    entryName (target spread name ++ b ++ t) = name := by
  have hstop : (target spread name ++ b ++ t).takeWhile (fun c => c != '=' && c != ':' && c != '?') =
      target spread name ++ b := by
    rw [List.takeWhile_append_of_pos]
    · cases t with
      | nil => exact List.append_nil _
      | cons c t =>
        have hc : c ∈ ['=', ':', '?'] := ht c rfl
        rw [List.takeWhile_cons_of_neg, List.append_nil]
        simp only [List.mem_cons, List.not_mem_nil, or_false] at hc
        rcases hc with rfl | rfl | rfl <;> decide
    · intro c hc
      have hsign : c ∉ ['=', ':', '?'] := by
        intro hm
        have hother : ∀ c ∈ ['=', ':', '?'], isIdentifierChar c = false ∧ c ≠ '.' ∧ isBlank c = false := by
          decide +kernel
        obtain ⟨hplain, hdot, hinked⟩ := hother c hm
        rcases List.mem_append.mp hc with hc | hc
        · exact not_mem_target spread hname hplain hdot hc
        · exact hb.not_mem hinked hc
      simpa [and_assoc] using hsign
  have htrim : (target spread name ++ b).trim = target spread name := by
    rw [trim_append_blank _ hb]
    exact trim_eq_of_inked (inked_target spread hname).1
  have hdots : dropLeading "..." (target spread name) = name := by
    have hnone : ¬ "...".toList <+: name := fun h =>
      not_mem_of_not_identifierChar (c := '.') (by decide +kernel) hname (h.subset List.mem_cons_self)
    cases spread with
    | false => exact dropLeading_of_absent hnone
    | true =>
      have hdrop : dropLeading "..." ("..." ++ name) = dropLeading "..." name :=
        dropLeading_append (List.cons_ne_nil _ _)
      exact hdrop.trans (dropLeading_of_absent hnone)
  have hreadonly : dropLeading "readonly " name = name := dropLeading_of_absent fun h =>
    not_mem_of_not_identifierChar (c := ' ') (by decide +kernel) hname (h.subset (by decide))
  unfold entryName
  dsimp only
  rw [hstop, htrim, hdots, hreadonly]
  exact trim_eq_of_inked (not_isBlank_of_isIdentifier hname)

theorem listed?_of_parts (hbefore : Blank before) (hbehind : Blank behind) (htail : Qualifies tail) :
    listed? (before ++ target spread name ++ behind ++ tail) = some name := by
  have hend : ∃ b t, (behind ++ tail).trimEnd = b ++ t ∧ Blank b ∧ Qualifies t := by
    cases tail with
    | nil =>
      refine ⟨[], [], ?_, blank_nil, htail⟩
      rw [List.append_nil, hbehind.trimEnd_eq]
      rfl
    | cons c t =>
      have hc : isBlank c = false := by
        have hall : ∀ c ∈ ['=', ':', '?'], isBlank c = false := by decide
        exact hall c (htail c rfl)
      have hinked : EndsInked (behind ++ [c]) := ⟨behind, c, rfl, hc⟩
      refine ⟨behind, c :: trimEnd t, ?_, hbehind, htail⟩
      rw [← List.singleton_append, ← List.append_assoc, trimEnd_append_inked hinked, List.append_assoc]
      rfl
  obtain ⟨b, t, hcut, hb, ht⟩ := hend
  obtain ⟨hinked, hne⟩ := inked_target spread hname
  have hstart := startsInked_of_inked hne hinked
  have htrim : (before ++ target spread name ++ behind ++ tail).trim = target spread name ++ b ++ t := by
    rw [trim, List.append_assoc, trimStart_of_parts hbefore hstart,
      trimEnd_append_inked (endsInked_of_inked hne hinked), hcut, List.append_assoc]
  have hempty : (target spread name ++ b ++ t).isEmpty = false := by
    obtain ⟨c, r, h, -⟩ := hstart
    rw [h]
    rfl
  have hslash : startsWith (target spread name ++ b ++ t) "//" = false := by
    rw [Bool.eq_false_iff]
    intro h
    obtain ⟨c, r, hr, -⟩ := hstart
    rw [startsWith_iff, hr] at h
    obtain rfl : '/' = c := (List.cons_prefix_cons.mp h).1
    exact not_mem_target spread hname (c := '/') (by decide +kernel) (by decide) (hr ▸ List.mem_cons_self)
  rw [listed?, htrim, hempty, hslash, entryName_of_parts spread hname hb ht, hname]
  rfl

end Named

/-! ## The text between the brackets -/

section Braced

variable {ps : List Pattern} {u v r : Text} {s : Spot}

/-- What is captured in the brackets, wherever they are opened for the first time. -/
theorem group_of_braced (hps : (sequence ps).avoids '\x7b' = true) (hu : '\x7b' ∉ u) (hv : '\x7d' ∉ v) {m : Match}
    (h : (sequence (ps ++ [braced])).at? s = some m) (hs : s.ahead = u ++ '\x7b' :: (v ++ '\x7d' :: r)) :
    m.group 1 = v := by
  obtain ⟨-, hm⟩ := mem_outcomes_of_at? h
  obtain ⟨a, ha, hm⟩ := mem_outcomes_sequence_append.mp hm
  obtain ⟨b, hb, hm⟩ := mem_outcomes_sequence_cons.mp (show m.closed ∈ braced.outcomes a from hm)
  obtain ⟨c, hc, hm⟩ := mem_outcomes_sequence_cons.mp hm
  obtain ⟨inner, hinner, rfl⟩ := mem_outcomes_capture.mp hc
  obtain ⟨u', hread, hu'⟩ := reads_of_within (within_of_avoids hps) ha
  obtain ⟨o, ho, hopen⟩ := reads_language_of_mem_outcomes hb
  obtain ⟨v', hkept, hv'⟩ := reads_of_within (P := (· ≠ '\x7d')) (within_of_avoids (by decide)) hinner
  obtain ⟨e, he, hclose⟩ := reads_language_of_mem_outcomes hm
  obtain rfl : o = ['\x7b'] := mem_language_lit.mp ho
  obtain rfl : e = ['\x7d'] := mem_language_lit.mp he
  have hwhole : u' ++ '\x7b' :: (v' ++ '\x7d' :: m.behind) = u ++ '\x7b' :: (v ++ '\x7d' :: r) := by
    have hinner' : inner.spot.ahead = '\x7d' :: m.behind := hclose.ahead_eq
    rw [← hs, hread.ahead_eq, hopen.ahead_eq, hkept.ahead_eq, hinner']
    rfl
  obtain ⟨-, hrest⟩ := eq_of_first '\x7b' (fun hc => hu' _ hc rfl) hu hwhole
  obtain ⟨rfl, -⟩ := eq_of_first '\x7d' (fun hc => hv' _ hc rfl) hv hrest
  have hlast := find?_captures_of_mem_outcomes (n := 1) (by decide) hm
  rw [Match.group, Match.group?, hlast, Pattern.close, List.find?_cons, beq_self_eq_true]
  exact hkept.take_eq

theorem braced_mem {v : Text} (hne : v ≠ []) (hv : '\x7d' ∉ v) : '\x7b' :: (v ++ ['\x7d']) ∈ braced.language := by
  have hinner : v ∈ (many1 (noneOf ['\x7d'])).language :=
    mem_language_many1_one.mpr ⟨hne, mem_language_many_one.mp (mem_language_many_noneOf.mpr hv)⟩
  have hbehind : v ++ ['\x7d'] ∈ (sequence [capture 1 (many1 (noneOf ['\x7d'])), lit ['\x7d']]).language :=
    append_mem_cons hinner (lit_mem _)
  exact append_mem_cons (lit_mem ['\x7b']) hbehind

theorem namesBy_of_braced (hplain : (sequence (ps ++ [braced])).plain = true)
    (hps : (sequence ps).avoids '\x7b' = true) (hu : u ∈ (sequence ps).language) (hne : v ≠ []) (hv : '\x7d' ∉ v)
    (separators : Text) :
    namesBy (sequence (ps ++ [braced])) separators (u ++ '\x7b' :: (v ++ '\x7d' :: r)) =
      names (splitWhen (separators.elem ·) v) := by
  have hopen : '\x7b' ∉ u := by
    have hps' : (sequence ps).plain = true := by
      rw [plain_sequence, List.all_append] at hplain
      rw [plain_sequence]
      exact (Bool.and_eq_true_iff.mp hplain).1
    exact not_mem_of_avoids hps' hps hu
  have hmem : u ++ '\x7b' :: (v ++ ['\x7d']) ∈ (sequence (ps ++ [braced])).language :=
    append_mem_append hu (braced_mem hne hv)
  have hahead : (Spot.start (u ++ '\x7b' :: (v ++ '\x7d' :: r))).ahead = u ++ '\x7b' :: (v ++ ['\x7d']) ++ r := by
    show u ++ '\x7b' :: (v ++ '\x7d' :: r) = u ++ '\x7b' :: (v ++ ['\x7d']) ++ r
    simp
  obtain ⟨t, ht, -⟩ := exists_outcome (s := { spot := Spot.start _ }) hplain hmem hahead
  obtain ⟨m, hm⟩ := Option.isSome_iff_exists.mp (isSome_at?_iff_exists.mpr ⟨t, ht⟩)
  rw [namesBy, firstIn, search_of_at? hm]
  dsimp only
  rw [group_of_braced hps hopen hv hm rfl]

end Braced

/-! ## Parameters of functions -/

theorem elem_comma (c : Char) : List.elem c ",".toList = (c == ',') := by
  rw [show ",".toList = [','] from rfl, List.elem_cons, List.elem_nil]
  cases c == ',' <;> rfl

/-- A destructured parameter: a name, with what may stand around it. -/
structure Parameter where
  before : Text := []
  spread : Bool := false
  name : Text
  behind : Text := []
  tail : Text := []
  before_blank : Blank before := by decide
  name_isIdentifier : name.isIdentifier = true := by decide +kernel
  behind_blank : Blank behind := by decide
  tail_qualifies : Qualifies tail := by decide
  tail_within : ',' ∉ tail ∧ '\x7d' ∉ tail := by decide

namespace Parameter

def text (p : Parameter) : Text := p.before ++ target p.spread p.name ++ p.behind ++ p.tail

theorem listed?_text (p : Parameter) : listed? p.text = some p.name :=
  listed?_of_parts p.spread p.name_isIdentifier p.before_blank p.behind_blank p.tail_qualifies

theorem not_mem_text (p : Parameter) {c : Char} (hc : c = ',' ∨ c = '\x7d') : c ∉ p.text := by
  have hsign : ∀ c ∈ [',', '\x7d'], isIdentifierChar c = false ∧ c ≠ '.' ∧ isBlank c = false := by decide +kernel
  obtain ⟨hplain, hdot, hinked⟩ := hsign c (by simpa using hc)
  have htail : c ∉ p.tail := by
    rcases hc with rfl | rfl
    · exact p.tail_within.1
    · exact p.tail_within.2
  unfold text
  simp only [List.mem_append, not_or]
  exact ⟨⟨⟨p.before_blank.not_mem hinked, not_mem_target p.spread p.name_isIdentifier hplain hdot⟩,
    p.behind_blank.not_mem hinked⟩, htail⟩

theorem text_ne_nil (p : Parameter) : p.text ≠ [] := by
  have hne := (inked_target p.spread p.name_isIdentifier).2
  unfold text
  simp [hne]

end Parameter

/-- The pattern of a function up to the brackets of its parameters. -/
def functionParts : List Pattern := [
  optional (sequence [lit "export", blanks1, optional (sequence [lit "default", blanks1])]),
  optional (sequence [lit "async", blanks1]),
  lit "function", blanks1, word, blanks, lit "(", blanks]

theorem functionParameters_eq : functionParameters = sequence (functionParts ++ [braced]) := rfl

/-- A function up to its destructured parameters, as it is written. -/
def functionOpening (exported async name : Text) : Text := exported ++ async ++ "function " ++ name ++ "("

theorem mem_functionParts {exported async name : Text}
    (hexported : exported ∈ ["".toList, "export ".toList, "export default ".toList])
    (hasync : async ∈ ["".toList, "async ".toList]) (hname : Word name) :
    functionOpening exported async name ∈ (sequence functionParts).language := by
  have hskipped (p : Pattern) : [] ∈ (optional p).language := Or.inr rfl
  have htaken {p : Pattern} {w : Text} (hw : w ∈ p.language) : w ∈ (optional p).language := Or.inl hw
  have hdefault := keyword_mem "default" nil_mem_sequence
  have hfirst : exported ∈
      (optional (sequence [lit "export", blanks1, optional (sequence [lit "default", blanks1])])).language := by
    have hexport {w : Text} (hw : w ∈ (optional (sequence [lit "default", blanks1])).language) :
        "export".toList ++ ([' '] ++ w) ∈
          (sequence [lit "export", blanks1, optional (sequence [lit "default", blanks1])]).language :=
      keyword_mem "export" hw
    have hone : "export ".toList = "export".toList ++ ([' '] ++ []) := by decide
    have htwo : "export default ".toList = "export".toList ++ ([' '] ++ ("default".toList ++ ([' '] ++ []))) := by decide
    simp only [List.mem_cons, List.not_mem_nil, or_false] at hexported
    rcases hexported with h | h | h
    · rw [h]
      exact hskipped _
    · rw [h, hone]
      exact htaken (hexport (hskipped _))
    · rw [h, htwo]
      exact htaken (hexport (htaken hdefault))
  have hsecond : async ∈ (optional (sequence [lit "async", blanks1])).language := by
    have hone : "async ".toList = "async".toList ++ ([' '] ++ []) := by decide
    simp only [List.mem_cons, List.not_mem_nil, or_false] at hasync
    rcases hasync with h | h
    · rw [h]
      exact hskipped _
    · rw [h, hone]
      exact htaken (keyword_mem "async" nil_mem_sequence)
  have hbracket : "(".toList ++ [] ∈ (sequence [lit "(", blanks]).language :=
    append_mem_cons (lit_mem _) nil_mem_blanks
  have hbehind : name ++ ([] ++ ("(".toList ++ [])) ∈ (sequence [word, blanks, lit "(", blanks]).language :=
    append_mem_cons hname.mem_language (append_mem_cons nil_mem_blanks hbracket)
  have hparts := append_mem_cons hfirst (append_mem_cons hsecond (keyword_mem "function" hbehind))
  have htext : functionOpening exported async name =
      exported ++ (async ++ ("function".toList ++ ([' '] ++ (name ++ ([] ++ ("(".toList ++ [])))))) := by
    simp [functionOpening]
  rw [htext]
  exact hparts

/-- What may stand behind the last parameter: nothing, or a comma. -/
def Trailing (trail : Text) : Prop := trail = [] ∨ ∃ b, Blank b ∧ trail = ',' :: b

/-- The text between the brackets names the parameters in their order, each once. -/
theorem names_parameters {ps : List Parameter} {trail : Text} (hps : ps ≠ []) (htrail : Trailing trail) :
    names (splitAt ',' (join "," (ps.map (·.text)) ++ trail)) = distinct (ps.map (·.name)) := by
  obtain ⟨p, qs, rfl⟩ := List.exists_cons_of_ne_nil hps
  have hcut : splitAt ',' (join "," ((p :: qs).map (·.text))) = (p :: qs).map (·.text) :=
    splitAt_join (p.not_mem_text (.inl rfl)) fun t ht => by
      obtain ⟨q, -, rfl⟩ := List.mem_map.mp ht
      exact q.not_mem_text (.inl rfl)
  have hlisted (l : List Parameter) : (l.map (·.text)).filterMap listed? = l.map (·.name) := by
    rw [List.filterMap_map, ← List.filterMap_eq_map]
    congr 1
    funext q
    exact q.listed?_text
  rw [names_eq]
  rcases htrail with rfl | ⟨b, hb, rfl⟩
  · rw [List.append_nil, hcut, hlisted]
  · have hcomma : ',' ∉ b := hb.not_mem (by decide)
    rw [splitAt_append_cons, hcut, splitAt_of_not_mem hcomma, List.filterMap_append, hlisted, List.filterMap_cons,
      listed?_blank hb]
    exact congrArg distinct (List.append_nil _)

/-- The destructured parameters of a function at the beginning of a text are the props, whatever follows them. -/
theorem allIn_function {exported async name trail : Text} {ps : List Parameter}
    (hexported : exported ∈ ["".toList, "export ".toList, "export default ".toList])
    (hasync : async ∈ ["".toList, "async ".toList]) (hname : Word name) (hps : ps ≠ []) (htrail : Trailing trail)
    (rest : Text) :
    allIn (functionOpening exported async name ++ "\x7b" ++ join "," (ps.map (·.text)) ++ trail ++ "\x7d" ++ rest) =
      distinct (ps.map (·.name)) := by
  have hinside : '\x7d' ∉ join "," (ps.map (·.text)) ++ trail := by
    rw [List.mem_append, not_or]
    constructor
    · refine not_mem_join (by decide) fun t ht => ?_
      obtain ⟨p, -, rfl⟩ := List.mem_map.mp ht
      exact p.not_mem_text (.inr rfl)
    · rcases htrail with rfl | ⟨b, hb, rfl⟩
      · exact List.not_mem_nil
      · rw [List.mem_cons, not_or]
        exact ⟨by decide, hb.not_mem (by decide)⟩
  have hne : join "," (ps.map (·.text)) ++ trail ≠ [] := by
    obtain ⟨p, qs, rfl⟩ := List.exists_cons_of_ne_nil hps
    rw [List.map_cons, join_cons]
    simp [p.text_ne_nil]
  have hnames : namesBy functionParameters ","
      (functionOpening exported async name ++ "\x7b" ++ join "," (ps.map (·.text)) ++ trail ++ "\x7d" ++ rest) =
        distinct (ps.map (·.name)) := by
    have hread := namesBy_of_braced (r := rest) (by decide +kernel) (by decide +kernel)
      (mem_functionParts hexported hasync hname) hne hinside ","
    have htext : functionOpening exported async name ++ "\x7b" ++ join "," (ps.map (·.text)) ++ trail ++ "\x7d" ++ rest =
        functionOpening exported async name ++ '\x7b' :: (join "," (ps.map (·.text)) ++ trail ++ '\x7d' :: rest) := by
      simp
    have hcut : splitWhen (List.elem · ",".toList) (join "," (ps.map (·.text)) ++ trail) =
        splitAt ',' (join "," (ps.map (·.text)) ++ trail) := splitWhen_congr fun c _ => elem_comma c
    rw [htext, functionParameters_eq, hread, hcut, names_parameters hps htrail]
  have hsome : (distinct (ps.map (·.name))).isEmpty = false := by
    obtain ⟨p, qs, rfl⟩ := List.exists_cons_of_ne_nil hps
    have hmem : p.name ∈ distinct ((p :: qs).map (·.name)) := mem_distinct.mpr List.mem_cons_self
    exact List.isEmpty_eq_false_iff.mpr (List.ne_nil_of_mem hmem)
  unfold allIn
  dsimp only
  rw [hnames, hsome]
  rfl

/-- Parameters of all kinds, one of them named twice. -/
def mixedParameters : List Parameter := [
  { before := "\n  ", name := "label", behind := " ", tail := "= make(x => \"\x7b\")" },
  { name := "größe", tail := "?: Map<K>" },
  { before := " ", name := "label", tail := ":\n other" },
  { before := " ", spread := true, name := "$rest" }]

theorem allIn_function_mixed :
    ("export default ".toList ∈ ["".toList, "export ".toList, "export default ".toList] ∧
      "async ".toList ∈ ["".toList, "async ".toList] ∧ Word "Card" ∧ mixedParameters ≠ [] ∧ Trailing ",\n") ∧
    allIn (functionOpening "export default " "async " "Card" ++ "\x7b" ++ join "," (mixedParameters.map (·.text)) ++ ",\n" ++
        "\x7d" ++ ": P) \x7b\n const Row = (\x7b cell \x7d) => cell;\n interface RowProps \x7b key: T \x7d") =
      ["label".toList, "größe".toList, "$rest".toList] := by
  have hname : Word "Card" := ⟨by decide, by decide +kernel⟩
  have hps : mixedParameters ≠ [] := List.cons_ne_nil _ _
  have htrail : Trailing ",\n" := Or.inr ⟨['\n'], by decide, rfl⟩
  refine ⟨⟨by decide, by decide, hname, hps, htrail⟩, ?_⟩
  rw [allIn_function (by decide) (by decide) hname hps htrail]
  decide +kernel

end Props

end SourceArchive
