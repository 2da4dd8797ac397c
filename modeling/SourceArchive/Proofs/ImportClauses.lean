import SourceArchive.Proofs.Bindings
import SourceArchive.Proofs.Initializers
import SourceArchive.Proofs.Specifiers

/-!
# Import clauses as they are written

A clause imports a default, names in brackets or both, a namespace, or types.  The pattern for modules reads each of them
as a whole.  The pattern for bindings has a capture for each part, and what it captures of a clause is settled by the
text of the clause (`Reading.eq_captured`): nothing of a namespace or of types, as it cannot read them.
-/

namespace SourceArchive

open Pattern Text StateVariable

namespace Imports

/-! ## Clauses -/

abbrev Name := {t : Text // Word t}

/-- An entry in brackets: a name, a name and its alias, or a type. -/
inductive Entry where
  | plain (name : Name) (h : name.1 ≠ "type")
  | renamed (name new : Name) (h : name.1 ≠ "type")
  | type (name : Name)

namespace Entry

def text : Entry → Text
  | plain name _ => name.1
  | renamed name new _ => name.1 ++ " as " ++ new.1
  | type name => "type " ++ name.1

/-- The name that an entry binds; none for a type. -/
def bound? : Entry → Option Text
  | plain name _ => some name.1
  | renamed _ new _ => some new.1
  | type _ => none

end Entry

abbrev Entries := List Entry

/-- What stands between the brackets of entries. -/
def Entries.text (es : Entries) : Text := " " ++ join ", " (es.map (·.text)) ++ " "

/-- What is imported: a default, names, a default and names, a namespace, or types. -/
inductive Clause where
  | single (name : Name)
  | named (entries : Entries)
  | both (name : Name) (entries : Entries)
  | space (name : Name)
  | types (entries : Entries)

namespace Clause

def text : Clause → Text
  | single name => name.1
  | named es => '\x7b' :: (es.text ++ ['\x7d'])
  | both name es => name.1 ++ ',' :: ' ' :: '\x7b' :: (es.text ++ ['\x7d'])
  | space name => "* as " ++ name.1
  | types es => "type " ++ '\x7b' :: (es.text ++ ['\x7d'])

/-- The names that a clause binds, without a default that is ignored. -/
def bound (ignored : List Text) : Clause → List Text
  | single name => [name.1].filter (!ignored.contains ·)
  | named es => es.filterMap (·.bound?)
  | both name es => [name.1].filter (!ignored.contains ·) ++ es.filterMap (·.bound?)
  | space _ => []
  | types _ => []

end Clause

/-- What stands between a clause and the specifier. -/
def fromText : Text := ' ' :: ("from".toList ++ [' '])

/-- A clause with the keywords around it. -/
def Clause.before (c : Clause) : Text := "import".toList ++ ' ' :: (c.text ++ fromText)

/-! ## Signs of clauses -/

theorem Entry.sign_of_mem_text {e : Entry} {c : Char} (h : c ∈ e.text) : isWordChar c = true ∨ c = ' ' := by
  have hfixed {t : Text} (ht : t.all (fun c => isWordChar c || c == ' ') = true) (hc : c ∈ t) :
      isWordChar c = true ∨ c = ' ' := by
    simpa using List.all_eq_true.mp ht c hc
  have hname (n : Name) (hc : c ∈ n.1) : isWordChar c = true := List.all_eq_true.mp n.2.2 c hc
  cases e with
  | plain name _ => exact Or.inl (hname name h)
  | renamed name new _ =>
    rcases List.mem_append.mp h with h | h
    · rcases List.mem_append.mp h with h | h
      · exact Or.inl (hname name h)
      · exact hfixed (t := " as ") (by decide +kernel) h
    · exact Or.inl (hname new h)
  | type name =>
    rcases List.mem_append.mp h with h | h
    · exact hfixed (t := "type ") (by decide +kernel) h
    · exact Or.inl (hname name h)

theorem Entries.sign_of_mem_text {es : Entries} {c : Char} (h : c ∈ es.text) :
    isWordChar c = true ∨ c = ' ' ∨ c = ',' := by
  by_contra hno
  obtain ⟨hword, hspace, hcomma⟩ : ¬ isWordChar c = true ∧ c ≠ ' ' ∧ c ≠ ',' := by simpa [not_or] using hno
  have hjoined : c ∉ join ", " (es.map (·.text)) := by
    refine not_mem_join ?_ fun t ht hc => ?_
    · show c ∉ [',', ' ']
      simp [hspace, hcomma]
    · obtain ⟨e, -, rfl⟩ := List.mem_map.mp ht
      exact (Entry.sign_of_mem_text hc).elim hword hspace
  have hblank : c ∉ " ".toList := by
    show c ∉ [' ']
    simp [hspace]
  unfold Entries.text at h
  simp only [List.mem_append] at h
  tauto

theorem Entries.not_mem_text {c : Char} (h : isWordChar c = false ∧ c ≠ ' ' ∧ c ≠ ',') (es : Entries) : c ∉ es.text := by
  intro hm
  have hsign := Entries.sign_of_mem_text hm
  simp_all

/-! ## Entries are read back -/

theorem Name.inked (n : Name) : StartsInked n.1 ∧ EndsInked n.1 := ⟨n.2.startsInked, n.2.endsInked⟩

theorem Name.space_not_mem (n : Name) : ' ' ∉ n.1 := n.2.not_mem (by decide +kernel)

theorem Entry.inked (e : Entry) : StartsInked e.text ∧ EndsInked e.text := by
  cases e with
  | plain name _ => exact name.inked
  | renamed name new _ =>
    unfold text
    exact ⟨(name.inked.1.append _).append _, new.inked.2.append _⟩
  | type name =>
    have htype : StartsInked "type " := by decide
    unfold text
    exact ⟨htype.append _, name.inked.2.append _⟩

theorem afterLast?_append {pattern t rest : Text} (a : Text) (h : afterLast? pattern t = some rest) :
    afterLast? pattern (a ++ t) = some rest := by
  induction a with
  | nil => exact h
  | cons c a ih => rw [List.cons_append, afterLast?, ih]

theorem afterLast?_of_count {t : Text} (h : t.count ' ' < 2) : afterLast? " as " t = none := by
  rw [Option.eq_none_iff_forall_not_mem]
  intro rest hrest
  obtain ⟨a, rfl⟩ := exists_of_afterLast? hrest
  have htwo : List.count ' ' " as ".toList = 2 := by decide
  rw [List.count_append, List.count_append, htwo] at h
  omega

theorem afterLast?_renamed (name new : Name) : afterLast? " as " (name.1 ++ " as " ++ new.1) = some new.1 := by
  have hcount : List.count ' ' new.1 = 0 := List.count_eq_zero.mpr new.space_not_mem
  have hlast : afterLast? " as " ("as ".toList ++ new.1) = none := by
    apply afterLast?_of_count
    rw [List.count_append, hcount]
    decide
  have hhere : afterLast? " as " (" as ".toList ++ new.1) = some new.1 := by
    show afterLast? " as " (' ' :: ("as ".toList ++ new.1)) = some new.1
    rw [afterLast?, hlast]
    exact after?_append " as ".toList new.1
  rw [List.append_assoc]
  exact afterLast?_append name.1 hhere

theorem entryName?_padded {x y : Text} (hx : Blank x) (hy : Blank y) (e : Entry) :
    entryName? (x ++ e.text ++ y) = e.bound? := by
  have htrim : (x ++ e.text ++ y).trim = e.text := trim_of_parts hx e.inked.1 e.inked.2 hy
  have hself (n : Name) : n.1.trim = n.1 := trim_eq_self n.inked.1 n.inked.2
  unfold entryName?
  rw [htrim]
  dsimp only
  cases e with
  | plain name _ =>
    have htype : ¬ startsWith name.1 "type " = true := fun h =>
      name.space_not_mem ((startsWith_iff.mp h).subset (by decide))
    have hlast : afterLast? " as " name.1 = none := by
      apply afterLast?_of_count
      rw [List.count_eq_zero.mpr name.space_not_mem]
      decide
    show (if startsWith name.1 "type " = true then none else some ((afterLast? " as " name.1).getD name.1).trim) = _
    rw [if_neg htype, hlast, Option.getD_none, hself]
    rfl
  | renamed name new hne =>
    have htype : ¬ startsWith (name.1 ++ " as " ++ new.1) "type " = true := by
      intro h
      obtain ⟨z, hz⟩ := startsWith_iff.mp h
      have hcut : "type".toList ++ ' ' :: z = name.1 ++ ' ' :: ("as ".toList ++ new.1) := by
        rw [List.append_assoc] at hz
        exact hz
      exact hne (eq_of_first ' ' (by decide) name.space_not_mem hcut).1.symm
    show (if startsWith (name.1 ++ " as " ++ new.1) "type " = true then none
      else some ((afterLast? " as " (name.1 ++ " as " ++ new.1)).getD _).trim) = _
    rw [if_neg htype, afterLast?_renamed, Option.getD_some, hself]
    rfl
  | type name =>
    have htype : startsWith ("type " ++ name.1) "type " = true := startsWith_iff.mpr (List.prefix_append _ _)
    show (if startsWith ("type " ++ name.1) "type " = true then none else _) = _
    rw [if_pos htype]
    rfl

theorem Entries.ne_nil_of_bound {es : Entries} {name : Text} (h : name ∈ es.filterMap (·.bound?)) : name ≠ [] := by
  obtain ⟨e, -, he⟩ := List.mem_filterMap.mp h
  cases e with
  | plain n _ => exact Option.some.inj he ▸ n.2.1
  | renamed _ new _ => exact Option.some.inj he ▸ new.2.1
  | type _ => cases he

/-- What stands between the brackets binds the names of the entries; without entries, the empty name. -/
theorem Entries.filterMap_entryName? (es : Entries) :
    ((splitAt ',' es.text).filterMap entryName?).filter (!·.isEmpty) = es.filterMap (·.bound?) := by
  have hpart (e : Entry) : ',' ∉ e.text := fun hm => by
    rcases Entry.sign_of_mem_text hm with h | h
    · exact absurd h (by decide +kernel)
    · exact absurd h (by decide)
  -- in front of the first entry stands a space, and so behind each comma
  have hpieces (e : Entry) (rest : List Entry) :
      (splitAt ',' (" " ++ (e.text ++ (rest.map (·.text)).flatMap (", ".toList ++ ·)) ++ " ")).filterMap entryName? =
        (e :: rest).filterMap (·.bound?) := by
    induction rest generalizing e with
    | nil =>
      have hwhole : ',' ∉ " ".toList ++ (e.text ++ []) ++ " ".toList := by
        have hspace : ',' ∉ " ".toList := by decide
        simp only [List.mem_append, not_or]
        exact ⟨⟨hspace, hpart e, List.not_mem_nil⟩, hspace⟩
      have hpad := entryName?_padded blank_space blank_space e
      rw [List.map_nil, List.flatMap_nil, splitAt_of_not_mem hwhole, List.append_nil, List.filterMap_cons, hpad,
        List.filterMap_cons]
      rfl
    | cons e' rest ih =>
      have htext : " ".toList ++ (e.text ++ ((e' :: rest).map (·.text)).flatMap (", ".toList ++ ·)) ++ " ".toList =
          (" ".toList ++ e.text) ++
            ',' :: (" ".toList ++ (e'.text ++ (rest.map (·.text)).flatMap (", ".toList ++ ·)) ++ " ".toList) := by
        simp
      have hfirst : ',' ∉ " ".toList ++ e.text := by
        rw [List.mem_append, not_or]
        exact ⟨by decide, hpart e⟩
      have hpad := entryName?_padded blank_space blank_nil e
      rw [List.append_nil] at hpad
      rw [htext, splitAt_append_cons, splitAt_of_not_mem hfirst, List.singleton_append, List.filterMap_cons, hpad, ih,
        List.filterMap_cons (l := e' :: rest)]
  cases es with
  | nil => decide
  | cons e rest =>
    have hall : ∀ name ∈ (e :: rest).filterMap (·.bound?), (!name.isEmpty) = true := fun name hname => by
      simpa using ne_nil_of_bound hname
    unfold Entries.text
    rw [List.map_cons, join_cons, hpieces e rest, List.filter_eq_self.mpr hall]

/-! ## Both patterns read clauses -/

/-- The pattern for modules up to the specifier. -/
def staticParts : List Pattern := [
  lit "import", blanks1, optional (sequence [lit "type", blanks1]), clauseItem,
  many (sequence [blanks, lit ",", blanks, clauseItem]), blanks1, lit "from", blanks1]

/-- Names in brackets, captured as 2. -/
def bracedNames : Pattern := sequence [lit ['\x7b'], capture 2 (many (noneOf ['\x7d'])), lit ['\x7d']]

/-- The pattern for bindings up to the specifier. -/
def boundParts : List Pattern := [
  lit "import", blanks1, optional (sequence [capture 1 word, blanks, lit ",", blanks]),
  oneOf [bracedNames, capture 3 word], blanks1, lit "from", blanks1]

theorem boundImport_eq : boundImport = sequence (boundParts ++ [specifier 4]) := rfl

theorem guarded_clauseItem : Guarded clauseItem.language :=
  (guarded_braced (p := many (noneOf ['\x7d'])) rfl (by decide)).add
    ((guarded_of_avoids rfl (by decide +kernel)).add (guarded_of_avoids rfl (by decide +kernel)))

theorem guarded_staticParts : Guarded (sequence staticParts).language := by
  have hplain {p : Pattern} (hp : p.plain = true)
      (h : ['\'', '"', '\x7b', '\x7d'].all p.avoids = true) : Guarded p.language := guarded_of_avoids hp h
  have hmore : Guarded (many (sequence [blanks, lit ",", blanks, clauseItem])).language := by
    refine Guarded.kstar (guarded_sequence ?_)
    simp only [List.forall_mem_cons]
    exact ⟨hplain rfl (by decide), hplain rfl (by decide), hplain rfl (by decide), guarded_clauseItem,
      fun p hp => absurd hp List.not_mem_nil⟩
  refine guarded_sequence ?_
  simp only [staticParts, List.forall_mem_cons]
  exact ⟨hplain rfl (by decide +kernel), hplain rfl (by decide), hplain rfl (by decide +kernel), guarded_clauseItem,
    hmore, hplain rfl (by decide), hplain rfl (by decide +kernel), hplain rfl (by decide),
    fun p hp => absurd hp List.not_mem_nil⟩

theorem guarded_boundParts : Guarded (sequence boundParts).language := by
  have hplain {p : Pattern} (hp : p.plain = true)
      (h : ['\'', '"', '\x7b', '\x7d'].all p.avoids = true) : Guarded p.language := guarded_of_avoids hp h
  have hitem : Guarded (oneOf [bracedNames, capture 3 word]).language :=
    (guarded_braced (p := capture 2 (many (noneOf ['\x7d']))) rfl (by decide)).add (hplain rfl (by decide +kernel))
  refine guarded_sequence ?_
  simp only [boundParts, List.forall_mem_cons]
  exact ⟨hplain rfl (by decide +kernel), hplain rfl (by decide), hplain rfl (by decide +kernel), hitem,
    hplain rfl (by decide), hplain rfl (by decide +kernel), hplain rfl (by decide),
    fun p hp => absurd hp List.not_mem_nil⟩

/-- The keywords of a clause stand around what the middle parts of a pattern read. -/
theorem before_mem (ps : List Pattern) {c : Clause} (h : c.text ∈ (sequence ps).language) :
    c.before ∈ (sequence (lit "import" :: blanks1 :: (ps ++ [blanks1, lit "from", blanks1]))).language := by
  have hbehind : [' '] ++ ("from".toList ++ [' ']) ∈ (sequence [blanks1, lit "from", blanks1]).language :=
    append_mem_cons space_mem_blanks1 (keyword_mem "from" nil_mem_sequence)
  exact keyword_mem "import" (append_mem_append h hbehind)

theorem Entries.braced_mem (es : Entries) {p : Pattern} (hp : p.language = (many (noneOf ['\x7d'])).language) :
    '\x7b' :: (es.text ++ ['\x7d']) ∈ (sequence [lit ['\x7b'], p, lit ['\x7d']]).language := by
  have hinside : es.text ∈ p.language := by
    rw [hp, mem_language_many_noneOf]
    exact es.not_mem_text (by decide +kernel)
  exact append_mem_cons (lit_mem ['\x7b']) (append_mem_cons hinside (lit_mem _))

theorem before_mem_staticParts (c : Clause) : c.before ∈ (sequence staticParts).language := by
  refine before_mem [optional (sequence [lit "type", blanks1]), clauseItem,
    many (sequence [blanks, lit ",", blanks, clauseItem])] ?_
  have hbraces (es : Entries) : '\x7b' :: (es.text ++ ['\x7d']) ∈ clauseItem.language := Or.inl (es.braced_mem rfl)
  have hname (n : Name) : n.1 ∈ clauseItem.language := Or.inr (Or.inl n.2.mem_language)
  have hnotype : [] ∈ (optional (sequence [lit "type", blanks1])).language := Or.inr rfl
  have hnone : [] ∈ (many (sequence [blanks, lit ",", blanks, clauseItem])).language := Language.nil_mem_kstar _
  have hparts {t i m : Text} (ht : t ∈ (optional (sequence [lit "type", blanks1])).language)
      (hi : i ∈ clauseItem.language) (hm : m ∈ (many (sequence [blanks, lit ",", blanks, clauseItem])).language) :
      t ++ (i ++ m) ∈ (sequence [optional (sequence [lit "type", blanks1]), clauseItem,
        many (sequence [blanks, lit ",", blanks, clauseItem])]).language :=
    append_mem_cons ht (append_mem_cons hi hm)
  cases c with
  | single name =>
    have h := hparts hnotype (hname name) hnone
    rwa [List.append_nil] at h
  | named es =>
    have h := hparts hnotype (hbraces es) hnone
    rwa [List.append_nil] at h
  | both name es =>
    have hround : [] ++ (",".toList ++ ([' '] ++ '\x7b' :: (es.text ++ ['\x7d']))) ∈
        (sequence [blanks, lit ",", blanks, clauseItem]).language :=
      append_mem_cons nil_mem_blanks (append_mem_cons (lit_mem _) (append_mem_cons space_mem_blanks (hbraces es)))
    have hrounds : (sequence [blanks, lit ",", blanks, clauseItem]).language ≤
        (many (sequence [blanks, lit ",", blanks, clauseItem])).language := le_kstar
    exact hparts hnotype (hname name) (hrounds hround)
  | space name =>
    have hname : name.1 ∈ (sequence [word]).language := name.2.mem_language
    have hstar := keyword_mem "*" (keyword_mem "as" hname)
    have hitem : "*".toList ++ ([' '] ++ ("as".toList ++ ([' '] ++ name.1))) ∈ clauseItem.language :=
      Or.inr (Or.inr hstar)
    have h := hparts hnotype hitem hnone
    rwa [List.append_nil] at h
  | types es =>
    have htype : "type".toList ++ [' '] ∈ (optional (sequence [lit "type", blanks1])).language :=
      Or.inl (keyword_mem "type" nil_mem_sequence)
    have h := hparts htype (hbraces es) hnone
    rwa [List.append_nil] at h

/-- What the pattern for bindings captures: a default before a comma, names in brackets and a lone default. -/
structure Captured where
  lead : Option Text
  braced : Option Text
  lone : Option Text

/-- What is captured of a clause; none if the pattern for bindings does not read it. -/
def Clause.captured? : Clause → Option Captured
  | single name => some { lead := none, braced := none, lone := some name.1 }
  | named es => some { lead := none, braced := some es.text, lone := none }
  | both name es => some { lead := some name.1, braced := some es.text, lone := none }
  | space _ => none
  | types _ => none

theorem before_mem_boundParts {c : Clause} {k : Captured} (h : c.captured? = some k) :
    c.before ∈ (sequence boundParts).language := by
  refine before_mem [optional (sequence [capture 1 word, blanks, lit ",", blanks]),
    oneOf [bracedNames, capture 3 word]] ?_
  have hbraces (es : Entries) : '\x7b' :: (es.text ++ ['\x7d']) ∈ (oneOf [bracedNames, capture 3 word]).language :=
    Or.inl (es.braced_mem rfl)
  have hnolead : [] ∈ (optional (sequence [capture 1 word, blanks, lit ",", blanks])).language := Or.inr rfl
  cases c with
  | single name =>
    have hname : name.1 ∈ (oneOf [bracedNames, capture 3 word]).language := Or.inr name.2.mem_language
    exact append_mem_cons hnolead hname
  | named es => exact append_mem_cons hnolead (hbraces es)
  | both name es =>
    have hname : name.1 ∈ (capture 1 word).language := name.2.mem_language
    have hlead : name.1 ++ ([] ++ (",".toList ++ [' '])) ∈
        (optional (sequence [capture 1 word, blanks, lit ",", blanks])).language :=
      Or.inl (append_mem_cons hname (append_mem_cons nil_mem_blanks (append_mem_cons (lit_mem _) space_mem_blanks)))
    have h : name.1 ++ ([] ++ (",".toList ++ [' '])) ++ '\x7b' :: (es.text ++ ['\x7d']) ∈
        (sequence [optional (sequence [capture 1 word, blanks, lit ",", blanks]),
          oneOf [bracedNames, capture 3 word]]).language := append_mem_cons hlead (hbraces es)
    have htext : (Clause.both name es).text =
        name.1 ++ ([] ++ (",".toList ++ [' '])) ++ '\x7b' :: (es.text ++ ['\x7d']) := by
      unfold Clause.text
      simp
    rw [htext]
    exact h
  | space name => cases h
  | types es => cases h

end Imports

end SourceArchive
