import SourceArchive.Proofs.ImportClauses

/-!
# How import clauses are read

The pattern for bindings reads a default before a comma or none, then names in brackets or a name.  `Reading` says which
text is read so with which captures.  Of a written clause there is at most one reading, and of a namespace or of types
there is none (`Reading.eq_captured`).
-/

namespace SourceArchive

open Pattern Text StateVariable

namespace Imports

/-- A default before a comma, or none, with what is captured of it. -/
inductive Lead : Text → Option Text → Prop
  | absent : Lead [] none
  | present {name gap gap' : Text} : Word name → Blank gap → Blank gap' → Lead (name ++ (gap ++ ',' :: gap')) (some name)

/-- Names in brackets or a name, with what is captured as the one and as the other. -/
inductive Item : Text → Option Text → Option Text → Prop
  | braced {names : Text} : '\x7d' ∉ names → Item ('\x7b' :: (names ++ ['\x7d'])) (some names) none
  | lone {name : Text} : Word name → Item name none (some name)

/-- Behind `import` a text can be read with these captures up to the specifier. -/
def ReadsBehind (r : Text) (k : Captured) : Prop :=
  ∃ lead item gap gap', r = lead ++ (item ++ (gap ++ ("from".toList ++ gap'))) ∧ Lead lead k.lead ∧
    Item item k.braced k.lone ∧ (gap ≠ [] ∧ Blank gap) ∧ Blank gap'

/-- A text up to the specifier can be read with these captures. -/
def Reading (w : Text) (k : Captured) : Prop :=
  ∃ gap r, w = "import".toList ++ (gap ++ r) ∧ (gap ≠ [] ∧ Blank gap) ∧ ReadsBehind r k

theorem lead_of_mem_outcomes {s t : Progress} (h : s.kept? 1 = none)
    (ht : t ∈ (optional (sequence [capture 1 word, blanks, lit ",", blanks])).outcomes s) :
    ∃ lead, s.spot.Reads lead t.spot ∧ Lead lead (t.kept? 1) ∧ ∀ n, n ≠ 1 → t.kept? n = s.kept? n := by
  rcases mem_outcomes_alt.mp ht with ht | ht
  · obtain ⟨a, ha, ht⟩ := mem_outcomes_sequence_cons.mp ht
    obtain ⟨b, hb, rfl⟩ := mem_outcomes_capture.mp ha
    obtain ⟨name, hname, hread⟩ := reads_language_of_mem_outcomes hb
    obtain ⟨w, hw, hbehind⟩ := reads_language_of_mem_outcomes ht
    obtain ⟨gap, hgap, x, hx, rfl⟩ := exists_of_mem_cons hw
    obtain ⟨k, hk, gap', hgap', rfl⟩ := exists_of_mem_cons hx
    obtain rfl : k = [','] := mem_language_lit.mp hk
    refine ⟨name ++ (gap ++ ',' :: gap'), hread.trans hbehind, ?_, fun n hn => ?_⟩
    · rw [kept?_of_mem_outcomes rfl ht, kept?_close hread]
      exact .present (word_of_mem_language hname) (mem_language_blanks.mp hgap) (mem_language_blanks.mp hgap')
    · rw [kept?_of_mem_outcomes rfl ht, kept?_close_of_ne hn]
      exact kept?_of_mem_outcomes rfl hb
  · obtain rfl : t = s := by simpa [outcomes] using ht
    refine ⟨[], .refl _, ?_, fun _ _ => rfl⟩
    rw [h]
    exact .absent

theorem item_of_mem_outcomes {s t : Progress} (h : s.kept? 2 = none ∧ s.kept? 3 = none)
    (ht : t ∈ (oneOf [bracedNames, capture 3 word]).outcomes s) :
    ∃ item, s.spot.Reads item t.spot ∧ Item item (t.kept? 2) (t.kept? 3) ∧ t.kept? 1 = s.kept? 1 := by
  rcases mem_outcomes_alt.mp ht with ht | ht
  · have hthird : t.kept? 3 = none := (kept?_of_mem_outcomes rfl ht).trans h.2
    have hfirst : t.kept? 1 = s.kept? 1 := kept?_of_mem_outcomes rfl ht
    obtain ⟨a, ha, ht⟩ := mem_outcomes_sequence_cons.mp ht
    obtain ⟨b, hb, ht⟩ := mem_outcomes_sequence_cons.mp ht
    obtain ⟨c, hc, rfl⟩ := mem_outcomes_capture.mp hb
    obtain ⟨o, ho, hopen⟩ := reads_language_of_mem_outcomes ha
    obtain ⟨names, hnames, hread⟩ := reads_language_of_mem_outcomes hc
    obtain ⟨e, he, hclose⟩ := reads_language_of_mem_outcomes ht
    obtain rfl : o = ['\x7b'] := mem_language_lit.mp ho
    obtain rfl : e = ['\x7d'] := mem_language_lit.mp he
    have hinside : '\x7d' ∉ names := mem_language_many_noneOf.mp hnames
    refine ⟨'\x7b' :: (names ++ ['\x7d']), (hopen.trans hread).trans hclose, ?_, hfirst⟩
    rw [hthird, kept?_of_mem_outcomes rfl ht, kept?_close hread]
    exact .braced hinside
  · obtain ⟨b, hb, rfl⟩ := mem_outcomes_capture.mp ht
    obtain ⟨name, hname, hread⟩ := reads_language_of_mem_outcomes hb
    have hkept {n : Nat} (hn : n ≠ 3) : (Pattern.close 3 s.spot b).kept? n = s.kept? n :=
      (kept?_close_of_ne hn s.spot b).trans (kept?_of_mem_outcomes rfl hb)
    refine ⟨name, hread, ?_, hkept (by decide)⟩
    rw [hkept (by decide), h.1, kept?_close hread]
    exact .lone (word_of_mem_language hname)

theorem reading_of_mem_outcomes {s : Spot} {t : Progress} {w : Text}
    (ht : t ∈ (sequence boundParts).outcomes { spot := s }) (hr : s.Reads w t.spot) :
    Reading w { lead := t.kept? 1, braced := t.kept? 2, lone := t.kept? 3 } := by
  obtain ⟨a, ha, ht⟩ := mem_outcomes_sequence_cons.mp ht
  obtain ⟨b, hb, ht⟩ := mem_outcomes_sequence_cons.mp ht
  obtain ⟨c, hc, ht⟩ := mem_outcomes_sequence_cons.mp ht
  obtain ⟨d, hd, ht⟩ := mem_outcomes_sequence_cons.mp ht
  have hnone (n : Nat) : b.kept? n = none :=
    (kept?_of_mem_outcomes rfl hb).trans (kept?_of_mem_outcomes (s := { spot := s }) rfl ha)
  obtain ⟨k, hk, hkeyword⟩ := reads_language_of_mem_outcomes ha
  obtain ⟨gap, hgap, hblank⟩ := reads_language_of_mem_outcomes hb
  obtain ⟨lead, hlead, hleads, hothers⟩ := lead_of_mem_outcomes (hnone 1) hc
  have hfresh : c.kept? 2 = none ∧ c.kept? 3 = none :=
    ⟨(hothers 2 (by decide)).trans (hnone 2), (hothers 3 (by decide)).trans (hnone 3)⟩
  obtain ⟨item, hitem, hitems, hfirst⟩ := item_of_mem_outcomes hfresh hd
  obtain ⟨x, hx, hbehind⟩ := reads_language_of_mem_outcomes ht
  obtain ⟨gap', hgap', y, hy, rfl⟩ := exists_of_mem_cons hx
  obtain ⟨f, hf, gap'', hgap'', rfl⟩ := exists_of_mem_cons hy
  obtain rfl : k = "import".toList := mem_language_lit.mp hk
  obtain rfl : f = "from".toList := mem_language_lit.mp hf
  have hlast (n : Nat) : t.kept? n = d.kept? n := kept?_of_mem_outcomes rfl ht
  have hwhole := (((hkeyword.trans hblank).trans hlead).trans hitem).trans hbehind
  have hr' : ReadsBehind (lead ++ (item ++ (gap' ++ ("from".toList ++ gap''))))
      { lead := t.kept? 1, braced := t.kept? 2, lone := t.kept? 3 } := by
    rw [hlast 1, hlast 2, hlast 3, hfirst]
    obtain ⟨-, hblank''⟩ := mem_language_blanks1.mp hgap''
    exact ⟨lead, item, gap', gap'', rfl, hleads, hitems, mem_language_blanks1.mp hgap', hblank''⟩
  have hw : w = "import".toList ++ (gap ++ (lead ++ (item ++ (gap' ++ ("from".toList ++ gap''))))) := by
    rw [List.append_cancel_right (hr.ahead_eq.symm.trans hwhole.ahead_eq)]
    simp only [List.append_assoc]
  exact ⟨gap, _, hw, mem_language_blanks1.mp hgap, hr'⟩

/-! ## Clauses are read in one way -/

theorem word_head {w r : Text} {c : Char} {r' : Text} (hw : Word w) (h : w ++ r = c :: r') : isWordChar c = true := by
  obtain ⟨d, v, rfl⟩ := List.exists_cons_of_ne_nil hw.1
  obtain ⟨rfl, -⟩ := List.cons.inj h
  exact List.all_eq_true.mp hw.2 d List.mem_cons_self

theorem ReadsBehind.startsInked {r : Text} {k : Captured} (h : ReadsBehind r k) : StartsInked r := by
  obtain ⟨first, braced, lone⟩ := k
  obtain ⟨lead, item, gap, gap', rfl, hlead, hitem, -⟩ := h
  dsimp only at hlead hitem
  cases hlead with
  | absent =>
    cases hitem with
    | braced _ => exact ⟨'\x7b', _, rfl, by decide⟩
    | lone hw => exact hw.startsInked.append _
  | present hw _ _ => exact (hw.startsInked.append _).append _

/-- The blanks behind `import` do not matter. -/
theorem Reading.behind {r : Text} {k : Captured} (hr : StartsInked r) (h : Reading ("import".toList ++ ' ' :: r) k) :
    ReadsBehind r k := by
  obtain ⟨gap, r', hw, ⟨-, hgap⟩, h'⟩ := h
  have hrest : [' '] ++ r = gap ++ r' := List.append_cancel_left hw
  have htrim : r = r' := by
    rw [← trimStart_append_of_inked blank_space hr, ← trimStart_append_of_inked hgap h'.startsInked, ← hrest]
    rfl
  rwa [htrim]

theorem Clause.inked (c : Clause) : StartsInked c.text := by
  have hbrace (t : Text) : StartsInked ('\x7b' :: t) := ⟨'\x7b', t, rfl, by decide⟩
  cases c with
  | single name => exact name.inked.1
  | named es => exact hbrace _
  | both name es => exact name.inked.1.append _
  | space name =>
    have hstar : StartsInked "* as " := by decide
    exact hstar.append _
  | types es =>
    have htype : StartsInked "type " := by decide
    exact htype.append _

section Captured

variable {c : Clause} {lead tail : Text} {first : Option Text} (hlead : Lead lead first)

include hlead

theorem Lead.not_mem {x : Char} (h : isWordChar x = false ∧ isBlank x = false ∧ x ≠ ',') : x ∉ lead := by
  obtain ⟨hword, hblank, hcomma⟩ := h
  cases hlead with
  | absent => exact List.not_mem_nil
  | present hname hgap hgap' =>
    simp only [List.mem_append, List.mem_cons, not_or]
    exact ⟨hname.not_mem hword, hgap.not_mem hblank, hcomma, hgap'.not_mem hblank⟩

/-- A default before a comma is read as one, or the reading begins at it. -/
theorem Lead.of_comma {name behind : Text} (hname : Word name) (h : name ++ ',' :: behind = lead ++ tail) :
    (first = none ∧ lead = []) ∨ first = some name ∧ ∃ gap, Blank gap ∧ behind = gap ++ tail := by
  cases hlead with
  | absent => exact Or.inl ⟨rfl, rfl⟩
  | @present word gap gap' hword hgap hgap' =>
    right
    have hcomma : ',' ∉ word ++ gap := by
      rw [List.mem_append, not_or]
      exact ⟨hword.not_mem (by decide +kernel), hgap.not_mem (by decide)⟩
    have hcut : name ++ ',' :: behind = (word ++ gap) ++ ',' :: (gap' ++ tail) := by
      rw [h]
      simp
    obtain ⟨rfl, rfl⟩ := eq_of_first ',' (hname.not_mem (by decide +kernel)) hcomma hcut
    have hnil : gap = [] := by
      refine List.eq_nil_iff_forall_not_mem.mpr fun x hx => ?_
      have hblank := hgap x hx
      rw [hname.isBlank_eq_false x (List.mem_append_right word hx)] at hblank
      cases hblank
    rw [hnil, List.append_nil]
    exact ⟨rfl, gap', hgap', rfl⟩

/-- A clause without brackets is a default if it can be read at all. -/
theorem captured?_of_lone {w gap : Text} (hw : Word w) (hgap : gap ≠ [] ∧ Blank gap) (htail : '\x7b' ∉ tail)
    (h : c.text ++ fromText = lead ++ (w ++ (gap ++ tail))) :
    c.captured? = some { lead := first, braced := none, lone := some w } := by
  have hopen : '\x7b' ∉ c.text := by
    intro hm
    have hmem : '\x7b' ∈ lead ++ (w ++ (gap ++ tail)) := h ▸ List.mem_append_left _ hm
    simp only [List.mem_append] at hmem
    have hsign : isWordChar '\x7b' = false ∧ isBlank '\x7b' = false ∧ '\x7b' ≠ ',' := by decide +kernel
    rcases hmem with hm | hm | hm | hm
    · exact hlead.not_mem hsign hm
    · exact hw.not_mem hsign.1 hm
    · exact hgap.2.not_mem hsign.2.1 hm
    · exact htail hm
  cases c with
  | single name =>
    cases hlead with
    | absent =>
      obtain ⟨b, gap, rfl⟩ := List.exists_cons_of_ne_nil hgap.1
      have hb : isBlank b = true := hgap.2 b List.mem_cons_self
      have hname := name.2.isBlank_eq_false
      obtain ⟨hsame, -⟩ := eq_of_firstWhen (p := isBlank) hname (hw.isBlank_eq_false) (by decide) hb h
      rw [← hsame]
      rfl
    | present hname hgap hgap' =>
      -- a default of its own has no comma behind it
      have hcomma : ',' ∉ (Clause.single name).text ++ fromText := by
        rw [List.mem_append, not_or]
        exact ⟨name.2.not_mem (by decide +kernel), by decide⟩
      rw [h] at hcomma
      simp at hcomma
  | space name =>
    have hstar : isWordChar '*' = true := by
      cases hlead with
      | absent => exact word_head hw h.symm
      | present hname _ _ =>
        rw [List.append_assoc] at h
        exact word_head hname h.symm
    exact absurd hstar (by decide +kernel)
  | named es => exact absurd List.mem_cons_self hopen
  | both name es =>
    exact absurd (List.mem_append_right name.1 (List.mem_cons_of_mem _ (List.mem_cons_of_mem _ List.mem_cons_self))) hopen
  | types es => exact absurd (List.mem_append_right _ List.mem_cons_self) hopen

/-- A clause with brackets is names, or a default and names, if it can be read. -/
theorem captured?_of_braced {names : Text} (hnames : '\x7d' ∉ names)
    (h : c.text ++ fromText = lead ++ ('\x7b' :: (names ++ ['\x7d']) ++ tail)) :
    c.captured? = some { lead := first, braced := some names, lone := none } := by
  have hinside (es : Entries) : '\x7d' ∉ es.text := es.not_mem_text (by decide +kernel)
  have hentries (es : Entries) {t : Text} (h : (es.text ++ ['\x7d']) ++ t = (names ++ ['\x7d']) ++ tail) :
      es.text = names := by
    rw [List.append_assoc, List.append_assoc] at h
    exact (eq_of_first '\x7d' (hinside es) hnames h).1
  have hbrace : isWordChar '\x7b' = false := by decide +kernel
  have hopen : '\x7b' ∈ c.text := by
    have hmem : '\x7b' ∈ c.text ++ fromText := by
      rw [h]
      simp
    exact (List.mem_append.mp hmem).resolve_right (by decide)
  cases c with
  | single name => exact absurd hopen (name.2.not_mem hbrace)
  | space name =>
    rcases List.mem_append.mp hopen with hm | hm
    · exact absurd hm (by decide)
    · exact absurd hm (name.2.not_mem hbrace)
  | named es =>
    cases hlead with
    | absent =>
      rw [← hentries es (List.cons.inj h).2]
      rfl
    | present hname _ _ =>
      rw [List.append_assoc] at h
      exact absurd (word_head hname h.symm) (by rw [hbrace]; decide)
  | both name es =>
    have htext : name.1 ++ ',' :: ([' '] ++ '\x7b' :: ((es.text ++ ['\x7d']) ++ fromText)) =
        lead ++ '\x7b' :: ((names ++ ['\x7d']) ++ tail) := by
      have hclause : (Clause.both name es).text ++ fromText =
          name.1 ++ ',' :: ([' '] ++ '\x7b' :: ((es.text ++ ['\x7d']) ++ fromText)) := List.append_assoc _ _ _
      exact hclause.symm.trans h
    rcases hlead.of_comma name.2 htext with ⟨-, rfl⟩ | ⟨rfl, gap, hgap, hbehind⟩
    · exact absurd (word_head name.2 htext) (by rw [hbrace]; decide)
    · obtain ⟨-, hbehind⟩ := eq_of_first '\x7b' (by decide) (hgap.not_mem (by decide)) hbehind
      rw [← hentries es hbehind]
      rfl
  | types es =>
    cases hlead with
    | absent =>
      have hhead : some 't' = some '\x7b' := congrArg List.head? h
      exact absurd hhead (by decide)
    | @present lead gap gap' hname hgap hgap' =>
      have htext : (lead ++ (gap ++ [','])) ++ (gap' ++ '\x7b' :: ((names ++ ['\x7d']) ++ tail)) =
          "type ".toList ++ '\x7b' :: ((es.text ++ ['\x7d']) ++ fromText) := by
        have hclause : (Clause.types es).text ++ fromText =
            "type ".toList ++ '\x7b' :: ((es.text ++ ['\x7d']) ++ fromText) := List.append_assoc _ _ _
        rw [← hclause, h]
        simp
      have hbefore : '\x7b' ∉ lead ++ (gap ++ [',']) := by
        simp only [List.mem_append, not_or]
        exact ⟨hname.not_mem hbrace, hgap.not_mem (by decide), by decide⟩
      have hstarts := prefix_of_not_mem hbefore htext
      have hcomma : ',' ∈ "type ".toList := hstarts.subset (by simp)
      exact absurd hcomma (by decide)

end Captured

/-- What is captured of a clause is settled by its text. -/
theorem ReadsBehind.eq_captured {c : Clause} {k : Captured} (h : ReadsBehind (c.text ++ fromText) k) :
    c.captured? = some k := by
  obtain ⟨first, braced, lone⟩ := k
  obtain ⟨lead, item, gap, gap', htext, hlead, hitem, hgap, hgap'⟩ := h
  dsimp only at hlead hitem
  cases hitem with
  | braced hnames => exact captured?_of_braced hlead hnames htext
  | lone hw =>
    have htail : '\x7b' ∉ "from".toList ++ gap' := by
      rw [List.mem_append, not_or]
      exact ⟨by decide, hgap'.not_mem (by decide)⟩
    exact captured?_of_lone hlead hw hgap htail htext

theorem Reading.eq_captured {c : Clause} {k : Captured} (h : Reading c.before k) : c.captured? = some k :=
  (h.behind (c.inked.append fromText)).eq_captured

/-- No reading begins in the last name of a clause. -/
theorem not_reading_word {w : Text} (hw : Word w) (k : Captured) : ¬ Reading (w ++ fromText) k := by
  intro h
  obtain ⟨first, braced, lone⟩ := k
  obtain ⟨gap, r, htext, ⟨hne, hgap⟩, -⟩ := id h
  obtain ⟨b, gap, rfl⟩ := List.exists_cons_of_ne_nil hne
  have hb : isBlank b = true := hgap b List.mem_cons_self
  have himport : ∀ x ∈ "import".toList, isBlank x = false := by decide
  obtain ⟨rfl, -⟩ := eq_of_firstWhen (p := isBlank) (hw.isBlank_eq_false) himport (by decide) hb htext
  -- behind `import` only `from` is left, which is too short
  obtain ⟨lead, item, gap, gap', hfrom, -, hitem, hgap, -⟩ := h.behind (r := "from ") (by decide)
  have hitems : 0 < item.length := by
    rw [List.length_pos_iff]
    dsimp only at hitem
    cases hitem with
    | braced _ => exact List.cons_ne_nil _ _
    | lone hname => exact hname.1
  have hgaps : 0 < gap.length := List.length_pos_iff.mpr hgap.1
  have hlength := congrArg List.length hfrom
  have hfive : "from ".toList.length = 5 := by decide
  have hfour : "from".toList.length = 4 := by decide
  simp only [List.length_append, hfive, hfour] at hlength
  omega

end Imports

end SourceArchive
