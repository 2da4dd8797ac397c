import SourceArchive.Proofs.ImportReadings

/-!
# Blocks of import statements

A block of statements is read statement by statement: a search finds a statement as a whole, or it passes it over without
beginning a match in it, and goes on behind it (`matchesFrom_read`, `boundImport_skips`).  So the modules of a block are
those of its statements, and the names that it binds are those of its clauses, each with its latest source.
-/

namespace SourceArchive

open Pattern Text StateVariable

namespace Imports

/-! ## Statements -/

/-- An import statement, and the blanks between it and the next. -/
structure Statement where
  clause : Clause
  source : Text
  gap : Text := ['\n']
  source_ne_nil : source ≠ [] := by decide
  source_plain : ∀ c ∈ source, c ∉ ['\'', '"', '(', ')'] ∧ isBlank c = false := by decide
  gap_blank : Blank gap := by decide

namespace Statement

def text (i : Statement) : Text := "import " ++ i.clause.text ++ " from '" ++ i.source ++ "';" ++ i.gap

/-- What a statement binds. -/
def bindings (ignored : List Text) (i : Statement) : List ImportBinding :=
  (i.clause.bound ignored).map fun name => { name, source := i.source }

/-- The specifier and what follows it. -/
def ending (i : Statement) : Text := '\'' :: i.source ++ '\'' :: ';' :: i.gap

theorem text_eq (i : Statement) : i.text = i.clause.before ++ i.ending := by
  unfold text ending Clause.before fromText
  simp

theorem specifies (i : Statement) : Specifies i.source where
  ne_nil := i.source_ne_nil
  not_isQuote := isQuote_eq_false (fun h => (i.source_plain _ h).1 (by simp)) fun h => (i.source_plain _ h).1 (by simp)

theorem gap_not_mem (i : Statement) : 'i' ∉ ';' :: i.gap := by
  rw [List.mem_cons, not_or]
  exact ⟨by decide, i.gap_blank.not_mem (by decide)⟩

end Statement

theorem Clause.not_mem_before (c : Clause) {x : Char} (hx : x ∈ ['\'', '"', '(']) : x ∉ c.before := by
  have hsign : ∀ x ∈ ['\'', '"', '('], isWordChar x = false ∧ x ∉ "import".toList ∧ x ≠ ' ' ∧ x ≠ ',' ∧ x ∉ fromText ∧
      x ∉ "* as ".toList ∧ x ∉ "type ".toList ∧ x ≠ '\x7b' ∧ x ≠ '\x7d' := by decide +kernel
  obtain ⟨hword, himport, hspace, hcomma, hfrom, hstar, htype, hopen, hclose⟩ := hsign x hx
  have hentries (es : Entries) : x ∉ '\x7b' :: (es.text ++ ['\x7d']) := by
    simp only [List.mem_cons, List.mem_append, List.not_mem_nil, or_false, not_or]
    exact ⟨hopen, es.not_mem_text ⟨hword, hspace, hcomma⟩, hclose⟩
  have hclause : x ∉ c.text := by
    cases c with
    | single name => exact name.2.not_mem hword
    | named es => exact hentries es
    | both name es =>
      intro hm
      rcases List.mem_append.mp hm with hm | hm
      · exact name.2.not_mem hword hm
      · simp only [List.mem_cons (b := ','), List.mem_cons (b := ' ')] at hm
        rcases hm with hm | hm | hm
        · exact hcomma hm
        · exact hspace hm
        · exact hentries es hm
    | space name => exact fun hm => (List.mem_append.mp hm).elim hstar (name.2.not_mem hword)
    | types es => exact fun hm => (List.mem_append.mp hm).elim htype (hentries es)
  unfold before
  simp only [List.mem_append, List.mem_cons, not_or]
  exact ⟨himport, hspace, hclause, hfrom⟩

theorem Clause.before_not_isQuote (c : Clause) : ∀ x ∈ c.before, isQuote x = false :=
  isQuote_eq_false (c.not_mem_before (by simp)) (c.not_mem_before (by simp))

theorem Clause.scan_before (c : Clause) : scan false c.before = some false :=
  guarded_staticParts _ (before_mem_staticParts c)

/-! ## Statements that are read -/

section Read

variable (ps : List Pattern) {n : Nat} {s : Spot} {i : Statement} {r : Text} (hs : s.ahead = i.text ++ r)

include hs

theorem ahead_statement : s.ahead = i.clause.before ++ '\'' :: (i.source ++ '\'' :: (';' :: i.gap ++ r)) := by
  rw [hs, i.text_eq, Statement.ending]
  simp

/-- A statement that a pattern reads is one match, and the search goes on behind it. -/
theorem matchesFrom_read (hplain : (sequence (lit "import" :: ps ++ [specifier n])).plain = true)
    (hguard : Guarded (sequence (lit "import" :: ps)).language)
    (hmem : i.clause.before ∈ (sequence (lit "import" :: ps)).language) :
    ∃ m t, s.Reads i.text t ∧ (sequence (lit "import" :: ps ++ [specifier n])).matchesFrom s =
      m :: (sequence (lit "import" :: ps ++ [specifier n])).matchesFrom t ∧ m.group? n = some i.source ∧
      ∃ u ∈ (sequence (lit "import" :: ps)).outcomes { spot := s }, s.Reads i.clause.before u.spot ∧
        ∀ k, k ≠ n → m.group? k = u.kept? k := by
  have hend : scan false i.clause.before ≠ some true := by
    rw [i.clause.scan_before]
    decide
  obtain ⟨m, hm⟩ := exists_at?_specified i.specifies (ahead_statement hs) hplain hmem
  obtain ⟨u, hu, -, hread, hclosed, hgroup, hgroups⟩ := exists_of_at?_specified i.clause.before_not_isQuote i.specifies
    (ahead_statement hs) hguard hend hm
  have hbehind : m.closed.spot.ahead = (';' :: i.gap) ++ r := by
    refine hclosed.ahead_of_append ?_
    rw [ahead_statement hs]
    simp
  obtain ⟨t, ht, -⟩ := Spot.exists_reads hbehind
  have hlt : m.closed.spot.left < m.opened.left := by
    obtain ⟨hopened, -⟩ := mem_outcomes_of_at? hm
    rw [hopened, hclosed.left_eq]
    simp only [List.length_append, List.length_cons]
    omega
  have hskips : (sequence (lit "import" :: ps ++ [specifier n])).Skips (';' :: i.gap) r :=
    skips_of_not_mem (k := "mport") i.gap_not_mem
  refine ⟨m, t, ?_, ?_, hgroup, u, hu, hread, hgroups⟩
  · have hwhole := hclosed.trans ht
    rw [i.text_eq, Statement.ending]
    simpa using hwhole
  · rw [matchesFrom_of_at? hm hlt, hskips.matchesFrom_eq hbehind ht]

end Read

/-! ## Statements that are passed over -/

theorem import_of_at? {s : Spot} {m : Match} (h : boundImport.at? s = some m) :
    ∃ b r, isBlank b = true ∧ s.ahead = "import".toList ++ b :: r := by
  rw [boundImport_eq] at h
  obtain ⟨-, hm⟩ := mem_outcomes_of_at? h
  obtain ⟨u, hu, hm⟩ := mem_outcomes_sequence_cons.mp hm
  obtain ⟨v, hv, -⟩ := mem_outcomes_sequence_cons.mp hm
  obtain ⟨k, hk, hkeyword⟩ := reads_language_of_mem_outcomes hu
  obtain ⟨gap, hgap, hblank⟩ := reads_language_of_mem_outcomes hv
  obtain rfl : k = "import".toList := mem_language_lit.mp hk
  obtain ⟨hne, hall⟩ := mem_language_blanks1.mp hgap
  obtain ⟨b, gap, rfl⟩ := List.exists_cons_of_ne_nil hne
  refine ⟨b, gap ++ v.spot.ahead, hall b List.mem_cons_self, ?_⟩
  rw [hkeyword.ahead_eq, hblank.ahead_eq]
  rfl

theorem boundImport_skips_of_not_mem {w r : Text} (h : 'i' ∉ w) : boundImport.Skips w r :=
  skips_of_not_mem (k := "mport") h

section Skip

variable {i : Statement} {r : Text}

/-- No match begins in a specifier, as it holds no blank, or behind it. -/
theorem boundImport_skips_ending : boundImport.Skips i.ending r := by
  have hbehind : 'i' ∉ '\'' :: ';' :: i.gap := by
    rw [List.mem_cons, not_or]
    exact ⟨by decide, i.gap_not_mem⟩
  refine Skips.append ?_ (boundImport_skips_of_not_mem hbehind)
  intro a b s hab hb hs
  rw [Option.eq_none_iff_forall_not_mem]
  intro m hm
  obtain ⟨x, z, hx, hahead⟩ := import_of_at? hm
  have hstarts : "import".toList ++ [x] <+: b := by
    have hmark : '\'' ∉ "import".toList ++ [x] := by
      rw [List.mem_append, List.mem_singleton, not_or]
      refine ⟨by decide, ?_⟩
      rintro rfl
      cases hx
    refine prefix_of_not_mem (t := z) (b := ';' :: i.gap ++ r) hmark ?_
    rw [List.append_assoc]
    exact hahead.symm.trans hs
  have hmem : x ∈ '\'' :: i.source := by
    rw [hab]
    exact List.mem_append_right a (hstarts.subset (by simp))
  have hinked : isBlank x = false := by
    rcases List.mem_cons.mp hmem with rfl | hm
    · decide
    · exact (i.source_plain x hm).2
  rw [hinked] at hx
  cases hx

/-- Where a text up to the specifier has no reading, no match begins. -/
theorem at?_eq_none_of_not_reading {s : Spot} {w : Text} (hquote : ∀ x ∈ w, isQuote x = false)
    (hend : scan false w ≠ some true) (h : ∀ k, scan false w = some false → ¬ Reading w k)
    (hs : s.ahead = w ++ '\'' :: (i.source ++ '\'' :: r)) : boundImport.at? s = none := by
  rw [Option.eq_none_iff_forall_not_mem]
  intro m hm
  rw [boundImport_eq] at hm
  obtain ⟨u, hu, hmem, hread, -⟩ := exists_of_at?_specified hquote i.specifies hs guarded_boundParts hend hm
  exact h _ (guarded_boundParts w hmem) (reading_of_mem_outcomes hu hread)

theorem at?_eq_none_of_captured?_eq_none {s : Spot} (hc : i.clause.captured? = none) (hs : s.ahead = i.text ++ r) :
    boundImport.at? s = none := by
  have hend : scan false i.clause.before ≠ some true := by
    rw [i.clause.scan_before]
    decide
  refine at?_eq_none_of_not_reading i.clause.before_not_isQuote hend (fun k _ hk => ?_) (ahead_statement hs)
  rw [hk.eq_captured] at hc
  cases hc

/-- No match begins in a statement that nothing is captured of, if none begins in the middle of its clause. -/
theorem boundImport_skips_of_middle {head middle tail : Text} (hnone : i.clause.captured? = none)
    (htext : i.text = 'i' :: (head ++ (middle ++ (tail ++ i.ending)))) (hhead : 'i' ∉ head) (htail : 'i' ∉ tail)
    (hmiddle : boundImport.Skips middle (tail ++ i.ending ++ r)) : boundImport.Skips i.text r := by
  have hfirst (s : Spot) (hs : s.ahead = i.text ++ r) : boundImport.at? s = none :=
    at?_eq_none_of_captured?_eq_none hnone hs
  have hbehind := (boundImport_skips_of_not_mem htail).append (boundImport_skips_ending (i := i) (r := r))
  rw [htext] at hfirst ⊢
  exact Skips.cons hfirst ((boundImport_skips_of_not_mem hhead).append (hmiddle.append hbehind))

theorem boundImport_skips_outside {w tail : Text} (hw : ∀ x ∈ ['\'', '"', '\x7b', '\x7d'], x ∉ w)
    (htail : ∀ c ∈ tail, isQuote c = false) (hend : scan false tail ≠ some true)
    (h : scan false tail = some false → ∀ a b, w = a ++ b → b ≠ [] → ∀ k, ¬ Reading (b ++ tail) k) :
    boundImport.Skips w (tail ++ i.ending ++ r) := by
  intro a b s hab hb hs
  have houtside (x : Char) (hx : x ∈ ['\'', '"', '\x7b', '\x7d']) : x ∉ b := fun hm =>
    hw x hx (hab ▸ List.mem_append_right a hm)
  have hquote : ∀ c ∈ b ++ tail, isQuote c = false :=
    List.forall_mem_append.mpr ⟨isQuote_eq_false (houtside _ (by simp)) (houtside _ (by simp)), htail⟩
  have hscan : scan false (b ++ tail) = scan false tail := by
    rw [scan_append, scan_outside houtside]
    rfl
  rw [← hscan] at hend h
  refine at?_eq_none_of_not_reading (i := i) (r := ';' :: i.gap ++ r) hquote hend
    (fun k hk => h hk a b hab hb k) ?_
  rw [hs]
  simp [Statement.ending]

theorem outside_sign {x : Char} (hx : x ∈ ['\'', '"', '\x7b', '\x7d']) : isWordChar x = false ∧ x ≠ ' ' ∧ x ≠ ',' := by
  have hall : ∀ x ∈ ['\'', '"', '\x7b', '\x7d'], isWordChar x = false ∧ x ≠ ' ' ∧ x ≠ ',' := by decide +kernel
  exact hall x hx

/-- No match begins in a namespace: behind its name there is nothing that could be imported. -/
theorem boundImport_skips_space {name : Name} (h : i.clause = .space name) : boundImport.Skips i.text r := by
  have hnone : i.clause.captured? = none := by
    rw [h]
    rfl
  have htext : i.text = 'i' :: ("mport * as ".toList ++ (name.1 ++ (fromText ++ i.ending))) := by
    rw [i.text_eq, h]
    unfold Clause.before Clause.text
    simp
  refine boundImport_skips_of_middle hnone htext (by decide) (by decide) ?_
  refine boundImport_skips_outside (fun x hx => name.2.not_mem (outside_sign hx).1) (by decide) (by decide) ?_
  intro _ a b hab hb k
  have hword : b.all isWordChar = true := List.all_eq_true.mpr fun c hc =>
    List.all_eq_true.mp name.2.2 c (hab ▸ List.mem_append_right a hc)
  exact not_reading_word ⟨hb, hword⟩ k

/-- No match begins in types: between their brackets the closing one comes first. -/
theorem boundImport_skips_types {es : Entries} (h : i.clause = .types es) : boundImport.Skips i.text r := by
  have hnone : i.clause.captured? = none := by
    rw [h]
    rfl
  have htext : i.text = 'i' :: ("mport type \x7b".toList ++ (es.text ++ ('\x7d' :: fromText ++ i.ending))) := by
    rw [i.text_eq, h]
    unfold Clause.before Clause.text
    simp
  refine boundImport_skips_of_middle hnone htext (by decide) (by decide) ?_
  refine boundImport_skips_outside (fun x hx => es.not_mem_text (outside_sign hx)) (by decide) (by decide) ?_
  intro hscan
  exact absurd hscan (by decide)

end Skip

/-! ## Blocks -/

def block (is : List Statement) : Text := is.flatMap (·.text)

/-- What is collected from the matches of a block is collected statement by statement. -/
theorem flatMap_matchesFrom_block {α : Type} {p : Pattern} {f : Match → List α} {g : Statement → List α}
    (hstep : ∀ (i : Statement) (s : Spot) (r : Text), s.ahead = i.text ++ r → ∃ found t, s.Reads i.text t ∧
      p.matchesFrom s = found ++ p.matchesFrom t ∧ found.flatMap f = g i)
    (hend : ∀ s : Spot, s.ahead = [] → p.matchesFrom s = []) {is : List Statement} {s : Spot}
    (hs : s.ahead = block is) : (p.matchesFrom s).flatMap f = is.flatMap g := by
  induction is generalizing s with
  | nil => rw [hend s hs]; rfl
  | cons i is ih =>
    obtain ⟨found, t, hread, hfound, hcollected⟩ := hstep i s (block is) hs
    have hrest : t.ahead = block is := hread.ahead_of_append hs
    rw [hfound, List.flatMap_append, hcollected, ih hrest, List.flatMap_cons]

theorem matchesFrom_of_end {k : Text} (hk : k ≠ []) {ps : List Pattern} {s : Spot} (hs : s.ahead = []) :
    (sequence (lit k :: ps)).matchesFrom s = [] := by
  refine matchesFrom_of_nil hs ?_
  rw [Option.eq_none_iff_forall_not_mem]
  intro m hm
  have hstarts := prefix_of_at? hm
  rw [hs, List.prefix_nil] at hstarts
  exact hk hstarts

/-- One statement is one match of the pattern for modules. -/
theorem staticImport_step (i : Statement) (s : Spot) (r : Text) (hs : s.ahead = i.text ++ r) :
    ∃ found t, s.Reads i.text t ∧ staticImport.matchesFrom s = found ++ staticImport.matchesFrom t ∧
      (found.flatMap fun m => (moduleId? (m.group 1)).toList) = (moduleId? i.source).toList := by
  obtain ⟨m, t, hread, hmatches, hgroup, -⟩ := matchesFrom_read staticParts.tail (n := 1) hs
    (by decide +kernel) guarded_staticParts (before_mem_staticParts i.clause)
  refine ⟨[m], t, hread, hmatches, ?_⟩
  have hsource : m.group 1 = i.source := by
    rw [Match.group, hgroup]
    rfl
  rw [List.flatMap_singleton, hsource]

theorem bindingsOf_eq {ignored : List Text} {c : Clause} {source : Text} {m : Match} {k : Captured}
    (hk : c.captured? = some k) (hlead : m.group? 1 = k.lead) (hbraced : m.group? 2 = k.braced)
    (hlone : m.group? 3 = k.lone) (hsource : m.group? 4 = some source) :
    (bindingsOf ignored m).filter (!·.name.isEmpty) = (c.bound ignored).map fun name => { name, source } := by
  have hspecifier : m.group 4 = source := by
    rw [Match.group, hsource]
    rfl
  have hname (n : Name) :
      ([n.1].filter (!ignored.contains ·)).filter (!·.isEmpty) = [n.1].filter (!ignored.contains ·) := by
    refine List.filter_eq_self.mpr fun name h => ?_
    rw [List.mem_singleton.mp (List.mem_filter.mp h).1]
    simpa using n.2.1
  unfold bindingsOf
  rw [hlead, hbraced, hlone, hspecifier, List.filter_map]
  refine congrArg (List.map _) ?_
  show List.filter (fun name : Text => !name.isEmpty) _ = _
  cases c with
  | single name =>
    obtain rfl := Option.some.inj hk
    exact (congrArg _ (List.append_nil _)).trans (hname name)
  | named es =>
    obtain rfl := Option.some.inj hk
    exact es.filterMap_entryName?
  | both name es =>
    obtain rfl := Option.some.inj hk
    exact (List.filter_append ..).trans (congrArg₂ (· ++ ·) (hname name) es.filterMap_entryName?)
  | space name => cases hk
  | types es => cases hk

/-- One statement is one match of the pattern for bindings, or none. -/
theorem boundImport_step (ignored : List Text) (i : Statement) (s : Spot) (r : Text) (hs : s.ahead = i.text ++ r) :
    ∃ found t, s.Reads i.text t ∧ boundImport.matchesFrom s = found ++ boundImport.matchesFrom t ∧
      (found.flatMap fun m => (bindingsOf ignored m).filter (!·.name.isEmpty)) = i.bindings ignored := by
  cases hk : i.clause.captured? with
  | some k =>
    obtain ⟨m, t, hread, hmatches, hgroup, u, hu, hbefore, hgroups⟩ := matchesFrom_read boundParts.tail (n := 4) hs
      (by decide +kernel) guarded_boundParts (before_mem_boundParts hk)
    have hreading := (reading_of_mem_outcomes hu hbefore).eq_captured
    rw [hk] at hreading
    obtain rfl := Option.some.inj hreading
    refine ⟨[m], t, hread, hmatches, ?_⟩
    rw [List.flatMap_singleton]
    exact bindingsOf_eq hk (hgroups 1 (by decide)) (hgroups 2 (by decide)) (hgroups 3 (by decide)) hgroup
  | none =>
    obtain ⟨t, hread, -⟩ := Spot.exists_reads hs
    have hskips : boundImport.Skips i.text r ∧ i.clause.bound ignored = [] := by
      cases hc : i.clause with
      | space name => exact ⟨boundImport_skips_space hc, rfl⟩
      | types es => exact ⟨boundImport_skips_types hc, rfl⟩
      | single name => rw [hc] at hk; cases hk
      | named es => rw [hc] at hk; cases hk
      | both name es => rw [hc] at hk; cases hk
    refine ⟨[], t, hread, hskips.1.matchesFrom_eq hs hread, ?_⟩
    rw [Statement.bindings, hskips.2]
    rfl

/-! ## Maps in the order of insertion -/

/-- The source that a name was bound to last. -/
def latest (bs : List ImportBinding) (name : Text) : Text :=
  ((bs.reverse.find? (·.name == name)).map (·.source)).getD []

/-- The bound names in the order of their first binding, each with its latest source. -/
def ordered (bs : List ImportBinding) : List ImportBinding :=
  (distinct (bs.map (·.name))).map fun name => { name, source := latest bs name }

theorem latest_concat (bs : List ImportBinding) (b : ImportBinding) (name : Text) :
    latest (bs ++ [b]) name = if b.name = name then b.source else latest bs name := by
  unfold latest
  rw [List.reverse_append, List.reverse_singleton, List.singleton_append, List.find?_cons]
  by_cases h : b.name = name
  · rw [if_pos h, beq_iff_eq.mpr h]
    rfl
  · rw [if_neg h, beq_eq_false_iff_ne.mpr h]

/-- Binding a name that is there keeps its place; a new name comes last. -/
theorem ordered_concat (bs : List ImportBinding) (b : ImportBinding) :
    ordered (bs ++ [b]) = if (ordered bs).any (·.name == b.name) then
      (ordered bs).map fun a => if a.name == b.name then b else a
    else ordered bs ++ [b] := by
  have hnames : distinct ((bs ++ [b]).map (·.name)) = addNew (distinct (bs.map (·.name))) b.name := by
    rw [List.map_append]
    exact distinct_concat _ _
  rw [ordered, ordered, hnames, addNew]
  by_cases hold : b.name ∈ distinct (bs.map (·.name))
  · rw [if_pos (List.contains_iff_mem.mpr hold), if_pos, List.map_map]
    · apply List.map_congr_left
      intro name _
      rw [latest_concat, Function.comp_apply]
      by_cases hsame : b.name = name
      · rw [if_pos hsame, if_pos (beq_iff_eq.mpr hsame.symm), ← hsame]
      · rw [if_neg hsame, if_neg fun h => hsame (beq_iff_eq.mp h).symm]
    · rw [List.any_eq_true]
      exact ⟨_, List.mem_map_of_mem hold, beq_self_eq_true _⟩
  · rw [if_neg fun h => hold (List.contains_iff_mem.mp h), if_neg, List.map_append, List.map_singleton, latest_concat,
      if_pos rfl]
    · congr 1
      apply List.map_congr_left
      intro name hname
      have hother : b.name ≠ name := fun h => hold (h ▸ hname)
      rw [latest_concat, if_neg hother]
    · rw [List.any_eq_true]
      intro h
      obtain ⟨a, ha, hsame⟩ := h
      obtain ⟨name, hname, rfl⟩ := List.mem_map.mp ha
      obtain rfl : name = b.name := beq_iff_eq.mp hsame
      exact hold hname

/-- Binding names one by one makes such a map of those that are not empty. -/
theorem foldl_bind_eq_ordered (bs : List ImportBinding) :
    bs.foldl bind [] = ordered (bs.filter (!·.name.isEmpty)) := by
  induction bs using List.reverseRecOn with
  | nil => rfl
  | append_singleton bs b ih =>
    rw [List.foldl_concat, ih, bind, List.filter_append]
    by_cases hb : b.name.isEmpty = true
    · rw [if_pos hb, List.filter_cons_of_neg (by simp [hb]), List.filter_nil, List.append_nil]
    · rw [if_neg hb, List.filter_cons_of_pos (by simp [hb]), List.filter_nil]
      exact (ordered_concat _ b).symm

/-! ## What is read off a block -/

theorem bindingsIn_block (ignored : List Text) (is : List Statement) :
    bindingsIn ignored (block is) = ordered (is.flatMap (·.bindings ignored)) := by
  have hcollected : ((boundImport.matchesIn (block is)).flatMap fun m => (bindingsOf ignored m).filter (!·.name.isEmpty)) =
      is.flatMap (·.bindings ignored) :=
    flatMap_matchesFrom_block (boundImport_step ignored) (fun s hs => matchesFrom_of_end (by decide) hs) rfl
  rw [bindingsIn, foldl_bind_eq_ordered, List.filter_flatMap, hcollected]

/-! ### Modules -/

theorem round_not_mem_block (is : List Statement) : '(' ∉ block is := by
  intro hm
  obtain ⟨i, -, hi⟩ := List.mem_flatMap.mp hm
  rw [i.text_eq, Statement.ending] at hi
  have hsource : '(' ∉ i.source := fun h => (i.source_plain '(' h).1 (by simp)
  have hgap : '(' ∉ i.gap := i.gap_blank.not_mem (by decide)
  simp only [List.mem_append, List.mem_cons] at hi
  rcases hi with h | (h | h) | h | h | h
  · exact i.clause.not_mem_before (by simp) h
  · cases h
  · exact hsource h
  · cases h
  · cases h
  · exact hgap h

/-- A pattern that has to read a character finds nothing in a text without it. -/
theorem matchesIn_eq_nil {p : Pattern} {c : Char} {code : Text} (hp : ∀ w ∈ p.language, c ∈ w) (hcode : c ∉ code) :
    p.matchesIn code = [] := by
  rw [List.eq_nil_iff_forall_not_mem]
  intro m hm
  have hmatch := isMatch_of_mem_matchesIn hm
  obtain ⟨a, ha⟩ := hmatch.opened_behind
  obtain ⟨w, hw, hr⟩ := reads_language_of_mem_outcomes hmatch.closed_mem
  have hmem : c ∈ m.opened.ahead := hr.isInfix.subset (hp w hw)
  exact hcode (ha.isSuffix.subset hmem)

theorem round_mem_of_call (ps : List Pattern) {qs : List Pattern} {w : Text}
    (h : w ∈ (sequence (ps ++ lit "(" :: qs)).language) : '(' ∈ w := by
  rw [language_sequence_append] at h
  obtain ⟨u, -, v, hv, rfl⟩ := Language.mem_mul.mp h
  obtain ⟨k, hk, r, -, rfl⟩ := exists_of_mem_cons hv
  obtain rfl : k = ['('] := mem_language_lit.mp hk
  exact List.mem_append_right u List.mem_cons_self

theorem modulesIn_block (is : List Statement) :
    modulesIn (block is) = distinct (is.filterMap fun i => moduleId? i.source) := by
  have hstatic : (staticImport.matchesIn (block is)).filterMap (fun m => moduleId? (m.group 1)) =
      is.filterMap fun i => moduleId? i.source := by
    rw [List.filterMap_eq_flatMap_toList, List.filterMap_eq_flatMap_toList]
    exact flatMap_matchesFrom_block staticImport_step (fun s hs => matchesFrom_of_end (by decide) hs) rfl
  have hdynamic : dynamicImport.matchesIn (block is) = [] :=
    matchesIn_eq_nil (fun w hw => round_mem_of_call [lit "import", blanks] hw) (round_not_mem_block is)
  have hrequire : requireCall.matchesIn (block is) = [] :=
    matchesIn_eq_nil (fun w hw => round_mem_of_call [assert .wordEdge, lit "require", blanks] hw)
      (round_not_mem_block is)
  unfold modulesIn
  rw [List.flatMap_cons, List.flatMap_cons, List.flatMap_singleton, hstatic, hdynamic, hrequire]
  exact congrArg distinct (List.append_nil _)

/-- What is read off a block of import statements: the names that its clauses bind, and the modules of all statements. -/
theorem read_block (ignored : List Text) (is : List Statement) :
    bindingsIn ignored (block is) = ordered (is.flatMap (·.bindings ignored)) ∧
      modulesIn (block is) = distinct (is.filterMap fun i => moduleId? i.source) :=
  ⟨bindingsIn_block ignored is, modulesIn_block is⟩

/-- Keywords as names, forms that bind nothing, and a name that is bound twice. -/
def keywordBlock : List Statement :=
  let name (t : Text) (h : t ≠ [] ∧ t.all isWordChar = true) : Name := ⟨t, h⟩
  let as : Name := name "as" ⟨by decide, by decide +kernel⟩
  let type : Name := name "type" ⟨by decide, by decide +kernel⟩
  let from' : Name := name "from" ⟨by decide, by decide +kernel⟩
  let import' : Name := name "import" ⟨by decide, by decide +kernel⟩
  [{ clause := .single type, source := "a/b" },
    { clause := .both import' [.renamed as from' (by decide), .type as], source := "@s/p/q" },
    { clause := .space import', source := "./x.ts" },
    { clause := .types [.plain import' (by decide)], source := ".." },
    { clause := .named [.plain from' (by decide)], source := "./y/z.tsx" }]

example : block keywordBlock =
    "import type from 'a/b';\n" ++ "import import, \x7b as as from, type as \x7d from '@s/p/q';\n" ++
      "import * as import from './x.ts';\n" ++ "import type \x7b import \x7d from '..';\n" ++
      "import \x7b from \x7d from './y/z.tsx';\n" := by decide +kernel

example : bindingsIn ["import"] (block keywordBlock) = [⟨"type", "a/b"⟩, ⟨"from", "./y/z.tsx"⟩] ∧
    modulesIn (block keywordBlock) = ["a".toList, "@s/p".toList, "x".toList, "z".toList] := by decide +kernel

end Imports

end SourceArchive
