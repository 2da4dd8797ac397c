import SourceArchive.Proofs.PlainWords

/-!
# The labels of a file fit together

The role, the framework and the flow come from separate rules, which look at different views of the path and at different
parts of the code.  Still, under the usual settings some labels force others.  Most of that is one fact: a file whose path
holds a shared fragment is shared, and the rules of several roles ask for such a fragment.  Only the role of middleware is
read off the name alone, so there it matters that the lowercase name ends the lowercase path, although a sigma is put in
lowercase by its neighbours.
-/

namespace SourceArchive

open Evidence (rooted)

/-! ## Lowercase names -/

theorem startsCased_append_slash (a r : Text) : startsCased (a ++ '/' :: r) = startsCased a := by
  have hslash : isCaseIgnorable '/' = false ∧ isCased '/' = false := by decide
  induction a with
  | nil => simp [startsCased, hslash]
  | cons c a ih =>
    by_cases hc : isCaseIgnorable c = true
    · simpa [startsCased, hc] using ih
    · simp [startsCased, hc]

/-- What stands before a slash is no context for what stands behind it. -/
theorem lowercaseFrom_append_slash (before r t : Text) : lowercaseFrom (before ++ '/' :: r) t = lowercaseFrom before t := by
  induction t generalizing before with
  | nil => rfl
  | cons c t ih =>
    have hrest := ih (c :: before)
    rw [List.cons_append] at hrest
    rw [lowercaseFrom, lowercaseFrom, hrest, lowercaseAt, lowercaseAt, startsCased_append_slash]

theorem lowercaseFrom_isSuffix (before a b : Text) :
    lowercaseFrom (a.reverse ++ before) b <:+ lowercaseFrom before (a ++ b) := by
  induction a generalizing before with
  | nil => exact List.suffix_refl _
  | cons c a ih =>
    have h := ih (c :: before)
    rw [List.reverse_cons, List.append_assoc, List.singleton_append, List.cons_append, lowercaseFrom]
    exact h.trans (List.suffix_append _ _)

theorem fileName_eq_or (path : Text) : fileName path = path ∨ ∃ directory, path = directory ++ '/' :: fileName path := by
  by_cases hmem : '/' ∈ path
  · right
    obtain ⟨name, directory, hreverse, hname⟩ := List.eq_append_cons_of_mem (List.mem_reverse.mpr hmem)
    have hpath : path = directory.reverse ++ '/' :: name.reverse := by
      rw [← List.reverse_reverse path, hreverse, List.reverse_append, List.reverse_cons, List.append_assoc]
      rfl
    have hlast : fileName path = name.reverse := by
      have hsplit : Text.splitAt '/' path = Text.splitAt '/' directory.reverse ++ [name.reverse] := by
        rw [hpath, Text.splitAt_append_cons, Text.splitAt_of_not_mem (t := name.reverse) (by simpa using hname)]
      rw [fileName, Text.lastPiece, hsplit]
      exact List.getLastD_concat
    exact ⟨directory.reverse, hlast ▸ hpath⟩
  · left
    rw [fileName, Text.lastPiece, Text.splitAt_of_not_mem hmem]
    rfl

/-- The lowercase name ends the lowercase path. -/
theorem lowercase_fileName_isSuffix (path : Text) : (fileName path).lowercase <:+ path.lowercase := by
  rcases fileName_eq_or path with h | ⟨directory, h⟩
  · rw [h]
  · have hsuffix := lowercaseFrom_isSuffix [] (directory ++ ['/']) (fileName path)
    rw [List.reverse_append, List.reverse_singleton, List.singleton_append, List.cons_append] at hsuffix
    have hcontext := lowercaseFrom_append_slash [] (directory.reverse ++ []) (fileName path)
    rw [List.nil_append] at hcontext
    rw [hcontext, List.append_assoc, List.singleton_append, ← h] at hsuffix
    exact hsuffix

namespace Evidence

variable {path code : Text}

theorem isSuffix_rooted (lower : Text) : lower <:+ rooted lower := by
  rw [rooted]
  split
  · exact List.suffix_refl _
  · exact List.suffix_cons _ _

theorem pathHas_iff {f : Text} : (of path code).pathHas f = true ↔ f <:+: rooted path.lowercase := Text.contains_iff

theorem pathHasAny_iff {fs : List Text} :
    (of path code).pathHasAny fs = true ↔ ∃ f ∈ fs, f <:+: rooted path.lowercase := by
  simp only [pathHasAny, List.any_eq_true, pathHas_iff]

end Evidence

/-! ## Roles and frameworks -/

/-- A label other than the default comes from a rule with that label. -/
theorem RuleTable.exists_rule {α β : Type} {t : RuleTable α β} {x : α} {label : β} (h : t.labelOf x = label)
    (hne : label ≠ t.default) : ∃ r ∈ t.rules, r.label = label ∧ r.holds x = true := by
  subst h
  obtain ⟨r, hr, hholds, hlabel⟩ := exists_rule_of_labelOf_ne hne
  exact ⟨r, hr, hlabel, hholds⟩

namespace RoleRules

variable {s : AnalysisSettings} {e : Evidence}

theorem inServiceDirectory_of_service (h : (table s).labelOf e = .service) : inServiceDirectory e = true := by
  obtain ⟨hdirectory, -⟩ : inServiceDirectory e = true ∧ e.pathHasAny s.serviceKeywords = true := by
    simpa [table] using RuleTable.exists_rule h nofun
  exact hdirectory

theorem isMiddleware_of_middleware (h : (table s).labelOf e = .middleware) : isMiddleware e = true := by
  simpa [table] using RuleTable.exists_rule h nofun

theorem pathHasAny_of_contextProvider (h : (table s).labelOf e = .contextProvider) :
    e.pathHasAny ["/context/", "/providers/"] = true := by
  simpa [table] using RuleTable.exists_rule h nofun

theorem labelOf_of_inApiDirectory (h : e.inApiDirectory = true) : (table s).labelOf e = .apiRoute := by
  simp [table, RuleTable.labelOf, RuleTable.rule?, h]

/-- A middleware module is named so, and therefore its path holds the word. -/
theorem infix_of_isMiddleware {path code : Text} (h : isMiddleware (.of path code) = true) :
    "middleware".toList <:+: rooted path.lowercase := by
  have hname : (fileName path).lowercase <:+ rooted path.lowercase :=
    (lowercase_fileName_isSuffix path).trans (Evidence.isSuffix_rooted _)
  have hin {tail : Text} (htail : "middleware".toList <:+: tail) (hends : tail <:+ (fileName path).lowercase) :
      "middleware".toList <:+: rooted path.lowercase := htail.trans (hends.trans hname).isInfix
  rw [isMiddleware, Bool.or_eq_true, Text.endsWith_iff, Text.endsWith_iff] at h
  rcases h with h | h
  · exact hin (by decide) h
  · exact hin (by decide) h

end RoleRules

namespace FrameworkRules

theorem labelOf_inApiDirectory_iff {e : Evidence} :
    table.labelOf e = .nextApiRoute ∨ table.labelOf e = .node ↔ e.inApiDirectory = true := by
  constructor
  · rintro (h | h)
    · obtain ⟨hdirectory, -⟩ : e.inApiDirectory = true ∧ usesRouteTypes e = true := by
        simpa [table] using RuleTable.exists_rule h nofun
      exact hdirectory
    · simpa [table] using RuleTable.exists_rule h nofun
  · intro h
    by_cases htypes : usesRouteTypes e = true
    · exact Or.inl (by simp [table, RuleTable.labelOf, RuleTable.rule?, h, htypes])
    · exact Or.inr (by simp [table, RuleTable.labelOf, RuleTable.rule?, h, htypes])

end FrameworkRules

/-! ## Flows -/

/-- What speaks for a kind of business users: fragments of paths, and a word in names and bodies. -/
structure Domain where
  pathMarkers : List Text
  word : Text
  plain : PlainWord word

namespace Domain

def affiliate : Domain where
  pathMarkers := ["/affiliate"]
  word := "affiliate"
  plain := ⟨by decide, by decide⟩

def vendor : Domain where
  pathMarkers := ["/vendor", "/pos", "/inventory", "/staff"]
  word := "vendor"
  plain := ⟨by decide, by decide⟩

/-- Nothing in the path, the name and the first part of the body speaks for the domain. -/
structure Absent (d : Domain) (path code : Text) : Prop where
  not_path : ∀ m ∈ d.pathMarkers, ¬ m <:+: rooted path.lowercase
  not_name : ¬ d.word <:+: (fileName path).lowercase
  not_body : ¬ Text.HoldsWord (code.take 2000) d.word

theorem nameHas_iff (d : Domain) {name : Text} : FlowRules.nameHas name d.word = true ↔ d.word <:+: name := by
  have hne : d.word.isEmpty = false := List.isEmpty_eq_false_iff.mpr d.plain.ne_nil
  rw [FlowRules.nameHas, hne, d.plain.lowercase_eq]
  exact Text.contains_iff

/-- The signal of a domain is missing exactly if nothing speaks for it. -/
theorem absent_iff (d : Domain) {E : PatternEngine} (hE : E.FindsWords) {p : Option (Text → Bool)}
    (hp : WholeWord.read E [d.word] = .ok p) {path code : Text} :
    ((Evidence.of path code).pathHasAny d.pathMarkers || FlowRules.nameHas (fileName path).lowercase d.word ||
      WholeWord.occursIn p (code.take 2000)) = false ↔ d.Absent path code := by
  rw [Bool.eq_false_iff, ne_eq, Bool.or_eq_true, Bool.or_eq_true, Evidence.pathHasAny_iff, d.nameHas_iff,
    WholeWord.occursIn_word_iff hE d.plain hp, not_or, not_or]
  constructor
  · rintro ⟨⟨hpath, hname⟩, hbody⟩
    exact ⟨fun m hm hin => hpath ⟨m, hm, hin⟩, hname, hbody⟩
  · rintro ⟨hpath, hname, hbody⟩
    exact ⟨⟨fun ⟨m, hm, hin⟩ => hpath m hm hin, hname⟩, hbody⟩

end Domain

theorem FlowRules.labelOf_eq_memberOnly_iff (s : FlowSignals) : table.labelOf s = .memberOnly ↔
    s.structuralShared = false ∧ s.affiliate = false ∧ s.vendor = false ∧ s.member = true := by
  obtain ⟨structuralShared, affiliate, vendor, member, routeAffiliate, routeVendor⟩ := s
  revert structuralShared affiliate vendor member routeAffiliate routeVendor
  decide

namespace Classifier

variable {c : Classifier} {path code : Text}

theorem flow_eq_shared {f : Text} (hf : f ∈ c.settings.flow.sharedFragments) (h : f <:+: rooted path.lowercase) :
    c.flow path code = .shared := by
  have hshared : (Evidence.of path code).pathHasAny c.settings.flow.sharedFragments = true :=
    Evidence.pathHasAny_iff.mpr ⟨f, hf, h⟩
  rw [flow, signals, FlowRules.signals, if_pos hshared]
  rfl

theorem read_words (h : c.settings = {}) : WholeWord.read c.engine ["affiliate"] = .ok c.patterns.affiliateBody ∧
    WholeWord.read c.engine ["vendor"] = .ok c.patterns.vendorBody := by
  have hread := FlowSettings.read_lists (AnalysisSettings.read_flow c.read_settings)
  rw [h] at hread
  exact ⟨hread.1, hread.2.1⟩

/-- Under the usual settings a file is one of members exactly if it is not shared, nothing speaks for either domain, and its
path or name marks it so. -/
theorem flow_eq_memberOnly_iff (hengine : c.engine.FindsWords) (h : c.settings = {}) : c.flow path code = .memberOnly ↔
    (∀ f ∈ ({} : FlowSettings).sharedFragments, ¬ f <:+: rooted path.lowercase) ∧
      Domain.affiliate.Absent path code ∧ Domain.vendor.Absent path code ∧
      ("/member".toList <:+: rooted path.lowercase ∨ "member".toList <:+: (fileName path).lowercase) := by
  obtain ⟨haffiliate, hvendor⟩ := read_words h
  rw [flow, FlowRules.labelOf_eq_memberOnly_iff, signals, h, FlowRules.signals]
  split
  · rename_i hshared
    obtain ⟨f, hf, hin⟩ := Evidence.pathHasAny_iff.mp hshared
    exact iff_of_false (fun hsignals => by cases hsignals.1) fun hmember => hmember.1 f hf hin
  · rename_i hshared
    have hnone : ∀ f ∈ ({} : FlowSettings).sharedFragments, ¬ f <:+: rooted path.lowercase := fun f hf hin =>
      hshared (Evidence.pathHasAny_iff.mpr ⟨f, hf, hin⟩)
    have hmember :
        ((Evidence.of path code).pathHasAny ["/member"] || FlowRules.nameHas (fileName path).lowercase "member") = true ↔
          "/member".toList <:+: rooted path.lowercase ∨ "member".toList <:+: (fileName path).lowercase := by
      rw [Bool.or_eq_true, Evidence.pathHasAny_iff]
      refine or_congr (by simp) ?_
      exact Text.contains_iff
    exact and_congr (iff_of_true rfl hnone) (and_congr (Domain.affiliate.absent_iff hengine haffiliate)
      (and_congr (Domain.vendor.absent_iff hengine hvendor) hmember))

/-! ## All labels -/

/-- How the labels of a file fit together. -/
structure Coherent (c : Classifier) (path code : Text) : Prop where
  /-- The frameworks of interfaces go by the directory alone. -/
  interface_iff : c.framework path code = .nextApiRoute ∨ c.framework path code = .node ↔
    "/api/".toList <:+: rooted path.lowercase
  interface : "/api/".toList <:+: rooted path.lowercase → c.role path code = .apiRoute ∧ c.flow path code = .shared
  shared_of_role : c.role path code ∈ [.service, .contextProvider, .middleware] → c.flow path code = .shared
  shared_of_directory : ∀ d ∈ [(Role.hook, "/hooks/".toList), (Role.uiComponent, "/components/".toList),
      (Role.config, "/config/".toList)],
    c.role path code = d.1 → d.2 <:+: rooted path.lowercase → c.flow path code = .shared
  /-- Members come last: all that could make the file shared or one of a domain's is absent. -/
  memberOnly_iff : c.flow path code = .memberOnly ↔
    (∀ f ∈ ({} : FlowSettings).sharedFragments, ¬ f <:+: rooted path.lowercase) ∧
      Domain.affiliate.Absent path code ∧ Domain.vendor.Absent path code ∧
      ("/member".toList <:+: rooted path.lowercase ∨ "member".toList <:+: (fileName path).lowercase)

/-- Under the usual settings, and with an engine that finds words, the labels of every file fit together. -/
theorem coherent (hengine : c.engine.FindsWords) (h : c.settings = {}) (path code : Text) : c.Coherent path code := by
  have hinterface : (Evidence.of path code).inApiDirectory = true ↔ "/api/".toList <:+: rooted path.lowercase :=
    Evidence.pathHas_iff
  have hshared {f : Text} (hf : f ∈ ({} : FlowSettings).sharedFragments) (hin : f <:+: rooted path.lowercase) :
      c.flow path code = .shared := flow_eq_shared (by rwa [h]) hin
  have hany {fs : List Text} (hfs : ∀ f ∈ fs, f ∈ ({} : FlowSettings).sharedFragments)
      (hpath : (Evidence.of path code).pathHasAny fs = true) : c.flow path code = .shared := by
    obtain ⟨f, hf, hin⟩ := Evidence.pathHasAny_iff.mp hpath
    exact hshared (hfs f hf) hin
  constructor
  · rw [← hinterface]
    exact FrameworkRules.labelOf_inApiDirectory_iff
  · intro hin
    exact ⟨RoleRules.labelOf_of_inApiDirectory (hinterface.mpr hin), hshared (by decide) hin⟩
  · intro hrole
    simp only [List.mem_cons, List.not_mem_nil, or_false] at hrole
    rcases hrole with hrole | hrole | hrole
    · exact hany (by decide) (RoleRules.inServiceDirectory_of_service hrole)
    · exact hany (by decide) (RoleRules.pathHasAny_of_contextProvider hrole)
    · exact hshared (by decide) (RoleRules.infix_of_isMiddleware (RoleRules.isMiddleware_of_middleware hrole))
  · intro d hd _ hin
    have hdirectories : ∀ d ∈ [(Role.hook, "/hooks/".toList), (Role.uiComponent, "/components/".toList),
        (Role.config, "/config/".toList)], d.2 ∈ ({} : FlowSettings).sharedFragments := by decide
    exact hshared (hdirectories d hd) hin
  · exact flow_eq_memberOnly_iff hengine h

theorem coherent_member_middleware : ∃ c : Classifier, c.engine = .backtracking ∧ c.settings = {} ∧
    (c.flow "app/Member/page.tsx" "const Affiliates = 1;" = .memberOnly ∧
      c.Coherent "app/Member/page.tsx" "const Affiliates = 1;") ∧
    (c.role "ΟΔΟΣ/My.MIDDLEWARE.tsx" "" = .middleware ∧ c.Coherent "ΟΔΟΣ/My.MIDDLEWARE.tsx" "") := by
  have hread : ((ofSettings {}).toOption.map fun c => (c.flow "app/Member/page.tsx" "const Affiliates = 1;",
      c.role "ΟΔΟΣ/My.MIDDLEWARE.tsx" "")) = some (.memberOnly, .middleware) := by decide +kernel
  obtain ⟨c, hc, hlabels⟩ := WholeWord.exists_of_toOption_map hread
  obtain ⟨hflow, hrole⟩ := Prod.mk.inj hlabels
  obtain ⟨hsettings, hbacktracking⟩ := of_ofSettings hc
  have hengine : c.engine.FindsWords := hbacktracking ▸ PatternEngine.backtracking_findsWords
  exact ⟨c, hbacktracking, hsettings, ⟨hflow, c.coherent hengine hsettings _ _⟩, hrole, c.coherent hengine hsettings _ _⟩

end Classifier

end SourceArchive
