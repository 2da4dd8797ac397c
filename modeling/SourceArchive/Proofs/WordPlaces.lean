import SourceArchive.Proofs.HintChoice

/-!
# Where words and pairs are found

The search for a word and the search for a pair of a name and its setter step over each occurrence, also over one that is
refused.  For names of word characters this loses nothing: between the right boundaries a name begins behind a character
that it does not hold, so no occurrence before it reaches that far.  Whether a word is found is therefore said by the text
alone (`hasWord_iff_delimited`), and so is whether a line takes the hint of a variable (`fits_iff_pairs`).
-/

namespace SourceArchive

open Text Evidenced

namespace Evidenced

/-- One or more alphanumeric characters and underscores. -/
def WordLike (t : Text) : Prop := t ≠ [] ∧ t.all inWord = true

theorem WordLike.not_mem {t : Text} (h : WordLike t) {c : Char} (hc : inWord c = false) : c ∉ t := by
  intro hm
  rw [List.all_eq_true.mp h.2 c hm] at hc
  cases hc

theorem WordLike.startsInked {t : Text} (h : WordLike t) : StartsInked t := by
  refine startsInked_of_inked h.1 fun c hm => ?_
  rw [Bool.eq_false_iff]
  intro hblank
  exact h.not_mem (inWord_of_isIdentifierChar (isIdentifierChar_of_isBlank hblank)) hm

theorem hasWord_iff_delimited {word : Text} (hword : WordLike word) (t : Text) :
    hasWord t word = true ↔ Delimited (inWord · = false) word t := by
  constructor
  · intro h
    rw [hasWord, Bool.and_eq_true] at h
    obtain ⟨o, ho, hbeside⟩ := List.any_eq_true.mp h.2
    obtain ⟨a, ht, hprevious⟩ := foundIn_of_mem_occurrencesAfter ho
    rw [Option.or_none] at hprevious
    rw [hprevious, Bool.and_eq_true, Bool.not_eq_true', Bool.not_eq_true'] at hbeside
    exact ⟨a, o.behind, ht, (Option.any_eq_false _ _).mp hbeside.1, (Option.any_eq_false _ _).mp hbeside.2⟩
  · intro h
    exact hasWord_of_delimited hword.1 (h.imp fun c _ hc => ⟨hc, hword.not_mem hc⟩)

end Evidenced

namespace Hint

theorem fits_iff_pairs {v : StateVariable} (hname : WordLike v.name) (hsetter : WordLike v.setter) (l : Text) :
    fits l v = true ↔ Pairs l v.name v.setter := by
  constructor
  · exact pairs_of_hasPair
  · rintro ⟨a, b, b', c, rfl, hb, hb', hprevious, hnext⟩
    have hbefore : ∀ e ∈ a.getLast?, e ∉ v.name := fun e he =>
      hname.not_mem (inWord_of_isIdentifierChar ((Option.any_eq_false _ _).mp hprevious e he))
    have hpair := hasPair_append hname.1 hsetter.startsInked hb hb' hbefore hprevious hnext
    rw [fits]
    simpa only [List.append_assoc] using hpair

/-! ## The variables that are left -/

/-- The variables that no line has taken. -/
def remaining (unused : List StateVariable) : List Text → List StateVariable
  | [] => unused
  | l :: rest => remaining (if mentionsState l then unused.eraseP (fits l) else unused) rest

theorem insert_nil (body : List Text) : insert [] body = body := by
  induction body with
  | nil => rfl
  | cons l rest ih => rw [insert_cons_of_not_fits rest fun _ v hv => absurd hv List.not_mem_nil, ih]

/-- The lines below are treated as a body of their own, with the variables that are left. -/
theorem insert_append (unused : List StateVariable) (above below : List Text) :
    insert unused (above ++ below) = insert unused above ++ insert (remaining unused above) below := by
  induction above generalizing unused with
  | nil => rfl
  | cons l above ih =>
    rw [List.cons_append, insert, insert, remaining]
    by_cases hl : mentionsState l = true
    · rw [if_pos hl, if_pos hl]
      cases hfind : unused.find? (fits l) with
      | none =>
        rw [List.eraseP_of_forall_not (List.find?_eq_none.mp hfind)]
        dsimp only
        rw [ih, List.cons_append]
      | some v =>
        dsimp only
        rw [ih, List.cons_append, List.cons_append]
    · rw [if_neg hl, if_neg hl]
      dsimp only
      rw [ih, List.cons_append]

/-- A line that mentions a call takes the only variable that is left if it fits, and then the lines below take none. -/
theorem insert_cons_last {l : Text} (hl : mentionsState l = true) (v : StateVariable) (below : List Text) :
    insert [v] (l :: below) = if fits l v then line l v :: l :: below else l :: insert [v] below := by
  by_cases hv : fits l v = true
  · rw [if_pos hv, insert_cons_of_fits below hl hv, insert_nil]
  · rw [if_neg hv, insert_cons_of_not_fits]
    intro _ u hu
    rwa [List.mem_singleton.mp hu]

/-! ## Words and pairs -/

/-- A word is found in a text if and only if it stands there between characters that are not of words.  Where one variable
is left, a line that mentions the call takes its hint if and only if it holds the name and the setter as a pair between
boundaries of identifiers. -/
theorem finds_words_and_pairs :
    (∀ t word : Text, WordLike word → (hasWord t word = true ↔ Delimited (inWord · = false) word t)) ∧
    ∀ (unused : List StateVariable) (above below : List Text) (l : Text) (v : StateVariable),
      remaining unused above = [v] → WordLike v.name → WordLike v.setter → l.contains "useState" = true →
        insert unused (above ++ l :: below) =
          insert unused above ++ (if fits l v then line l v :: l :: below else l :: insert [v] below) ∧
        (fits l v = true ↔ Pairs l v.name v.setter) := by
  refine ⟨fun t word hword => hasWord_iff_delimited hword t, ?_⟩
  intro unused above below l v hleft hname hsetter hl
  have hmentions : mentionsState l = true := by
    rw [mentionsState, hl]
    rfl
  refine ⟨?_, fits_iff_pairs hname hsetter l⟩
  rw [insert_append, hleft, insert_cons_last hmentions]

theorem finds_words_and_pairs_overlapping :
    let taken : StateVariable := ⟨"b", "setB", "string", "c", .useState⟩
    let left : StateVariable := ⟨"aa", "set_aa", "number", "0", .useState⟩
    (WordLike "aa" ∧ WordLike "set_aa" ∧ hasWord "aaa-aa" "aa" = true) ∧
    remaining [taken, left] ["const [b,setB] = useState(c)"] = [left] ∧
    insert [taken, left] ["const [b,setB] = useState(c)", "aaa, set_aa; [aa\u3000, set_aa] = useState(0)", "[aa, set_aa]"] =
      ["// TYPE: string", "const [b,setB] = useState(c)", "// TYPE: number",
        "aaa, set_aa; [aa\u3000, set_aa] = useState(0)", "[aa, set_aa]"].map String.toList := by
  intro taken left
  have hword : WordLike "aa" := ⟨by decide, by decide +kernel⟩
  have hsetter : WordLike "set_aa" := ⟨by decide, by decide +kernel⟩
  have hleft : remaining [taken, left] ["const [b,setB] = useState(c)"] = [left] := by decide +kernel
  have hfound : Delimited (inWord · = false) "aa" "aaa-aa" :=
    ⟨"aaa-", [], rfl, fun c hc => by cases hc; decide +kernel, fun c hc => by cases hc⟩
  obtain ⟨hinsert, hfits⟩ := finds_words_and_pairs.2 [taken, left] ["const [b,setB] = useState(c)"] ["[aa, set_aa]"]
    "aaa, set_aa; [aa\u3000, set_aa] = useState(0)" left hleft hword hsetter (by decide +kernel)
  have hpairs : Pairs "aaa, set_aa; [aa\u3000, set_aa] = useState(0)" left.name left.setter :=
    ⟨"aaa, set_aa; [", "\u3000", " ", "] = useState(0)", rfl, by decide, by decide, by decide +kernel, by decide +kernel⟩
  refine ⟨⟨hword, hsetter, (finds_words_and_pairs.1 _ _ hword).mpr hfound⟩, hleft, hinsert.trans ?_⟩
  rw [if_pos (hfits.mpr hpairs)]
  decide +kernel

end Hint

end SourceArchive
