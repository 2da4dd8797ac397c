import Mathlib.Data.List.Infix
import SourceArchive.Pattern.WholeWord
import SourceArchive.Proofs.Reading
import SourceArchive.Proofs.Text

/-!
# What is relied on of an engine

Keyword patterns are joined by bars and put between word edges before an engine sees them.  That the joined text stands for the
alternatives rests on the documented rules of the notation: what a bar, a group, switches and `\b` mean, and that no two groups have
one name.  `Notation` states these rules for two texts and a bar; from them follows what they make of a list of texts.

The rules hold of texts that are self-contained.  Joined with others, an unfinished class or a stray parenthesis may be completed,
and switches go on to hold for the texts behind.
-/

namespace SourceArchive

/-- Whether a fault comes from the end of the text in the middle of a construct: of a class, of switches or of an escape. -/
def PatternFault.isTorn : PatternFault → Bool
  | unclosedClass | unfinishedSwitches | unfinishedEscape => true
  | _ => false

namespace PatternEngine

variable (E : PatternEngine)

/-- Why a text is no pattern. -/
def fault? (t : Text) : Option PatternFault :=
  match E.compile t with
  | .ok _ => none
  | .error f => some f

/-- Whether a text is a pattern. -/
def Compiles (t : Text) : Prop := ∃ m, E.compile t = .ok m

theorem compiles_iff {t : Text} : E.Compiles t ↔ E.fault? t = none := by
  rw [Compiles, fault?]
  cases E.compile t <;> simp

instance (t : Text) : Decidable (E.Compiles t) := decidable_of_iff _ E.compiles_iff.symm

/-- Whether the limits of the engine suffice for a text. -/
def Fits (t : Text) : Prop := E.fault? t ≠ some .tooLarge

instance (t : Text) : Decidable (E.Fits t) := inferInstanceAs (Decidable (_ ≠ _))

/-- Whether a text does not stop at a closing parenthesis without a group, nor at its end in the middle of a construct. -/
def Whole (t : Text) : Prop := ∀ f ∈ E.fault? t, f ≠ .strayParenthesis ∧ f.isTorn = false

instance (t : Text) : Decidable (E.Whole t) := inferInstanceAs (Decidable (∀ _ ∈ _, _))

/-- Whether the limits of the engine suffice for every stretch of the entries, as it is and between word edges. -/
def FitsAll (es : List Text) : Prop :=
  ∀ part, part <:+: es → E.Fits (Text.join "|" part) ∧ E.Fits (WholeWord.source part)

instance (es : List Text) : Decidable (E.FitsAll es) :=
  decidable_of_iff (∀ tail ∈ es.tails, ∀ part ∈ tail.inits, E.Fits (Text.join "|" part) ∧ E.Fits (WholeWord.source part)) <| by
    simp only [FitsAll, List.mem_tails, List.mem_inits, List.infix_iff_prefix_suffix]
    constructor
    · rintro h part ⟨tail, hpart, htail⟩
      exact h tail htail part hpart
    · intro h tail htail part hpart
      exact h part ⟨tail, hpart, htail⟩

/-- Whether a text neither lacks what others could supply nor changes switches for what stands behind it; `keeps` says of which
texts the latter holds. -/
structure SelfContained (keeps : Text → Prop) (t : Text) : Prop where
  whole : E.Whole t
  keeps : keeps t

/-- The rules of the notation, as far as alternatives between word edges are concerned. -/
structure Notation where
  /-- Whether the switches are at the end of a text what they were in front of it, where case is ignored. -/
  keeps : Text → Prop
  /-- The names that a text gives to groups. -/
  names : Text → List Text
  /-- From where to where a pattern matches in any case. -/
  spans : Text → Spot → Spot → Prop
  selfContained_bar {x y : Text} : E.SelfContained keeps x → E.SelfContained keeps y →
    E.SelfContained keeps (x ++ '|' :: y)
  /-- Alternatives are a pattern if both sides are and no name is given twice. -/
  compiles_bar {x y : Text} : E.SelfContained keeps x → E.SelfContained keeps y →
    E.Fits x → E.Fits y → E.Fits (x ++ '|' :: y) →
    (E.Compiles (x ++ '|' :: y) ↔ E.Compiles x ∧ E.Compiles y ∧ (names x).Disjoint (names y))
  mem_names_bar {x y : Text} : E.SelfContained keeps x → E.SelfContained keeps y → E.Compiles (x ++ '|' :: y) →
    ∀ n, n ∈ names (x ++ '|' :: y) ↔ n ∈ names x ∨ n ∈ names y
  /-- A bar separates alternatives. -/
  spans_bar {x y : Text} : E.SelfContained keeps x → E.SelfContained keeps y → E.Compiles (x ++ '|' :: y) →
    ∀ s t, spans (x ++ '|' :: y) s t ↔ spans x s t ∨ spans y s t
  /-- Setting switches, word edges and a group around a text do not make it more or less of a pattern. -/
  compiles_source {x : Text} : E.SelfContained keeps x → E.Fits x → E.Fits (WholeWord.source [x]) →
    (E.Compiles (WholeWord.source [x]) ↔ E.Compiles x)
  /-- `(?i)` is for any case, `(?:` and `)` group, and `\b` asks for a word edge. -/
  matches_source {x : Text} {m : Text → Bool} : E.SelfContained keeps x → E.compile (WholeWord.source [x]) = .ok m →
    ∀ text, (m text = true ↔ ∃ before s t, (Spot.start text).Reads before s ∧ s.isWordEdge = true ∧ spans x s t ∧
      t.isWordEdge = true)

namespace FitsAll

variable {E} {e : Text} {es : List Text}

theorem join (h : E.FitsAll es) : E.Fits (Text.join "|" es) := (h es List.infix_rfl).1

theorem source (h : E.FitsAll es) : E.Fits (WholeWord.source es) := (h es List.infix_rfl).2

theorem of_infix {part : List Text} (h : E.FitsAll es) (hpart : part <:+: es) : E.FitsAll part := fun p hp =>
  h p (hp.trans hpart)

theorem tail (h : E.FitsAll (e :: es)) : E.FitsAll es := h.of_infix (List.suffix_cons e es).isInfix

theorem entry (h : E.FitsAll es) (he : e ∈ es) : E.Fits e ∧ E.Fits (WholeWord.source [e]) := by
  obtain ⟨before, behind, rfl⟩ := List.append_of_mem he
  have hentry := h [e] ⟨before, behind, by simp⟩
  rwa [Text.join_singleton] at hentry

end FitsAll

namespace Notation

variable {E} (N : E.Notation)

/-- Entries that are alternatives of one another if joined by bars. -/
def AllSelfContained (es : List Text) : Prop := ∀ e ∈ es, E.SelfContained N.keeps e

variable {N} {es : List Text}

theorem join_cons_cons (e e' : Text) (es : List Text) :
    Text.join "|" (e :: e' :: es) = e ++ '|' :: Text.join "|" (e' :: es) := by
  rw [Text.join_cons_cons, List.append_assoc]
  rfl

theorem selfContained_join (hne : es ≠ []) (h : N.AllSelfContained es) :
    E.SelfContained N.keeps (Text.join "|" es) := by
  induction es with
  | nil => exact absurd rfl hne
  | cons e es ih =>
    obtain ⟨he, hes⟩ := List.forall_mem_cons.mp h
    cases es with
    | nil => rwa [Text.join_singleton]
    | cons e' es =>
      rw [join_cons_cons]
      exact N.selfContained_bar he (ih (List.cons_ne_nil _ _) hes)

/-- The first of the joined entries is an alternative to the others. -/
theorem compiles_join_cons {e e' : Text} (h : N.AllSelfContained (e :: e' :: es)) (hfits : E.FitsAll (e :: e' :: es)) :
    E.Compiles (Text.join "|" (e :: e' :: es)) ↔ E.Compiles e ∧ E.Compiles (Text.join "|" (e' :: es)) ∧
      (N.names e).Disjoint (N.names (Text.join "|" (e' :: es))) := by
  obtain ⟨he, hes⟩ := List.forall_mem_cons.mp h
  have hjoin := hfits.join
  rw [join_cons_cons] at hjoin ⊢
  exact N.compiles_bar he (selfContained_join (List.cons_ne_nil _ _) hes) (hfits.entry List.mem_cons_self).1
    hfits.tail.join hjoin

/-- The names in joined entries are those in the entries. -/
theorem mem_names_join (hne : es ≠ []) (h : N.AllSelfContained es) (hfits : E.FitsAll es)
    (hjoin : E.Compiles (Text.join "|" es)) (n : Text) : n ∈ N.names (Text.join "|" es) ↔ ∃ e ∈ es, n ∈ N.names e := by
  induction es with
  | nil => exact absurd rfl hne
  | cons e es ih =>
    cases es with
    | nil => simp [Text.join_singleton]
    | cons e' es =>
      obtain ⟨he, hes⟩ := List.forall_mem_cons.mp h
      obtain ⟨-, hrest, -⟩ := (compiles_join_cons h hfits).mp hjoin
      have hnames := ih (List.cons_ne_nil _ _) hes hfits.tail hrest
      rw [join_cons_cons] at hjoin ⊢
      rw [N.mem_names_bar he (selfContained_join (List.cons_ne_nil _ _) hes) hjoin, hnames]
      exact (List.exists_mem_cons_iff (fun x => n ∈ N.names x) e (e' :: es)).symm

/-- Joined entries are a pattern exactly if each of them is and no two give the same name. -/
theorem compiles_join_iff (hne : es ≠ []) (h : N.AllSelfContained es) (hfits : E.FitsAll es) :
    E.Compiles (Text.join "|" es) ↔
      (∀ e ∈ es, E.Compiles e) ∧ es.Pairwise fun x y => (N.names x).Disjoint (N.names y) := by
  induction es with
  | nil => exact absurd rfl hne
  | cons e es ih =>
    cases es with
    | nil => simp [Text.join_singleton]
    | cons e' es =>
      obtain ⟨-, hes⟩ := List.forall_mem_cons.mp h
      have hrest := ih (List.cons_ne_nil _ _) hes hfits.tail
      have hdisjoint (hjoin : E.Compiles (Text.join "|" (e' :: es))) :
          (N.names e).Disjoint (N.names (Text.join "|" (e' :: es))) ↔
            ∀ x ∈ e' :: es, (N.names e).Disjoint (N.names x) := by
        simp only [List.Disjoint, mem_names_join (List.cons_ne_nil _ _) hes hfits.tail hjoin]
        exact ⟨fun h x hx n hn hnx => h hn ⟨x, hx, hnx⟩, fun h n hn ⟨x, hx, hnx⟩ => h x hx hn hnx⟩
      rw [compiles_join_cons h hfits, List.forall_mem_cons, List.pairwise_cons]
      constructor
      · rintro ⟨he, hjoin, hnames⟩
        obtain ⟨hall, hpairs⟩ := hrest.mp hjoin
        exact ⟨⟨he, hall⟩, (hdisjoint hjoin).mp hnames, hpairs⟩
      · rintro ⟨⟨he, hall⟩, hnames, hpairs⟩
        have hjoin := hrest.mpr ⟨hall, hpairs⟩
        exact ⟨he, hjoin, (hdisjoint hjoin).mpr hnames⟩

/-- Joined entries match where one of them does. -/
theorem spans_join_iff (hne : es ≠ []) (h : N.AllSelfContained es) (hfits : E.FitsAll es)
    (hjoin : E.Compiles (Text.join "|" es)) (s t : Spot) :
    N.spans (Text.join "|" es) s t ↔ ∃ e ∈ es, N.spans e s t := by
  induction es with
  | nil => exact absurd rfl hne
  | cons e es ih =>
    cases es with
    | nil => simp [Text.join_singleton]
    | cons e' es =>
      obtain ⟨he, hes⟩ := List.forall_mem_cons.mp h
      obtain ⟨-, hrest, -⟩ := (compiles_join_cons h hfits).mp hjoin
      have hspans := ih (List.cons_ne_nil _ _) hes hfits.tail hrest
      rw [join_cons_cons] at hjoin ⊢
      rw [N.spans_bar he (selfContained_join (List.cons_ne_nil _ _) hes) hjoin, hspans]
      exact (List.exists_mem_cons_iff (fun x => N.spans x s t) e (e' :: es)).symm

/-! ## Between word edges -/

theorem source_join (es : List Text) : WholeWord.source es = WholeWord.source [Text.join "|" es] := by
  unfold WholeWord.source
  rw [Text.join_singleton]

/-- Entries between word edges are a pattern exactly if each of them is and no two give the same name. -/
theorem compiles_source_iff (hne : es ≠ []) (h : N.AllSelfContained es) (hfits : E.FitsAll es) :
    E.Compiles (WholeWord.source es) ↔
      (∀ e ∈ es, E.Compiles e) ∧ es.Pairwise fun x y => (N.names x).Disjoint (N.names y) := by
  have hsource := hfits.source
  rw [source_join] at hsource ⊢
  rw [N.compiles_source (selfContained_join hne h) hfits.join hsource, compiles_join_iff hne h hfits]

/-- Entries between word edges occur together where one of them does. -/
theorem occurs_source_iff (hne : es ≠ []) (h : N.AllSelfContained es) (hfits : E.FitsAll es) {m : Text → Bool}
    (hm : E.compile (WholeWord.source es) = .ok m) (t : Text) :
    m t = true ↔ ∃ e ∈ es, ∃ m', E.compile (WholeWord.source [e]) = .ok m' ∧ m' t = true := by
  have hall := ((compiles_source_iff hne h hfits).mp ⟨m, hm⟩).1
  have hjoin : E.Compiles (Text.join "|" es) :=
    (compiles_join_iff hne h hfits).mpr ((compiles_source_iff hne h hfits).mp ⟨m, hm⟩)
  rw [source_join] at hm
  rw [N.matches_source (selfContained_join hne h) hm]
  simp only [spans_join_iff hne h hfits hjoin]
  constructor
  · rintro ⟨before, s, u, hs, hstart, ⟨e, he, hspan⟩, hend⟩
    obtain ⟨hentry, hsource⟩ := hfits.entry he
    obtain ⟨m', hm'⟩ := (N.compiles_source (h e he) hentry hsource).mpr (hall e he)
    exact ⟨e, he, m', hm', (N.matches_source (h e he) hm' t).mpr ⟨before, s, u, hs, hstart, hspan, hend⟩⟩
  · rintro ⟨e, he, m', hm', hoccurs⟩
    obtain ⟨before, s, u, hs, hstart, hspan, hend⟩ := (N.matches_source (h e he) hm' t).mp hoccurs
    exact ⟨before, s, u, hs, hstart, ⟨e, he, hspan⟩, hend⟩

end Notation

end PatternEngine

end SourceArchive
