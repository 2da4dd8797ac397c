import SourceArchive.Annotated.Hint
import SourceArchive.Proofs.Boundaries
import SourceArchive.Proofs.Declarations

/-!
# Hints and the count of declarations

A hint is a comment, so no declaration runs over it, but it can stand within a declaration and hide it, and the type that
it quotes can hold declarations of its own.  Hints that do neither (`Hint.Harmless`) leave the number of
declarations as it was, however many are inserted.
-/

namespace SourceArchive

open Pattern Text Evidenced

namespace Hint

/-- Above the lines `below` a hint parts no declaration, and none begins in it. -/
structure Harmless (above below : List Text) (hint : Text) : Prop where
  apart : stateDeclarations (joinLines (above ++ below)) =
    stateDeclarations (joinLines above) + stateDeclarations (joinLines below)
  silent : stateDeclarations (joinLines (hint :: below)) = stateDeclarations (joinLines below)

instance (above below : List Text) (hint : Text) : Decidable (Harmless above below hint) :=
  decidable_of_iff (_ ∧ _) ⟨fun h => ⟨h.1, h.2⟩, fun h => ⟨h.apart, h.silent⟩⟩

/-- Every hint that a line may take is harmless there. -/
def Quiet (vs : List StateVariable) (above body : List Text) : Prop :=
  ∀ mid l below, body = mid ++ l :: below → mentionsState l = true →
    ∀ v ∈ vs, fits l v = true → Harmless (above ++ mid) (l :: below) (line l v)

theorem Quiet.tail {vs us : List StateVariable} {above rest : List Text} {l : Text} (h : Quiet vs above (l :: rest))
    (hsub : us ⊆ vs) : Quiet us (above ++ [l]) rest := by
  intro mid k below hbody hk v hv hfits
  have hharmless := h (l :: mid) k below (by rw [hbody, List.cons_append]) hk v (hsub hv) hfits
  rwa [← List.singleton_append, ← List.append_assoc] at hharmless

theorem Quiet.harmless {unused : List StateVariable} {above rest : List Text} {l : Text} {v : StateVariable}
    (h : Quiet unused above (l :: rest)) (hv : (if mentionsState l then unused.find? (fits l) else none) = some v) :
    Harmless above (l :: rest) (line l v) := by
  split at hv
  · rename_i hl
    have hharmless := h [] l rest rfl hl v (List.mem_of_find?_eq_some hv) (List.find?_some hv)
    rwa [List.append_nil] at hharmless
  · contradiction

/-! ## Declarations around hints -/

theorem append_led_cons (a l : Text) (ks : List Text) : a ++ led (l :: ks) = (a ++ '\n' :: l) ++ led ks := by
  rw [led_cons, List.append_assoc, List.cons_append]

theorem led_singleton (l : Text) : led [l] = '\n' :: l := by
  rw [led_cons, led, List.flatMap_nil, List.append_nil]

theorem barred_led_line (l : Text) (v : StateVariable) (ks : List Text) : Barred (led (line l v :: ks)) := by
  have hblank : Blank ('\n' :: l.indentation) := List.forall_mem_cons.mpr ⟨by decide, blank_indentation l⟩
  have hcomment : led (line l v :: ks) = ('\n' :: l.indentation) ++ '/' :: ("/ TYPE:".toList ++ " ".toList ++ v.type ++ led ks) := by
    rw [led_cons, line]
    simp only [List.append_assoc, List.cons_append]
    rfl
  rw [hcomment]
  exact barred_blank_slash hblank _

theorem declares_append_led {a : Text} (h : Declares a) (l : Text) (ls : List Text) : Declares (a ++ led (l :: ls)) :=
  h.append (Option.any_some.trans (by decide))

/-- Hints below make no declaration. -/
theorem declares_of_insert (unused : List StateVariable) {body : List Text} {a : Text}
    (h : Declares (a ++ led (insert unused body))) : Declares (a ++ led body) := by
  induction body generalizing unused a with
  | nil => exact h
  | cons l rest ih =>
    rw [insert] at h
    split at h
    · rw [append_led_cons] at h ⊢
      exact ih _ h
    · exact declares_append_led (((barred_led_line l _ _).declares_append_iff a).mp h) l rest

theorem Harmless.declares {above below : List Text} {hint a : Text} (h : Harmless above below hint)
    (ha : a <:+ led above) (hne : a ≠ []) (hdeclares : Declares (a ++ led below)) : Declares a := by
  have hplaces : stateDeclaration.places (led above) (led below) = stateDeclaration.places (led above) [] := by
    have hsum := h.apart
    rw [stateDeclarations_joinLines, stateDeclarations_joinLines, stateDeclarations_joinLines, led_append, places_append,
      List.append_nil] at hsum
    exact Nat.add_right_cancel hsum
  have hmono (x : Text) (hx : stateDeclaration.fits (x ++ []) = true) : stateDeclaration.fits (x ++ led below) = true := by
    rw [fits_stateDeclaration_iff, List.append_nil] at hx
    rw [fits_stateDeclaration_iff]
    cases below with
    | nil => simpa [led] using hx
    | cons l below => exact declares_append_led hx l below
  have hfits := fits_of_places_eq hmono hplaces a ha hne (fits_stateDeclaration_iff.mpr hdeclares)
  rwa [fits_stateDeclaration_iff, List.append_nil] at hfits

/-- Harmless hints below hide no declaration. -/
theorem declares_insert_iff {unused : List StateVariable} {above body : List Text} (h : Quiet unused above body) {a : Text}
    (ha : a <:+ led above) (hne : a ≠ []) : Declares (a ++ led (insert unused body)) ↔ Declares (a ++ led body) := by
  refine ⟨declares_of_insert unused, ?_⟩
  induction body generalizing unused above a with
  | nil => exact id
  | cons l rest ih =>
    intro hdeclares
    rw [insert]
    split
    · rw [append_led_cons] at hdeclares ⊢
      have hsuffix : a ++ '\n' :: l <:+ led (above ++ [l]) := by
        obtain ⟨t, ht⟩ := ha
        exact ⟨t, by rw [led_append, ← ht, led_singleton, List.append_assoc]⟩
      exact ih (h.tail (List.Subset.refl _)) hsuffix (by simp) hdeclares
    · rename_i v hv
      exact ((barred_led_line l v _).declares_append_iff a).mpr ((h.harmless hv).declares ha hne hdeclares)

/-! ## The count -/

theorem places_cons_insert {us : List StateVariable} {above rest : List Text} {l : Text} (h : Quiet us (above ++ [l]) rest)
    (hrest : stateDeclaration.places (led (insert us rest)) [] = stateDeclaration.places (led rest) []) :
    stateDeclaration.places (led (l :: insert us rest)) [] = stateDeclaration.places (led (l :: rest)) [] := by
  have hcons (ks : List Text) : led (l :: ks) = ('\n' :: l) ++ led ks := rfl
  have hline : stateDeclaration.places ('\n' :: l) (led (insert us rest)) = stateDeclaration.places ('\n' :: l) (led rest) := by
    apply places_congr
    intro a ha hne
    have hsuffix : a <:+ led (above ++ [l]) := by
      rw [led_append, led_singleton]
      exact ha.trans (List.suffix_append _ _)
    exact fits_congr (declares_insert_iff h hsuffix hne)
  rw [hcons, hcons, places_append, places_append, List.append_nil, List.append_nil, hline, hrest]

theorem places_led_insert {unused : List StateVariable} {above body : List Text} (h : Quiet unused above body) :
    stateDeclaration.places (led (insert unused body)) [] = stateDeclaration.places (led body) [] := by
  induction body generalizing unused above with
  | nil => rfl
  | cons l rest ih =>
    rw [insert]
    split
    · have htail := h.tail (List.Subset.refl _)
      exact places_cons_insert htail (ih htail)
    · rename_i v hv
      have htail := h.tail (List.eraseP_subset (p := fits l))
      have hcons (ks : List Text) : led (line l v :: ks) = ('\n' :: line l v) ++ led ks := rfl
      -- no declaration begins in the hint, neither above the lines as they were nor above those with hints
      have hsilent : stateDeclaration.places ('\n' :: line l v) (led (l :: rest)) = 0 := by
        have hcount := (h.harmless hv).silent
        rw [stateDeclarations_joinLines, stateDeclarations_joinLines, hcons, places_append, List.append_nil] at hcount
        omega
      have hinserted : stateDeclaration.places ('\n' :: line l v) (led (l :: insert (unused.eraseP (fits l)) rest)) = 0 := by
        rw [places_eq_zero_iff] at hsilent ⊢
        intro a ha hne
        have hno := hsilent a ha hne
        rw [Bool.eq_false_iff, ne_eq, fits_stateDeclaration_iff] at hno ⊢
        intro hdeclares
        rw [append_led_cons] at hdeclares hno
        exact hno (declares_of_insert _ hdeclares)
      rw [hcons, places_append, List.append_nil, hinserted, Nat.zero_add]
      exact places_cons_insert htail (ih htail)

/-- Harmless hints leave the number of declarations as it was. -/
theorem stateDeclarations_insert {vs : List StateVariable} {body : List Text}
    (h : ∀ (i : Nat) (hi : i < body.length), mentionsState body[i] = true → ∀ v ∈ vs, fits body[i] v = true →
      Harmless (body.take i) (body.drop i) (line body[i] v)) :
    stateDeclarations (joinLines (insert vs body)) = stateDeclarations (joinLines body) := by
  have hquiet : Quiet vs [] body := by
    rintro mid l below rfl hl v hv hfits
    have hi : mid.length < (mid ++ l :: below).length := by simp
    have hget : (mid ++ l :: below)[mid.length] = l := by simp
    have hharmless := h mid.length hi (by rwa [hget]) v hv (by rwa [hget])
    rwa [hget, List.take_left, List.drop_left] at hharmless
  rw [stateDeclarations_joinLines, stateDeclarations_joinLines, places_led_insert hquiet]

end Hint

end SourceArchive
