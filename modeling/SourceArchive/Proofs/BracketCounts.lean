import SourceArchive.Proofs.Brackets

/-!
# Counting brackets

What the two scans find in any text, well-formed or not, is said by counting.  A `Counting` adds up what each character
opens or closes where the reading stands; `brackets` counts round, square and curly brackets outside quoted strings, and
`angles` counts angle brackets that are no arrows.  A scan stops where the count comes down to zero for the first time, and
finds nothing exactly if the count stays above zero up to the end of the text (`closingFrom_endsAt`,
`angleClosingFrom_endsAt`).
-/

namespace SourceArchive

namespace Delimiter

/-- How brackets are counted while a text is read. -/
structure Counting (σ : Type) where
  /-- What a character adds to the open brackets, by what was read before. -/
  weight : σ → Char → Int
  /-- What is to be known of a text for the next character. -/
  next : σ → Char → σ

/-- Where the reading stands as to quoted strings. -/
inductive Quoting where
  | outside
  /-- In a string that ends at the next `mark`. -/
  | within (mark : Char)
  /-- In such a string, behind a backslash. -/
  | hidden (mark : Char)
deriving Repr, DecidableEq

/-- Round, square and curly brackets count outside quoted strings. -/
def brackets : Counting Quoting where
  weight
    | .outside, c => if opens c then 1 else if closes c then -1 else 0
    | _, _ => 0
  next
    | .outside, c => if quotes c then .within c else .outside
    | .within mark, c => if c = '\\' then .hidden mark else if c = mark then .outside else .within mark
    | .hidden mark, _ => .within mark

/-- Angle brackets count unless an equals sign before them makes an arrow. -/
def angles : Counting (Option Char) where
  weight previous c := if c = '<' then 1 else if c = '>' ∧ previous ≠ some '=' then -1 else 0
  next _ c := some c

namespace Counting

variable {σ : Type} (k : Counting σ) (s : σ)

/-- What is known behind a text. -/
def behind (t : Text) : σ := t.foldl k.next s

/-- How many more brackets a text opens than it closes. -/
def depth : σ → Text → Int
  | _, [] => 0
  | s, c :: r => k.weight s c + depth (k.next s c) r

/-- Behind `v`, some bracket stays open all through `t`. -/
def StaysOpen (v t : Text) : Prop := ∀ x, x <+: t → 0 < k.depth s (v ++ x)

/-- The brackets open behind `v` stay open through `w` and are closed by `c`. -/
structure Closes (v w : Text) (c : Char) : Prop where
  within : k.StaysOpen s v w
  closed : k.depth s (v ++ w ++ [c]) = 0

/-- Behind `v`, the brackets are closed by the last of the first `n` characters of `t`; without such a number, they
stay open. -/
def EndsAt (v t : Text) : Option Nat → Prop
  | none => k.StaysOpen s v t
  | some n => ∃ w c r, t = w ++ c :: r ∧ n = w.length + 1 ∧ k.Closes s v w c

theorem behind_concat (v : Text) (c : Char) : k.behind s (v ++ [c]) = k.next (k.behind s v) c := by
  rw [behind, List.foldl_concat]
  rfl

theorem depth_concat (v : Text) (c : Char) : k.depth s (v ++ [c]) = k.depth s v + k.weight (k.behind s v) c := by
  induction v generalizing s with
  | nil => simp [depth, behind]
  | cons d v ih =>
    rw [List.cons_append, depth, depth, ih, Int.add_assoc]
    rfl

variable {k s} {v t w : Text} {c : Char} {end? : Option Nat}

theorem StaysOpen.cons (hv : 0 < k.depth s v) (h : k.StaysOpen s (v ++ [c]) t) : k.StaysOpen s v (c :: t) := by
  intro x hx
  rcases List.prefix_cons_iff.mp hx with rfl | ⟨y, rfl, hy⟩
  · rwa [List.append_nil]
  · have hcons := h y hy
    rwa [List.append_assoc] at hcons

theorem staysOpen_nil (hv : 0 < k.depth s v) : k.StaysOpen s v [] := by
  intro x hx
  rwa [List.prefix_nil.mp hx, List.append_nil]

/-- The character that closes takes away what is still open. -/
theorem Closes.weight_neg (h : k.Closes s v w c) : k.weight (k.behind s (v ++ w)) c < 0 := by
  have hopen := h.within w (List.prefix_refl w)
  have hclosed := h.closed
  rw [depth_concat] at hclosed
  omega

namespace EndsAt

theorem nil (hv : 0 < k.depth s v) : k.EndsAt s v [] none := staysOpen_nil hv

theorem cons (hv : 0 < k.depth s v) (h : k.EndsAt s (v ++ [c]) t end?) : k.EndsAt s v (c :: t) (end?.map (· + 1)) := by
  cases end? with
  | none => exact StaysOpen.cons hv h
  | some n =>
    obtain ⟨w, d, r, rfl, rfl, h⟩ := h
    refine ⟨c :: w, d, r, rfl, rfl, StaysOpen.cons hv h.within, ?_⟩
    have hclosed := h.closed
    rwa [List.append_assoc v] at hclosed

/-- The first character closes the only bracket that is open. -/
theorem closing (hv : 0 < k.depth s v) (h : k.depth s (v ++ [c]) = 0) (t : Text) : k.EndsAt s v (c :: t) (some 1) := by
  refine ⟨[], c, t, rfl, rfl, staysOpen_nil hv, ?_⟩
  rwa [List.append_nil]

end EndsAt

variable (k s v) in
/-- Some brackets are open behind a text. -/
structure Stands (state : σ) (depth : Nat) : Prop where
  behind_eq : k.behind s v = state
  depth_eq : k.depth s v = depth
  depth_pos : 0 < depth

namespace Stands

variable {state state' : σ} {depth depth' : Nat}

theorem isOpen (h : k.Stands s v state depth) : 0 < k.depth s v := by
  rw [h.depth_eq]
  exact Int.natCast_pos.mpr h.depth_pos

theorem step (h : k.Stands s v state depth) (hnext : k.next state c = state')
    (hweight : (depth : Int) + k.weight state c = depth') (hpos : 0 < depth') :
    k.Stands s (v ++ [c]) state' depth' where
  behind_eq := by rw [behind_concat, h.behind_eq, hnext]
  depth_eq := by rw [depth_concat, h.behind_eq, h.depth_eq, hweight]
  depth_pos := hpos

/-- A character that neither opens nor closes. -/
theorem idle (h : k.Stands s v state depth) (hnext : k.next state c = state') (hweight : k.weight state c = 0) :
    k.Stands s (v ++ [c]) state' depth :=
  h.step hnext (by rw [hweight, Int.add_zero]) h.depth_pos

theorem closing (h : k.Stands s v state depth) (hdepth : depth ≤ 1) (hweight : k.weight state c = -1) (t : Text) :
    k.EndsAt s v (c :: t) (some 1) := by
  refine .closing h.isOpen ?_ t
  rw [depth_concat, h.behind_eq, h.depth_eq, hweight]
  have := h.depth_pos
  omega

end Stands

end Counting

open Counting

/-! ## Brackets outside quoted strings -/

/-- Where the reading stands as the scan keeps it. -/
def quotingOf : Option Char → Quoting
  | none => .outside
  | some mark => .within mark

theorem weight_outside (c : Char) : brackets.weight .outside c = if opens c then 1 else if closes c then -1 else 0 := rfl

theorem weight_of_quotes {c : Char} (h : quotes c = true) : brackets.weight .outside c = 0 := by
  simp only [quotes, Bool.or_eq_true, beq_iff_eq] at h
  rcases h with (rfl | rfl) | rfl <;> rfl

theorem next_within (mark c : Char) : brackets.next (quotingOf (some mark)) c =
    if c = '\\' then .hidden mark else if c = mark then .outside else .within mark := rfl

theorem closingFrom_endsAt {depth : Nat} {quote : Option Char} {v : Text} (t : Text)
    (h : brackets.Stands .outside v (quotingOf quote) depth) :
    brackets.EndsAt .outside v t (closingFrom depth quote t) := by
  fun_induction closingFrom depth quote t generalizing v with
  | case1 => exact .nil h.isOpen
  | case2 depth mark =>
    have hslash := h.idle ((next_within mark '\\').trans (if_pos rfl)) rfl
    exact .cons h.isOpen (.nil hslash.isOpen)
  | case3 depth mark c r ih =>
    have hslash := h.idle ((next_within mark '\\').trans (if_pos rfl)) rfl
    have hrest := EndsAt.cons (c := '\\') h.isOpen (.cons (c := c) hslash.isOpen (ih (hslash.idle rfl rfl)))
    rwa [Option.map_map] at hrest
  | case4 depth c r mark hslash ih =>
    refine .cons h.isOpen (ih (h.idle ?_ rfl))
    rw [next_within, if_neg hslash]
    split
    · rfl
    · rfl
  | case5 depth c r hquote ih => exact .cons h.isOpen (ih (h.idle (if_pos hquote) (weight_of_quotes hquote)))
  | case6 depth c r hquote hopen ih =>
    have hweight : brackets.weight .outside c = 1 := by rw [weight_outside, if_pos hopen]
    exact .cons h.isOpen (ih (h.step (if_neg hquote) (by rw [quotingOf, hweight]; rfl) (Nat.succ_pos depth)))
  | case7 depth c r hquote hopen hclose hdepth =>
    have hweight : brackets.weight .outside c = -1 := by rw [weight_outside, if_neg hopen, if_pos hclose]
    exact h.closing hdepth hweight r
  | case8 depth c r hquote hopen hclose hdepth ih =>
    have hweight : brackets.weight .outside c = -1 := by rw [weight_outside, if_neg hopen, if_pos hclose]
    exact .cons h.isOpen (ih (h.step (if_neg hquote) (by rw [quotingOf, hweight]; omega) (by omega)))
  | case9 depth c r hquote hopen hclose ih =>
    have hweight : brackets.weight .outside c = 0 := by rw [weight_outside, if_neg hopen, if_neg hclose]
    exact .cons h.isOpen (ih (h.idle (if_neg hquote) hweight))

/-! ## Angle brackets -/

theorem weight_angle (previous : Option Char) (c : Char) :
    angles.weight previous c = if c = '<' then 1 else if c = '>' ∧ previous ≠ some '=' then -1 else 0 := rfl

theorem angleClosingFrom_endsAt {depth : Nat} {previous : Option Char} {v : Text} (t : Text)
    (h : angles.Stands none v previous depth) : angles.EndsAt none v t (angleClosingFrom depth previous t) := by
  fun_induction angleClosingFrom depth previous t generalizing v with
  | case1 => exact .nil h.isOpen
  | case2 depth previous r ih =>
    have hweight : angles.weight previous '<' = 1 := by rw [weight_angle, if_pos rfl]
    exact .cons h.isOpen (ih (h.step rfl (by rw [hweight]; rfl) (Nat.succ_pos depth)))
  | case3 depth previous c r hopen hclose hdepth =>
    have hweight : angles.weight previous c = -1 := by rw [weight_angle, if_neg hopen, if_pos hclose]
    exact h.closing hdepth hweight r
  | case4 depth previous c r hopen hclose hdepth ih =>
    have hweight : angles.weight previous c = -1 := by rw [weight_angle, if_neg hopen, if_pos hclose]
    exact .cons h.isOpen (ih (h.step rfl (by rw [hweight]; omega) (by omega)))
  | case5 depth previous c r hopen hclose ih =>
    have hweight : angles.weight previous c = 0 := by rw [weight_angle, if_neg hopen, if_neg hclose]
    exact .cons h.isOpen (ih (h.idle rfl hweight))

/-! ## From the opening bracket on -/

/-- A scan finds as much as the rest of it behind the opening bracket, which then is what is open. -/
theorem balancedLength?_cons {o : Char} (ho : opens o = true) (r : Text) :
    ∃ end?, balancedLength? (o :: r) = end?.map (· + 1) ∧ brackets.EndsAt .outside [o] r end? := by
  have hquote : ¬ quotes o = true := by
    simp only [opens, Bool.or_eq_true, beq_iff_eq] at ho
    rcases ho with (rfl | rfl) | rfl <;> decide
  refine ⟨closingFrom 1 none r, closingFrom_open (Bool.eq_false_iff.mpr hquote) ho, closingFrom_endsAt r ?_⟩
  exact {
    behind_eq := if_neg hquote
    depth_eq := by rw [depth, weight_outside, if_pos ho]; rfl
    depth_pos := Nat.one_pos }

theorem genericLength?_cons (r : Text) :
    ∃ end?, genericLength? ('<' :: r) = end?.map (· + 1) ∧ angles.EndsAt none ['<'] r end? :=
  ⟨angleClosingFrom 1 (some '<') r, rfl, angleClosingFrom_endsAt r ⟨rfl, rfl, Nat.one_pos⟩⟩

end Delimiter

end SourceArchive
