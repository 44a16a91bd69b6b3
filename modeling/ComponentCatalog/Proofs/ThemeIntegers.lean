import ComponentCatalog.Proofs.NumberBounds
import ComponentCatalog.Theme.Tokens

/-!
The integers of a theme are read from runs of decimal digits within the digit limit, so none of them
has more digits than are written.
-/
namespace ComponentCatalog

open Number

/-- What the computation comes to, if it succeeds, satisfies `Q`. -/
def Gives {ε α : Type} (r : Except ε α) (Q : α → Prop) : Prop := ∀ a, r = .ok a → Q a

namespace Gives

variable {ε α β : Type} {Q : α → Prop} {Q' : β → Prop}

theorem ok {a : α} (h : Q a) : Gives (.ok a : Except ε α) Q := by
  intro a' ha'
  cases ha'
  exact h

/-- Nothing is said of what the computation comes to. -/
theorem anything (r : Except ε α) : Gives r fun _ => True := fun _ _ => trivial

theorem bind {r : Except ε α} {f : α → Except ε β} (hr : Gives r Q)
    (hf : ∀ a, Q a → Gives (f a) Q') : Gives (r >>= f) Q' := by
  cases r with
  | error e =>
    intro b hb
    cases hb
  | ok a => exact hf a (hr a rfl)

theorem foldlM {f : β → α → Except ε β} {items : List α}
    (h : ∀ a ∈ items, ∀ b, Q' b → Gives (f b a) Q') {b : β} (hb : Q' b) :
    Gives (items.foldlM f b) Q' := by
  induction items generalizing b with
  | nil => exact ok hb
  | cons a items ih =>
    rw [List.foldlM_cons]
    exact (h a List.mem_cons_self b hb).bind fun b' hb' =>
      ih (fun a ha => h a (.tail _ ha)) hb'

end Gives

namespace Number

theorem ofDigits_append_singleton (base : Nat) (ds : List Nat) (d : Nat) :
    ofDigits base (ds ++ [d]) = ofDigits base ds * base + d := by
  simp [ofDigits]

theorem ofDigits_lt {base : Nat} {ds : List Nat} (h : ∀ d ∈ ds, d < base) :
    ofDigits base ds < base ^ ds.length := by
  induction ds using List.reverseRecOn with
  | nil => exact Nat.one_pos
  | append_singleton ds d ih =>
    have hd := h d (by simp)
    have hds := ih fun d' hd' => h d' (List.mem_append_left _ hd')
    rw [ofDigits_append_singleton, List.length_append, List.length_singleton, Nat.pow_succ]
    calc ofDigits base ds * base + d < (ofDigits base ds + 1) * base := by
          rw [Nat.add_mul]
          omega
      _ ≤ base ^ ds.length * base := Nat.mul_le_mul_right base hds

theorem digitValue?_lt {c : Char} {d : Nat} (h : Text.digitValue? c = some d) : d < 10 := by
  unfold Text.digitValue? at h
  split at h
  next hdigit =>
    cases h
    have hrange : c.toNat ≤ 57 := by
      simp only [Char.isDigit, Bool.and_eq_true, decide_eq_true_eq] at hdigit
      exact hdigit.2
    omega
  next =>
    obtain ⟨start, hstart, rfl⟩ := Option.map_eq_some_iff.mp h
    have hrange := List.find?_some hstart
    simp only [Bool.and_eq_true, decide_eq_true_eq] at hrange
    omega

theorem gives_readSignedDigits (s : Text) : Gives (readSignedDigits s) fun n => ¬IsLong n := by
  intro n hn
  unfold readSignedDigits at hn
  dsimp only at hn
  split at hn
  next => cases hn
  next hlimit =>
    cases hn
    generalize hds : (signed s).2.filterMap Text.digitValue? = ds at hlimit
    have hvalues : ∀ d ∈ ds, d < 10 := by
      intro d hd
      rw [← hds] at hd
      obtain ⟨c, -, hc⟩ := List.mem_filterMap.mp hd
      exact digitValue?_lt hc
    have hlt : ∀ limit, ds.length ≤ limit → ofDigits 10 ds < Nat.pow 10 limit := fun limit hle =>
      Nat.lt_of_lt_of_le (ofDigits_lt hvalues) (Nat.pow_le_pow_right (Nat.zero_lt_succ 9) hle)
    have habs : (applySign (signed s).1 (ofDigits 10 ds)).natAbs = ofDigits 10 ds := by
      unfold applySign
      split <;> simp
    intro hlong
    have hle := (isLong_iff _).mp hlong
    rw [habs] at hle
    exact Nat.not_le_of_lt (hlt digitLimit (Nat.le_of_not_lt hlimit)) hle

end Number

/-- Every value that the scale sets satisfies `P`. -/
def Scale.Each {ι α : Type} (P : α → Prop) (scale : Scale ι α) : Prop :=
  ∀ leaf a, scale leaf = some a → P a

namespace Theme

variable {ι α : Type} {P : α → Prop}

theorem each_empty : Scale.Each P (Scale.empty : Scale ι α) := by
  intro leaf a ha
  cases ha

theorem each_set [DecidableEq ι] {scale : Scale ι α} (h : scale.Each P) (leaf : ι) {value : α}
    (hvalue : P value) : (scale.set leaf value).Each P := by
  intro other a ha
  unfold Scale.set at ha
  split at ha
  next =>
    cases ha
    exact hvalue
  next => exact h other a ha

/-- What the texts convert to satisfies `P`. -/
def Conversion.Keeps (convert : Conversion α) (P : α → Prop) : Prop :=
  ∀ raw, Gives (convert raw) fun value? => ∀ value, value? = some value → P value

theorem asInt_keeps : Conversion.Keeps asInt fun n => ¬IsLong n := by
  intro raw
  unfold asInt
  split
  next =>
    exact (gives_readSignedDigits raw).bind fun m hm => .ok fun n hn => Option.some.inj hn ▸ hm
  next => exact .ok (by simp)

variable [TokenFamily ι] [DecidableEq ι] {convert : Conversion α}

omit [TokenFamily ι] in
/-- A leaf is set to what a text converts to, if it does. -/
theorem Conversion.Keeps.set (h : convert.Keeps P) (raw : Text) {scale : Scale ι α}
    (hscale : scale.Each P) (leaf : ι) :
    Gives (do
      match ← convert raw with
      | none => return scale
      | some value => return scale.set leaf value) fun scale => scale.Each P := by
  refine (h raw).bind fun value? hvalue? => ?_
  cases value? with
  | none => exact .ok hscale
  | some value => exact .ok (each_set hscale leaf (hvalue? value rfl))

omit [DecidableEq ι] in
theorem each_populated? {scale scale' : Scale ι α} (h : scale.Each P)
    (hscale' : scale.populated? = some scale') : scale'.Each P := by
  unfold Scale.populated? at hscale'
  split at hscale' <;> cases hscale'
  exact h

theorem gives_collect (h : convert.Keeps P) (words : ι → List Text) (lead : Text)
    (form : ValueForm) (s : Text) :
    Gives (collect words lead form convert s) fun scale? =>
      ∀ scale, scale? = some scale → scale.Each P := by
  rw [collect]
  refine Gives.bind (.foldlM (fun leaf _ scale hscale => ?_) each_empty) fun scale hscale =>
    .ok fun scale' => each_populated? hscale
  dsimp only
  split
  next => exact .ok hscale
  next raw _ => exact h.set raw hscale leaf

theorem gives_classify (h : convert.Keeps P) (marks : List (ι × List Text)) (lead : Text)
    (blockNames : List Text) (form : ValueForm) (s : Text) :
    Gives (classify marks lead blockNames form convert s) fun scale? =>
      ∀ scale, scale? = some scale → scale.Each P := by
  rw [classify]
  refine Gives.bind (.foldlM (fun found _ scale hscale => ?_) each_empty) fun flat hflat =>
    Gives.bind (.foldlM (fun mark _ scale hscale => ?_) hflat) fun scale hscale =>
      .ok fun scale' => each_populated? hscale
  · obtain ⟨label, raw⟩ := found
    dsimp only
    split
    next => exact .ok hscale
    next => exact h.set raw hscale _
  · obtain ⟨leaf, names⟩ := mark
    dsimp only
    split
    next => exact .ok hscale
    next =>
      split
      next => exact .ok hscale
      next raw _ => exact h.set raw hscale leaf

/-- The grid size, if any, has no more digits than are written. -/
def Spacing.IsShort (spacing : Spacing) : Prop := ∀ n, spacing.gridSize = some n → ¬IsLong n

/-- No integer of the theme has more digits than are written. -/
structure ShortIntegers (t : Theme) : Prop where
  fontWeight : ∀ typography, t.typography = some typography → ∀ scale,
    typography.fontWeight = some scale → scale.Each fun n => ¬IsLong n
  gridSize : ∀ spacing, t.spacing = some spacing → spacing.IsShort
  zIndex : ∀ scale, t.zIndex = some scale → scale.Each fun n => ¬IsLong n
  breakpoints : ∀ scale, t.breakpoints = some scale → scale.Each fun n => ¬IsLong n

theorem gives_typographyIn (s : Text) : Gives (typographyIn s) fun typography? =>
    ∀ typography, typography? = some typography → ∀ scale, typography.fontWeight = some scale →
      scale.Each fun n => ¬IsLong n := by
  refine (Gives.anything _).bind fun fontSize _ => ?_
  refine (gives_collect asInt_keeps _ _ _ s).bind fun fontWeight hweight => ?_
  refine (Gives.anything _).bind fun lineHeight _ => ?_
  refine (Gives.anything _).bind fun letterSpacing _ => .ok fun typography htypography => ?_
  split at htypography <;> cases htypography
  exact hweight

theorem gives_add {spacing : Spacing} (h : spacing.IsShort) (entry : Text × Text) :
    Gives (spacing.add entry) Spacing.IsShort := by
  obtain ⟨key, raw⟩ := entry
  rw [Spacing.add]
  split
  next => exact .ok h
  next =>
    split
    next =>
      refine (asInt_keeps raw).bind fun n? hn? => ?_
      cases n? with
      | none => exact .ok h
      | some n => exact .ok fun m hm => hn? m hm
    next => exact .ok h

theorem gives_spacingIn (s : Text) : Gives (spacingIn s) fun spacing? =>
    ∀ spacing, spacing? = some spacing → spacing.IsShort := by
  have hempty : Spacing.IsShort ⟨Scale.empty, none⟩ := fun n hn => by cases hn
  refine Gives.bind (.foldlM (fun entry _ spacing h => gives_add h entry) hempty)
    fun inBlocks hblocks => ?_
  refine Gives.bind (.foldlM (fun digits _ spacing _ => ?_) hblocks) fun found hfound => .ok ?_
  · exact (gives_readSignedDigits digits).bind fun n hn => .ok fun m hm => Option.some.inj hm ▸ hn
  · intro spacing hspacing
    split at hspacing <;> cases hspacing
    exact hfound

theorem gives_ofSource (s : Text) : Gives (ofSource s) ShortIntegers := by
  refine (Gives.anything _).bind fun colors _ => ?_
  refine (gives_typographyIn s).bind fun typography htypography => ?_
  refine (gives_spacingIn s).bind fun spacing hspacing => ?_
  refine (Gives.anything _).bind fun shadows _ => ?_
  refine (Gives.anything _).bind fun borderRadius _ => ?_
  refine (gives_classify asInt_keeps _ _ _ _ s).bind fun zIndex hzIndex => ?_
  refine (gives_classify asInt_keeps _ _ _ _ s).bind fun breakpoints hbreakpoints => ?_
  exact .ok ⟨htypography, hspacing, hzIndex, hbreakpoints⟩

end Theme

end ComponentCatalog
