import Mathlib.Data.List.Infix
import ComponentCatalog.Proofs.Parts

/-!
Phrases and where they may begin. A shape that is recognised only where a phrase begins passes every
text in which none does, and a phrase that a text lacks does not reach over a character of no
phrase.
-/
namespace ComponentCatalog.Text

/-- None of the phrases is a part of the text. -/
def Lacks (phrase : Text → Prop) (s : Text) : Prop := ∀ m, phrase m → ¬m <:+: s

/-- Nowhere in the text does a phrase begin, whatever follows the text. -/
def Quiet (phrase : Text → Prop) (u : Text) : Prop :=
  ∀ v, v <:+ u → v ≠ [] → ∀ m, phrase m → ∀ rest, ¬m <+: v ++ rest

/-- The shape is recognised only where a phrase begins. -/
def Opens (phrase : Text → Prop) (shape : Shape α) : Prop :=
  ∀ at_ found, shape at_ = some found → ∃ m, phrase m ∧ m <+: at_.rest

variable {phrase : Text → Prop} {s t u v rest : Text} {c : Char}

theorem lacks_of_contains {part : Text} (hpart : ∀ m, phrase m → part <:+: m)
    (h : contains part s = false) : Lacks phrase s :=
  fun m hm hs => not_infix_of_contains h ((hpart m hm).trans hs)

theorem lacks_of_forall {p : Char → Prop} (hphrase : ∀ m, phrase m → ∃ c ∈ m, ¬p c)
    (h : ∀ c ∈ s, p c) : Lacks phrase s := by
  intro m hm hs
  obtain ⟨c, hc, hnot⟩ := hphrase m hm
  exact hnot (h c (hs.subset hc))

/-- A character that ends no phrase completes none. -/
theorem Lacks.concat (h : Lacks phrase s) (hlast : ∀ m, phrase m → m.getLast? ≠ some c) :
    Lacks phrase (s ++ [c]) := by
  intro m hm hs
  rcases List.infix_concat_iff.mp hs with hsuffix | hs
  · rcases List.suffix_concat_iff.mp hsuffix with rfl | ⟨t, rfl, -⟩
    · exact h [] hm List.nil_infix
    · exact hlast _ hm (by simp)
  · exact h m hm hs

/-- A beginning without a certain character ends before the first of those. -/
theorem prefix_of_notMem {m : Text} (h : m <+: v ++ c :: rest) (hc : c ∉ m) : m <+: v := by
  rcases List.prefix_or_prefix_of_prefix h (List.prefix_append v (c :: rest)) with hm | hv
  · exact hm
  · obtain ⟨w, rfl⟩ := hv
    have hw := (List.prefix_append_right_inj v).mp h
    cases w with
    | nil => simp
    | cons d w =>
      obtain ⟨rfl, -⟩ := List.cons_prefix_cons.mp hw
      simp at hc

/-- A beginning without the last character of a part ends within the part. -/
theorem length_lt_of_notMem {m : Text} (hlast : v.getLast? = some c) (hc : c ∉ m)
    (h : m <+: v ++ rest) : m.length < v.length := by
  obtain ⟨w, rfl⟩ := List.getLast?_eq_some_iff.mp hlast
  rw [List.append_assoc] at h
  have hlength := (prefix_of_notMem h hc).length_le
  rw [List.length_append, List.length_singleton]
  omega

/-- A phrase that the text lacks does not begin in it either, if a character of no phrase ends
it. -/
theorem Lacks.quiet (h : Lacks phrase s) (hstop : ∀ m, phrase m → c ∉ m) :
    Quiet phrase (s ++ [c]) := by
  intro v hv hne m hm rest hprefix
  rcases List.suffix_concat_iff.mp hv with rfl | ⟨w, rfl, hw⟩
  · exact hne rfl
  · rw [List.append_assoc] at hprefix
    exact h m hm ((prefix_of_notMem hprefix (hstop m hm)).isInfix.trans hw.isInfix)

theorem Quiet.append (hu : Quiet phrase u) (hv : Quiet phrase v) : Quiet phrase (u ++ v) := by
  intro w hw hne m hm rest hprefix
  rcases List.suffix_or_suffix_of_suffix hw (List.suffix_append u v) with hw | ⟨w', rfl⟩
  · exact hv w hw hne m hm rest hprefix
  · have hw' : w' <:+ u := by
      obtain ⟨x, hx⟩ := hw
      exact ⟨x, List.append_cancel_right (by rw [List.append_assoc, hx])⟩
    by_cases hempty : w' = []
    · rw [hempty, List.nil_append] at hprefix hne
      exact hv v List.suffix_rfl hne m hm rest hprefix
    · rw [List.append_assoc] at hprefix
      exact hu w' hw' hempty m hm (v ++ rest) hprefix

/-- No phrase begins in a text that nowhere agrees with their common lead. -/
theorem quiet_of_lead {lead : Text} (hlead : ∀ m, phrase m → lead <+: m)
    (h : ∀ v ∈ u.tails, v ≠ [] → ¬lead <+: v ∧ ¬v <+: lead) : Quiet phrase u := by
  intro v hv hne m hm rest hprefix
  obtain ⟨hlead', hv'⟩ := h v ((List.mem_tails v u).mpr hv) hne
  rcases List.prefix_or_prefix_of_prefix ((hlead m hm).trans hprefix) (List.prefix_append v rest)
    with hshort | hlong
  · exact hlead' hshort
  · exact hv' hlong

/-- No phrase begins in a text without the character with which they all begin. -/
theorem quiet_of_notMem (hhead : ∀ m, phrase m → m.head? = some c) (h : c ∉ u) :
    Quiet phrase u := by
  intro v hv hne m hm rest hprefix
  obtain ⟨d, v, rfl⟩ := List.exists_cons_of_ne_nil hne
  obtain ⟨m, rfl⟩ := List.head?_eq_some_iff.mp (hhead m hm)
  obtain ⟨rfl, -⟩ := List.cons_prefix_cons.mp hprefix
  exact h (hv.mem List.mem_cons_self)

theorem quiet_all_of_lead {lead : Text} {us : List Text} (hlead : ∀ m, phrase m → lead <+: m)
    (h : ∀ u ∈ us, ∀ v ∈ u.tails, v ≠ [] → ¬lead <+: v ∧ ¬v <+: lead) :
    ∀ u ∈ us, Quiet phrase u := fun u hu => quiet_of_lead hlead (h u hu)

theorem Quiet.join {separator closer : Text} {parts : List Text} (hcloser : Quiet phrase closer)
    (h : ∀ p ∈ parts, Quiet phrase (p ++ separator) ∧ Quiet phrase (p ++ closer)) :
    Quiet phrase (join separator parts ++ closer) := by
  induction parts with
  | nil => exact hcloser
  | cons part parts ih =>
    obtain ⟨hseparator, hlast⟩ := h part List.mem_cons_self
    cases parts with
    | nil =>
      have hjoin : Text.join separator [part] = part := List.append_nil _
      rw [hjoin]
      exact hlast
    | cons next parts =>
      rw [join_cons_cons, ← List.append_assoc, List.append_assoc]
      exact hseparator.append (ih fun p hp => h p (.tail _ hp))

/-- A text that is quiet for the beginnings of phrases is quiet for the phrases. -/
theorem Quiet.mono {phrase' : Text → Prop} (hu : Quiet phrase u)
    (h : ∀ m, phrase' m → ∃ m', phrase m' ∧ m' <+: m) : Quiet phrase' u := by
  intro v hv hne m hm rest hprefix
  obtain ⟨m', hm', hlead⟩ := h m hm
  exact hu v hv hne m' hm' rest (hlead.trans hprefix)

section Hits

variable {α : Type} {shape : Shape α} {offset : Nat} {previous : Option Char}

/-- A scan passes a quiet text. -/
theorem Quiet.pass (hopens : Opens phrase shape) (hu : Quiet phrase u) :
    hitsFrom shape 0 offset previous (u ++ rest) =
      hitsFrom shape 0 (offset + u.length) (lastOf previous u) rest := by
  refine hitsFrom_pass fun v d w hsplit o p => ?_
  rcases hfound : shape ⟨o, p, d :: (w ++ rest)⟩ with _ | found
  · rfl
  · obtain ⟨m, hm, hprefix⟩ := hopens _ _ hfound
    exact absurd hprefix (hu (d :: w) ⟨v, hsplit.symm⟩ (List.cons_ne_nil _ _) m hm rest)

/-- In a text that is quiet to its end there is no hit. -/
theorem Quiet.hits_eq_nil (hopens : Opens phrase shape) (hu : Quiet phrase u) :
    hitsFrom shape 0 offset previous u = [] := by
  have hpass : hitsFrom shape 0 offset previous (u ++ []) =
      hitsFrom shape 0 (offset + u.length) (lastOf previous u) [] := hu.pass hopens
  rwa [List.append_nil, hitsFrom] at hpass

/-- A scan that keeps only some of its hits passes a text with none of those, if no hit in the text
reaches over its end. -/
theorem filter_hitsFrom_pass {p : α → Bool}
    (h : ∀ v, v <:+ u → v ≠ [] → ∀ o q a n, shape ⟨o, q, v ++ rest⟩ = some (a, n) →
      p a = false ∧ n ≤ v.length) {skip : Nat} (hskip : skip ≤ u.length) :
    (hitsFrom shape skip offset previous (u ++ rest)).filter p =
      (hitsFrom shape 0 (offset + u.length) (lastOf previous u) rest).filter p := by
  induction u generalizing skip offset previous with
  | nil =>
    rw [Nat.le_zero.mp hskip]
    rfl
  | cons c u ih =>
    have hnext {skip : Nat} (hskip : skip ≤ u.length) :
        (hitsFrom shape skip (offset + 1) (some c) (u ++ rest)).filter p =
          (hitsFrom shape 0 (offset + (c :: u).length) (lastOf previous (c :: u)) rest).filter p := by
      rw [ih (fun v hv => h v (hv.trans (List.suffix_cons c u))) hskip, List.length_cons,
        Nat.add_right_comm, Nat.add_assoc]
      rfl
    cases skip with
    | succ skip => exact hnext (Nat.le_of_succ_le_succ hskip)
    | zero =>
      rw [List.cons_append, hitsFrom]
      split
      · exact hnext (Nat.zero_le _)
      · next a n hfound =>
        obtain ⟨hp, hn⟩ :=
          h (c :: u) List.suffix_rfl (List.cons_ne_nil _ _) offset previous a n hfound
        rw [List.length_cons] at hn
        rw [List.filter_cons_of_neg (by simp [hp])]
        exact hnext (by omega)

/-- What a scan finds in a part of the text, by the offset at which the part begins; it goes on
behind the part. -/
def Finds (shape : Shape α) (u : Text) (found : Nat → List α) : Prop :=
  ∀ offset previous rest, hitsFrom shape 0 offset previous (u ++ rest) =
    found offset ++ hitsFrom shape 0 (offset + u.length) (lastOf previous u) rest

theorem finds_nil (hopens : Opens phrase shape) (hu : Quiet phrase u)
    (hmiss : ∀ offset previous rest, shape ⟨offset, previous, c :: (u ++ rest)⟩ = none) :
    Finds shape (c :: u) fun _ => [] := by
  intro offset previous rest
  rw [List.cons_append, hitsFrom, hmiss]
  dsimp only
  rw [hu.pass hopens, List.length_cons, Nat.add_assoc, Nat.add_comm 1]
  rfl

theorem finds_hit {value : Nat → α} (hopens : Opens phrase shape) (hs : s = u ++ v) (hne : u ≠ [])
    (hv : Quiet phrase v)
    (hhit : ∀ offset previous rest,
      shape ⟨offset, previous, s ++ rest⟩ = some (value offset, u.length)) :
    Finds shape s fun offset => [value offset] := by
  intro offset previous rest
  have hhit := hhit offset previous rest
  rw [hs, List.append_assoc] at hhit ⊢
  rw [hitsFrom_hit hne hhit, hv.pass hopens, List.length_append, lastOf_append, Nat.add_assoc]
  rfl

end Hits

section Lines

variable {α β : Type} {shape : Shape α} {source : β → Text} {lines : List β}

/-- The lines with the offsets at which they begin, from the offset of the first. -/
def placed (source : β → Text) : Nat → List β → List (Nat × β)
  | _, [] => []
  | offset, line :: lines =>
    (offset, line) :: placed source (offset + (source line).length + 1) lines

theorem map_snd_placed (source : β → Text) (offset : Nat) (lines : List β) :
    (placed source offset lines).map Prod.snd = lines := by
  induction lines generalizing offset with
  | nil => rfl
  | cons line lines ih => rw [placed, List.map_cons, ih]

/-- A scan finds in a text what it finds in its lines, if no phrase begins at the end of a line or
after the last. -/
theorem hits_lines {found : β → Nat → List α} (hopens : Opens phrase shape)
    (h : ∀ line ∈ lines, Finds shape (source line) (found line)) (hfeed : Quiet phrase ['\n'])
    (ht : Quiet phrase t) :
    hits shape (join ['\n'] (lines.map source) ++ t) =
      (placed source 0 lines).flatMap fun line => found line.2 line.1 := by
  have hfrom : ∀ offset previous,
      hitsFrom shape 0 offset previous (join ['\n'] (lines.map source) ++ t) =
        (placed source offset lines).flatMap fun line => found line.2 line.1 := by
    induction lines with
    | nil => exact fun offset previous => ht.hits_eq_nil hopens
    | cons line lines ih =>
      intro offset previous
      have hline := h line List.mem_cons_self offset previous
      have ih := ih fun l hl => h l (.tail _ hl)
      cases lines with
      | nil =>
        have hsource : join ['\n'] ([line].map source) = source line := List.append_nil _
        rw [hsource, hline, ht.hits_eq_nil hopens]
        rfl
      | cons next lines =>
        rw [List.map_cons, List.map_cons, join_cons_cons, List.append_assoc, List.append_assoc,
          hline, hfeed.pass hopens, ← List.map_cons, ih]
        rfl
  exact hfrom 0 none

end Lines

end ComponentCatalog.Text
