import ComponentCatalog.Proofs.Phrases

/-!
Patterns as a backtracking search reads them. A pattern has ways to begin a text, in order of
preference; it occurs where it has one, and then in the way it prefers. Occurrences are found from
left to right and do not overlap.
-/
namespace ComponentCatalog.Text

inductive Pattern where
  | literal (t : Text)
  | one (p : Char → Bool)
  /-- One such character or none; one first. -/
  | maybe (p : Char → Bool)
  /-- Any number of such characters; most first. -/
  | most (p : Char → Bool)
  /-- Any number of such characters; fewest first. -/
  | fewest (p : Char → Bool)
  /-- Tells the text that the inner pattern takes. -/
  | group (inner : Pattern)
  | seq (first second : Pattern)

theorem run?_cons_of_pos {p : Char → Bool} {c : Char} (h : p c = true) (t : Text) :
    run? p (c :: t) = some (c :: t.takeWhile p, t.dropWhile p) := by
  rw [run?, List.span_eq_takeWhile_dropWhile, List.takeWhile_cons_of_pos h,
    List.dropWhile_cons_of_pos h]

theorem run?_cons_of_neg {p : Char → Bool} {c : Char} (h : ¬p c = true) (t : Text) :
    run? p (c :: t) = none := by
  rw [run?, List.span_eq_takeWhile_dropWhile, List.takeWhile_cons_of_neg h]

namespace Pattern

/-- At least one such character; most first. -/
def some1 (p : Char → Bool) : Pattern := .seq (.one p) (.most p)

/-- What may follow a number of characters satisfying `p`, after most of them first. -/
def afterRuns (p : Char → Bool) : Text → List Text
  | [] => [[]]
  | c :: rest => if p c then afterRuns p rest ++ [c :: rest] else [c :: rest]

/-- The ways in which the pattern begins a text: the text of its group and what follows. -/
def ways : Pattern → Text → List (Option Text × Text)
  | .literal t, s => (after? t s).toList.map (none, ·)
  | .one p, s => (one? p s).toList.map fun (_, rest) => (none, rest)
  | .maybe p, s => (one? p s).toList.map (fun (_, rest) => (none, rest)) ++ [(none, s)]
  | .most p, s => (afterRuns p s).map (none, ·)
  | .fewest p, s => (afterRuns p s).reverse.map (none, ·)
  | .group inner, s => (inner.ways s).map fun (_, rest) => (some (upTo s rest), rest)
  | .seq first second, s =>
    (first.ways s).flatMap fun (told, rest) =>
      (second.ways rest).map fun (told', rest') => (told'.or told, rest')

/-- The occurrences of a pattern from left to right, each with the text of its group: where it does
not begin the text the search goes on after one character, and else after what it takes. -/
inductive Occurs (pattern : Pattern) : Text → List (Text × Text) → Prop where
  | none : pattern.ways [] = [] → Occurs pattern [] []
  | pass {c : Char} {rest : Text} {found : List (Text × Text)} :
      pattern.ways (c :: rest) = [] → Occurs pattern rest found → Occurs pattern (c :: rest) found
  | hit {s told rest : Text} {found : List (Text × Text)} :
      (pattern.ways s).head? = some (some told, rest) → rest.length < s.length →
      Occurs pattern rest found → Occurs pattern s ((upTo s rest, told) :: found)

variable {pattern : Pattern} {s rest : Text}

/-- A text has one list of occurrences. -/
theorem Occurs.unique {found found' : List (Text × Text)} (h : Occurs pattern s found)
    (h' : Occurs pattern s found') : found = found' := by
  induction h generalizing found' with
  | none hnone =>
    cases h' with
    | none => rfl
    | hit hhit => rw [hnone] at hhit; cases hhit
  | pass hnone _ ih =>
    cases h' with
    | pass _ h' => exact ih h'
    | hit hhit => rw [hnone] at hhit; cases hhit
  | hit hhit _ _ ih =>
    cases h' with
    | none hnone => rw [hnone] at hhit; cases hhit
    | pass hnone => rw [hnone] at hhit; cases hhit
    | hit hhit' _ h' =>
      rw [hhit] at hhit'
      cases hhit'
      rw [ih h']

/-- A part in which the pattern begins nowhere is passed. -/
theorem Occurs.pass_append {u : Text} {found : List (Text × Text)}
    (hpass : ∀ v, v <:+ u → v ≠ [] → pattern.ways (v ++ rest) = [])
    (h : Occurs pattern rest found) : Occurs pattern (u ++ rest) found := by
  induction u with
  | nil => exact h
  | cons c u ih =>
    refine .pass (hpass (c :: u) List.suffix_rfl (List.cons_ne_nil c u)) (ih fun v hv => ?_)
    exact hpass v (hv.trans (List.suffix_cons c u))

/-- What a shape does at a place agrees with the pattern: it passes a place where the pattern does
not begin the text, or it takes a part in which the pattern begins nowhere, or it takes and tells
what the pattern prefers there. -/
inductive Agrees (pattern : Pattern) (shape : Shape (Option (Text × Text))) (at_ : Cursor) : Prop
  | pass : shape at_ = none → pattern.ways at_.rest = [] → Agrees pattern shape at_
  | skip {u rest : Text} : at_.rest = u ++ rest → u ≠ [] → shape at_ = some (none, u.length) →
      (∀ v, v <:+ u → v ≠ [] → pattern.ways (v ++ rest) = []) → Agrees pattern shape at_
  | take {u rest told : Text} : at_.rest = u ++ rest → u ≠ [] →
      shape at_ = some (some (u, told), u.length) →
      (pattern.ways (u ++ rest)).head? = some (some told, rest) → Agrees pattern shape at_

/-- A scan whose shape agrees with the pattern at every place finds its occurrences. -/
theorem occurs_hitsFrom {shape : Shape (Option (Text × Text))}
    (hagrees : ∀ at_, Agrees pattern shape at_) (hempty : pattern.ways [] = []) (offset : Nat)
    (previous : Option Char) (s : Text) :
    Occurs pattern s ((hitsFrom shape 0 offset previous s).filterMap id) := by
  -- A shape may take more than one character, so the induction is on the length of what is left.
  induction hlength : s.length using Nat.strong_induction_on generalizing offset previous s with
  | h n ih =>
  subst hlength
  have hrest {u rest : Text} (hne : u ≠ []) : rest.length < (u ++ rest).length := by
    have := List.length_pos_iff.mpr hne
    rw [List.length_append]
    omega
  rcases hagrees ⟨offset, previous, s⟩ with
    ⟨hshape, hways⟩ | ⟨rfl, hne, hshape, hways⟩ | ⟨rfl, hne, hshape, hways⟩
  · cases s with
    | nil => exact .none hempty
    | cons c rest =>
      rw [hitsFrom, hshape]
      exact .pass hways (ih rest.length (Nat.lt_succ_self _) _ _ rest rfl)
  · rw [hitsFrom_hit hne hshape]
    exact .pass_append hways (ih _ (hrest hne) _ _ _ rfl)
  · next u rest told =>
    have hlabel : upTo (u ++ rest) rest = u := upTo_append u rest
    have hmore := ih _ (hrest hne) (offset + u.length) (lastOf previous u) rest rfl
    have hfound := Occurs.hit hways (hrest hne) hmore
    rw [hitsFrom_hit hne hshape]
    rwa [hlabel] at hfound

section Ways

variable {first second : Pattern} {told : Option Text} {p : Char → Bool}

theorem ways_seq_of_nil (h : first.ways s = []) : (seq first second).ways s = [] := by
  rw [ways, h, List.flatMap_nil]

theorem ways_seq_silent {rests : List Text} (h : first.ways s = rests.map (none, ·)) :
    (seq first second).ways s = rests.flatMap second.ways := by
  rw [ways, h, List.flatMap_map]
  simp

@[simp] theorem ways_literal_seq (t : Text) :
    (seq (.literal t) second).ways s = (after? t s).toList.flatMap second.ways :=
  ways_seq_silent rfl

@[simp] theorem ways_most_seq :
    (seq (.most p) second).ways s = (afterRuns p s).flatMap second.ways := ways_seq_silent rfl

@[simp] theorem ways_fewest_seq :
    (seq (.fewest p) second).ways s = (afterRuns p s).reverse.flatMap second.ways :=
  ways_seq_silent rfl

theorem ways_one_seq_of_pos {c : Char} (h : p c = true) (t : Text) :
    (seq (.one p) second).ways (c :: t) = second.ways t := by
  have hone : (one p).ways (c :: t) = [t].map (none, ·) := by simp [ways, one?, h]
  rw [ways_seq_silent hone, List.flatMap_singleton]

theorem ways_one_seq_of_neg {c : Char} (h : ¬p c = true) (t : Text) :
    (seq (.one p) second).ways (c :: t) = [] := by
  have hone : (one p).ways (c :: t) = [].map (none, ·) := by simp [ways, one?, h]
  rw [ways_seq_silent hone, List.flatMap_nil]

/-- The character is taken if it is there. -/
theorem head?_ways_maybe :
    ((maybe p).ways s).head? = some (none, ((one? p s).map (·.2)).getD s) := by
  cases h : one? p s <;> simp [ways, h]

/-- The preferred way of a sequence begins with that of its first part, if the second part does not
follow any other. -/
theorem head?_ways_seq {others : List (Option Text × Text)}
    (hfirst : first.ways s = (told, rest) :: others)
    (hothers : (second.ways rest).head?.isSome ∨ ∀ way ∈ others, second.ways way.2 = []) :
    ((seq first second).ways s).head? =
      (second.ways rest).head?.map fun (told', rest') => (told'.or told, rest') := by
  rw [ways, hfirst, List.flatMap_cons, List.head?_append, List.head?_map]
  rcases hothers with hsome | hnone
  · obtain ⟨way, hway⟩ := Option.isSome_iff_exists.mp hsome
    rw [hway]
    rfl
  · have hempty : others.flatMap (fun (told, rest) =>
        (second.ways rest).map fun (told', rest') => (told'.or told, rest')) = [] := by
      rw [List.flatMap_eq_nil_iff]
      intro way hway
      exact List.map_eq_nil_iff.mpr (hnone way hway)
    rw [hempty, List.head?_nil, Option.or_none]

/-- After as many as possible, what follows begins with no such character; after fewer, with one. -/
theorem exists_afterRuns (p : Char → Bool) (s : Text) :
    ∃ others, afterRuns p s = s.dropWhile p :: others ∧
      ∀ other ∈ others, ∃ c rest, other = c :: rest ∧ p c = true := by
  induction s with
  | nil => exact ⟨[], rfl, by simp⟩
  | cons c rest ih =>
    obtain ⟨others, hruns, hothers⟩ := ih
    by_cases hc : p c = true
    · refine ⟨others ++ [c :: rest], ?_, ?_⟩
      · rw [afterRuns, if_pos hc, hruns, List.dropWhile_cons_of_pos hc, List.cons_append]
      · intro other hother
        rcases List.mem_append.mp hother with h | h
        · exact hothers other h
        · exact ⟨c, rest, List.mem_singleton.mp h, hc⟩
    · exact ⟨[], by rw [afterRuns, if_neg hc, List.dropWhile_cons_of_neg hc], by simp⟩

theorem suffix_of_mem_afterRuns {other : Text} (h : other ∈ afterRuns p s) : other <:+ s := by
  induction s with
  | nil => exact List.mem_singleton.mp h ▸ List.suffix_rfl
  | cons c rest ih =>
    rw [afterRuns] at h
    split at h
    · rcases List.mem_append.mp h with h | h
      · exact (ih h).trans (List.suffix_cons c rest)
      · exact List.mem_singleton.mp h ▸ List.suffix_rfl
    · exact List.mem_singleton.mp h ▸ List.suffix_rfl

/-- Every way leaves a rest of the text. -/
theorem suffix_of_mem_ways {way : Option Text × Text} (h : way ∈ pattern.ways s) : way.2 <:+ s := by
  induction pattern generalizing s way with
  | literal t =>
    obtain ⟨rest, hrest, rfl⟩ := List.mem_map.mp h
    exact after?_suffix (Option.mem_toList.mp hrest)
  | one p =>
    obtain ⟨_, hone, rfl⟩ := List.mem_map.mp h
    exact one?_suffix (Option.mem_toList.mp hone)
  | maybe p =>
    rcases List.mem_append.mp h with h | h
    · obtain ⟨_, hone, rfl⟩ := List.mem_map.mp h
      exact one?_suffix (Option.mem_toList.mp hone)
    · exact List.mem_singleton.mp h ▸ List.suffix_rfl
  | most p =>
    obtain ⟨rest, hrest, rfl⟩ := List.mem_map.mp h
    exact suffix_of_mem_afterRuns hrest
  | fewest p =>
    obtain ⟨rest, hrest, rfl⟩ := List.mem_map.mp h
    exact suffix_of_mem_afterRuns (List.mem_reverse.mp hrest)
  | group inner ih =>
    obtain ⟨way, hway, rfl⟩ := List.mem_map.mp h
    have hrest := ih hway
    exact hrest
  | seq first second ihfirst ihsecond =>
    obtain ⟨way, hway, h⟩ := List.mem_flatMap.mp h
    obtain ⟨way', hway', rfl⟩ := List.mem_map.mp h
    exact (ihsecond hway').trans (ihfirst hway)

/-- Characters that a pattern does not begin with are all taken by a run in front of it. -/
theorem ways_most_seq_of_forall (h : ∀ c rest, p c = true → second.ways (c :: rest) = []) :
    (seq (.most p) second).ways s = second.ways (s.dropWhile p) := by
  obtain ⟨others, hruns, hothers⟩ := exists_afterRuns p s
  have hempty : others.flatMap second.ways = [] := by
    rw [List.flatMap_eq_nil_iff]
    intro other hother
    obtain ⟨c, rest, rfl, hc⟩ := hothers other hother
    exact h c rest hc
  rw [ways_most_seq, hruns, List.flatMap_cons, hempty, List.append_nil]

theorem ways_group_cons {c : Char} (hc : p c = true) (rest : Text) :
    (group (.some1 p)).ways (c :: rest) =
      (afterRuns p rest).map fun other => (some (upTo (c :: rest) other), other) := by
  rw [ways, some1, ways_one_seq_of_pos hc, ways, List.map_map]
  rfl

/-- A run in a group is told, with as many characters as possible first. -/
theorem exists_ways_group {u : Text} (h : run? p s = some (u, rest)) :
    ∃ others, (group (.some1 p)).ways s = (some u, rest) :: others ∧
      ∀ way ∈ others, ∃ c rest, way.2 = c :: rest ∧ p c = true := by
  cases s with
  | nil => cases h
  | cons c t =>
    by_cases hc : p c = true
    · rw [run?_cons_of_pos hc] at h
      cases h
      obtain ⟨others, hruns, hothers⟩ := exists_afterRuns p t
      refine ⟨others.map fun other => (some (upTo (c :: t) other), other), ?_, ?_⟩
      · have hsplit : c :: t = (c :: t.takeWhile p) ++ t.dropWhile p := by
          rw [List.cons_append, List.takeWhile_append_dropWhile]
        have hrun : upTo (c :: t) (t.dropWhile p) = c :: t.takeWhile p :=
          (congrArg (upTo · _) hsplit).trans (upTo_append _ _)
        rw [ways_group_cons hc, hruns, List.map_cons, hrun]
      · intro way hway
        obtain ⟨other, hother, rfl⟩ := List.mem_map.mp hway
        exact hothers other hother
    · rw [run?_cons_of_neg hc] at h
      cases h

theorem ways_group_eq_nil (h : run? p s = none) : (group (.some1 p)).ways s = [] := by
  cases s with
  | nil => rfl
  | cons c t =>
    by_cases hc : p c = true
    · rw [run?_cons_of_pos hc] at h
      cases h
    · rw [ways, some1, ways_one_seq_of_neg hc, List.map_nil]

end Ways

end Pattern

end ComponentCatalog.Text
