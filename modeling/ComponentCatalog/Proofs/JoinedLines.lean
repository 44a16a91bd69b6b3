import ComponentCatalog.Proofs.Phrases

/-!
A text as its lines: what is in it, and a search in it that goes from line to line.
-/
namespace ComponentCatalog.Text

variable {c : Char} {s : Text} {ls : List Text}

theorem join_lines (s : Text) : join ['\n'] (lines s) = s := List.intercalate_splitOn '\n'

theorem feed_notMem_of_mem_lines {line : Text} (h : line ∈ lines s) : '\n' ∉ line :=
  notMem_of_mem_splitOn h

theorem join_cons (line : Text) (ls : List Text) :
    join ['\n'] (line :: ls) = line ++ if ls = [] then [] else '\n' :: join ['\n'] ls := by
  cases ls with
  | nil => rfl
  | cons next ls =>
    rw [join_cons_cons, if_neg (List.cons_ne_nil _ _)]
    rfl

theorem mem_join (h : c ∈ join ['\n'] ls) : c = '\n' ∨ ∃ line ∈ ls, c ∈ line := by
  induction ls with
  | nil => cases h
  | cons line ls ih =>
    rw [join_cons, List.mem_append] at h
    rcases h with h | h
    · exact .inr ⟨line, List.mem_cons_self, h⟩
    · split at h
      · cases h
      · rcases List.mem_cons.mp h with rfl | h
        · exact .inl rfl
        · rcases ih h with rfl | ⟨found, hfound, hc⟩
          · exact .inl rfl
          · exact .inr ⟨found, .tail _ hfound, hc⟩

theorem subset_join {line : Text} (h : line ∈ ls) : line ⊆ join ['\n'] ls := by
  induction ls with
  | nil => cases h
  | cons first ls ih =>
    rw [join_cons]
    rcases List.mem_cons.mp h with rfl | h
    · exact List.subset_append_left _ _
    · have hne : ls ≠ [] := List.ne_nil_of_mem h
      rw [if_neg hne]
      exact fun c hc => List.mem_append_right _ (.tail _ (ih h hc))

/-- Lines without line feeds hold nothing else exactly if all of them are empty. -/
theorem exists_mem_join_iff (h : ∀ line ∈ ls, '\n' ∉ line) :
    (∃ c ∈ join ['\n'] ls, c ≠ '\n') ↔ ∃ line ∈ ls, line ≠ [] := by
  constructor
  · rintro ⟨c, hc, hfeed⟩
    rcases mem_join hc with rfl | ⟨line, hline, hc⟩
    · exact absurd rfl hfeed
    · exact ⟨line, hline, List.ne_nil_of_mem hc⟩
  · rintro ⟨line, hline, hne⟩
    obtain ⟨c, rest, rfl⟩ := List.exists_cons_of_ne_nil hne
    exact ⟨c, subset_join hline List.mem_cons_self,
      ne_of_mem_of_not_mem List.mem_cons_self (h _ hline)⟩

/-- Behind its first character, a line with lines below it holds line feeds only, exactly if it has
at most that character and they are empty. -/
theorem exists_mem_tail_join_iff {line : Text} (h : ∀ l ∈ line :: ls, '\n' ∉ l) :
    (∃ c ∈ (join ['\n'] (line :: ls)).tail, c ≠ '\n') ↔
      2 ≤ line.length ∨ ∃ l ∈ ls, l ≠ [] := by
  obtain ⟨hline, hls⟩ := List.forall_mem_cons.mp h
  rw [join_cons, ← exists_mem_join_iff hls]
  have hnil : join ['\n'] [] = [] := rfl
  cases line with
  | nil => by_cases hempty : ls = [] <;> simp [hempty, hnil]
  | cons b line =>
    cases line with
    | nil => by_cases hempty : ls = [] <;> simp [hempty, hnil]
    | cons b' line =>
      have hb' : b' ≠ '\n' := by
        rintro rfl
        exact hline (by simp)
      refine iff_of_true ⟨b', by simp, hb'⟩ (.inl ?_)
      simp

theorem head?_join_blank {line : Text} (ls : List Text) (h : line.head?.all isBlank = true) :
    (join ['\n'] (line :: ls)).head?.all isBlank = true := by
  rw [join_cons]
  cases line with
  | nil => split <;> rfl
  | cons c line => exact h

/-- The first of some lines ends at a line feed, if one follows them. -/
theorem exists_join_cons (line : Text) (ls : List Text) (t : Text) :
    ∃ more, join ['\n'] (line :: ls) ++ '\n' :: t = line ++ '\n' :: more := by
  rw [join_cons]
  split
  · exact ⟨t, by rw [List.append_nil]⟩
  · exact ⟨join ['\n'] ls ++ '\n' :: t, by rw [List.append_assoc, List.cons_append]⟩

/-- Lines of which none begins with a mark go on to the line that does. -/
theorem cut?_lines {mark : Text} (hmark : '\n' ∉ mark) {ls : List Text}
    (h : ∀ line ∈ ls, '\n' ∉ line ∧ ¬mark <+: line) (rest : Text) :
    cut? ('\n' :: mark) (join ['\n'] ls ++ '\n' :: (mark ++ rest)) =
      some (join ['\n'] ls, rest) := by
  have hend : cut? ('\n' :: mark) ('\n' :: (mark ++ rest)) = some ([], rest) := by
    have hcut := cut?_of_startsWith (startsWith_append ('\n' :: mark) rest)
    rwa [List.drop_left] at hcut
  induction ls with
  | nil => exact hend
  | cons line ls ih =>
    obtain ⟨hfeed, -⟩ := h line List.mem_cons_self
    have ih := ih fun l hl => h l (.tail _ hl)
    cases ls with
    | nil =>
      have hjoin : join ['\n'] [line] = line := List.append_nil _
      rw [hjoin, cut?_append_of_notMem hfeed, hend]
      simp only [Option.map_some, List.append_nil]
    | cons next ls =>
      obtain ⟨-, hnext⟩ := h next (.tail _ List.mem_cons_self)
      -- After the line feed the mark would have to begin the next line.
      have hnot : startsWith ('\n' :: mark)
          ('\n' :: (join ['\n'] (next :: ls) ++ '\n' :: (mark ++ rest))) = false := by
        rw [Bool.eq_false_iff]
        intro hstarts
        obtain ⟨tail, htail⟩ := Option.isSome_iff_exists.mp hstarts
        obtain ⟨-, hsplit⟩ := List.cons.inj (after?_eq_some.mp htail)
        obtain ⟨more, hmore⟩ := exists_join_cons next ls (mark ++ rest)
        have hprefix : mark <+: next ++ '\n' :: more := ⟨tail, hsplit.symm.trans hmore⟩
        exact hnext (prefix_of_notMem hprefix hmark)
      have hsplit : join ['\n'] (line :: next :: ls) ++ '\n' :: (mark ++ rest) =
          line ++ '\n' :: (join ['\n'] (next :: ls) ++ '\n' :: (mark ++ rest)) := by
        rw [join_cons_cons, List.append_assoc, List.append_assoc]
        rfl
      rw [hsplit, cut?_append_of_notMem hfeed, cut?_cons hnot, ih, join_cons_cons]
      rfl

end ComponentCatalog.Text
