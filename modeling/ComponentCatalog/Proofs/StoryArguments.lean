import ComponentCatalog.Proofs.Literals
import ComponentCatalog.Proofs.StorySource

/-!
Arguments printed as an object are mined from it again: each of them is one entry, and the braces
around them are found.
-/
namespace ComponentCatalog.Story

open Text Code
open Component (IsName)

variable {arguments : List Argument}

theorem isPlain_of_isName {s : Text} (h : IsName s) : ∀ c ∈ s, isPlain c = true :=
  fun c hc => isPlain_of_isWord (h.word c hc)

theorem getLast?_of_isName {s : Text} (h : IsName s) : s.getLast? ≠ some '/' := fun hlast =>
  Bool.false_ne_true (h.word '/' (List.mem_of_getLast? hlast))

theorem Argument.WellFormed.balanced_source {a : Argument} (h : a.WellFormed) :
    Balanced true a.source :=
  .append_of_not_slash (.of_plain (isPlain_of_isName h.key)) (getLast?_of_isName h.key)
    (.append_of_not_slash (.of_plain (by decide)) (by decide) h.balanced)

theorem balanced_objectBody (h : ∀ a ∈ arguments, a.WellFormed) :
    Balanced true (objectBody arguments) := by
  have hjoin : Balanced true (join ", ".toList (arguments.map Argument.source)) := by
    refine .join fun s hs => ?_
    obtain ⟨a, ha, rfl⟩ := List.mem_map.mp hs
    exact (h a ha).balanced_source
  exact .append_of_not_slash (s := [' ']) (.of_plain (by decide)) (by decide)
    (.append hjoin (.of_plain (by decide)) fun _ => by simp [OpensNoComment])

/-- The block of a printed object is the inside of its braces. -/
theorem block?_objectSource (h : ∀ a ∈ arguments, a.WellFormed) (rest : Text) :
    block? curly (objectSource arguments ++ rest) = some (objectBody arguments) := by
  have hsplit : objectSource arguments ++ rest =
      '\x7b' :: (objectBody arguments ++ '\x7d' :: rest) := by
    simp [objectSource]
  rw [hsplit]
  exact block?_balanced (b := curly) (by decide) (balanced_objectBody h) rest

theorem entryShape_of_not_isWord {c : Char} (hc : isWord c = false) (offset : Nat)
    (previous : Option Char) (rest : Text) : entryShape ⟨offset, previous, c :: rest⟩ = none := by
  have hstart : Cursor.atWordStart ⟨offset, previous, c :: rest⟩ = false := by
    simp [Cursor.atWordStart, hc]
  rw [entryShape, hstart]
  rfl

/-- An entry is recognised where a name begins; its value goes on to the first character that ends
it. -/
theorem entryShape_entry {key raw : Text} (hkey : IsName key) (offset : Nat)
    {previous : Option Char} (hprevious : previous.any isWord = false) (hne : raw ≠ [])
    (hblank : ∀ c, raw.head? = some c → isBlank c = false)
    (hraw : ∀ c ∈ raw, endsEntry c = false) (rest : Text)
    (hrest : rest.head?.all endsEntry = true) :
    entryShape ⟨offset, previous, key ++ (": ".toList ++ raw) ++ rest⟩ =
      some ((key, raw), (key ++ (": ".toList ++ raw)).length) := by
  have hsplit : key ++ (": ".toList ++ raw) ++ rest = key ++ (':' :: ' ' :: (raw ++ rest)) := by
    simp
  have hstart := hkey.atWordStart offset hprevious (':' :: ' ' :: (raw ++ rest))
  have hword : word? (key ++ (':' :: ' ' :: (raw ++ rest))) =
      some (key, ':' :: ' ' :: (raw ++ rest)) := word?_append hkey.ne_nil hkey.word rfl
  have hcolon : after? [':'] (':' :: ' ' :: (raw ++ rest)) = some (' ' :: (raw ++ rest)) := rfl
  have hrun : run? (fun c => c ≠ ',' && c ≠ '\n' && c ≠ '\x7d') (raw ++ rest) =
      some (raw, rest) := by
    have hends (c : Char) :
        (decide (c ≠ ',') && decide (c ≠ '\n') && decide (c ≠ '\x7d')) = !endsEntry c := by
      simp [endsEntry, Bool.not_or, Bool.and_assoc, beq_eq_decide]
    refine run?_append hne (fun c hc => ?_) ?_
    · rw [hends, hraw c hc]
      rfl
    · cases rest with
      | nil => rfl
      | cons c rest =>
        have hc : endsEntry c = true := by simpa using hrest
        simp only [List.head?_cons, Option.any_some, hends, hc]
        rfl
  have hvalue : afterMost isBlank (run? fun c => c ≠ ',' && c ≠ '\n' && c ≠ '\x7d')
      (' ' :: (raw ++ rest)) = some (raw, rest) := by
    have hspace : isBlank ' ' = true := rfl
    rw [afterMost, if_pos hspace, afterMost_of_neg, hrun, Option.some_or]
    intro c hc
    rw [List.head?_append_of_ne_nil _ hne] at hc
    exact hblank c hc
  rw [hsplit]
  rw [entryShape, guard_bind hstart]
  simp only [hword, hcolon, hvalue, Option.bind_eq_bind,
    Option.bind_some, Option.pure_def, Cursor.lengthTo, List.length_append, List.length_cons,
    Option.some.injEq, Prod.mk.injEq, true_and]
  simp
  omega

/-- What mining reads of an argument: its key, and its value up to the character that ends it. -/
structure Argument.Mineable (a : Argument) : Prop where
  key : IsName a.key
  ne_nil : a.raw ≠ []
  stripped : strip a.raw = a.raw
  whole : ∀ c ∈ a.raw, endsEntry c = false
  reads : coerceValue a.raw = .ok a.value

theorem Argument.WellFormed.mineable {a : Argument} (h : a.WellFormed) : a.Mineable :=
  ⟨h.key, h.ne_nil, h.stripped, h.whole, h.reads⟩

theorem isBlank_head_raw {a : Argument} (h : a.Mineable) :
    ∀ c, a.raw.head? = some c → isBlank c = false := by
  intro c hc
  obtain ⟨d, s, hraw⟩ := List.exists_cons_of_ne_nil h.ne_nil
  rw [hraw] at hc
  cases hc
  exact isBlank_head_of_strip_eq_self (hraw ▸ h.stripped)

/-- An entry with its raw value read. -/
def readEntry : Text × Text → Except DigitError (Text × Value)
  | (key, raw) => return (key, ← coerceValue raw)

theorem readEntry_eq_ok {key raw : Text} {value : Value} (h : coerceValue raw = .ok value) :
    readEntry (key, raw) = .ok (key, value) := by
  simp only [readEntry, h]
  rfl

theorem hitsFrom_entryShape_skip {c : Char} (hc : isWord c = false) (offset : Nat)
    (previous : Option Char) (s : Text) :
    hitsFrom entryShape 0 offset previous (c :: s) =
      hitsFrom entryShape 0 (offset + 1) (some c) s := by
  rw [hitsFrom, entryShape_of_not_isWord hc]

/-- There is no entry in spaces. -/
theorem hitsFrom_entryShape_spaces {u : Text} (hu : ∀ c ∈ u, c = ' ') (offset : Nat)
    (previous : Option Char) : hitsFrom entryShape 0 offset previous u = [] := by
  induction u generalizing offset previous with
  | nil => rfl
  | cons c u ih =>
    obtain ⟨rfl, hrest⟩ := List.forall_mem_cons.mp hu
    rw [hitsFrom_entryShape_skip rfl, ih hrest]

/-- Before another entry the raw value ends at the comma. -/
theorem hitsFrom_entry {a : Argument} (ha : a.Mineable) (offset : Nat) {previous : Option Char}
    (hprevious : previous.any isWord = false) (s : Text) :
    hitsFrom entryShape 0 offset previous (a.source ++ (", ".toList ++ s)) =
      (a.key, a.raw) :: hitsFrom entryShape 0 (offset + a.source.length + 1 + 1) (some ' ') s := by
  have hhit := entryShape_entry ha.key offset hprevious ha.ne_nil (isBlank_head_raw ha) ha.whole
    (", ".toList ++ s) rfl
  have hcomma : ", ".toList ++ s = ',' :: ' ' :: s := rfl
  rw [Argument.source, hitsFrom_hit (by simp [ha.key.ne_nil]) hhit, hcomma,
    hitsFrom_entryShape_skip rfl, hitsFrom_entryShape_skip rfl]

/-- The raw value of the last entry has the spaces behind it at its end. -/
theorem hitsFrom_last_entry {a : Argument} (ha : a.Mineable) (offset : Nat)
    {previous : Option Char} (hprevious : previous.any isWord = false) {trail : Text}
    (htrail : ∀ c ∈ trail, c = ' ') :
    hitsFrom entryShape 0 offset previous (a.source ++ trail) = [(a.key, a.raw ++ trail)] := by
  have hsplit : a.source ++ trail = a.key ++ (": ".toList ++ (a.raw ++ trail)) ++ [] := by
    simp [Argument.source]
  have hblank : ∀ c, (a.raw ++ trail).head? = some c → isBlank c = false := by
    rw [List.head?_append_of_ne_nil _ ha.ne_nil]
    exact isBlank_head_raw ha
  have hraw : ∀ c ∈ a.raw ++ trail, endsEntry c = false := by
    intro c hc
    rcases List.mem_append.mp hc with hc | hc
    · exact ha.whole c hc
    · rw [htrail c hc]
      rfl
  have hne : a.raw ++ trail ≠ [] := List.append_ne_nil_of_left_ne_nil ha.ne_nil _
  have hhit := entryShape_entry ha.key offset hprevious hne hblank hraw [] rfl
  rw [hsplit, hitsFrom_hit (by simp) hhit, hitsFrom]

/-- Reading the mined entries in turn gives the arguments. -/
theorem mapM_hits_arguments (h : ∀ a ∈ arguments, a.Mineable) (offset : Nat)
    {previous : Option Char} (hprevious : previous.any isWord = false) {trail : Text}
    (htrail : ∀ c ∈ trail, c = ' ') :
    (hitsFrom entryShape 0 offset previous
        (join ", ".toList (arguments.map Argument.source) ++ trail)).mapM
      readEntry = .ok (pairs arguments) := by
  induction arguments generalizing offset previous with
  | nil =>
    have hjoin : join ", ".toList (([] : List Argument).map Argument.source) ++ trail = trail := rfl
    rw [hjoin, hitsFrom_entryShape_spaces htrail]
    rfl
  | cons a arguments ih =>
    have ha := h a List.mem_cons_self
    cases arguments with
    | nil =>
      -- What is mined for the last entry reaches to the end, and its value is read with the trail.
      have hone : join ", ".toList ([a].map Argument.source) = a.source := List.append_nil _
      have hblank : ∀ c ∈ trail, isBlank c = true := fun c hc => by rw [htrail c hc]; rfl
      have hread : coerceValue (a.raw ++ trail) = .ok a.value := by
        rw [coerceValue_of_strip (strip_append_of_blank hblank a.raw), ha.reads]
      rw [hone, hitsFrom_last_entry ha offset hprevious htrail, List.mapM_cons,
        readEntry_eq_ok hread]
      rfl
    | cons b arguments =>
      have hjoin : join ", ".toList ((a :: b :: arguments).map Argument.source) ++ trail =
          a.source ++ (", ".toList ++
            (join ", ".toList ((b :: arguments).map Argument.source) ++ trail)) := by
        rw [List.map_cons, List.map_cons, join_cons_cons]
        simp only [List.append_assoc]
      have hspace : (some ' ').any isWord = false := rfl
      rw [hjoin, hitsFrom_entry ha offset hprevious, List.mapM_cons, readEntry_eq_ok ha.reads,
        ih (fun a ha => h a (.tail _ ha)) _ hspace]
      rfl

theorem parseObjectLiteral_eq (s : Text) : parseObjectLiteral s =
    ((hits entryShape s).mapM readEntry >>= fun pairs => return Entries.ofPairs pairs) := rfl

/-- A printed object is mined to its arguments, the last of each key. -/
theorem parseObjectLiteral_objectBody (h : ∀ a ∈ arguments, a.WellFormed) :
    parseObjectLiteral (objectBody arguments) = .ok (Entries.ofPairs (pairs arguments)) := by
  have hhits : hits entryShape (objectBody arguments) = hitsFrom entryShape 0 1 (some ' ')
      (join ", ".toList (arguments.map Argument.source) ++ [' ']) := by
    rw [hits, objectBody, hitsFrom_entryShape_skip rfl]
  rw [parseObjectLiteral_eq, hhits,
    mapM_hits_arguments (fun a ha => (h a ha).mineable) 1 rfl (by decide)]
  rfl

end ComponentCatalog.Story
