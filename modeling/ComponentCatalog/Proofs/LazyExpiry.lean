import Mathlib.Algebra.Order.Ring.Int
import Mathlib.Algebra.Order.Group.Unbundled.Basic
import ComponentCatalog.Proofs.CacheEntries

/-!
Expiry in a cache is lazy and cannot be noticed: what a look-up comes to is determined by a plain
log of what was stored and removed, in which nothing ever expires away. The simulation relates a
cache to its log up to entries that have outlived their lifetime.
-/
namespace ComponentCatalog.Cache

variable {ε τ α : Type}

/-- An operation that is not meant to change what the cache holds. -/
inductive Observation where
  | get (key : Text)
  | has (key : Text)
  | sweep
  | size
  deriving DecidableEq, Repr

/-- What can happen to a cache. A fetch is given by what it comes to if it is called. -/
inductive Operation (ε τ α : Type) [Zero τ] [LE τ] where
  | observe (o : Observation)
  | set (key : Text) (value : α) (lifetime? : Option τ)
  | getOrFetch (key : Text) (fetch : Except ε α) (lifetime? : Option τ)
  | delete (key : Text)
  | deleteUnder (lead : Text)
  | clear
  | advance (seconds : τ) (forward : 0 ≤ seconds)

/-- What a look-up comes to. A value that was fetched is told apart from a stored one. -/
inductive Outcome (ε α : Type) where
  | got (value? : Option α)
  | had (present : Bool)
  | came (fetched : Fetched ε α)

/-- A cache in a run, and the time. -/
structure Clocked (τ α : Type) where
  now : τ
  cache : Cache τ α

namespace Clocked

/-- An empty cache at some time; entries live for `lifetime` unless stored with their own. -/
def start (now lifetime : τ) : Clocked τ α := ⟨now, .empty lifetime⟩

section Step

variable [Zero τ] [Sub τ] [LT τ] [DecidableLT τ]

def observe (s : Clocked τ α) : Observation → Option (Outcome ε α) × Clocked τ α
  | .get key =>
    let (found, c) := s.cache.lookup s.now key
    (some (.got found), { s with cache := c })
  | .has key =>
    let (found, c) := s.cache.lookup s.now key
    (some (.had found.isSome), { s with cache := c })
  | .sweep => (none, { s with cache := (s.cache.sweep s.now).2 })
  | .size => (none, s)

/-- The outcome of an operation, if it is a look-up, and the cache after it. -/
def step [LE τ] [Add τ] (s : Clocked τ α) : Operation ε τ α → Option (Outcome ε α) × Clocked τ α
  | .observe o => s.observe o
  | .set key value lifetime? =>
    (none, { s with cache := s.cache.store s.now key value lifetime? })
  | .getOrFetch key fetch lifetime? =>
    let (fetched, c) := s.cache.getOrFetch s.now key fetch lifetime?
    (some (.came fetched), { s with cache := c })
  | .delete key => (none, { s with cache := (s.cache.delete key).2 })
  | .deleteUnder lead => (none, { s with cache := (s.cache.deleteUnder lead).2 })
  | .clear => (none, { s with cache := s.cache.clear })
  | .advance seconds _ => (none, { s with now := s.now + seconds })

/-- The outcomes of a run, one an operation. -/
def outcomes [LE τ] [Add τ] (s : Clocked τ α) : List (Operation ε τ α) → List (Option (Outcome ε α))
  | [] => []
  | a :: run => (s.step a).1 :: outcomes (s.step a).2 run

/-- The cache after a run. -/
def after [LE τ] [Add τ] (s : Clocked τ α) (run : List (Operation ε τ α)) : Clocked τ α :=
  run.foldl (fun s a => (s.step a).2) s

end Step

end Clocked

/-- What a log records. -/
inductive Event (τ α : Type) where
  | stored (key : Text) (e : Entry τ α)
  | deleted (key : Text)
  | deletedUnder (lead : Text)
  | cleared

/-- What was last stored under a key, where no removal has struck it since. The newest event of a
log comes first. -/
def lastStored? (key : Text) : List (Event τ α) → Option (Entry τ α)
  | [] => none
  | .stored k e :: older => if k = key then some e else lastStored? key older
  | .deleted k :: older => if k = key then none else lastStored? key older
  | .deletedUnder lead :: older =>
    if Text.startsWith lead key then none else lastStored? key older
  | .cleared :: _ => none

/-- A plain log of a cache: it keeps every event, and reading changes nothing. -/
structure Log (τ α : Type) where
  now : τ
  lifetime : τ
  events : List (Event τ α)

namespace Log

def start (now lifetime : τ) : Log τ α := ⟨now, lifetime, []⟩

def record (l : Log τ α) (e : Event τ α) : Log τ α := { l with events := e :: l.events }

def store (l : Log τ α) (key : Text) (value : α) (lifetime? : Option τ) : Log τ α :=
  l.record (.stored key ⟨value, l.now, lifetime?.getD l.lifetime⟩)

variable [Zero τ] [LE τ] [DecidableLE τ] [Sub τ]

/-- The value under a key: the last one stored and not removed, if it lives for ever or no more than
its lifetime has passed since. -/
def value? (l : Log τ α) (key : Text) : Option α :=
  (lastStored? key l.events).bind fun e =>
    if e.lifetime ≤ 0 ∨ l.now - e.storedAt ≤ e.lifetime then some e.value else none

def observe (l : Log τ α) : Observation → Option (Outcome ε α)
  | .get key => some (.got (l.value? key))
  | .has key => some (.had (l.value? key).isSome)
  | .sweep | .size => none

def getOrFetch (l : Log τ α) (key : Text) (fetch : Except ε α) (lifetime? : Option τ) :
    Fetched ε α × Log τ α :=
  match l.value? key with
  | some value => (.cached value, l)
  | none =>
    match fetch with
    | .ok value => (.fetched value, l.store key value lifetime?)
    | .error e => (.failed e, l)

def step [Add τ] (l : Log τ α) : Operation ε τ α → Option (Outcome ε α) × Log τ α
  | .observe o => (l.observe o, l)
  | .set key value lifetime? => (none, l.store key value lifetime?)
  | .getOrFetch key fetch lifetime? =>
    let (fetched, l) := l.getOrFetch key fetch lifetime?
    (some (.came fetched), l)
  | .delete key => (none, l.record (.deleted key))
  | .deleteUnder lead => (none, l.record (.deletedUnder lead))
  | .clear => (none, l.record .cleared)
  | .advance seconds _ => (none, { l with now := l.now + seconds })

def outcomes [Add τ] (l : Log τ α) : List (Operation ε τ α) → List (Option (Outcome ε α))
  | [] => []
  | a :: run => (l.step a).1 :: outcomes (l.step a).2 run

end Log

/-- The cache and its log agree up to expired entries: what the cache stores is what was last stored
by the log, and what it does not store any more has expired. -/
structure Tracks [Zero τ] [Sub τ] [LT τ] [DecidableLT τ] (s : Clocked τ α) (l : Log τ α) :
    Prop where
  now : s.now = l.now
  lifetime : s.cache.lifetime = l.lifetime
  nodup : (Entries.keys s.cache.entries).Nodup
  stored : ∀ key e, s.cache.entry? key = some e → lastStored? key l.events = some e
  gone : ∀ key e, s.cache.entry? key = none → lastStored? key l.events = some e →
    e.isExpired s.now = true

variable [AddCommGroup τ] [LinearOrder τ]

theorem not_isExpired_iff {e : Entry τ α} {now : τ} :
    e.isExpired now = false ↔ e.lifetime ≤ 0 ∨ now - e.storedAt ≤ e.lifetime := by
  rw [Entry.isExpired, Bool.and_eq_false_iff, decide_eq_false_iff_not, decide_eq_false_iff_not,
    not_lt, not_lt]

/-- Time only adds to the age of an expired entry. -/
theorem isExpired_add [IsOrderedAddMonoid τ] {e : Entry τ α} {now seconds : τ}
    (h : e.isExpired now = true) (forward : 0 ≤ seconds) : e.isExpired (now + seconds) = true := by
  simp only [Entry.isExpired, Bool.and_eq_true, decide_eq_true_eq] at h ⊢
  obtain ⟨hpos, hlt⟩ := h
  exact ⟨hpos, hlt.trans_le (sub_le_sub_right (le_add_of_nonneg_right forward) _)⟩

/-- The value of an entry that is looked up. -/
theorem lookup_fst (c : Cache τ α) (now : τ) (key : Text) :
    (c.lookup now key).1 =
      (c.entry? key).bind fun e => if e.isExpired now then none else some e.value := by
  rw [lookup]
  split
  · next hnone => rw [hnone, Option.bind_none]
  · next e he =>
    rw [he, Option.bind_some]
    split <;> rfl

/-- A cache that holds the same but for expired entries. -/
structure Purges (now : τ) (c kept : Cache τ α) : Prop where
  lifetime : kept.lifetime = c.lifetime
  nodup : (Entries.keys kept.entries).Nodup
  stored : ∀ key e, kept.entry? key = some e → c.entry? key = some e
  gone : ∀ key e, kept.entry? key = none → c.entry? key = some e → e.isExpired now = true

theorem purges_lookup {c : Cache τ α} (hnodup : (Entries.keys c.entries).Nodup) (now : τ)
    (key : Text) : Purges now c (c.lookup now key).2 := by
  have hself : Purges now c c :=
    ⟨rfl, hnodup, fun _ _ h => h, fun _ _ hn hs => absurd (hn.symm.trans hs) (by simp)⟩
  rw [lookup]
  split
  · exact hself
  · next e he =>
    split
    · next hexpired =>
      refine ⟨rfl, Entries.nodup_keys_filter _ hnodup, fun key' e' h => ?_, fun key' e' hn hs => ?_⟩
      · rw [entry?_erase] at h
        split at h
        · cases h
        · exact h
      · rw [entry?_erase] at hn
        split at hn
        · next hkey =>
          rw [hkey, he] at hs
          cases hs
          exact hexpired
        · cases hn.symm.trans hs
    · exact hself

theorem mem_sweep {c : Cache τ α} {now : τ} {entry : Text × Entry τ α} :
    entry ∈ (c.sweep now).2.entries ↔ entry ∈ c.entries ∧ entry.2.isExpired now = false := by
  simp [sweep, discard]

theorem purges_sweep {c : Cache τ α} (hnodup : (Entries.keys c.entries).Nodup) (now : τ) :
    Purges now c (c.sweep now).2 := by
  have hnodup' : (Entries.keys (c.sweep now).2.entries).Nodup :=
    Entries.nodup_keys_filter _ hnodup
  have hentry (key : Text) (e : Entry τ α) : Cache.entry? (c.sweep now).2 key = some e ↔
      c.entry? key = some e ∧ e.isExpired now = false := by
    rw [Cache.entry?, Cache.entry?, Entries.get?_eq_some_iff_mem hnodup',
      Entries.get?_eq_some_iff_mem hnodup,
      mem_sweep]
  refine ⟨rfl, hnodup', fun key e h => ((hentry key e).mp h).1, fun key e hn hs => ?_⟩
  by_contra hfresh
  have h := (hentry key e).mpr ⟨hs, Bool.eq_false_iff.mpr hfresh⟩
  cases hn.symm.trans h

namespace Tracks

variable {s : Clocked τ α} {l : Log τ α}

theorem start (now lifetime : τ) :
    Tracks (.start now lifetime : Clocked τ α) (.start now lifetime) where
  now := rfl
  lifetime := rfl
  nodup := List.nodup_nil
  stored key e h := by cases h
  gone key e _ h := by cases h

/-- The value in the log is the one that is looked up. -/
theorem value?_eq (h : Tracks s l) (key : Text) : l.value? key = (s.cache.lookup s.now key).1 := by
  rw [lookup_fst, Log.value?, ← h.now]
  cases hentry : s.cache.entry? key with
  | some e =>
    rw [h.stored key e hentry, Option.bind_some, Option.bind_some]
    by_cases hfresh : e.isExpired s.now = false
    · rw [if_pos (not_isExpired_iff.mp hfresh), hfresh, if_neg Bool.false_ne_true]
    · rw [if_neg (mt not_isExpired_iff.mpr hfresh), if_pos (by simpa using hfresh)]
  | none =>
    rw [Option.bind_none]
    cases hlast : lastStored? key l.events with
    | none => rfl
    | some e =>
      have hexpired := h.gone key e hentry hlast
      rw [Option.bind_some, if_neg]
      rw [← not_isExpired_iff, hexpired]
      exact fun h => Bool.false_ne_true h.symm

/-- What has expired in the log may go from the cache. -/
theorem purge (h : Tracks s l) {kept : Cache τ α} (hkept : Purges s.now s.cache kept) :
    Tracks { s with cache := kept } l where
  now := h.now
  lifetime := hkept.lifetime.trans h.lifetime
  nodup := hkept.nodup
  stored key e he := h.stored key e (hkept.stored key e he)
  gone key e hn hlast := by
    cases hentry : s.cache.entry? key with
    | none => exact h.gone key e hentry hlast
    | some e' =>
      have hsame := (h.stored key e' hentry).symm.trans hlast
      cases hsame
      exact hkept.gone key e hn hentry

theorem store (h : Tracks s l) (key : Text) (value : α) (lifetime? : Option τ) :
    Tracks { s with cache := s.cache.store s.now key value lifetime? }
      (l.store key value lifetime?) := by
  have hlast (key' : Text) : lastStored? key' (l.store key value lifetime?).events =
      if key = key' then some ⟨value, s.now, lifetime?.getD s.cache.lifetime⟩
      else lastStored? key' l.events := by
    rw [h.now, h.lifetime]
    rfl
  refine ⟨h.now, h.lifetime, Entries.nodup_keys_set h.nodup, fun key' e he => ?_,
    fun key' e hn hs => ?_⟩
  · rw [entry?_store] at he
    rw [hlast]
    split at he
    · next hkey => rwa [if_pos hkey.symm]
    · next hkey =>
      rw [if_neg (Ne.symm hkey)]
      exact h.stored key' e he
  · rw [entry?_store] at hn
    rw [hlast] at hs
    split at hn
    · cases hn
    · next hkey =>
      rw [if_neg (Ne.symm hkey)] at hs
      exact h.gone key' e hn hs

/-- The cache loses the keys that an event strikes from the log. -/
theorem remove (h : Tracks s l) (strikes : Text → Bool) {kept : Cache τ α} {e : Event τ α}
    (hlifetime : kept.lifetime = s.cache.lifetime) (hnodup : (Entries.keys kept.entries).Nodup)
    (hentry : ∀ key, kept.entry? key = if strikes key then none else s.cache.entry? key)
    (hlast : ∀ key, lastStored? key (e :: l.events) =
      if strikes key then none else lastStored? key l.events) :
    Tracks { s with cache := kept } (l.record e) where
  now := h.now
  lifetime := hlifetime.trans h.lifetime
  nodup := hnodup
  stored key entry he := by
    rw [Log.record, hlast]
    rw [hentry] at he
    split at he
    · cases he
    · next hkept => rw [if_neg hkept, h.stored key entry he]
  gone key entry hn hs := by
    rw [Log.record, hlast] at hs
    split at hs
    · cases hs
    · next hkept =>
      rw [hentry, if_neg hkept] at hn
      exact h.gone key entry hn hs

theorem delete (h : Tracks s l) (key : Text) :
    Tracks { s with cache := (s.cache.delete key).2 } (l.record (.deleted key)) := by
  refine h.remove (fun key' => key' = key) rfl (Entries.nodup_keys_filter _ h.nodup)
    (fun key' => ?_) fun key' => ?_
  · simpa [Cache.delete] using entry?_erase s.cache key key'
  · simp [lastStored?, eq_comm]

theorem deleteUnder (h : Tracks s l) (lead : Text) :
    Tracks { s with cache := (s.cache.deleteUnder lead).2 } (l.record (.deletedUnder lead)) :=
  h.remove (Text.startsWith lead) rfl (Entries.nodup_keys_filter _ h.nodup)
    (entry?_deleteUnder s.cache lead) fun _ => rfl

theorem clear (h : Tracks s l) : Tracks { s with cache := s.cache.clear } (l.record .cleared) :=
  h.remove (fun _ => true) rfl List.nodup_nil (fun _ => rfl) fun _ => rfl

theorem advance [IsOrderedAddMonoid τ] (h : Tracks s l) {seconds : τ} (forward : 0 ≤ seconds) :
    Tracks { s with now := s.now + seconds } { l with now := l.now + seconds } where
  now := congrArg (· + seconds) h.now
  lifetime := h.lifetime
  nodup := h.nodup
  stored := h.stored
  gone key e hn hs := isExpired_add (h.gone key e hn hs) forward

theorem observe (h : Tracks s l) (o : Observation) :
    (s.observe o : Option (Outcome ε α) × _).1 = l.observe o ∧
      Tracks (s.observe o : Option (Outcome ε α) × _).2 l := by
  cases o with
  | get key =>
    refine ⟨?_, h.purge (purges_lookup h.nodup s.now key)⟩
    rw [Log.observe, h.value?_eq]
    rfl
  | has key =>
    refine ⟨?_, h.purge (purges_lookup h.nodup s.now key)⟩
    rw [Log.observe, h.value?_eq]
    rfl
  | sweep => exact ⟨rfl, h.purge (purges_sweep h.nodup s.now)⟩
  | size => exact ⟨rfl, h⟩

theorem getOrFetch (h : Tracks s l) (key : Text) (fetch : Except ε α) (lifetime? : Option τ) :
    (s.cache.getOrFetch s.now key fetch lifetime?).1 = (l.getOrFetch key fetch lifetime?).1 ∧
      Tracks { s with cache := (s.cache.getOrFetch s.now key fetch lifetime?).2 }
        (l.getOrFetch key fetch lifetime?).2 := by
  have hkept := h.purge (purges_lookup h.nodup s.now key)
  unfold Cache.getOrFetch Log.getOrFetch
  rw [h.value?_eq]
  generalize s.cache.lookup s.now key = looked at hkept
  obtain ⟨found, c⟩ := looked
  cases found with
  | some value => exact ⟨rfl, hkept⟩
  | none =>
    cases fetch with
    | ok value => exact ⟨rfl, hkept.store key value lifetime?⟩
    | error e => exact ⟨rfl, hkept⟩

theorem step [IsOrderedAddMonoid τ] (h : Tracks s l) (a : Operation ε τ α) :
    (s.step a).1 = (l.step a).1 ∧ Tracks (s.step a).2 (l.step a).2 := by
  cases a with
  | observe o => exact h.observe o
  | set key value lifetime? => exact ⟨rfl, h.store key value lifetime?⟩
  | getOrFetch key fetch lifetime? =>
    obtain ⟨hfetched, hafter⟩ := h.getOrFetch key fetch lifetime?
    exact ⟨congrArg (some ∘ Outcome.came) hfetched, hafter⟩
  | delete key => exact ⟨rfl, h.delete key⟩
  | deleteUnder lead => exact ⟨rfl, h.deleteUnder lead⟩
  | clear => exact ⟨rfl, h.clear⟩
  | advance seconds forward => exact ⟨rfl, h.advance forward⟩

theorem outcomes_eq [IsOrderedAddMonoid τ] (h : Tracks s l) (run : List (Operation ε τ α)) :
    s.outcomes run = l.outcomes run := by
  induction run generalizing s l with
  | nil => rfl
  | cons a run ih =>
    obtain ⟨houtcome, hafter⟩ := h.step a
    rw [Clocked.outcomes, Log.outcomes, houtcome, ih hafter]

end Tracks

/-- The operations of a run, and observations put in between. -/
abbrev Padded (ε τ α : Type) [Zero τ] [LE τ] := List (Observation ⊕ Operation ε τ α)

namespace Padded

/-- The run with the observations. -/
def whole (run : Padded ε τ α) : List (Operation ε τ α) := run.map (Sum.elim .observe id)

/-- The run without them. -/
def bare (run : Padded ε τ α) : List (Operation ε τ α) := run.filterMap Sum.getRight?

/-- Of what is given for each place of the whole run, that for the places of the bare one. -/
def kept {β : Type} (run : Padded ε τ α) (given : List β) : List β :=
  (given.zip run).filterMap fun (b, place) => place.getRight?.map fun _ => b

end Padded

theorem Log.kept_outcomes (l : Log τ α) (run : Padded ε τ α) :
    run.kept (l.outcomes run.whole) = l.outcomes run.bare := by
  induction run generalizing l with
  | nil => rfl
  | cons place run ih =>
    cases place with
    | inl o => exact ih l
    | inr a => exact congrArg ((l.step a).1 :: ·) (ih (l.step a).2)

/-- In every run the look-ups come to what the plain log says, and observations put into the run
change none of the other outcomes. A sweep removes the entries that have outlived their lifetime and
no others, and tells how many. -/
theorem lookups_eq_log [IsOrderedAddMonoid τ] (now lifetime : τ) :
    let s : Clocked τ α := .start now lifetime
    (∀ run : List (Operation ε τ α), s.outcomes run = (Log.start now lifetime).outcomes run) ∧
    (∀ run : Padded ε τ α, run.kept (s.outcomes run.whole) = s.outcomes run.bare) ∧
    ∀ run : List (Operation ε τ α),
      let t := s.after run
      let (removed, swept) := t.cache.sweep t.now
      removed + swept.size = t.cache.size ∧
      ∀ entry, entry ∈ swept.entries ↔ entry ∈ t.cache.entries ∧
        (entry.2.lifetime ≤ 0 ∨ t.now - entry.2.storedAt ≤ entry.2.lifetime) := by
  intro s
  have hlog (run : List (Operation ε τ α)) :
      s.outcomes run = (Log.start now lifetime).outcomes run :=
    (Tracks.start now lifetime).outcomes_eq run
  refine ⟨hlog, fun run => ?_, fun run => ⟨discard_count _ _, fun entry => ?_⟩⟩
  · rw [hlog, hlog, Log.kept_outcomes]
  · exact mem_sweep.trans (and_congr_right fun _ => not_isExpired_iff)

/-- An entry is found to the end of its lifetime and not beyond, swept or not. -/
theorem found_to_the_end_of_lifetime :
    let run : Padded Text ℤ Text :=
      [.inr (.set "a".toList "old".toList (some 10)), .inr (.advance 10 (by decide)), .inl .sweep,
        .inr (.observe (.get "a".toList)), .inr (.advance 1 (by decide)), .inl (.has "a".toList),
        .inr (.getOrFetch "a".toList (.ok "new".toList) none)]
    run.kept ((Clocked.start 0 5).outcomes run.whole) =
      [none, none, some (.got (some "old".toList)), none, some (.came (.fetched "new".toList))] :=
  (lookups_eq_log (0 : ℤ) 5).2.1 _

end ComponentCatalog.Cache
