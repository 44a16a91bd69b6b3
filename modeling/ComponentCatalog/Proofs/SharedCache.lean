import ComponentCatalog.Proofs.Coherence

/-!
Files and listings in one cache. Stored under keys that begin with the name of their kind, they stay
apart: a source behind one cache for both kinds answers, reports, drops and counts in every run what
a source with a cache for each kind does.
-/
namespace ComponentCatalog

open Provider

namespace Provider.Kind

/-- The key of a path in a cache for answers of both kinds. -/
def key (k : Kind) (path : Text) : Text := k.label.toList ++ ':' :: path

variable {k k' : Kind} {lead path path' : Text}

theorem startsWith_key : Text.startsWith (k.key lead) (k'.key path) =
    (decide (k = k') && Text.startsWith lead path) := by
  cases k <;> cases k' <;> simp [key, label, Text.startsWith, Text.after?]

theorem key_inj : k.key path = k'.key path' ↔ k = k' ∧ path = path' := by
  cases k <;> cases k' <;> simp [key, label]

end Provider.Kind

namespace Cached

variable {τ σ : Type} {c : Cached τ σ} {k : Kind} {path : Text}

/-- The keys of all that is stored, in a cache for both kinds. -/
def keys (c : Cached τ σ) : List Text :=
  (c.storedPaths .file).map Kind.file.key ++ (c.storedPaths .directory).map Kind.directory.key

theorem mem_keys : k.key path ∈ c.keys ↔ path ∈ c.storedPaths k := by
  cases k <;> simp [keys, Kind.key_inj]

theorem keys_withInner (c : Cached τ σ) (inner : σ) : (c.withInner inner).keys = c.keys := rfl

theorem keys_dropped (k : Kind) (path : Text) (c : Cached τ σ) :
    (c.dropped k path).keys = c.keys.filter (· ≠ k.key path) := by
  have hpaths (k' : Kind) : (c.dropped k path).storedPaths k' =
      (c.storedPaths k').filter fun p => k'.key p ≠ k.key path := by
    by_cases hk : k' = k
    · subst hk
      simp [storedPaths, dropped, Cache.erase, Entries.keys_erase, Kind.key_inj]
    · simp [storedPaths, dropped, cache_withCache_of_ne hk, Kind.key_inj, hk]
  simp only [keys, hpaths, List.filter_append, List.filter_map]
  rfl

/-- A value that is stored adds its key, if that is new. -/
theorem keys_keeping_ok (value : k.Answer) (hnew : k.key path ∉ c.keys) :
    (c.keeping k path (.ok value)).keys.Perm (c.keys ++ [k.key path]) := by
  have hpath : path ∉ Entries.keys (c.cache k).entries := mt mem_keys.mpr hnew
  have hpaths (k' : Kind) : (c.keeping k path (.ok value)).storedPaths k' =
      c.storedPaths k' ++ if k' = k then [path] else [] := by
    by_cases hk : k' = k
    · subst hk
      simp [storedPaths, keeping, Cache.store, Entries.keys_set, hpath]
    · simp [storedPaths, keeping, cache_withCache_of_ne hk, hk]
  cases k with
  | file =>
    simp only [keys, hpaths, List.map_append, List.append_assoc, if_true, reduceCtorEq, if_false,
      List.append_nil]
    exact List.perm_append_comm.append_left _
  | directory =>
    simp only [keys, hpaths, List.map_append, List.append_assoc, if_true, reduceCtorEq, if_false,
      List.append_nil]
    exact .refl _

theorem keys_invalidate (lead : Text) (c : Cached τ σ) :
    (c.invalidate lead).2.keys = (c.keys.filter fun key =>
      !Text.startsWith (Kind.file.key lead) key).filter fun key =>
        !Text.startsWith (Kind.directory.key lead) key := by
  simp [keys, storedPaths_invalidate, List.filter_map, Function.comp_def, Kind.startsWith_key]

end Cached

/-- A source behind one cache for answers of both kinds. -/
structure Shared (τ σ : Type) where
  now : τ
  cache : Cache τ (Σ k : Kind, k.Answer)
  /-- The lifetime of a kind, where it is not the cache's own. -/
  ownLifetime : Kind → Option τ
  inner : σ

namespace Shared

variable {τ σ : Type}

/-- A source with state `inner` behind an empty cache. -/
def start (now lifetime : τ) (fileLifetime directoryLifetime : Option τ) (inner : σ) : Shared τ σ :=
  ⟨now, .empty lifetime, Kind.choose fileLifetime directoryLifetime, inner⟩

def withInner (c : Shared τ σ) (inner : σ) : Shared τ σ := { c with inner }

/-- Drops the files and the listings whose paths begin with `lead`; tells how many. -/
def invalidate (c : Shared τ σ) (lead : Text) : Nat × Shared τ σ :=
  let (files, kept) := c.cache.deleteUnder (Kind.file.key lead)
  let (directories, kept) := kept.deleteUnder (Kind.directory.key lead)
  (files + directories, { c with cache := kept })

/-- Drops what is stored for one path. -/
def dropped (k : Kind) (path : Text) (c : Shared τ σ) : Shared τ σ :=
  { c with cache := c.cache.erase (k.key path) }

/-- Stores what a call came to, unless it failed. -/
def keeping (k : Kind) (path : Text) (result : Except Failure k.Answer) (c : Shared τ σ) :
    Shared τ σ :=
  match result with
  | .ok value =>
    { c with cache := c.cache.store c.now (k.key path) ⟨k, value⟩ (c.ownLifetime k) }
  | .error _ => c

/-- The answer, if it is of the kind. -/
def answer? (k : Kind) : (Σ k : Kind, k.Answer) → Option k.Answer
  | ⟨k', value⟩ => if h : k' = k then some (h ▸ value) else none

/-- The value that the cache has for a path, or the one read from the source, which it then
keeps. -/
def read [Zero τ] [Sub τ] [LT τ] [DecidableLT τ] (p : Provider σ) (k : Kind) (path : Text) :
    Reading (Shared τ σ) k.Answer := do
  let c := (← get).state
  let (found, kept) := c.cache.lookup c.now (k.key path)
  modify fun s => { s with state := { s.state with cache := kept } }
  match found.bind (answer? k) with
  | some value => return value
  | none =>
    Reading.report .debug "sources.cache" ("Cache miss for ".toList ++ k.key path)
    let value ← Reading.within Shared.inner withInner (p.read k path)
    modify fun s =>
      let c := s.state
      { s with state.cache := c.cache.store c.now (k.key path) ⟨k, value⟩ (c.ownLifetime k) }
    return value

/-- The entry of an answer in a cache for both kinds. -/
def pack (k : Kind) (e : Cache.Entry τ k.Answer) : Cache.Entry τ (Σ k : Kind, k.Answer) :=
  ⟨⟨k, e.value⟩, e.storedAt, e.lifetime⟩

/-- One cache holds for both kinds what two caches hold for one kind each. -/
structure Holds (s : Shared τ σ) (c : Cached τ σ) : Prop where
  now : s.now = c.now
  inner : s.inner = c.inner
  ownLifetime : ∀ k, s.ownLifetime k = c.ownLifetime k
  lifetime : ∀ k, s.cache.lifetime = (c.cache k).lifetime
  stored : ∀ k path, s.cache.entry? (k.key path) = (c.stored k path).map (pack k)
  keys : (Entries.keys s.cache.entries).Perm c.keys

namespace Holds

variable {s : Shared τ σ} {c : Cached τ σ}

theorem start (now lifetime : τ) (fileLifetime directoryLifetime : Option τ) (inner : σ) :
    Holds (.start now lifetime fileLifetime directoryLifetime inner)
      (.start now lifetime fileLifetime directoryLifetime inner) where
  now := rfl
  inner := rfl
  ownLifetime k := by cases k <;> rfl
  lifetime k := by cases k <;> rfl
  stored k path := by cases k <;> rfl
  keys := .refl _

theorem size (h : Holds s c) : s.cache.size = c.size := by
  have hlength := h.keys.length_eq
  simp only [Entries.keys, Cached.keys, Cached.storedPaths, List.length_append,
    List.length_map] at hlength
  exact hlength

theorem withInner (h : Holds s c) (inner : σ) : Holds (s.withInner inner) (c.withInner inner) where
  now := h.now
  inner := rfl
  ownLifetime k := (h.ownLifetime k).trans (Cached.ownLifetime_withInner k c inner).symm
  lifetime k := by
    rw [Cached.cache_withInner]
    exact h.lifetime k
  stored k path := by
    rw [Cached.stored_withInner]
    exact h.stored k path
  keys := h.keys

theorem dropped (h : Holds s c) (k : Kind) (path : Text) :
    Holds (s.dropped k path) (c.dropped k path) where
  now := h.now.trans (Cached.now_dropped k path c).symm
  inner := h.inner.trans (Cached.inner_withCache k c _).symm
  ownLifetime k' := (h.ownLifetime k').trans (Cached.ownLifetime_withCache k k' c _).symm
  lifetime k' := (h.lifetime k').trans
    (Cached.lifetime_withCache k k' c ((c.cache k).erase path) rfl).symm
  stored k' path' := by
    rw [Shared.dropped, Cache.entry?_erase, h.stored]
    by_cases hk : k' = k
    · subst hk
      rw [Cached.stored_dropped]
      by_cases hpath : path' = path <;> simp [Kind.key_inj, hpath]
    · rw [Cached.stored_dropped_of_ne hk, if_neg fun heq => hk (Kind.key_inj.mp heq).1]
  keys := by
    rw [Cached.keys_dropped, Shared.dropped, Cache.erase, Entries.keys_erase]
    exact h.keys.filter _

theorem keeping_ok (h : Holds s c) (k : Kind) (path : Text) (value : k.Answer)
    (hnew : k.key path ∉ c.keys) :
    Holds (s.keeping k path (.ok value)) (c.keeping k path (.ok value)) where
  now := h.now.trans (Cached.now_keeping k path (.ok value) c).symm
  inner := h.inner.trans (Cached.inner_keeping k path (.ok value) c).symm
  ownLifetime k' := (h.ownLifetime k').trans (Cached.ownLifetime_withCache k k' c _).symm
  lifetime k' := (h.lifetime k').trans (Cached.lifetime_withCache k k' c
    ((c.cache k).store c.now path value (c.ownLifetime k)) rfl).symm
  stored k' path' := by
    rw [Shared.keeping, Cache.entry?_store, h.stored]
    by_cases hk : k' = k
    · subst hk
      rw [Cached.stored_keeping_ok, h.now, h.ownLifetime, h.lifetime k']
      by_cases hpath : path' = path <;> simp [Kind.key_inj, hpath, pack, Cached.lifetimeOf]
    · rw [Cached.stored_keeping_of_ne hk, if_neg fun heq => hk (Kind.key_inj.mp heq).1]
  keys := by
    have hnot : k.key path ∉ Entries.keys s.cache.entries := mt h.keys.mem_iff.mp hnew
    rw [Shared.keeping, Cache.store, Entries.keys_set, if_neg hnot]
    exact (h.keys.append_right _).trans (Cached.keys_keeping_ok value hnew).symm

theorem keeping (h : Holds s c) (k : Kind) (path : Text) (result : Except Failure k.Answer)
    (hnew : k.key path ∉ c.keys) : Holds (s.keeping k path result) (c.keeping k path result) := by
  cases result with
  | ok value => exact h.keeping_ok k path value hnew
  | error e => exact h

theorem invalidate (h : Holds s c) (lead : Text) :
    (s.invalidate lead).1 = (c.invalidate lead).1 ∧
      Holds (s.invalidate lead).2 (c.invalidate lead).2 := by
  have hkept := h.keys.filter fun key => !Text.startsWith (Kind.file.key lead) key
  constructor
  · have hcount : (s.invalidate lead).1 = c.keys.countP (Text.startsWith (Kind.file.key lead)) +
        (c.keys.filter fun key => !Text.startsWith (Kind.file.key lead) key).countP
          (Text.startsWith (Kind.directory.key lead)) := by
      rw [← h.keys.countP_eq, ← hkept.countP_eq, ← Cache.keys_deleteUnder,
        ← Cache.deleteUnder_count, ← Cache.deleteUnder_count]
      rfl
    rw [hcount, Cached.invalidate_count, List.countP_append]
    simp [Cached.keys, List.countP_map, List.countP_filter, Function.comp_def, Kind.startsWith_key]
  · refine ⟨h.now, h.inner, fun k => ?_, fun k => ?_, fun k path => ?_, ?_⟩
    · cases k <;> exact h.ownLifetime _
    · rw [Cached.cache_invalidate]
      exact h.lifetime k
    · rw [Cached.stored_invalidate, Shared.invalidate, Cache.entry?_deleteUnder,
        Cache.entry?_deleteUnder, Kind.startsWith_key, Kind.startsWith_key, h.stored]
      cases k <;> cases Text.startsWith lead path <;> simp
    · rw [Cached.keys_invalidate, Shared.invalidate, Cache.keys_deleteUnder,
        Cache.keys_deleteUnder]
      exact hkept.filter _

theorem advance [Add τ] (h : Holds s c) (seconds : τ) :
    Holds { s with now := s.now + seconds } { c with now := c.now + seconds } where
  now := congrArg (· + seconds) h.now
  inner := h.inner
  ownLifetime k := by cases k <;> exact h.ownLifetime _
  lifetime k := by
    cases k with
    | file => exact h.lifetime .file
    | directory => exact h.lifetime .directory
  stored k path := by
    cases k with
    | file => exact h.stored .file path
    | directory => exact h.stored .directory path
  keys := h.keys

end Holds

/-- The session in which the source is asked for what is not in the cache. -/
def asking (k : Kind) (path : Text) (s : Session (Shared τ σ)) : Session σ :=
  Session.report .debug "sources.cache" ("Cache miss for ".toList ++ k.key path)
    ⟨s.state.inner, s.log⟩

section Read

variable [Zero τ] [Sub τ] [LT τ] [DecidableLT τ] {k : Kind} {path : Text}
  {s : Session (Shared τ σ)}

theorem run_read_of_live (p : Provider σ) {e : Cache.Entry τ k.Answer}
    (h : s.state.cache.entry? (k.key path) = some (pack k e))
    (hl : e.isExpired s.state.now = false) : (read p k path).run s = (.ok e.value, s) := by
  have hlookup := Cache.lookup_of_live h hl
  have hanswer : answer? k (pack k e).value = some e.value := dif_pos rfl
  rw [read]
  simp [hlookup, hanswer, Except.map]

theorem run_read_of_not_live (p : Provider σ)
    (h : ∀ e, s.state.cache.entry? (k.key path) = some e → e.isExpired s.state.now = true) :
    (read p k path).run s =
      let call := (p.read k path).run (asking k path s)
      (call.1, ⟨((s.state.dropped k path).withInner call.2.state).keeping k path call.1,
        call.2.log⟩) := by
  rw [read]
  simp only [Reading.run_bind, Reading.run_get, Reading.run_modify, Cache.lookup_of_not_live h,
    Reading.run_report, Reading.run_within, asking, Session.report, Option.bind_none]
  rcases Reading.run (p.read k path) _ with ⟨e | value, t⟩ <;> rfl

end Read

/-- The sessions have the same log, and the one cache holds what the two do. -/
structure Alike (s : Session (Shared τ σ)) (s' : Session (Cached τ σ)) : Prop where
  state : Holds s.state s'.state
  log : s.log = s'.log

namespace Alike

variable {s : Session (Shared τ σ)} {s' : Session (Cached τ σ)}

theorem read [Zero τ] [Sub τ] [LT τ] [DecidableLT τ] (p : Provider σ) (h : Alike s s') (k : Kind)
    (path : Text) :
    ((Shared.read p k path).run s).1 = ((p.cached.read k path).run s').1 ∧
      Alike ((Shared.read p k path).run s).2 ((p.cached.read k path).run s').2 := by
  have hstored := h.state.stored k path
  by_cases hlive : ∃ e, s'.state.stored k path = some e ∧ e.isExpired s'.state.now = false
  · obtain ⟨e, he, hl⟩ := hlive
    rw [he] at hstored
    rw [Cached.run_read_of_stored p he hl, run_read_of_live p hstored (h.state.now ▸ hl)]
    exact ⟨rfl, h⟩
  · have hdead : ∀ e, s'.state.stored k path = some e → e.isExpired s'.state.now = true :=
      fun e he => by simpa using not_and.mp (not_exists.mp hlive e) he
    have hdead' : ∀ e, s.state.cache.entry? (k.key path) = some e →
        e.isExpired s.state.now = true := by
      intro e he
      rw [hstored, Option.map_eq_some_iff] at he
      obtain ⟨e, he, rfl⟩ := he
      rw [h.state.now]
      exact hdead e he
    have hasking : asking k path s = Cached.asking k path s' := by
      rw [asking, Cached.asking, h.state.inner, h.log, Kind.key, List.append_assoc]
    rw [Cached.run_read_of_not_stored p hdead, run_read_of_not_live p hdead', hasking]
    have hnew (inner : σ) : k.key path ∉ ((s'.state.dropped k path).withInner inner).keys := by
      rw [Cached.keys_withInner, Cached.keys_dropped]
      simp
    exact ⟨rfl, ((h.state.dropped k path).withInner _).keeping k path _ (hnew _), rfl⟩

end Alike

end Shared

namespace Cached

/-- What an action on a source behind a cache comes to. -/
inductive Outcome where
  | answered (k : Kind) (result : Except Failure k.Answer)
  | dropped (count : Nat)
  | silent

variable {τ σ : Type} [AddCommGroup τ] [LinearOrder τ]

def act (p : Provider σ) (s : Session (Cached τ σ)) : Action τ σ → Outcome × Session (Cached τ σ)
  | .read k path => ((p.cached.read k path).run s).map (.answered k) id
  | .invalidate lead => (s.state.invalidate lead).map .dropped fun c => { s with state := c }
  | .advance seconds _ => (.silent, { s with state.now := s.state.now + seconds })
  | .change inner => (.silent, { s with state := s.state.withInner inner })

/-- The same with one cache for both kinds. -/
def actShared (p : Provider σ) (s : Session (Shared τ σ)) :
    Action τ σ → Outcome × Session (Shared τ σ)
  | .read k path => ((Shared.read p k path).run s).map (.answered k) id
  | .invalidate lead => (s.state.invalidate lead).map .dropped fun c => { s with state := c }
  | .advance seconds _ => (.silent, { s with state.now := s.state.now + seconds })
  | .change inner => (.silent, { s with state := s.state.withInner inner })

/-- The outcomes of actions, and the session after them. -/
def outcomes {ς : Type} (act : ς → Action τ σ → Outcome × ς) (s : ς) :
    List (Action τ σ) → List Outcome × ς
  | [] => ([], s)
  | a :: actions => (outcomes act (act s a).2 actions).map ((act s a).1 :: ·) id

variable {s : Session (Shared τ σ)} {s' : Session (Cached τ σ)}

theorem alike_act (p : Provider σ) (h : Shared.Alike s s') (a : Action τ σ) :
    (actShared p s a).1 = (act p s' a).1 ∧ Shared.Alike (actShared p s a).2 (act p s' a).2 := by
  cases a with
  | read k path =>
    obtain ⟨hresult, hafter⟩ := h.read p k path
    exact ⟨congrArg (Outcome.answered k) hresult, hafter⟩
  | invalidate lead =>
    obtain ⟨hcount, hafter⟩ := h.state.invalidate lead
    exact ⟨congrArg Outcome.dropped hcount, hafter, h.log⟩
  | advance seconds forward => exact ⟨rfl, h.state.advance seconds, h.log⟩
  | change inner => exact ⟨rfl, h.state.withInner inner, h.log⟩

theorem alike_outcomes (p : Provider σ) (h : Shared.Alike s s') (actions : List (Action τ σ)) :
    (outcomes (actShared p) s actions).1 = (outcomes (act p) s' actions).1 ∧
      Shared.Alike (outcomes (actShared p) s actions).2 (outcomes (act p) s' actions).2 := by
  induction actions generalizing s s' with
  | nil => exact ⟨rfl, h⟩
  | cons a actions ih =>
    obtain ⟨houtcome, hafter⟩ := alike_act p h a
    obtain ⟨houtcomes, hend⟩ := ih hafter
    refine ⟨?_, hend⟩
    simp only [outcomes, Prod.map_fst, houtcome, houtcomes]

/-- In every run a source behind one cache for files and listings answers, drops, reports and stores
as much as one with a cache for each. -/
theorem outcomes_shared (p : Provider σ) (now lifetime : τ)
    (fileLifetime directoryLifetime : Option τ) (inner : σ) (log : List Log.Entry)
    (actions : List (Action τ σ)) :
    let (shared, s) := outcomes (actShared p)
      ⟨.start now lifetime fileLifetime directoryLifetime inner, log⟩ actions
    let (apart, s') := outcomes (act p)
      ⟨.start now lifetime fileLifetime directoryLifetime inner, log⟩ actions
    shared = apart ∧ s.log = s'.log ∧ s.state.cache.size = s'.state.size := by
  have hstart : Shared.Alike ⟨.start now lifetime fileLifetime directoryLifetime inner, log⟩
      ⟨.start now lifetime fileLifetime directoryLifetime inner, log⟩ := ⟨.start .., rfl⟩
  obtain ⟨houtcomes, hstate, hlog⟩ := alike_outcomes p hstart actions
  exact ⟨houtcomes, hlog, hstate.size⟩

end Cached

end ComponentCatalog
