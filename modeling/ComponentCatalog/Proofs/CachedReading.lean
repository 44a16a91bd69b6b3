import ComponentCatalog.Proofs.CacheEntries
import ComponentCatalog.Proofs.Recorded
import ComponentCatalog.Source.Cached

/-!
One read of a cached source: an entry that has not expired is the answer, and otherwise the source
is asked once and what it answers is stored. Files and listings are treated alike, by kind.
-/
namespace ComponentCatalog

open Provider

def Provider.Kind.label : Kind → String
  | .file => "file"
  | .directory => "dir"

namespace Cached

variable {τ σ ρ : Type}

def cache : (k : Kind) → Cached τ σ → Cache τ k.Answer
  | .file, c => c.files
  | .directory, c => c.directories

def withCache : (k : Kind) → Cached τ σ → Cache τ k.Answer → Cached τ σ
  | .file, c, files => { c with files }
  | .directory, c, directories => { c with directories }

def ownLifetime : Kind → Cached τ σ → Option τ
  | .file, c => c.fileLifetime
  | .directory, c => c.directoryLifetime

/-- How long the answers of a kind live. -/
def lifetimeOf (k : Kind) (c : Cached τ σ) : τ := (c.ownLifetime k).getD (c.cache k).lifetime

/-- The stored entry for a path, expired or not. -/
def stored (k : Kind) (path : Text) (c : Cached τ σ) : Option (Cache.Entry τ k.Answer) :=
  Cache.entry? (c.cache k) path

def storedPaths (k : Kind) (c : Cached τ σ) : List Text := Entries.keys (c.cache k).entries

@[simp] theorem cache_withCache (k : Kind) (c : Cached τ σ) (x : Cache τ k.Answer) :
    (c.withCache k x).cache k = x := by cases k <;> rfl

theorem cache_withCache_of_ne {k k' : Kind} (h : k' ≠ k) (c : Cached τ σ) (x : Cache τ k.Answer) :
    (c.withCache k x).cache k' = c.cache k' := by
  cases k <;> cases k' <;> first | rfl | contradiction

@[simp] theorem withCache_cache (k : Kind) (c : Cached τ σ) : c.withCache k (c.cache k) = c := by
  cases k <;> rfl

@[simp] theorem now_withCache (k : Kind) (c : Cached τ σ) (x : Cache τ k.Answer) :
    (c.withCache k x).now = c.now := by cases k <;> rfl

@[simp] theorem inner_withCache (k : Kind) (c : Cached τ σ) (x : Cache τ k.Answer) :
    (c.withCache k x).inner = c.inner := by cases k <;> rfl

@[simp] theorem ownLifetime_withCache (k k' : Kind) (c : Cached τ σ) (x : Cache τ k.Answer) :
    (c.withCache k x).ownLifetime k' = c.ownLifetime k' := by cases k <;> cases k' <;> rfl

@[simp] theorem cache_withInner (k : Kind) (c : Cached τ σ) (inner : σ) :
    (c.withInner inner).cache k = c.cache k := by cases k <;> rfl

@[simp] theorem now_withInner (c : Cached τ σ) (inner : σ) : (c.withInner inner).now = c.now := rfl

@[simp] theorem ownLifetime_withInner (k : Kind) (c : Cached τ σ) (inner : σ) :
    (c.withInner inner).ownLifetime k = c.ownLifetime k := by cases k <;> rfl

/-- Drops what is stored for one path. -/
def dropped (k : Kind) (path : Text) (c : Cached τ σ) : Cached τ σ :=
  c.withCache k ((c.cache k).erase path)

/-- Stores what a call came to, unless it failed. -/
def keeping (k : Kind) (path : Text) (result : Except Failure k.Answer) (c : Cached τ σ) :
    Cached τ σ :=
  match result with
  | .ok value => c.withCache k ((c.cache k).store c.now path value (c.ownLifetime k))
  | .error _ => c

theorem stored_dropped (k : Kind) (path path' : Text) (c : Cached τ σ) :
    (c.dropped k path).stored k path' = if path' = path then none else c.stored k path' := by
  simpa [stored, dropped] using Cache.entry?_erase (c.cache k) path path'

theorem stored_dropped_of_ne {k k' : Kind} (h : k' ≠ k) (path path' : Text) (c : Cached τ σ) :
    (c.dropped k path).stored k' path' = c.stored k' path' := by
  rw [stored, dropped, cache_withCache_of_ne h, stored]

theorem stored_keeping_ok (k : Kind) (path path' : Text) (value : k.Answer) (c : Cached τ σ) :
    (c.keeping k path (.ok value)).stored k path' =
      if path' = path then some ⟨value, c.now, c.lifetimeOf k⟩ else c.stored k path' := by
  simpa [stored, keeping, lifetimeOf] using
    Cache.entry?_store (c.cache k) c.now path path' value (c.ownLifetime k)

theorem stored_keeping_of_ne {k k' : Kind} (h : k' ≠ k) (path path' : Text)
    (result : Except Failure k.Answer) (c : Cached τ σ) :
    (c.keeping k path result).stored k' path' = c.stored k' path' := by
  cases result with
  | error e => rfl
  | ok value => rw [keeping, stored, cache_withCache_of_ne h, stored]

/-- A cache of the same lifetime may stand in for one of the two. -/
theorem lifetime_withCache (k k' : Kind) (c : Cached τ σ) (x : Cache τ k.Answer)
    (h : x.lifetime = (c.cache k).lifetime) :
    ((c.withCache k x).cache k').lifetime = (c.cache k').lifetime := by
  by_cases hk : k' = k
  · subst hk
    rw [cache_withCache, h]
  · rw [cache_withCache_of_ne hk]

theorem lifetimeOf_withCache (k k' : Kind) (c : Cached τ σ) (x : Cache τ k.Answer)
    (h : x.lifetime = (c.cache k).lifetime) :
    (c.withCache k x).lifetimeOf k' = c.lifetimeOf k' := by
  rw [lifetimeOf, lifetimeOf, ownLifetime_withCache, lifetime_withCache k k' c x h]

@[simp] theorem lifetimeOf_dropped (k k' : Kind) (path : Text) (c : Cached τ σ) :
    (c.dropped k path).lifetimeOf k' = c.lifetimeOf k' :=
  lifetimeOf_withCache k k' c _ rfl

@[simp] theorem lifetimeOf_keeping (k k' : Kind) (path : Text) (result : Except Failure k.Answer)
    (c : Cached τ σ) : (c.keeping k path result).lifetimeOf k' = c.lifetimeOf k' := by
  cases result with
  | error e => rfl
  | ok value => exact lifetimeOf_withCache k k' c _ rfl

@[simp] theorem now_dropped (k : Kind) (path : Text) (c : Cached τ σ) :
    (c.dropped k path).now = c.now := by simp [dropped]

@[simp] theorem now_keeping (k : Kind) (path : Text) (result : Except Failure k.Answer)
    (c : Cached τ σ) : (c.keeping k path result).now = c.now := by
  cases result <;> simp [keeping]

@[simp] theorem inner_keeping (k : Kind) (path : Text) (result : Except Failure k.Answer)
    (c : Cached τ σ) : (c.keeping k path result).inner = c.inner := by
  cases result <;> simp [keeping]

@[simp] theorem stored_withInner (k : Kind) (path : Text) (c : Cached τ σ) (inner : σ) :
    (c.withInner inner).stored k path = c.stored k path := by simp [stored]

@[simp] theorem lifetimeOf_withInner (k : Kind) (c : Cached τ σ) (inner : σ) :
    (c.withInner inner).lifetimeOf k = c.lifetimeOf k := by simp [lifetimeOf]

/-- What is stored for a path after a call for it. -/
theorem stored_keeping_dropped (k : Kind) (path : Text) (result : Except Failure k.Answer)
    (c : Cached τ σ) (inner : σ) :
    (((c.dropped k path).withInner inner).keeping k path result).stored k path =
      result.toOption.map fun value => ⟨value, c.now, c.lifetimeOf k⟩ := by
  cases result with
  | error e => simp [keeping, stored_dropped, Except.toOption]
  | ok value => simp [stored_keeping_ok, Except.toOption]

/-- A call for one path leaves what is stored for the others. -/
theorem stored_keeping_dropped_of_ne {k k' : Kind} {path path' : Text}
    (h : k' = k → path' ≠ path) (result : Except Failure k.Answer) (c : Cached τ σ) (inner : σ) :
    (((c.dropped k path).withInner inner).keeping k path result).stored k' path' =
      c.stored k' path' := by
  by_cases hk : k' = k
  · subst hk
    cases result with
    | error e => simp [keeping, stored_dropped, h rfl]
    | ok value => simp [stored_keeping_ok, stored_dropped, h rfl]
  · rw [stored_keeping_of_ne hk, stored_withInner, stored_dropped_of_ne hk]

theorem storedPaths_dropped_sublist (k k' : Kind) (path : Text) (c : Cached τ σ) :
    ((c.dropped k path).storedPaths k').Sublist (c.storedPaths k') := by
  by_cases hk : k' = k
  · subst hk
    simpa [storedPaths, dropped, Cache.erase] using Entries.keys_erase_sublist path _
  · rw [dropped, storedPaths, cache_withCache_of_ne hk]
    exact List.Sublist.refl _

theorem notMem_storedPaths_dropped (k : Kind) (path : Text) (c : Cached τ σ) :
    path ∉ (c.dropped k path).storedPaths k := by
  simpa [storedPaths, dropped, Cache.erase] using Entries.notMem_keys_erase path _

theorem cache_invalidate (k : Kind) (lead : Text) (c : Cached τ σ) :
    (c.invalidate lead).2.cache k = ((c.cache k).deleteUnder lead).2 := by cases k <;> rfl

theorem stored_invalidate (k : Kind) (lead path : Text) (c : Cached τ σ) :
    (c.invalidate lead).2.stored k path =
      if Text.startsWith lead path then none else c.stored k path := by
  rw [stored, cache_invalidate, Cache.entry?_deleteUnder, stored]

theorem storedPaths_invalidate (k : Kind) (lead : Text) (c : Cached τ σ) :
    (c.invalidate lead).2.storedPaths k =
      (c.storedPaths k).filter fun path => !Text.startsWith lead path := by
  rw [storedPaths, cache_invalidate, Cache.keys_deleteUnder, storedPaths]

/-- An invalidation tells how many stored paths it drops. -/
theorem invalidate_count (lead : Text) (c : Cached τ σ) :
    (c.invalidate lead).1 =
      (c.storedPaths .file ++ c.storedPaths .directory).countP (Text.startsWith lead) := by
  rw [List.countP_append, storedPaths, storedPaths, ← Cache.deleteUnder_count,
    ← Cache.deleteUnder_count]
  rfl

variable [Zero τ] [Sub τ] [LT τ] [DecidableLT τ]

/-- The session in which the source is asked for what is not in the cache. -/
def asking (k : Kind) (path : Text) (s : Session (Cached τ σ)) : Session σ :=
  Session.report .debug "sources.cache" ("Cache miss for ".toList ++ k.label.toList ++ ':' :: path)
    ⟨s.state.inner, s.log⟩

theorem read_cached (p : Provider σ) (k : Kind) (path : Text) :
    (Provider.cached (τ := τ) p).read k path =
      through k.label (cache k) (withCache k) (ownLifetime k) path (p.read k path) := by
  cases k <;> rfl

theorem run_read_of_stored (p : Provider σ) {k : Kind} {path : Text} {s : Session (Cached τ σ)}
    {e : Cache.Entry τ k.Answer} (h : s.state.stored k path = some e)
    (hl : e.isExpired s.state.now = false) :
    (p.cached.read k path).run s = (.ok e.value, s) := by
  rw [read_cached, through]
  simp [Cache.lookup_of_live h hl, Except.map]

theorem run_read_of_not_stored (p : Provider σ) {k : Kind} {path : Text}
    {s : Session (Cached τ σ)}
    (h : ∀ e, s.state.stored k path = some e → e.isExpired s.state.now = true) :
    (p.cached.read k path).run s =
      let call := (p.read k path).run (asking k path s)
      (call.1, ⟨((s.state.dropped k path).withInner call.2.state).keeping k path call.1,
        call.2.log⟩) := by
  rw [read_cached, through]
  simp only [Reading.run_bind, Reading.run_get, Reading.run_modify, Cache.lookup_of_not_live h,
    Reading.run_report, Reading.run_within, asking, Session.report, inner_withCache]
  rcases Reading.run (p.read k path) _ with ⟨e | value, t⟩
  · rfl
  · simp [keeping, dropped]

end Cached

end ComponentCatalog
