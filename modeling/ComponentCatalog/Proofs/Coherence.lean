import Mathlib.Algebra.Order.Group.Int
import Mathlib.Algebra.Order.Group.Unbundled.Basic
import ComponentCatalog.Proofs.CachedReading
import ComponentCatalog.Source.Memory

/-!
Coherence of a cached source. A run interleaves reads, invalidations, advances of the clock and
changes of the source; its history lists the calls that reached the source and the invalidations.
A read gives the live answer of the history without a call, or else makes exactly one.
-/
namespace ComponentCatalog.Cached

open Provider

/-- What the history of a cached source records. -/
inductive Event (τ : Type) where
  | call (at_ : τ) (c : Call)
  | invalidation (lead : Text)

namespace Event

variable {τ : Type}

/-- After the event, earlier answers for the path no longer count. -/
def Supersedes (k : Kind) (path : Text) : Event τ → Prop
  | .call _ c => c.kind = k ∧ c.path = path ∧ ∃ value, c.result = .ok value
  | .invalidation lead => Text.startsWith lead path = true

end Event

/-- The answer of the most recent successful call for a path, and its time, where no invalidation
has dropped it since. Histories have the newest event first. -/
inductive LastAnswer {τ : Type} (k : Kind) (path : Text) (value : k.Answer) (t : τ) :
    List (Event τ) → Prop where
  | given (older : List (Event τ)) :
      LastAnswer k path value t (.call t ⟨k, path, .ok value⟩ :: older)
  | earlier {e : Event τ} {older : List (Event τ)} :
      ¬ e.Supersedes k path → LastAnswer k path value t older →
        LastAnswer k path value t (e :: older)

namespace LastAnswer

variable {τ : Type} {k : Kind} {path : Text} {value : k.Answer} {t : τ} {older : List (Event τ)}

theorem of_not_supersedes {e : Event τ} (he : ¬ e.Supersedes k path) :
    LastAnswer k path value t (e :: older) ↔ LastAnswer k path value t older := by
  constructor
  · intro h
    cases h with
    | given => exact absurd ⟨rfl, rfl, _, rfl⟩ he
    | earlier _ h => exact h
  · exact .earlier he

theorem of_success {value' : k.Answer} {t' : τ}
    (h : LastAnswer k path value t (.call t' ⟨k, path, .ok value'⟩ :: older)) :
    value = value' ∧ t = t' := by
  cases h with
  | given => exact ⟨rfl, rfl⟩
  | earlier he _ => exact absurd ⟨rfl, rfl, _, rfl⟩ he

theorem unique {value' : k.Answer} {t' : τ} {history : List (Event τ)}
    (h : LastAnswer k path value t history) (h' : LastAnswer k path value' t' history) :
    value = value' ∧ t = t' := by
  induction h with
  | given older =>
    obtain ⟨hv, ht⟩ := h'.of_success
    exact ⟨hv.symm, ht.symm⟩
  | earlier he _ ih => exact ih ((of_not_supersedes he).mp h')

end LastAnswer

/-- A cached source in a run: its session, and what has happened. -/
structure Trace (τ σ : Type) where
  session : Session (Cached τ (Recorded σ))
  history : List (Event τ)

/-- What can happen to a cached source. -/
inductive Action (τ σ : Type) [Zero τ] [LE τ] where
  | read (k : Kind) (path : Text)
  | invalidate (lead : Text)
  | advance (seconds : τ) (forward : 0 ≤ seconds)
  /-- The source becomes another one: its files, listings and failures change. -/
  | change (inner : σ)

/-- What a read comes to: its value or failure, the calls it makes, and the run after it. -/
structure Reply (τ σ : Type) (k : Kind) where
  result : Except Failure k.Answer
  calls : List Call
  after : Trace τ σ

namespace Trace

variable {τ σ : Type}

def start (now lifetime : τ) (fileLifetime directoryLifetime : Option τ) (inner : σ)
    (log : List Log.Entry) : Trace τ σ :=
  ⟨⟨.start now lifetime fileLifetime directoryLifetime ⟨inner, []⟩, log⟩, []⟩

def now (s : Trace τ σ) : τ := s.session.state.now

/-- The state of the source behind the cache. -/
def source (s : Trace τ σ) : σ := s.session.state.inner.inner

def storedPaths (k : Kind) (s : Trace τ σ) : List Text := s.session.state.storedPaths k

/-- The session in which the source is asked for what is not in the cache. -/
def asking (k : Kind) (path : Text) (s : Trace τ σ) : Session σ :=
  ⟨s.source, (Cached.asking k path s.session).log⟩

/-- The value is a live answer: the last one for the path, and not older than its lifetime. -/
def Live [Zero τ] [Sub τ] [LE τ] (lifetime : τ) (k : Kind) (path : Text) (value : k.Answer)
    (s : Trace τ σ) : Prop :=
  ∃ t, LastAnswer k path value t s.history ∧ (lifetime ≤ 0 ∨ s.now - t ≤ lifetime)

def invalidate (lead : Text) (s : Trace τ σ) : Nat × Trace τ σ :=
  let (dropped, kept) := s.session.state.invalidate lead
  (dropped, ⟨{ s.session with state := kept }, .invalidation lead :: s.history⟩)

variable [AddCommGroup τ] [LinearOrder τ]

/-- Reads through the cache; the calls that reach the source while it does enter the history. -/
def read (p : Provider σ) (k : Kind) (path : Text) (s : Trace τ σ) : Reply τ σ k :=
  let (result, session) := (p.recorded.cached.read k path).run s.session
  let calls := session.state.inner.calls.drop s.session.state.inner.calls.length
  ⟨result, calls, session, (calls.map (.call s.now)).reverse ++ s.history⟩

def step (p : Provider σ) (s : Trace τ σ) : Action τ σ → Trace τ σ
  | .read k path => (s.read p k path).after
  | .invalidate lead => (s.invalidate lead).2
  | .advance seconds _ =>
    { s with session.state := { s.session.state with now := s.now + seconds } }
  | .change inner =>
    { s with session.state := s.session.state.withInner { s.session.state.inner with inner } }

def run (p : Provider σ) (s : Trace τ σ) (actions : List (Action τ σ)) : Trace τ σ :=
  actions.foldl (step p) s

theorem read_of_stored (p : Provider σ) {k : Kind} {path : Text} {s : Trace τ σ}
    {e : Cache.Entry τ k.Answer} (h : s.session.state.stored k path = some e)
    (hl : e.isExpired s.now = false) : s.read p k path = ⟨.ok e.value, [], s⟩ := by
  simp [read, run_read_of_stored p.recorded h hl]

/-- Without a stored entry that lives, a read is one call, whose value is stored. -/
theorem read_of_not_stored (p : Provider σ) {k : Kind} {path : Text} {s : Trace τ σ}
    (h : ∀ e, s.session.state.stored k path = some e → e.isExpired s.now = true) :
    s.read p k path =
      let call := (p.read k path).run (s.asking k path)
      let calls := s.session.state.inner.calls ++ [⟨k, path, call.1⟩]
      ⟨call.1, [⟨k, path, call.1⟩],
        ⟨((s.session.state.dropped k path).withInner ⟨call.2.state, calls⟩).keeping k path call.1,
          call.2.log⟩,
        .call s.now ⟨k, path, call.1⟩ :: s.history⟩ := by
  rw [read, run_read_of_not_stored p.recorded h, run_recorded_read]
  simp [asking, source, Cached.asking, Session.report, withInner]

/-- A read that fails stores nothing, so that the next one asks the source again. -/
theorem stores_nothing_of_failure (p : Provider σ) {k : Kind} {path : Text} {s : Trace τ σ}
    (h : ∀ e, s.session.state.stored k path = some e → e.isExpired s.now = true)
    {failure : Failure} (hfailure : (s.read p k path).result = .error failure) :
    path ∉ (s.read p k path).after.storedPaths k ∧
    (∀ k', ((s.read p k path).after.storedPaths k').Sublist (s.storedPaths k')) ∧
    ∃ result, ((s.read p k path).after.read p k path).calls = [⟨k, path, result⟩] := by
  rw [read_of_not_stored p h] at hfailure ⊢
  generalize (p.read k path).run (s.asking k path) = call at hfailure ⊢
  obtain ⟨result, t⟩ := call
  cases hfailure
  refine ⟨?_, fun k' => ?_, ?_⟩
  · simpa [Cached.storedPaths, storedPaths, keeping] using
      notMem_storedPaths_dropped k path s.session.state
  · simpa [Cached.storedPaths, storedPaths, keeping] using
      storedPaths_dropped_sublist k k' path s.session.state
  · rw [read_of_not_stored p]
    · exact ⟨_, rfl⟩
    · intro e he
      simp [keeping, stored_dropped] at he

/-- What the cache stores is what the history gives: a stored entry is the last answer for its path,
and a last answer without an entry has outlived its lifetime. -/
structure Faithful (lifetime : Kind → τ) (s : Trace τ σ) : Prop where
  lifetime_eq : ∀ k, s.session.state.lifetimeOf k = lifetime k
  stored : ∀ k path e, s.session.state.stored k path = some e →
    e.lifetime = lifetime k ∧ LastAnswer k path e.value e.storedAt s.history
  gone : ∀ k path value t, s.session.state.stored k path = none →
    LastAnswer k path value t s.history → 0 < lifetime k ∧ lifetime k < s.now - t

theorem isExpired_iff {k : Kind} {e : Cache.Entry τ k.Answer} {now : τ} :
    e.isExpired now = true ↔ 0 < e.lifetime ∧ e.lifetime < now - e.storedAt := by
  simp [Cache.Entry.isExpired]

namespace Faithful

variable {lifetime : Kind → τ} {s : Trace τ σ} {k : Kind} {path : Text}

theorem start (now lifetime : τ) (fileLifetime directoryLifetime : Option τ) (inner : σ)
    (log : List Log.Entry) :
    Faithful
      (fun k => (Cached.start now lifetime fileLifetime directoryLifetime inner).lifetimeOf k)
      (Trace.start now lifetime fileLifetime directoryLifetime inner log) where
  lifetime_eq k := by cases k <;> rfl
  stored k path e h := by cases k <;> cases h
  gone k path value t _ h := by cases h

/-- An answer is live exactly when an entry that has not expired stores it. -/
theorem live_iff (hs : s.Faithful lifetime) {value : k.Answer} :
    s.Live (lifetime k) k path value ↔
      ∃ e, s.session.state.stored k path = some e ∧ e.isExpired s.now = false ∧
        e.value = value := by
  constructor
  · rintro ⟨t, hlast, hlive⟩
    have hfresh : ¬ (0 < lifetime k ∧ lifetime k < s.now - t) := by
      rintro ⟨hpos, hlt⟩
      rcases hlive with h | h
      · exact absurd hpos (not_lt.mpr h)
      · exact absurd hlt (not_lt.mpr h)
    cases hstored : s.session.state.stored k path with
    | none => exact absurd (hs.gone k path value t hstored hlast) hfresh
    | some e =>
      obtain ⟨hlife, hanswer⟩ := hs.stored k path e hstored
      obtain ⟨hv, ht⟩ := hanswer.unique hlast
      refine ⟨e, rfl, ?_, hv⟩
      rw [← Bool.not_eq_true, isExpired_iff, hlife, ht]
      exact hfresh
  · rintro ⟨e, hstored, hfresh, rfl⟩
    obtain ⟨hlife, hanswer⟩ := hs.stored k path e hstored
    refine ⟨e.storedAt, hanswer, ?_⟩
    rw [← Bool.not_eq_true, isExpired_iff, hlife, not_and_or, not_lt, not_lt] at hfresh
    exact hfresh

/-- A last answer whose entry is missing or expired has outlived its lifetime. -/
theorem expired (hs : s.Faithful lifetime) {value : k.Answer} {t : τ}
    (h : ∀ e, s.session.state.stored k path = some e → e.isExpired s.now = true)
    (hlast : LastAnswer k path value t s.history) : 0 < lifetime k ∧ lifetime k < s.now - t := by
  cases hstored : s.session.state.stored k path with
  | none => exact hs.gone k path value t hstored hlast
  | some e =>
    obtain ⟨hlife, hanswer⟩ := hs.stored k path e hstored
    obtain ⟨-, ht⟩ := hanswer.unique hlast
    have hexp := isExpired_iff.mp (h e hstored)
    rwa [hlife, ht] at hexp

theorem invalidate (hs : s.Faithful lifetime) (lead : Text) :
    (s.invalidate lead).2.Faithful lifetime where
  lifetime_eq k := by
    rw [← hs.lifetime_eq k]
    cases k <;> rfl
  stored k path e h := by
    change (s.session.state.invalidate lead).2.stored k path = some e at h
    rw [stored_invalidate] at h
    split at h
    · cases h
    next hlead =>
      obtain ⟨hlife, hanswer⟩ := hs.stored k path e h
      exact ⟨hlife, .earlier hlead hanswer⟩
  gone k path value t h hlast := by
    change (s.session.state.invalidate lead).2.stored k path = none at h
    rw [stored_invalidate] at h
    cases hlast with
    | earlier hlead hlast =>
      rw [if_neg (show ¬ Text.startsWith lead path = true from hlead)] at h
      exact hs.gone k path value t h hlast

/-- A call for a path whose entry is missing or expired. -/
theorem called (hs : s.Faithful lifetime)
    (h : ∀ e, s.session.state.stored k path = some e → e.isExpired s.now = true)
    (result : Except Failure k.Answer) (inner : Recorded σ) (log : List Log.Entry) :
    Faithful lifetime (⟨⟨((s.session.state.dropped k path).withInner inner).keeping k path result,
      log⟩, .call s.now ⟨k, path, result⟩ :: s.history⟩ : Trace τ σ) where
  lifetime_eq k' := by simp [hs.lifetime_eq k']
  stored k' path' e he := by
    by_cases hsame : k' = k ∧ path' = path
    · obtain ⟨rfl, rfl⟩ := hsame
      simp only [stored_keeping_dropped] at he
      cases result with
      | error failure => cases he
      | ok value =>
        cases he
        exact ⟨hs.lifetime_eq k', .given _⟩
    · rw [not_and] at hsame
      simp only [stored_keeping_dropped_of_ne hsame] at he
      obtain ⟨hlife, hanswer⟩ := hs.stored k' path' e he
      exact ⟨hlife, .earlier (fun hc => hsame hc.1.symm hc.2.1.symm) hanswer⟩
  gone k' path' value t he hlast := by
    -- The clock stands still; for the path called, a failure leaves the last answer as it was.
    change 0 < _ ∧ _ < (Cached.now _) - t
    simp only [now_keeping, now_withInner, now_dropped]
    by_cases hsame : k' = k ∧ path' = path
    · obtain ⟨rfl, rfl⟩ := hsame
      simp only [stored_keeping_dropped] at he
      cases result with
      | error failure =>
        refine hs.expired h ((LastAnswer.of_not_supersedes ?_).mp hlast)
        rintro ⟨-, -, value, hvalue⟩
        cases hvalue
      | ok value => cases he
    · rw [not_and] at hsame
      simp only [stored_keeping_dropped_of_ne hsame] at he
      refine hs.gone k' path' value t he ((LastAnswer.of_not_supersedes ?_).mp hlast)
      exact fun hc => hsame hc.1.symm hc.2.1.symm

theorem read (hs : s.Faithful lifetime) (p : Provider σ) (k : Kind) (path : Text) :
    (s.read p k path).after.Faithful lifetime := by
  by_cases h : ∀ e, s.session.state.stored k path = some e → e.isExpired s.now = true
  · rw [read_of_not_stored p h]
    exact hs.called h _ _ _
  · push Not at h
    obtain ⟨e, he, hfresh⟩ := h
    rw [read_of_stored p he (by simpa using hfresh)]
    exact hs

theorem change (hs : s.Faithful lifetime) (inner : Recorded σ) :
    Faithful lifetime { s with session.state := s.session.state.withInner inner } where
  lifetime_eq k := by simpa using hs.lifetime_eq k
  stored k path e h := hs.stored k path e (by simpa using h)
  gone k path value t h hlast := hs.gone k path value t (by simpa using h) hlast

/-- Time only adds to the age of what has outlived its lifetime. -/
theorem advance [IsOrderedAddMonoid τ] (hs : s.Faithful lifetime) {seconds : τ}
    (forward : 0 ≤ seconds) :
    Faithful lifetime
      { s with session.state := { s.session.state with now := s.now + seconds } } where
  lifetime_eq k := by
    rw [← hs.lifetime_eq k]
    cases k <;> rfl
  stored k path e h := hs.stored k path e (by cases k <;> exact h)
  gone k path value t h hlast := by
    obtain ⟨hpos, hlt⟩ := hs.gone k path value t (by cases k <;> exact h) hlast
    refine ⟨hpos, hlt.trans_le ?_⟩
    exact sub_le_sub_right (le_add_of_nonneg_right forward) t

theorem step [IsOrderedAddMonoid τ] (hs : s.Faithful lifetime) (p : Provider σ)
    (a : Action τ σ) : (s.step p a).Faithful lifetime := by
  cases a with
  | read k path => exact hs.read p k path
  | invalidate lead => exact hs.invalidate lead
  | advance seconds forward => exact hs.advance forward
  | change inner => exact hs.change _

theorem run [IsOrderedAddMonoid τ] (hs : s.Faithful lifetime) (p : Provider σ)
    (actions : List (Action τ σ)) : (s.run p actions).Faithful lifetime := by
  induction actions generalizing s with
  | nil => exact hs
  | cons a actions ih => exact ih (hs.step p a)

end Faithful

/-- In every run, a read gives the live answer without a call; where there is none, it calls the
source exactly once and comes to what that call does, and a failure stores nothing. An invalidation
tells how many stored paths begin with its lead, and drops them. -/
theorem read_eq_live_or_call [IsOrderedAddMonoid τ] (p : Provider σ) (now lifetime : τ)
    (fileLifetime directoryLifetime : Option τ) (inner : σ) (log : List Log.Entry)
    (actions : List (Action τ σ)) :
    let ttl (k : Kind) := (k.choose fileLifetime directoryLifetime).getD lifetime
    let s := (start now lifetime fileLifetime directoryLifetime inner log).run p actions
    (∀ k path value, s.Live (ttl k) k path value → s.read p k path = ⟨.ok value, [], s⟩) ∧
    (∀ k path, (∀ value, ¬ s.Live (ttl k) k path value) →
      let call := (p.read k path).run (s.asking k path)
      let reply := s.read p k path
      reply.result = call.1 ∧ reply.calls = [⟨k, path, call.1⟩] ∧
      reply.after.source = call.2.state ∧
      ∀ failure, call.1 = .error failure →
        path ∉ reply.after.storedPaths k ∧
        (∀ k', (reply.after.storedPaths k').Sublist (s.storedPaths k')) ∧
        ∃ result, (reply.after.read p k path).calls = [⟨k, path, result⟩]) ∧
    ∀ lead,
      (s.invalidate lead).1 =
        (s.storedPaths .file ++ s.storedPaths .directory).countP (Text.startsWith lead) ∧
      ∀ k, (s.invalidate lead).2.storedPaths k =
        (s.storedPaths k).filter fun path => !Text.startsWith lead path := by
  intro ttl s
  -- The run enters through its invariant alone; what follows is about a single reply.
  have hs : s.Faithful ttl := by
    have h := Faithful.start now lifetime fileLifetime directoryLifetime inner log
    have httl : ttl = fun k =>
        (Cached.start now lifetime fileLifetime directoryLifetime inner).lifetimeOf k := by
      funext k
      cases k <;> rfl
    rw [httl]
    exact h.run p actions
  refine ⟨?_, ?_, ?_⟩
  · intro k path value hlive
    obtain ⟨e, he, hfresh, rfl⟩ := hs.live_iff.mp hlive
    exact read_of_stored p he hfresh
  · intro k path hnone call reply
    have hexp : ∀ e, s.session.state.stored k path = some e → e.isExpired s.now = true := by
      intro e he
      by_contra hfresh
      exact hnone e.value (hs.live_iff.mpr ⟨e, he, by simpa using hfresh, rfl⟩)
    have hreply : reply = _ := read_of_not_stored p hexp
    have hresult : reply.result = call.1 := by rw [hreply]
    have hcalls : reply.calls = [⟨k, path, call.1⟩] := by rw [hreply]
    have hsource : reply.after.source = call.2.state := by
      rw [hreply]
      simp [source, call, withInner]
    refine ⟨hresult, hcalls, hsource, fun failure hfailure => ?_⟩
    exact stores_nothing_of_failure p hexp (hresult.trans hfailure)
  · intro lead
    exact ⟨invalidate_count lead s.session.state,
      fun k => storedPaths_invalidate k lead s.session.state⟩

/-- A file read once is answered from memory to the end of its lifetime, although the source has
changed by then. -/
theorem read_at_end_of_lifetime :
    let file : Memory := ⟨[("a".toList, "old".toList)], [], [], []⟩
    let s := (start (0 : ℤ) 10 none none file []).run Provider.memory
      [.read .file "a".toList, .change (file.put "a".toList "new".toList), .advance 10 (by decide)]
    s.read Provider.memory .file "a".toList = ⟨.ok "old".toList, [], s⟩ := by
  intro file s
  have hlive : s.Live 10 .file "a".toList "old".toList :=
    ⟨0, .given [], .inr (by decide)⟩
  exact (read_eq_live_or_call Provider.memory 0 10 none none file [] _).1 _ _ _ hlive

end Trace

end ComponentCatalog.Cached
