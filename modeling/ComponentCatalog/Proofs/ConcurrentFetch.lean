import ComponentCatalog.Library.Search
import ComponentCatalog.Proofs.Dependencies
import ComponentCatalog.Proofs.Threads

/-!
Components looked up by several workers over one cached source. Between any two steps of a worker
the others may act and the clock may change; every look-up still comes to what it comes to alone.
-/
namespace ComponentCatalog

open Relation (ReflTransGen)

namespace Library

/-- The components among what the look-ups came to. A failure of the source is reported and leaves
its component out; any other failure ends it. -/
def gather {σ : Type} : List (Text × Except Failure Component) → Reading σ (Entries Component)
  | [] => return []
  | (name, .ok component) :: rest => return (name, component) :: (← gather rest)
  | (name, .error (.source e)) :: rest => do
    Reading.report .warning "library"
      ("Failed to load component ".toList ++ name ++ ": ".toList ++ e.message)
    gather rest
  | (_, .error e) :: _ => throw e

/-- The components that remain of what the look-ups came to. -/
def loaded : List (Text × Except Failure Component) → Except Failure (Entries Component)
  | [] => .ok []
  | (name, .ok component) :: rest => (loaded rest).map ((name, component) :: ·)
  | (_, .error (.source _)) :: rest => loaded rest
  | (_, .error e) :: _ => .error e

theorem run_gather {σ : Type} (results : List (Text × Except Failure Component)) (s : Session σ) :
    ((gather results).run s).1 = loaded results := by
  induction results generalizing s with
  | nil => rfl
  | cons entry rest ih =>
    obtain ⟨name, e | component⟩ := entry
    · cases e with
      | source e => exact ih _
      | digits | noWorkers | nullInPath => rfl
    · have h := ih s
      rw [gather, loaded, Reading.run_bind, ← h]
      rcases (gather rest).run s with ⟨e | found, t⟩ <;> rfl

/-- If no look-up fails for another reason than the source, those that succeed remain. -/
theorem loaded_eq_ok {results : List (Text × Except Failure Component)}
    (h : ∀ entry ∈ results, ∀ e, entry.2 = .error e → ∃ e', e = .source e') :
    loaded results = .ok (results.filterMap fun entry => entry.2.toOption.map (entry.1, ·)) := by
  induction results with
  | nil => rfl
  | cons entry rest ih =>
    have hrest := ih fun entry hentry => h entry (List.mem_cons_of_mem _ hentry)
    obtain ⟨name, e | component⟩ := entry
    · obtain ⟨e', rfl⟩ := h _ List.mem_cons_self e rfl
      exact hrest
    · rw [loaded, hrest]
      rfl

/-- Look-ups that come to a failure come to one of their own, which is none of the source. -/
theorem exists_of_loaded_eq_error {results : List (Text × Except Failure Component)} {e : Failure}
    (h : loaded results = .error e) :
    (∃ entry ∈ results, entry.2 = .error e) ∧ ∀ e', e ≠ .source e' := by
  induction results with
  | nil => cases h
  | cons entry rest ih =>
    obtain ⟨name, e' | component⟩ := entry
    · cases e' with
      | source e' =>
        obtain ⟨⟨entry, hentry, hfailed⟩, hnot⟩ := ih h
        exact ⟨⟨entry, List.mem_cons_of_mem _ hentry, hfailed⟩, hnot⟩
      | digits | noWorkers | nullInPath =>
        cases h
        exact ⟨⟨_, List.mem_cons_self, rfl⟩, fun e' hsource => by cases hsource⟩
    · rw [loaded] at h
      cases hrest : loaded rest with
      | ok found => rw [hrest] at h; cases h
      | error e' =>
        rw [hrest] at h
        cases h
        obtain ⟨⟨entry, hentry, hfailed⟩, hnot⟩ := ih hrest
        exact ⟨⟨entry, List.mem_cons_of_mem _ hentry, hfailed⟩, hnot⟩

/-- Look-ups that come to components fail for no other reason than the source. -/
theorem source_of_loaded_eq_ok {results : List (Text × Except Failure Component)}
    {found : Entries Component} (h : loaded results = .ok found) :
    ∀ entry ∈ results, ∀ e, entry.2 = .error e → ∃ e', e = .source e' := by
  induction results generalizing found with
  | nil => exact fun entry hentry => absurd hentry List.not_mem_nil
  | cons entry rest ih =>
    obtain ⟨name, e' | component⟩ := entry
    · cases e' with
      | source e' =>
        refine List.forall_mem_cons.mpr ⟨fun e he => ?_, ih h⟩
        cases he
        exact ⟨e', rfl⟩
      | digits | noWorkers | nullInPath => cases h
    · rw [loaded] at h
      cases hrest : loaded rest with
      | error e' => rw [hrest] at h; cases h
      | ok found =>
        refine List.forall_mem_cons.mpr ⟨fun e he => ?_, ih hrest⟩
        cases he

section FetchMany

variable {σ : Type} {lib : Library σ} {holds : σ → Prop} {value : Text → Except Failure Component}
  {s : Session σ}

theorem run_mapM_attempt
    (h : ∀ name (s : Session σ), holds s.state →
      ((lib.component name).run s).1 = value name ∧ holds ((lib.component name).run s).2.state)
    (hs : holds s.state) (names : List Text) :
    ((names.mapM fun name => return (name, ← Reading.attempt (lib.component name))).run s).1.map
        (List.filterMap fun (entry : Text × Except SourceError Component) =>
          entry.2.toOption.map (entry.1, ·)) =
      loaded (names.map fun name => (name, value name)) := by
  induction names generalizing s with
  | nil => rfl
  | cons name names ih =>
    obtain ⟨hvalue, hholds⟩ := h name s hs
    have hrest := ih hholds
    rw [List.map_cons, ← hvalue, List.mapM_cons]
    simp only [Reading.run_bind, Reading.run_attempt, Reading.run_pure]
    rcases hrun : (lib.component name).run s with ⟨e | component, t⟩
    · rw [hrun] at hrest
      cases e with
      | source e =>
        rw [loaded, ← hrest]
        dsimp only
        rcases Reading.run (names.mapM _) t with ⟨e' | found, u⟩ <;> rfl
      | digits | noWorkers | nullInPath => rfl
    · rw [hrun] at hrest
      rw [loaded, ← hrest]
      dsimp only
      rcases Reading.run (names.mapM _) t with ⟨e' | found, u⟩ <;> rfl

/-- Where every look-up comes to the same each time, those that are made one after the other come to
what remains of them. -/
theorem run_fetchMany
    (h : ∀ name (s : Session σ), holds s.state →
      ((lib.component name).run s).1 = value name ∧ holds ((lib.component name).run s).2.state)
    (hworkers : 1 ≤ lib.workers) (hs : holds s.state) (names : List Text) :
    ((lib.fetchMany names).run s).1 =
      loaded ((Text.distinct names).map fun name => (name, value name)) := by
  have hmap := run_mapM_attempt h hs (Text.distinct names)
  have hworks : ¬ (Text.distinct names ≠ [] ∧ lib.workers ≤ 0) :=
    fun h => absurd h.2 (not_le.mpr (Int.lt_of_lt_of_le Int.zero_lt_one hworkers))
  rw [fetchMany]
  simp only [if_neg hworks, Reading.run_bind]
  rw [← hmap]
  rcases Reading.run ((Text.distinct names).mapM _) s with ⟨e | results, t⟩
  · rfl
  · apply Reading.run_filterMapM
    rintro ⟨name, e | component⟩ s <;> rfl

end FetchMany

variable {τ σ : Type} [Zero τ] [Sub τ] [LT τ] [DecidableLT τ] {lib : Library σ}
  {answer : Text → Except Failure Text} {holds : σ → Prop} {s : Session (Cached τ σ)}

/-- A component is looked up alone with the answers of the source. -/
theorem run_component_of_steady (hp : lib.provider.Steady answer holds)
    (hs : s.state.Faithful answer holds) (name : Text) :
    ((lib.cached.component name).run s).1 = (Task.component lib.layout name).result answer ∧
      ((lib.cached.component name).run s).2.state.Faithful answer holds := by
  have hstart : (Thread.running (Task.component lib.layout name) : Thread τ Component).Sound answer
      ((Task.component lib.layout name).result answer) := rfl
  have hrun : ((Task.component lib.layout name).perform lib.cached).run s =
      (lib.cached.component name).run s := Task.run_perform_component lib.cached name s
  obtain ⟨hfaithful, hsound⟩ :=
    Thread.sound_of_reaches hp hs hstart (Thread.reaches_perform lib _ s)
  rw [← hrun]
  exact ⟨hsound, hfaithful⟩

/-- Looked up one after the other, the components are those of the look-ups alone. -/
theorem run_fetchMany_of_steady (hp : lib.provider.Steady answer holds)
    (hs : s.state.Faithful answer holds) (hworkers : 1 ≤ lib.workers) (names : List Text) :
    ((lib.cached.fetchMany names).run s).1 =
      loaded ((Text.distinct names).map fun name =>
        (name, (Task.component lib.layout name).result answer)) :=
  run_fetchMany (fun name _ ht => run_component_of_steady hp ht name) hworkers hs names

end Library

/-- Components that several workers look up: the session that they share, and where each look-up
stands, in the order in which they were asked for. -/
structure Pool (τ σ : Type) where
  session : Session (Cached τ σ)
  threads : List (Text × Thread τ Component)

namespace Pool

variable {τ σ : Type}

/-- Each component is to be looked up once. -/
def start (layout : Layout) (names : List Text) (s : Session (Cached τ σ)) : Pool τ σ :=
  ⟨s, (Text.distinct names).map fun name => (name, .waiting (Task.component layout name))⟩

def isDone (pool : Pool τ σ) : Bool := pool.threads.all fun entry => entry.2.result?.isSome

def results (pool : Pool τ σ) : List (Text × Except Failure Component) :=
  pool.threads.filterMap fun entry => entry.2.result?.map (entry.1, ·)

/-- What the components come to when all workers are done. -/
def outcome? (pool : Pool τ σ) :
    Option (Except Failure (Entries Component) × Session (Cached τ σ)) :=
  if pool.isDone then some ((Library.gather pool.results).run pool.session) else none

/-- An upper bound of the number of steps that the workers have left. -/
def work (answer : Text → Except Failure Text) (pool : Pool τ σ) : Nat :=
  (pool.threads.map fun entry => entry.2.work answer).sum

/-- The answers in the cache are those of the source, and every look-up is on its way to what the
component comes to with them. -/
structure Sound (layout : Layout) (answer : Text → Except Failure Text) (holds : σ → Prop)
    (names : List Text) (pool : Pool τ σ) : Prop where
  session : pool.session.state.Faithful answer holds
  names : pool.threads.map Prod.fst = Text.distinct names
  threads : ∀ entry ∈ pool.threads,
    entry.2.Sound answer ((Task.component layout entry.1).result answer)

section Sound

variable {layout : Layout} {answer : Text → Except Failure Text} {holds : σ → Prop}
  {names : List Text} {pool : Pool τ σ}

theorem sound_start {s : Session (Cached τ σ)} (hs : s.state.Faithful answer holds)
    (names : List Text) : (start layout names s).Sound layout answer holds names where
  session := hs
  names := by simp [start, Function.comp_def]
  threads entry hentry := by
    obtain ⟨name, -, rfl⟩ := List.mem_map.mp hentry
    rfl

/-- When all workers are done, each component has come to what it comes to alone. -/
theorem Sound.results_eq (h : pool.Sound layout answer holds names) (hdone : pool.isDone) :
    pool.results =
      (Text.distinct names).map fun name => (name, (Task.component layout name).result answer) := by
  have hresult : ∀ entry ∈ pool.threads, entry.2.result?.map (entry.1, ·) =
      some (entry.1, (Task.component layout entry.1).result answer) := by
    intro entry hentry
    have hfinished := List.all_eq_true.mp hdone entry hentry
    rw [Thread.result?_of_sound (h.threads entry hentry) hfinished, Option.map_some]
  rw [← h.names, List.map_map, results, List.filterMap_congr hresult]
  exact congrFun List.filterMap_eq_map pool.threads

/-- The outcome is what remains of what the components come to alone. -/
theorem Sound.outcome_eq (h : pool.Sound layout answer holds names)
    {result : Except Failure (Entries Component)} {t : Session (Cached τ σ)}
    (houtcome : pool.outcome? = some (result, t)) :
    result = Library.loaded ((Text.distinct names).map fun name =>
      (name, (Task.component layout name).result answer)) := by
  rw [outcome?] at houtcome
  split at houtcome
  next hdone =>
    rw [h.results_eq hdone] at houtcome
    rw [← Library.run_gather _ pool.session, Option.some.inj houtcome]
  next => cases houtcome

end Sound

variable [Zero τ] [Sub τ] [LT τ] [DecidableLT τ]

/-- A step of the workers, of whom there are `limit`. -/
inductive Work (p : Provider σ) (limit : Nat) : Pool τ σ → Pool τ σ → Prop
  /-- A worker that is free begins with the first task that waits. -/
  | start {s : Session (Cached τ σ)} {before after : List (Text × Thread τ Component)} {name : Text}
      {task : Task Component} :
      (before ++ after).countP (fun entry => entry.2.isBusy) < limit →
      (∀ entry ∈ before, !entry.2.isWaiting) →
      Work p limit ⟨s, before ++ (name, .waiting task) :: after⟩
        ⟨s, before ++ (name, .running task) :: after⟩
  | act {s t : Session (Cached τ σ)} {before after : List (Text × Thread τ Component)} {name : Text}
      {thread thread' : Thread τ Component} :
      thread.act p s = some (thread', t) →
      Work p limit ⟨s, before ++ (name, thread) :: after⟩ ⟨t, before ++ (name, thread') :: after⟩

/-- A step of the workers or of the clock, which may come to show any time. -/
inductive Step (p : Provider σ) (limit : Nat) : Pool τ σ → Pool τ σ → Prop
  | work {pool pool' : Pool τ σ} : Work p limit pool pool' → Step p limit pool pool'
  | clock (s : Session (Cached τ σ)) (threads : List (Text × Thread τ Component)) (now : τ) :
      Step p limit ⟨s, threads⟩ ⟨{ s with state := { s.state with now } }, threads⟩

variable {layout : Layout} {answer : Text → Except Failure Text} {holds : σ → Prop}
  {names : List Text} {p : Provider σ} {limit : Nat} {pool pool' : Pool τ σ}

/-- Each step of the workers leaves less work. -/
theorem Sound.work (hp : p.Steady answer holds) (h : pool.Sound layout answer holds names)
    (hwork : Work p limit pool pool') :
    pool'.Sound layout answer holds names ∧ pool'.work answer < pool.work answer := by
  obtain ⟨hsession, hnames, hthreads⟩ := h
  cases hwork with
  | @start s before after name task _ _ =>
    simp only [List.map_append, List.map_cons, List.forall_mem_append, List.forall_mem_cons]
      at hnames hthreads
    obtain ⟨hbefore, hthread, hafter⟩ := hthreads
    refine ⟨⟨hsession, by simpa using hnames, ?_⟩, ?_⟩
    · simp only [List.forall_mem_append, List.forall_mem_cons]
      exact ⟨hbefore, hthread, hafter⟩
    · simp [Pool.work, Thread.work]
  | @act s t before after name thread thread' hact =>
    simp only [List.map_append, List.map_cons, List.forall_mem_append, List.forall_mem_cons]
      at hnames hthreads
    obtain ⟨hbefore, hthread, hafter⟩ := hthreads
    obtain ⟨hfaithful, hsound, hless⟩ := Thread.sound_of_act hp hsession hthread hact
    refine ⟨⟨hfaithful, by simpa using hnames, ?_⟩, ?_⟩
    · simp only [List.forall_mem_append, List.forall_mem_cons]
      exact ⟨hbefore, hsound, hafter⟩
    · simpa [Pool.work] using hless

theorem Sound.step (hp : p.Steady answer holds) (h : pool.Sound layout answer holds names)
    (hstep : Step p limit pool pool') : pool'.Sound layout answer holds names := by
  cases hstep with
  | work hwork => exact (h.work hp hwork).1
  | clock s threads now => exact ⟨⟨h.session.inner, h.session.files⟩, h.names, h.threads⟩

theorem Sound.steps (hp : p.Steady answer holds) (h : pool.Sound layout answer holds names)
    (hsteps : ReflTransGen (Step p limit) pool pool') : pool'.Sound layout answer holds names := by
  induction hsteps with
  | refl => exact h
  | tail _ hstep ih => exact ih.step hp hstep

/-- As long as a component is not finished, some worker can take a step. -/
theorem exists_work (p : Provider σ) (hlimit : pool.threads ≠ [] → 1 ≤ limit)
    (h : pool.outcome? = none) : ∃ pool', Work p limit pool pool' := by
  obtain ⟨s, threads⟩ := pool
  by_cases hbusy : ∃ entry ∈ threads, entry.2.isBusy
  · obtain ⟨⟨name, thread⟩, hentry, hthread⟩ := hbusy
    obtain ⟨before, after, rfl⟩ := List.append_of_mem hentry
    obtain ⟨thread', t, hact⟩ := Thread.exists_act hthread s
    exact ⟨_, Work.act hact⟩
  · have hidle : ∀ entry ∈ threads, ¬ entry.2.isBusy := fun entry hentry hthread =>
      hbusy ⟨entry, hentry, hthread⟩
    -- With no thread at work every worker is free, so that the first that waits can start.
    have hwaiting : (threads.find? fun entry => entry.2.isWaiting).isSome := by
      by_contra hnone
      simp only [List.find?_isSome, not_exists, not_and] at hnone
      have hdone : isDone ⟨s, threads⟩ := by
        refine List.all_eq_true.mpr fun entry hentry => ?_
        rcases entry.2.isWaiting_or_isBusy_or_isSome with hwait | hbusy | hfinished
        · exact absurd hwait (hnone entry hentry)
        · exact absurd hbusy (hidle entry hentry)
        · exact hfinished
      rw [outcome?, if_pos hdone] at h
      cases h
    obtain ⟨⟨name, thread⟩, hfind⟩ := Option.isSome_iff_exists.mp hwaiting
    obtain ⟨hthread, before, after, rfl, hbefore⟩ := List.find?_eq_some_iff_append.mp hfind
    cases thread with
    | waiting task =>
      have hnone : (before ++ after).countP (fun entry => entry.2.isBusy) = 0 := by
        refine List.countP_eq_zero.mpr fun entry hentry => hidle entry ?_
        rw [List.mem_append] at hentry
        simp only [List.mem_append, List.mem_cons]
        exact hentry.imp_right Or.inr
      have hworkers := hlimit (by simp)
      exact ⟨_, Work.start (by omega) hbefore⟩
    | running | missed | holding | stamped => cases hthread

/-- The workers can go on until all components are finished. -/
theorem Sound.exists_isDone (hp : p.Steady answer holds)
    (hlimit : Text.distinct names ≠ [] → 1 ≤ limit) (h : pool.Sound layout answer holds names) :
    ∃ pool' : Pool τ σ, ReflTransGen (Step p limit) pool pool' ∧ pool'.isDone := by
  induction hwork : pool.work answer using Nat.strong_induction_on generalizing pool with
  | _ n ih =>
    cases hdone : pool.isDone with
    | true => exact ⟨pool, ReflTransGen.refl, hdone⟩
    | false =>
      have hworkers : pool.threads ≠ [] → 1 ≤ limit := by
        intro hthreads
        apply hlimit
        rw [← h.names]
        simpa using hthreads
      obtain ⟨next, hnext⟩ := exists_work p hworkers (by simp [outcome?, hdone])
      obtain ⟨hsound, hless⟩ := h.work hp hnext
      obtain ⟨pool', hsteps, hpool'⟩ := ih _ (hwork ▸ hless) hsound rfl
      exact ⟨pool', ReflTransGen.head (Step.work hnext) hsteps, hpool'⟩

end Pool

/-- A source in memory gives the same files until they are changed. -/
theorem Memory.steady (m : Memory) :
    Provider.memory.Steady (fun path => (m.file path).mapError Failure.source)
      fun m' => m'.files = m.files ∧ m'.broken = m.broken where
  fetched {s} path h := by
    rw [Provider.memory, Memory.run_ask]
    simp only [Memory.file, h.1, h.2]
  unchanged {s} path h := by
    rw [Provider.memory, Memory.run_ask]
    exact h

namespace Library

variable {τ σ : Type} [Zero τ] [Sub τ] [LT τ] [DecidableLT τ]

/-- How many components are looked up at once. -/
def limit (lib : Library σ) (names : List Text) : Nat :=
  min lib.workers.toNat (Text.distinct names).length

theorem one_le_limit {lib : Library σ} (hworkers : 1 ≤ lib.workers) {names : List Text}
    (h : Text.distinct names ≠ []) : 1 ≤ lib.limit names := by
  have hlength := List.length_pos_iff.mpr h
  unfold limit
  omega

/-- Several components are looked up over a cached source whose answers do not change, by one worker
or more, in any order of their steps and whatever the clock shows. Each step of the workers leaves
less work, and as long as they are not done they can take one. When they are done, the outcome is
that of looking the components up one after the other: unless a look-up fails for another reason
than the source, the components that a look-up alone finds, with their values, each name once in the
order in which it was first asked for. A component found is the one of its source, with the other
files that there are. -/
theorem outcome_of_steps_eq_fetchMany {lib : Library σ} {answer : Text → Except Failure Text}
    {holds : σ → Prop} (hp : lib.provider.Steady answer holds) (hworkers : 1 ≤ lib.workers)
    {names : List Text} {s : Session (Cached τ σ)} (hs : s.state.Faithful answer holds)
    {pool : Pool τ σ}
    (hsteps : ReflTransGen (Pool.Step lib.provider (lib.limit names))
      (Pool.start lib.layout names s) pool) :
    let alone := fun name => ((lib.cached.component name).run s).1
    (∀ pool', Pool.Work lib.provider (lib.limit names) pool pool' →
      pool'.work answer < pool.work answer) ∧
    (pool.outcome? = none → ∃ pool', Pool.Work lib.provider (lib.limit names) pool pool') ∧
    (∀ result t, pool.outcome? = some (result, t) →
      result = ((lib.cached.fetchMany names).run s).1 ∧
      ((∀ name ∈ names, ∀ e, alone name = .error e → ∃ e', e = .source e') →
        result = .ok (names.eraseDups.filterMap fun name =>
          (alone name).toOption.map (name, ·)))) ∧
    ∀ name component, alone name = .ok component →
      ∃ code, answer (lib.layout.componentPath name .source) = .ok code ∧
        component = { Component.ofSource name code with
          hasStories := (answer (lib.layout.componentPath name .stories)).isOk
          hasDocumentation := (answer (lib.layout.componentPath name .documentation)).isOk
          hasTests := (answer (lib.layout.componentPath name .tests)).isOk } := by
  intro alone
  have halone : ∀ name, alone name = (Task.component lib.layout name).result answer :=
    fun name => (run_component_of_steady hp hs name).1
  have hsound := (Pool.sound_start hs names).steps hp hsteps
  refine ⟨fun pool' hwork => (hsound.work hp hwork).2, fun hgoing => ?_, fun result t h => ?_,
    fun name component h => Task.result_of_component (halone name ▸ h)⟩
  · apply Pool.exists_work lib.provider _ hgoing
    intro hthreads
    apply one_le_limit hworkers
    rw [← hsound.names]
    simpa using hthreads
  · have hdone : pool.isDone := by
      by_contra hgoing
      rw [Pool.outcome?, if_neg hgoing] at h
      cases h
    have hresult : result =
        loaded ((Text.distinct names).map fun name => (name, alone name)) := by
      rw [Pool.outcome?, if_pos hdone, hsound.results_eq hdone] at h
      rw [funext halone, ← run_gather _ pool.session, Option.some.inj h]
    refine ⟨?_, fun hsources => ?_⟩
    · rw [hresult, funext halone, run_fetchMany_of_steady hp hs hworkers]
    · rw [hresult, loaded_eq_ok, List.filterMap_map, Text.distinct_eq_eraseDups]
      · rfl
      · intro entry hentry
        obtain ⟨name, hname, rfl⟩ := List.mem_map.mp hentry
        exact hsources name (Text.mem_distinct.mp hname)

/-- Two workers look up a component that there is, one that there is not, the first again, and one
whose documentation cannot be read. -/
theorem outcome_of_steps_of_two_workers :
    let layout : Layout := ⟨"components".toList, "themes".toList, []⟩
    let code := "export const A = () => null;".toList
    let memory : Memory :=
      { files := [(layout.componentPath ['A'] .source, code), (layout.componentPath ['A'] .stories, []),
          (layout.componentPath ['C'] .source, code)]
        directories := []
        broken := [(layout.componentPath ['C'] .documentation, "timeout".toList)]
        calls := [] }
    let lib : Library Memory := ⟨.memory, layout, 2⟩
    let s : Session (Cached Nat Memory) := ⟨.start 0 60 none none memory, []⟩
    let names : List Text := [['A'], ['B'], ['A'], ['C']]
    ∃ pool : Pool Nat Memory,
      ReflTransGen (Pool.Step lib.provider (lib.limit names)) (Pool.start layout names s) pool ∧
      ∃ t, pool.outcome? =
        some (.ok [(['A'], { Component.ofSource ['A'] code with hasStories := true })], t) := by
  intro layout code memory lib s names
  have hp := Memory.steady memory
  have hs : s.state.Faithful (fun path => (memory.file path).mapError Failure.source)
      fun m' => m'.files = memory.files ∧ m'.broken = memory.broken :=
    ⟨⟨rfl, rfl⟩, fun h => by cases h⟩
  have hworkers : 1 ≤ lib.workers := by decide
  have hlimit : Text.distinct names ≠ [] → 1 ≤ lib.limit names := one_le_limit hworkers
  have hstart : (Pool.start layout names s).Sound layout _ _ names := Pool.sound_start hs names
  obtain ⟨pool, hsteps, hdone⟩ := hstart.exists_isDone hp hlimit
  obtain ⟨-, -, houtcome, -⟩ := outcome_of_steps_eq_fetchMany hp hworkers hs hsteps
  have hA : ((lib.cached.component ['A']).run s).1 =
      .ok { Component.ofSource ['A'] code with hasStories := true } :=
    (run_component_of_steady hp hs ['A']).1.trans rfl
  have hB : ((lib.cached.component ['B']).run s).1 =
      .error (.source (.absent ("No such file: ".toList ++ layout.componentPath ['B'] .source))) :=
    (run_component_of_steady hp hs ['B']).1.trans rfl
  have hC : ((lib.cached.component ['C']).run s).1 = .error (.source (.broken "timeout".toList)) :=
    (run_component_of_steady hp hs ['C']).1.trans rfl
  have hsources : ∀ name ∈ names, ∀ e, ((lib.cached.component name).run s).1 = .error e →
      ∃ e', e = .source e' := by
    intro name hname e he
    simp only [names, List.mem_cons, List.not_mem_nil, or_false] at hname
    rcases hname with rfl | rfl | rfl | rfl
    · exact absurd (hA.symm.trans he) (by simp)
    · exact ⟨_, (Except.error.inj (hB.symm.trans he)).symm⟩
    · exact absurd (hA.symm.trans he) (by simp)
    · exact ⟨_, (Except.error.inj (hC.symm.trans he)).symm⟩
  obtain ⟨result, t, hfinal⟩ : ∃ result t, pool.outcome? = some (result, t) :=
    ⟨_, _, if_pos hdone⟩
  have hnames : names.eraseDups = [['A'], ['B'], ['C']] := by decide
  refine ⟨pool, hsteps, t, ?_⟩
  rw [hfinal, (houtcome result t hfinal).2 hsources]
  simp only [hnames, List.filterMap_cons, hA, hB, hC, Except.toOption, Option.map_some,
    Option.map_none, List.filterMap_nil]

end Library

end ComponentCatalog
