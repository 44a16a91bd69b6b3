import ComponentCatalog.Config.Load
import ComponentCatalog.Proofs.NumberBounds

/-!
Which configurations are loaded. The content of a configuration file is either refused or gives
numbers in their ranges, unless a number setting is the undefined value or past the largest double,
an integer stands for a text and has too many digits, or a path leads nowhere.
-/
namespace ComponentCatalog

namespace Number

/-- The text is a name of the undefined value. -/
def NamesUndefined (s : Text) : Prop :=
  (signed (Text.strip s)).2.map Char.toLower = "nan".toList

theorem isNaN_of_readFloat? {s : Text} {x : Float} (h : readFloat? s = some x) :
    x.isNaN = true ↔ NamesUndefined s := by
  unfold readFloat? at h
  unfold NamesUndefined
  dsimp only at h
  split at h
  next hinf =>
    cases h
    rw [isNaN_ofDecimal]
    rcases hinf with hinf | hinf <;> simp [hinf]
  next =>
    split at h
    next hnan =>
      cases h
      exact iff_of_true rfl hnan
    next hnan =>
      obtain ⟨plain, -, hnumeral⟩ := Option.bind_eq_some_iff.mp h
      obtain ⟨n, -, rfl⟩ := Option.map_eq_some_iff.mp hnumeral
      rw [Numeral.toFloat, isNaN_ofDecimal]
      exact iff_of_false Bool.false_ne_true hnan

theorem namesUndefined_iff (s : Text) :
    NamesUndefined s ↔ ∃ x, readFloat? s = some x ∧ x.isNaN = true := by
  constructor
  · intro h
    have hinf : ¬((signed (Text.strip s)).2.map Char.toLower = "inf".toList ∨
        (signed (Text.strip s)).2.map Char.toLower = "infinity".toList) := by
      rw [h]
      decide
    refine ⟨0.0 / 0.0, ?_, rfl⟩
    unfold readFloat?
    dsimp only
    rw [if_neg hinf]
    exact if_pos h
  · rintro ⟨x, hx, hnan⟩
    exact (isNaN_of_readFloat? hx).mp hnan

end Number

namespace Config

/-- On an input that is readable the computation gives a value with `post`, or is refused for a
reason that `refusal` names; without such a reason it is not refused, and without `readable` it
gives no value. -/
structure Yields {α : Type} (r : Except LoadError α) (readable : Prop)
    (refusal : ConfigError → Prop) (post : α → Prop) : Prop where
  of_ok : ∀ a, r = .ok a → readable ∧ (∀ e, ¬refusal e) ∧ post a
  of_rejected : ∀ e, r = .error (.rejected e) → refusal e
  of_failed : ∀ e, r = .error e → (∀ e', e ≠ .rejected e') → ¬readable

namespace Yields

variable {α β : Type} {readable readable' : Prop} {refusal refusal' : ConfigError → Prop}
  {post : α → Prop} {post' : β → Prop} {r : Except LoadError α}

theorem pure {a : α} (h : post a) : Yields (.ok a) True (fun _ => False) post where
  of_ok b hb := by
    cases hb
    exact ⟨trivial, fun _ => id, h⟩
  of_rejected e he := by cases he
  of_failed e he := by cases he

theorem failed {e : LoadError} (he : ∀ e', e ≠ .rejected e') :
    Yields (.error e : Except LoadError α) False (fun _ => False) post where
  of_ok b hb := by cases hb
  of_rejected e' he' := by
    cases he'
    exact he e' rfl
  of_failed e' he' _ := id

theorem rejected (e : ConfigError) :
    Yields (.error (.rejected e) : Except LoadError α) True (· = e) post where
  of_ok b hb := by cases hb
  of_rejected e' he' := by
    cases he'
    rfl
  of_failed e' he' hother := by
    cases he'
    exact absurd rfl (hother e)

theorem bind {f : α → Except LoadError β} (hr : Yields r readable refusal post)
    (hf : ∀ a, post a → Yields (f a) readable' refusal' post') :
    Yields (r >>= f) (readable ∧ readable') (fun e => refusal e ∨ refusal' e) post' := by
  cases r with
  | ok a =>
    obtain ⟨hreadable, hrefusal, hpost⟩ := hr.of_ok a rfl
    have hnext := hf a hpost
    constructor
    · intro b hb
      obtain ⟨hreadable', hrefusal', hpost'⟩ := hnext.of_ok b hb
      exact ⟨⟨hreadable, hreadable'⟩, fun e => not_or.mpr ⟨hrefusal e, hrefusal' e⟩, hpost'⟩
    · intro e he
      exact .inr (hnext.of_rejected e he)
    · intro e he hother hboth
      exact hnext.of_failed e he hother hboth.2
  | error e =>
    constructor
    · intro b hb
      cases hb
    · intro e' he'
      cases he'
      exact .inl (hr.of_rejected e' rfl)
    · intro e' he' hother hboth
      cases he'
      exact hr.of_failed e rfl hother hboth.1

theorem congr (hr : Yields r readable refusal post) (hreadable : readable ↔ readable')
    (hrefusal : ∀ e, refusal e ↔ refusal' e) : Yields r readable' refusal' post where
  of_ok a ha := by
    obtain ⟨h, h', h''⟩ := hr.of_ok a ha
    exact ⟨hreadable.mp h, fun e => mt (hrefusal e).mpr (h' e), h''⟩
  of_rejected e he := (hrefusal e).mp (hr.of_rejected e he)
  of_failed e he hother := mt hreadable.mpr (hr.of_failed e he hother)

theorem imp (hr : Yields r readable refusal post) {post' : α → Prop}
    (hpost : ∀ a, post a → post' a) : Yields r readable refusal post' where
  of_ok a ha := by
    obtain ⟨h, h', h''⟩ := hr.of_ok a ha
    exact ⟨h, h', hpost a h''⟩
  of_rejected := hr.of_rejected
  of_failed := hr.of_failed

end Yields

/-- The setting is an integer of more digits than are written. -/
def Unwritten : Yaml.Value → Prop
  | .int n => Number.IsLong n
  | _ => False

/-- The setting is an integer past the largest double. -/
def Oversized : Yaml.Value → Prop
  | .int n => Number.overflow ≤ n.natAbs
  | _ => False

/-- The setting is the undefined value or names it. -/
def Undefined : Yaml.Value → Prop
  | .float x => x.isNaN = true
  | .text s => Number.NamesUndefined s
  | _ => False

/-- The text of the setting contains a null character, so that it is the path of nothing. -/
def LeadsNowhere (v : Yaml.Value) : Prop := ∃ path, asText v = .ok (some path) ∧ '\x00' ∈ path

/-- The setting stands for a number for which `isOut` holds. -/
def ReadAs (isOut : Float → Prop) (v : Yaml.Value) : Prop :=
  ∃ x, asFloat v = .ok (some x) ∧ isOut x

/-- The items that stand for texts in a list of texts. -/
def items : Yaml.Value → List Yaml.Value
  | .list items => items
  | _ => []

theorem asText_of_unwritten {v : Yaml.Value} (h : Unwritten v) :
    asText v = .error (.digits .writing) := by
  cases v with
  | int n =>
    rw [asText, Number.writeInt_of_isLong h]
    rfl
  | _ => cases h

theorem asText_of_not_unwritten {v : Yaml.Value} (h : ¬Unwritten v) : ∃ s?, asText v = .ok s? := by
  cases v with
  | int n =>
    refine ⟨some (Number.intText n), ?_⟩
    rw [asText, Number.writeInt_of_not_isLong h]
    rfl
  | null | bool | float | text | list | mapping | other => exact ⟨_, rfl⟩

theorem asFloat_of_oversized {v : Yaml.Value} (h : Oversized v) : asFloat v = .error .tooLarge := by
  cases v with
  | int n =>
    have hnone := (Number.ofInt?_eq_none_iff n).mpr h
    simp only [asFloat, hnone]
  | _ => cases h

theorem asFloat_of_not_oversized {v : Yaml.Value} (h : ¬Oversized v) :
    ∃ x?, asFloat v = .ok x? := by
  cases v with
  | int n =>
    obtain ⟨x, hx⟩ := Option.ne_none_iff_exists'.mp (mt (Number.ofInt?_eq_none_iff n).mp h)
    refine ⟨some x, ?_⟩
    simp only [asFloat, hx]
  | null | bool | float | text | list | mapping | other => exact ⟨_, rfl⟩

/-- A setting is undefined exactly if it is read as an undefined number. -/
theorem undefined_iff (v : Yaml.Value) : Undefined v ↔ ReadAs (·.isNaN = true) v := by
  unfold Undefined ReadAs
  cases v with
  | float y => simp [asFloat]
  | text s => simp [asFloat, Number.namesUndefined_iff]
  | int n =>
    refine iff_of_false id ?_
    rintro ⟨x, hx, hnan⟩
    unfold asFloat at hx
    cases hn : Number.ofInt? n with
    | none => simp [hn] at hx
    | some y =>
      simp only [hn] at hx
      cases hx
      rw [Number.isNaN_of_ofInt? hn] at hnan
      cases hnan
  | null | bool | list | mapping | other => simp [asFloat]

theorem yields_asText (v : Yaml.Value) :
    Yields ((asText v).mapError .coercion) (¬Unwritten v) (fun _ => False)
      fun s? => asText v = .ok s? := by
  by_cases h : Unwritten v
  · rw [asText_of_unwritten h]
    exact (Yields.failed (by rintro _ ⟨⟩)).congr (by simp [h]) fun _ => .rfl
  · obtain ⟨s?, hs⟩ := asText_of_not_unwritten h
    rw [hs]
    exact ((Yields.pure (Eq.refl s?)).imp fun _ ha => ha ▸ rfl).congr (by simp [h]) fun _ => .rfl

theorem yields_textOr (absent : Text) (v : Yaml.Value) :
    Yields ((textOr absent v).mapError .coercion) (¬Unwritten v) (fun _ => False)
      fun _ => True := by
  by_cases h : Unwritten v
  · have herror : textOr absent v = .error (.digits .writing) := by
      rw [textOr, asText_of_unwritten h]
      rfl
    rw [herror]
    exact (Yields.failed (by rintro _ ⟨⟩)).congr (by simp [h]) fun _ => .rfl
  · obtain ⟨s?, hs⟩ := asText_of_not_unwritten h
    have hok : ∃ s, textOr absent v = .ok s := by
      rw [textOr, hs]
      rcases s? with _ | _ | _ <;> exact ⟨_, rfl⟩
    obtain ⟨s, hs⟩ := hok
    rw [hs]
    exact (Yields.pure trivial).congr (by simp [h]) fun _ => .rfl

theorem yields_mapM_asText (vs : List Yaml.Value) :
    Yields ((vs.mapM asText).mapError .coercion) (∀ v ∈ vs, ¬Unwritten v) (fun _ => False)
      fun _ => True := by
  induction vs with
  | nil => exact (Yields.pure trivial).congr (by simp) fun _ => .rfl
  | cons v vs ih =>
    have hsplit : ((v :: vs).mapM asText).mapError LoadError.coercion =
        ((asText v).mapError .coercion >>= fun s? =>
          (vs.mapM asText).mapError .coercion >>= fun more => .ok (s? :: more)) := by
      rw [List.mapM_cons]
      cases asText v <;> cases vs.mapM asText <;> rfl
    rw [hsplit]
    refine ((yields_asText v).bind fun s? _ => ih.bind fun more _ => .pure trivial).congr ?_ ?_
    · simp
    · simp

theorem yields_asTexts (v : Yaml.Value) :
    Yields ((asTexts v).mapError .coercion) (∀ i ∈ items v, ¬Unwritten i) (fun _ => False)
      fun _ => True := by
  unfold asTexts items
  cases v with
  | list vs =>
    have hmap : (do return (← vs.mapM asText).filterMap id).mapError LoadError.coercion =
        ((vs.mapM asText).mapError .coercion >>= fun s?s => .ok (s?s.filterMap id)) := by
      cases vs.mapM asText <;> rfl
    dsimp only
    rw [hmap]
    exact ((yields_mapM_asText vs).bind fun _ _ => .pure trivial).congr (by simp) (by simp)
  | null | bool | int | float | text | mapping | other =>
    exact (Yields.pure trivial).congr (by simp) fun _ => .rfl

/-- The number of a setting, or the given one; refused where it is out of range. -/
def numberOf (isOut : Float → Prop) [DecidablePred isOut] (e : ConfigError) (absent : Float)
    (v : Yaml.Value) : Except LoadError Float := do
  match ← (asFloat v).mapError LoadError.coercion with
  | none => return absent
  | some x => if isOut x then .error (.rejected e) else return x

/-- Rejecting what is out of range leaves what is within the range and the undefined value. -/
theorem yields_numberOf {isOut within : Float → Prop} [DecidablePred isOut] (e : ConfigError)
    {absent : Float} (v : Yaml.Value) (hout : ∀ x, ¬isOut x ↔ within x ∨ x.isNaN = true)
    (hundefined : ∀ x, x.isNaN = true → ¬within x) (habsent : within absent) :
    Yields (numberOf isOut e absent v) (¬Oversized v) (fun e' => e' = e ∧ ReadAs isOut v)
      fun x => within x ↔ ¬Undefined v := by
  unfold numberOf
  rw [undefined_iff]
  by_cases hsize : Oversized v
  · have hread : ¬ReadAs isOut v := by
      rintro ⟨x, hx, -⟩
      rw [asFloat_of_oversized hsize] at hx
      cases hx
    rw [asFloat_of_oversized hsize]
    refine (Yields.failed (by rintro _ ⟨⟩)).congr ?_ ?_
    · simp [hsize]
    · simp [hread]
  · obtain ⟨x?, hx⟩ := asFloat_of_not_oversized hsize
    have hread : ∀ p : Float → Prop, ReadAs p v ↔ ∃ x, x? = some x ∧ p x := by
      intro p
      simp [ReadAs, hx]
    rw [hx]
    simp only [hread]
    cases x? with
    | none =>
      refine Yields.congr (.pure ?_) (by simp [hsize]) (by simp)
      simp [habsent]
    | some x =>
      dsimp only [Except.mapError, Bind.bind, Except.bind]
      by_cases hx : isOut x
      · rw [if_pos hx]
        exact (Yields.rejected e).congr (by simp [hsize]) (by simp [hx])
      · rw [if_neg hx]
        refine Yields.congr (.pure ?_) (by simp [hsize]) (by simp [hx])
        have hcases := (hout x).mp hx
        have hnan := hundefined x
        simp only [Option.some.injEq, exists_eq_left']
        tauto

/-- The checkout of a path setting. -/
def checkoutOf (root : Place) (v : Yaml.Value) : Except LoadError (Option Place) := do
  match ← (asText v).mapError LoadError.coercion with
  | none | some [] => return none
  | some path => if '\x00' ∈ path then .error .nullInPath else return some (root.follow path)

theorem yields_checkoutOf (root : Place) (v : Yaml.Value) :
    Yields (checkoutOf root v) (¬Unwritten v ∧ ¬LeadsNowhere v) (fun _ => False)
      fun _ => True := by
  have hrest : ∀ s?, asText v = .ok s? → Yields (match s? with
      | none | some [] => return none
      | some path => if '\x00' ∈ path then .error .nullInPath else return some (root.follow path))
      (¬LeadsNowhere v) (fun _ => False) fun _ => True := by
    intro s? hs
    have hnowhere : LeadsNowhere v ↔ ∃ path, s? = some path ∧ '\x00' ∈ path := by
      simp [LeadsNowhere, hs]
    rw [hnowhere]
    rcases s? with _ | _ | ⟨c, path⟩
    · exact (Yields.pure trivial).congr (by simp) fun _ => .rfl
    · exact (Yields.pure trivial).congr (by simp) fun _ => .rfl
    · simp only [Option.some.injEq, exists_eq_left']
      by_cases hnull : '\x00' ∈ c :: path
      · rw [if_pos hnull]
        exact (Yields.failed (by rintro _ ⟨⟩)).congr (by simp [hnull]) fun _ => .rfl
      · rw [if_neg hnull]
        exact (Yields.pure trivial).congr (by simp [hnull]) fun _ => .rfl
  exact ((yields_asText v).bind hrest).congr .rfl (by simp)

theorem checkoutOf_bind {β : Type} (root : Place) (v : Yaml.Value)
    (k : Option Place → Except LoadError β) :
    checkoutOf root v >>= k = (do
      match ← (asText v).mapError LoadError.coercion with
      | none | some [] => k none
      | some path => if '\x00' ∈ path then .error .nullInPath else k (some (root.follow path))) := by
  unfold checkoutOf
  cases asText v with
  | error e => rfl
  | ok s? =>
    rcases s? with _ | _ | ⟨c, path⟩
    · rfl
    · rfl
    · by_cases h : '\x00' ∈ c :: path
      · simp [h, Except.mapError, Bind.bind, Except.bind]
      · simp [h, Except.mapError, Bind.bind, Except.bind, Pure.pure, Except.pure]

theorem numberOf_bind {β : Type} (isOut : Float → Prop) [DecidablePred isOut] (e : ConfigError)
    (absent : Float) (v : Yaml.Value) (k : Float → Except LoadError β) :
    numberOf isOut e absent v >>= k = (do
      match ← (asFloat v).mapError LoadError.coercion with
      | none => k absent
      | some x => if isOut x then .error (.rejected e) else k x) := by
  unfold numberOf
  cases asFloat v with
  | error e => rfl
  | ok x? =>
    cases x? with
    | none => rfl
    | some x =>
      by_cases h : isOut x <;>
        simp [h, Except.mapError, Bind.bind, Except.bind, Pure.pure, Except.pure]

theorem sourceOf_eq (root : Place) (v : Yaml.Value) :
    sourceOf root v = (do
      let standard : SourceConfig := {}
      let text (key : String) (absent : Text) : Except LoadError Text :=
        (textOr absent (setting v key)).mapError .coercion
      let checkout ← checkoutOf root (setting v "local_path")
      let owner ← text "owner" standard.owner
      let repository ← text "repo" standard.repository
      let branch ← text "branch" standard.branch
      let componentsPath ← text "components_path" standard.componentsPath
      let themesPath ← text "themes_path" standard.themesPath
      let names ← (asTexts (setting v "theme_files")).mapError .coercion
      let timeout ← numberOf (· ≤ 0) .timeoutNotPositive standard.timeout (setting v "request_timeout")
      let token ← (asText (setting v "token")).mapError .coercion
      let themeFiles := if names = [] then standard.themeFiles else names
      return ⟨checkout, owner, repository, branch, componentsPath, themesPath, themeFiles, timeout,
        token⟩ : Except LoadError SourceConfig) := by
  unfold sourceOf
  simp only [checkoutOf_bind, numberOf_bind]
  rfl

theorem lifetimeOf_eq (v : Yaml.Value) (key : String) (absent : Float) :
    lifetimeOf v key absent =
      numberOf (· < 0) (.negativeLifetime key.toList) absent (setting v key) := by
  unfold lifetimeOf numberOf
  cases asFloat (setting v key) with
  | error e => rfl
  | ok x? =>
    cases x? with
    | none => rfl
    | some x =>
      by_cases h : x < 0
      · simp [h, Except.mapError, Bind.bind, Except.bind]
        rfl
      · simp [h, Except.mapError, Bind.bind, Except.bind, Pure.pure, Except.pure]

/-- The keys of a source under which a text stands. -/
def sourceTextKeys : List String :=
  ["local_path", "owner", "repo", "branch", "components_path", "themes_path", "token"]

theorem yields_sourceOf (root : Place) (v : Yaml.Value) :
    Yields (sourceOf root v)
      (((∀ key ∈ sourceTextKeys, ¬Unwritten (setting v key)) ∧
          ∀ i ∈ items (setting v "theme_files"), ¬Unwritten i) ∧
        ¬LeadsNowhere (setting v "local_path") ∧ ¬Oversized (setting v "request_timeout"))
      (fun e => e = .timeoutNotPositive ∧ ReadAs (· ≤ 0) (setting v "request_timeout"))
      fun s => 0 < s.timeout ↔ ¬Undefined (setting v "request_timeout") := by
  rw [sourceOf_eq]
  refine Yields.congr (.bind (yields_checkoutOf _ _) fun checkout _ =>
    (yields_textOr _ _).bind fun owner _ => (yields_textOr _ _).bind fun repository _ =>
    (yields_textOr _ _).bind fun branch _ => (yields_textOr _ _).bind fun componentsPath _ =>
    (yields_textOr _ _).bind fun themesPath _ => (yields_asTexts _).bind fun names _ =>
    (yields_numberOf _ _ Number.not_le_zero_iff (fun _ => Number.not_pos_of_isNaN) ?_).bind
      fun timeout htimeout => (yields_asText _).bind fun token _ => .pure ?_) ?_ ?_
  · decide
  · exact htimeout
  · simp only [sourceTextKeys, List.forall_mem_cons, List.not_mem_nil,
      false_imp_iff, implies_true, and_true]
    constructor
    · rintro ⟨⟨hpath, hnowhere⟩, howner, hrepo, hbranch, hparts, hthemes, hfiles, htimeout, htoken⟩
      exact ⟨⟨⟨hpath, howner, hrepo, hbranch, hparts, hthemes, htoken⟩, hfiles⟩, hnowhere, htimeout⟩
    · rintro ⟨⟨⟨hpath, howner, hrepo, hbranch, hparts, hthemes, htoken⟩, hfiles⟩, hnowhere, htimeout⟩
      exact ⟨⟨hpath, hnowhere⟩, howner, hrepo, hbranch, hparts, hthemes, hfiles, htimeout, htoken⟩
  · simp

theorem yields_lifetimeOf (v : Yaml.Value) (key : String) {absent : Float} (habsent : 0 ≤ absent) :
    Yields (lifetimeOf v key absent) (¬Oversized (setting v key))
      (fun e => e = .negativeLifetime key.toList ∧ ReadAs (· < 0) (setting v key))
      fun x => 0 ≤ x ↔ ¬Undefined (setting v key) := by
  rw [lifetimeOf_eq]
  exact yields_numberOf _ _ Number.not_lt_zero_iff (fun _ => Number.not_nonneg_of_isNaN) habsent

theorem yields_cacheOf (v : Yaml.Value) :
    Yields (cacheOf v)
      (¬Oversized (setting v "ttl_seconds") ∧ ¬Oversized (setting v "source_ttl_seconds"))
      (fun e => (e = .negativeLifetime "ttl_seconds".toList ∧
          ReadAs (· < 0) (setting v "ttl_seconds")) ∨
        (e = .negativeLifetime "source_ttl_seconds".toList ∧
          ReadAs (· < 0) (setting v "source_ttl_seconds")))
      fun c => (0 ≤ c.lifetime ↔ ¬Undefined (setting v "ttl_seconds")) ∧
        (0 ≤ c.fileLifetime ↔ ¬Undefined (setting v "source_ttl_seconds")) := by
  unfold cacheOf
  refine Yields.congr (.bind (yields_lifetimeOf _ _ ?_) fun lifetime hlifetime =>
    (yields_lifetimeOf _ _ ?_).bind fun fileLifetime hfile => .pure ⟨hlifetime, hfile⟩) ?_ ?_
  · decide
  · decide
  · simp
  · simp

theorem yields_serviceOf (v : Yaml.Value) :
    Yields (serviceOf v) (¬Unwritten (setting v "host")) (fun _ => False) fun _ => True := by
  unfold serviceOf
  exact ((yields_textOr _ _).bind fun host _ => .pure trivial).congr (by simp) (by simp)

theorem yields_templatesOf (root : Place) (v : Yaml.Value) :
    Yields (templatesOf root v) (¬Unwritten (setting v "templates_dir")) (fun _ => False)
      fun _ => True := by
  unfold templatesOf
  refine Yields.congr (.bind (yields_asText _) fun path? _ => ?_)
    (and_iff_left_of_imp fun _ => trivial) (fun _ => or_self_iff)
  rcases path? with _ | _ | _ <;> exact .pure trivial

/-- The settings of the content that stand for texts. -/
def textSettings (content : Yaml.Value) : List Yaml.Value :=
  sourceTextKeys.map (setting (setting content "source")) ++
    items (setting (setting content "source") "theme_files") ++
    [setting (setting content "service") "host", setting (setting content "presenter") "templates_dir"]

def timeoutSetting (content : Yaml.Value) : Yaml.Value :=
  setting (setting content "source") "request_timeout"

def lifetimeSetting (content : Yaml.Value) (key : String) : Yaml.Value :=
  setting (setting content "cache") key

/-- The settings of the content that stand for numbers in a range. -/
def numberSettings (content : Yaml.Value) : List Yaml.Value :=
  [timeoutSetting content, lifetimeSetting content "ttl_seconds",
    lifetimeSetting content "source_ttl_seconds"]

/-- Each setting can be read as what it stands for, and the paths of checkouts lead somewhere. -/
structure Readable (env : Environment) (content : Yaml.Value) : Prop where
  texts : ∀ v ∈ textSettings content, ¬Unwritten v
  numbers : ∀ v ∈ numberSettings content, ¬Oversized v
  checkout : ¬LeadsNowhere (setting (setting content "source") "local_path")
  environment : ∀ path, env.lookup? "UIDOCS_LOCAL_PATH" = some path →
    ∃ place, env.locate path = .ok place

/-- The content is refused for the reason. -/
def Refuses (content : Yaml.Value) : ConfigError → Prop
  | .noMapping => content ≠ .null ∧ ∀ entries, content ≠ .mapping entries
  | .timeoutNotPositive => ReadAs (· ≤ 0) (timeoutSetting content)
  | .negativeLifetime key => ∃ k ∈ ["ttl_seconds", "source_ttl_seconds"],
    key = k.toList ∧ ReadAs (· < 0) (lifetimeSetting content k)
  | .malformed _ => False

/-- The numbers of the configuration are in their ranges. -/
structure WithinBounds (c : Config) : Prop where
  timeout : 0 < c.source.timeout
  lifetime : 0 ≤ c.cache.lifetime
  fileLifetime : 0 ≤ c.cache.fileLifetime

/-- No number of the content that has a range is undefined. -/
def Defined (content : Yaml.Value) : Prop := ∀ v ∈ numberSettings content, ¬Undefined v

theorem setting_null (key : String) : setting .null key = .null := rfl

theorem items_null : items .null = [] := rfl

theorem setting_of_not_mapping {content : Yaml.Value} (h : ∀ entries, content ≠ .mapping entries)
    (key : String) : setting content key = .null := by
  unfold setting
  split
  next entries => exact absurd rfl (h entries)
  next => rfl

section NotMapping

variable {content : Yaml.Value} (h : ∀ entries, content ≠ .mapping entries)

include h

theorem null_of_not_mapping : ∀ v ∈ textSettings content ++ numberSettings content, v = .null := by
  have hsettings := setting_of_not_mapping h
  simp [textSettings, numberSettings, timeoutSetting, lifetimeSetting, sourceTextKeys, hsettings,
    setting_null, items_null]

theorem readable_of_not_mapping :
    (∀ v ∈ textSettings content, ¬Unwritten v) ∧ (∀ v ∈ numberSettings content, ¬Oversized v) ∧
      ¬LeadsNowhere (setting (setting content "source") "local_path") := by
  have hnull := null_of_not_mapping h
  refine ⟨fun v hv => ?_, fun v hv => ?_, ?_⟩
  · rw [hnull v (List.mem_append_left _ hv)]
    exact id
  · rw [hnull v (List.mem_append_right _ hv)]
    exact id
  · rintro ⟨path, hpath, -⟩
    rw [setting_of_not_mapping h] at hpath
    cases hpath

theorem defined_of_not_mapping : Defined content := by
  intro v hv
  rw [null_of_not_mapping h v (List.mem_append_right _ hv)]
  exact id

theorem refuses_iff_of_not_mapping (e : ConfigError) :
    Refuses content e ↔ e = .noMapping ∧ content ≠ .null := by
  have hread : ∀ isOut, ¬ReadAs isOut .null := by
    rintro isOut ⟨x, hx, -⟩
    cases hx
  have hsettings := setting_of_not_mapping h
  cases e <;> simp [Refuses, timeoutSetting, lifetimeSetting, h, hsettings, setting_null, hread]

end NotMapping

theorem withinBounds_standard (root : Place) : WithinBounds { root } := by
  constructor
  · show (0 : Float) < 10.0
    decide
  · show (0 : Float) ≤ 3600.0
    decide
  · show (0 : Float) ≤ 43200.0
    decide

theorem yields_ofValue (root : Place) (content : Yaml.Value) :
    Yields (ofValue root content)
      ((∀ v ∈ textSettings content, ¬Unwritten v) ∧ (∀ v ∈ numberSettings content, ¬Oversized v) ∧
        ¬LeadsNowhere (setting (setting content "source") "local_path"))
      (Refuses content) fun c => WithinBounds c ↔ Defined content := by
  cases content with
  | null =>
    have hmapping : ∀ entries, Yaml.Value.null ≠ .mapping entries := by
      rintro entries ⟨⟩
    refine Yields.congr (.pure (iff_of_true (withinBounds_standard root)
      (defined_of_not_mapping hmapping))) (iff_of_true trivial (readable_of_not_mapping hmapping)) ?_
    simp [refuses_iff_of_not_mapping hmapping]
  | mapping entries =>
    refine Yields.congr (.bind (yields_sourceOf _ _) fun source hsource =>
      (yields_cacheOf _).bind fun cache hcache => (yields_serviceOf _).bind fun service _ =>
      (yields_templatesOf _ _).bind fun templates _ => .pure ?_) ?_ ?_
    · constructor
      · rintro ⟨htimeout, hlifetime, hfile⟩
        simp only [Defined, numberSettings, List.forall_mem_cons]
        exact ⟨hsource.mp htimeout, hcache.1.mp hlifetime, hcache.2.mp hfile, by simp⟩
      · simp only [Defined, numberSettings, List.forall_mem_cons]
        rintro ⟨htimeout, hlifetime, hfile, -⟩
        exact ⟨hsource.mpr htimeout, hcache.1.mpr hlifetime, hcache.2.mpr hfile⟩
    · simp only [textSettings, numberSettings, timeoutSetting, lifetimeSetting, List.forall_mem_append,
        List.forall_mem_map, List.forall_mem_cons, List.not_mem_nil, false_imp_iff, implies_true,
        and_true]
      constructor
      · rintro ⟨⟨htexts, hnowhere, htimeout⟩, ⟨hlifetime, hfile⟩, hhost, htemplates⟩
        exact ⟨⟨htexts, hhost, htemplates⟩, ⟨htimeout, hlifetime, hfile⟩, hnowhere⟩
      · rintro ⟨⟨htexts, hhost, htemplates⟩, ⟨htimeout, hlifetime, hfile⟩, hnowhere⟩
        exact ⟨⟨htexts, hnowhere, htimeout⟩, ⟨hlifetime, hfile⟩, hhost, htemplates⟩
    · intro e
      cases e <;> simp [Refuses, timeoutSetting, lifetimeSetting]
  | bool | int | float | text | list | other =>
    refine Yields.congr (.rejected .noMapping)
      (iff_of_true trivial (readable_of_not_mapping ?_)) fun e => ?_
    · rintro entries ⟨⟩
    · rw [refuses_iff_of_not_mapping]
      · simp
      · rintro entries ⟨⟩

theorem locate_not_rejected {env : Environment} {path : Text} {e : LoadError}
    (h : env.locate path = .error e) (e' : ConfigError) : e ≠ .rejected e' := by
  rintro rfl
  unfold Environment.locate at h
  split at h
  · cases h
  split at h
  · cases h
  split at h
  · split at h <;> cases h
  · cases h

theorem yields_withEnvironment (c : Config) (env : Environment) :
    Yields (c.withEnvironment env)
      (∀ path, env.lookup? "UIDOCS_LOCAL_PATH" = some path → ∃ place, env.locate path = .ok place)
      (fun _ => False) fun c' => WithinBounds c' ↔ WithinBounds c := by
  have hsame : ∀ token checkout, WithinBounds
      { c with source := { c.source with token := token, checkout := checkout } } ↔ WithinBounds c :=
    fun _ _ => ⟨fun h => ⟨h.1, h.2, h.3⟩, fun h => ⟨h.1, h.2, h.3⟩⟩
  unfold withEnvironment
  dsimp only
  cases hpath : env.lookup? "UIDOCS_LOCAL_PATH" with
  | none => exact Yields.congr (.pure (hsame _ _)) (by simp) fun _ => .rfl
  | some path =>
    dsimp only
    cases hplace : env.locate path with
    | ok place => exact Yields.congr (.pure (hsame _ _)) (by simp [hplace]) fun _ => .rfl
    | error e =>
      exact Yields.congr (.failed (locate_not_rejected hplace)) (by simp [hplace]) fun _ => .rfl

/-- The configuration file for a path has the content, and lies in the directory `root`. Without the
file, and where it is blank, the content is null. -/
def FoundAt (fs : FileSystem) (env : Environment) (path : Text) (root : Place)
    (content : Yaml.Value) : Prop :=
  ∃ place file, env.locate path = .ok place ∧
    file = (if fs.isDirectory place then place ++ [fileName] else place) ∧ root = file.dropLast ∧
    ((∃ octets, fs.file? file = some octets ∧ Text.Utf8.fault? octets = none ∧
        readText (file.getLast?.getD []) (FileSystem.textOf octets) = .ok content) ∨
      (fs.file? file = none ∧ fs.isDirectory file = false ∧ content = .null))

section Load

variable {fs : FileSystem} {env : Environment} {path : Text} {root : Place} {content : Yaml.Value}

theorem load_eq (h : FoundAt fs env path root content) :
    load fs env path = ofValue root content >>= fun c => c.withEnvironment env := by
  obtain ⟨place, file, hplace, hfile, rfl, hcontent⟩ := h
  unfold load
  rw [hplace]
  simp only [Bind.bind, Except.bind, ← hfile]
  obtain ⟨octets, hoctets, hfault, hread⟩ | ⟨hnone, hdirectory, rfl⟩ := hcontent
  · rw [FileSystem.textOf] at hread
    simp only [hoctets, hfault, hread]
  · simp only [hnone, hdirectory]
    rfl

theorem yields_load (h : FoundAt fs env path root content) :
    Yields (load fs env path) (Readable env content) (Refuses content)
      fun c => WithinBounds c ↔ Defined content := by
  rw [load_eq h]
  refine Yields.congr ((yields_ofValue root content).bind fun c hc =>
    (yields_withEnvironment c env).imp fun c' hc' => hc'.trans hc) ?_ fun e => iff_of_eq (or_false _)
  constructor
  · rintro ⟨⟨htexts, hnumbers, hcheckout⟩, henv⟩
    exact ⟨htexts, hnumbers, hcheckout, henv⟩
  · intro hread
    exact ⟨⟨hread.texts, hread.numbers, hread.checkout⟩, hread.environment⟩

/-- Content that is readable is refused, for a reason that it gives, or loaded; what is loaded is
within bounds unless a number is undefined. Content that is not readable is not loaded. -/
theorem load_refused_or_within_bounds (h : FoundAt fs env path root content) :
    (∀ e, load fs env path = .error (.rejected e) → Refuses content e) ∧
      (Readable env content → (∃ e, Refuses content e) →
        ∃ e, load fs env path = .error (.rejected e)) ∧
      (Readable env content → (∀ e, ¬Refuses content e) →
        ∃ c, load fs env path = .ok c ∧ (WithinBounds c ↔ Defined content)) ∧
      (¬Readable env content → ∃ e, load fs env path = .error e) := by
  have hload := yields_load h
  cases hresult : load fs env path with
  | ok c =>
    obtain ⟨hread, hrefuses, hbounds⟩ := hload.of_ok c hresult
    refine ⟨by simp, fun _ ⟨e, he⟩ => absurd he (hrefuses e), fun _ _ => ⟨c, rfl, hbounds⟩, ?_⟩
    exact fun hunread => absurd hread hunread
  | error e =>
    by_cases hrejected : ∃ e', e = .rejected e'
    · obtain ⟨e', rfl⟩ := hrejected
      have hreason := hload.of_rejected e' hresult
      refine ⟨?_, fun _ _ => ⟨e', rfl⟩, fun _ hnone => absurd hreason (hnone e'), fun _ => ⟨_, rfl⟩⟩
      rintro e'' he
      cases he
      exact hreason
    · have hunread := hload.of_failed e hresult (not_exists.mp hrejected)
      refine ⟨?_, fun hread => absurd hread hunread, fun hread => absurd hread hunread,
        fun _ => ⟨e, rfl⟩⟩
      rintro e' he
      cases he
      exact absurd ⟨e', rfl⟩ hrejected

end Load

/-- The text of a file that asks for an undefined number of seconds. -/
def undefinedTimeoutText : Text := "source:\n  request_timeout: .nan".toList

def undefinedTimeout : Yaml.Value :=
  .mapping [("source".toList, .mapping [("request_timeout".toList, .float (0.0 / 0.0))])]

theorem read_undefinedTimeoutText : Yaml.read undefinedTimeoutText = .ok undefinedTimeout := by
  have htokens : Yaml.tokens undefinedTimeoutText = .ok [.blockMappingStart, .key,
      .scalar true "source".toList, .value, .blockMappingStart, .key,
      .scalar true "request_timeout".toList, .value, .scalar true ".nan".toList, .blockEnd,
      .blockEnd] := by rfl
  have hnode : Yaml.Node.ofTokens [.blockMappingStart, .key,
      .scalar true "source".toList, .value, .blockMappingStart, .key,
      .scalar true "request_timeout".toList, .value, .scalar true ".nan".toList, .blockEnd,
      .blockEnd] = .ok (some (.mapping .mapping [(.scalar .text "source".toList,
        .mapping .mapping [(.scalar .text "request_timeout".toList,
          .scalar .float ".nan".toList)])])) := by rfl
  unfold Yaml.read
  rw [htokens]
  simp only [Bind.bind, Except.bind]
  rw [hnode]
  simp only [Yaml.ofNode]
  rfl

/-- The top of the file system without homes and variables. -/
def bareEnvironment : Environment := ⟨[], (none : Option Text), []⟩

theorem readable_undefinedTimeout : Readable bareEnvironment undefinedTimeout where
  texts v hv := by
    have hnull : v = .null := by
      fin_cases hv <;> rfl
    rw [hnull]
    exact id
  numbers v hv := by
    fin_cases hv <;> exact id
  checkout := by
    rintro ⟨path, hpath, -⟩
    cases hpath
  environment path hpath := by cases hpath

theorem not_refuses_undefinedTimeout (e : ConfigError) : ¬Refuses undefinedTimeout e := by
  have hread : ∀ x, ¬ReadAs (· < x) .null := by
    rintro x ⟨y, hy, -⟩
    cases hy
  cases e with
  | timeoutNotPositive =>
    rintro ⟨x, hx, hle⟩
    cases hx
    exact absurd hle (by decide)
  | negativeLifetime key =>
    rintro ⟨k, hk, -, hlifetime⟩
    fin_cases hk <;> exact hread 0 hlifetime
  | noMapping => exact fun h => h.2 _ rfl
  | malformed => exact id

theorem load_undefined_timeout :
    let fs : FileSystem :=
      ⟨fun _ => some (Text.Utf8.encode undefinedTimeoutText), fun _ => none, 1, fun _ => none⟩
    FoundAt fs bareEnvironment "/c".toList [] undefinedTimeout ∧
      ∃ c, load fs bareEnvironment "/c".toList = .ok c ∧ ¬WithinBounds c := by
  intro fs
  have hfound : FoundAt fs bareEnvironment "/c".toList [] undefinedTimeout := by
    refine ⟨["c".toList], ["c".toList], rfl, rfl, rfl, .inl ⟨_, rfl, by rfl, ?_⟩⟩
    have htext : FileSystem.textOf (Text.Utf8.encode undefinedTimeoutText) = undefinedTimeoutText := by
      rfl
    unfold readText
    rw [htext, if_neg (by decide), read_undefinedTimeoutText]
  obtain ⟨-, -, hloaded, -⟩ := load_refused_or_within_bounds hfound
  obtain ⟨c, hc, hbounds⟩ := hloaded readable_undefinedTimeout not_refuses_undefinedTimeout
  refine ⟨hfound, c, hc, fun h => hbounds.mp h _ List.mem_cons_self ?_⟩
  show (0.0 / 0.0 : Float).isNaN = true
  decide

end Config

end ComponentCatalog
