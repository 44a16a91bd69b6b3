import ComponentCatalog.Proofs.Entries
import ComponentCatalog.Proofs.Parts
import ComponentCatalog.Record

/-!
The extractors are total up to the digit limit. The only way to fail is to read a decimal integer,
and every text that is read as one is a part of the source, so that a failure shows a run of too
many digits there.
-/
namespace ComponentCatalog

open Text Code Number

variable {α β : Type} {s t : Text}

/-- The error tells of a run of more decimal digits in the text than may be read. -/
def DigitError.ShownBy (s : Text) (e : DigitError) : Prop :=
  ∃ run, run <:+: s ∧ digitLimit < run.length ∧ (∀ c ∈ run, isDecimal c = true) ∧
    e = .reading run.length

/-- A reading of the text that fails only where the text has too long a run of digits. -/
def FailsWithin (s : Text) (r : Except DigitError α) : Prop := ∀ e, r = .error e → e.ShownBy s

namespace FailsWithin

theorem ok (a : α) : FailsWithin s (.ok a : Except DigitError α) := by
  intro e h
  cases h

/-- A reading of a part of a text is a reading of the text. -/
theorem of_isInfix {r : Except DigitError α} (h : FailsWithin t r) (hpart : t <:+: s) :
    FailsWithin s r := by
  intro e he
  obtain ⟨run, hrun, hshown⟩ := h e he
  exact ⟨run, hrun.trans hpart, hshown⟩

theorem bind {r : Except DigitError α} {f : α → Except DigitError β} (hr : FailsWithin s r)
    (hf : ∀ a, FailsWithin s (f a)) : FailsWithin s (r >>= f) := by
  intro e h
  cases r with
  | error e' =>
    cases h
    exact hr _ rfl
  | ok a => exact hf a e h

theorem map {r : Except DigitError α} (hr : FailsWithin s r) (f : α → β) :
    FailsWithin s (r.map f) := by
  intro e h
  cases r with
  | error e' =>
    cases h
    exact hr _ rfl
  | ok a => cases h

theorem mapM {f : α → Except DigitError β} {items : List α}
    (h : ∀ a ∈ items, FailsWithin s (f a)) : FailsWithin s (items.mapM f) := by
  induction items with
  | nil => exact ok _
  | cons a items ih =>
    rw [List.mapM_cons]
    exact (h a List.mem_cons_self).bind fun b =>
      (ih fun a ha => h a (.tail _ ha)).bind fun bs => ok _

theorem foldlM {f : β → α → Except DigitError β} {items : List α}
    (h : ∀ a ∈ items, ∀ b, FailsWithin s (f b a)) (b : β) : FailsWithin s (items.foldlM f b) := by
  induction items generalizing b with
  | nil => exact ok _
  | cons a items ih =>
    rw [List.foldlM_cons]
    exact (h a List.mem_cons_self b).bind (ih fun a ha => h a (.tail _ ha))

end FailsWithin

theorem length_leadingDigits (s : Text) :
    ∃ run, s = run ++ (leadingDigits s).2 ∧ run.length = (leadingDigits s).1.length ∧
      ∀ c ∈ run, isDecimal c = true := by
  induction s with
  | nil => exact ⟨[], rfl, rfl, by simp⟩
  | cons c s ih =>
    rw [leadingDigits]
    split
    · exact ⟨[], rfl, rfl, by simp⟩
    · next d hd =>
      obtain ⟨run, hsplit, hlength, hrun⟩ := ih
      refine ⟨c :: run, congrArg (c :: ·) hsplit, congrArg (· + 1) hlength, ?_⟩
      rintro c' (_ | ⟨_, hc'⟩)
      · simp [isDecimal, hd]
      · exact hrun c' hc'

theorem signed_suffix (s : Text) : (signed s).2 <:+ s := by
  unfold signed
  split
  · exact List.suffix_cons _ _
  · exact List.suffix_cons _ _
  · exact List.suffix_rfl

theorem digits_of_whole {n : Numeral} (h : numeral? s = some n) (hwhole : n.isWhole = true) :
    n.digits = (leadingDigits (signed s).2).1 := by
  rw [numeral?] at h
  dsimp only at h
  simp only [Numeral.isWhole, Bool.and_eq_true, Bool.not_eq_true'] at hwhole
  split at h
  · -- A numeral with a point is not whole.
    split at h
    · cases h
    · split at h
      · cases h
        cases hwhole.1
      · obtain ⟨e, -, rfl⟩ := Option.map_eq_some_iff.mp h
        cases hwhole.1
  · split at h
    · cases h
    · split at h
      · cases h
        exact List.append_nil _
      · obtain ⟨e, -, rfl⟩ := Option.map_eq_some_iff.mp h
        exact List.append_nil _

/-- A whole numeral is read unless its digits, which stand together in the text, are too many. -/
theorem failsWithin_toInt {n : Numeral} (h : numeral? s = some n) (hwhole : n.isWhole = true) :
    FailsWithin s n.toInt := by
  obtain ⟨run, hsplit, hlength, hrun⟩ := length_leadingDigits (signed s).2
  have hpart : run <:+: s :=
    (hsplit ▸ (List.prefix_append run _).isInfix).trans (signed_suffix s).isInfix
  intro e he
  rw [Numeral.toInt, digits_of_whole h hwhole, ← hlength] at he
  split at he
  · next hlimit =>
    cases he
    exact ⟨run, hpart, hlimit, hrun, rfl⟩
  · cases he

theorem filterMap_digitValue? (h : ∀ c ∈ s, isDecimal c = true) :
    (s.filterMap digitValue?).length = s.length := by
  induction s with
  | nil => rfl
  | cons c s ih =>
    obtain ⟨d, hd⟩ := Option.isSome_iff_exists.mp (h c List.mem_cons_self)
    rw [List.filterMap_cons_some hd, List.length_cons, List.length_cons,
      ih fun c hc => h c (.tail _ hc)]

theorem signed_of_isDecimal (h : ∀ c ∈ s, isDecimal c = true) : signed s = (false, s) := by
  unfold signed
  split
  · exact absurd (h '-' List.mem_cons_self) (by decide)
  · exact absurd (h '+' List.mem_cons_self) (by decide)
  · rfl

theorem failsWithin_readSignedDigits (h : ∀ c ∈ s, isDecimal c = true) :
    FailsWithin s (readSignedDigits s) := by
  intro e he
  rw [readSignedDigits, signed_of_isDecimal h] at he
  dsimp only at he
  rw [filterMap_digitValue? h] at he
  split at he
  · next hlimit =>
    cases he
    exact ⟨s, List.infix_rfl, hlimit, h, rfl⟩
  · cases he

theorem failsWithin_coerceNumber (s : Text) : FailsWithin s (coerceNumber s) := by
  have hbody : (if s.getLast? = some '\n' then s.dropLast else s) <:+: s := by
    split
    · exact (List.dropLast_prefix s).isInfix
    · exact List.infix_rfl
  rw [coerceNumber]
  split
  · next n hn =>
    split
    · next hwhole => exact ((failsWithin_toInt hn hwhole).of_isInfix hbody).map _
    · dsimp only
      split <;> exact .ok _
  · exact .ok _

theorem failsWithin_coerceValue (raw : Text) : FailsWithin raw (coerceValue raw) := by
  rw [coerceValue]
  split
  · exact .ok _
  · split
    · exact .ok _
    · split
      · exact .ok _
      · exact ((failsWithin_coerceNumber _).of_isInfix (strip_isInfix raw)).map _

theorem failsWithin_parseObjectLiteral (s : Text) : FailsWithin s (parseObjectLiteral s) := by
  refine FailsWithin.bind (.mapM fun entry hentry => ?_) fun pairs => .ok _
  exact ((failsWithin_coerceValue entry.2).of_isInfix (entryShape_isInfix entry hentry)).bind
    fun value => .ok _

namespace Story

theorem defaultExportMarker_trails : defaultExportMarker.Trails := by
  intro at_ rest h
  simp only [defaultExportMarker, Option.bind_eq_bind, Option.bind_eq_some_iff] at h
  obtain ⟨afterExport, hexport, afterBlanks, hblanks, afterDefault, hdefault, heq⟩ := h
  cases heq
  exact (((stripStart_suffix _).trans (after?_suffix hdefault)).trans
    (blanks?_suffix hblanks)).trans (after?_suffix hexport)

theorem variableMarker_trails (name : Text) : (variableMarker name).Trails := by
  intro at_ rest h
  simp only [variableMarker, Option.bind_eq_bind, Option.bind_eq_some_iff, Prod.exists] at h
  obtain ⟨afterKeyword, hkeyword, c, afterBlank, hblank, afterVariable, hvariable, hequals⟩ := h
  obtain ⟨u, tail, -, rfl, hname⟩ := exists_of_afterMost hvariable
  have hrest : rest <:+ tail :=
    ((after?_suffix hequals).trans (List.dropWhile_suffix _)).trans (afterName?_suffix hname)
  exact ((hrest.trans (List.suffix_append u tail)).trans (one?_suffix hblank)).trans
    (afterAny?_suffix hkeyword)

theorem defaultExportBody?_isInfix {code body : Text} (h : defaultExportBody? code = some body) :
    body <:+: code := by
  rcases Option.or_eq_some_iff.mp h with h | ⟨-, h⟩
  · exact defaultExportMarker_trails.blockAfter? h
  · obtain ⟨name, -, hbody⟩ := Option.bind_eq_some_iff.mp h
    exact (variableMarker_trails name).blockAfter? hbody

theorem failsWithin_entriesUnder (key code : Text) : FailsWithin code (entriesUnder key code) := by
  rw [entriesUnder]
  split
  · exact .ok _
  · next block hblock =>
    have hpart := (keyed_trails key).blockAfter? hblock
    exact ((failsWithin_parseObjectLiteral block).of_isInfix hpart).map _

theorem failsWithin_settings (code component : Text) :
    FailsWithin code (settings code component) := by
  rw [settings]
  split
  · exact .ok _
  · next body hbody =>
    have hpart := defaultExportBody?_isInfix hbody
    exact ((failsWithin_entriesUnder _ body).of_isInfix hpart).bind fun argTypes =>
      ((failsWithin_entriesUnder _ body).of_isInfix hpart).bind fun parameters => .ok _

theorem exportedConstant?_suffix {s name rest : Text}
    (h : exportedConstant? s = some (name, rest)) : rest <:+ s := by
  simp only [exportedConstant?, Option.bind_eq_bind, Option.bind_eq_some_iff] at h
  obtain ⟨afterExport, hexport, afterBlanks, hblanks, afterConst, hconst, nameOn, hnameOn, hname⟩ := h
  exact ((((word?_suffix hname).trans (blanks?_suffix hnameOn)).trans (after?_suffix hconst)).trans
    (blanks?_suffix hblanks)).trans (after?_suffix hexport)

/-- The initial value of a typed constant is a part of the source. -/
theorem typedShape_isInfix {code : Text} :
    ∀ site ∈ hits typedShape code, ∀ expression, site.expression = some expression →
      expression <:+: code := by
  refine forall_mem_hits fun at_ site length hat h => ?_
  simp only [typedShape, Option.bind_eq_bind, Option.bind_eq_some_iff, Prod.exists] at h
  obtain ⟨name, afterName, hname, afterColon, hcolon, afterType, htype, afterEquals, hequals,
    expression, rest, hexpression, heq⟩ := h
  cases heq
  rintro _ ⟨⟩
  obtain ⟨type, -, htype⟩ := List.exists_of_findSome?_eq_some htype
  obtain ⟨blanks, tail, -, rfl, hrun⟩ := exists_of_afterMost hexpression
  have htail : tail <:+ afterType := by
    exact ((List.suffix_append blanks tail).trans (after?_suffix hequals)).trans
      (List.dropWhile_suffix _)
  refine (run?_isInfix hrun).trans (List.IsSuffix.isInfix ?_)
  exact (((((htail.trans (afterName?_suffix htype)).trans (stripStart_suffix _)).trans
    (after?_suffix hcolon)).trans (stripStart_suffix _)).trans
    (exportedConstant?_suffix hname)).trans hat

/-- No hit of the plain shape has an initial value. -/
theorem plainShape_expression {code : Text} :
    ∀ site ∈ hits plainShape code, site.expression = none := by
  refine forall_mem_hits fun at_ site length hat h => ?_
  simp only [plainShape, Option.bind_eq_bind, Option.bind_eq_some_iff, Prod.exists] at h
  obtain ⟨name, afterName, -, afterEquals, -, afterOpen, -, afterClose, -, afterArrow, -, heq⟩ := h
  cases heq
  rfl

theorem argsBlock?_isInfix {expression block : Text} (h : argsBlock? expression = some block) :
    block <:+: expression := by
  rw [argsBlock?] at h
  split at h
  · next block' hblock =>
    cases h
    exact (keyed_trails _).blockAfter? hblock
  · exact (block?_isInfix h).trans (List.dropWhile_suffix _).isInfix

theorem failsWithin_ofSite {code : Text} {site : Site}
    (h : ∀ expression, site.expression = some expression → expression <:+: code) :
    FailsWithin code (ofSite code site) := by
  rw [ofSite]
  split
  · exact .ok _
  · next block hblock =>
    obtain ⟨expression, hexpression, hargs⟩ := Option.bind_eq_some_iff.mp hblock
    have hpart := (argsBlock?_isInfix hargs).trans (h expression hexpression)
    exact (((failsWithin_parseObjectLiteral block).of_isInfix hpart).map _).bind fun args => .ok _

theorem assignmentShape_suffix {code : Text} :
    ∀ assignment ∈ hits assignmentShape code, assignment.2 <:+ code := by
  refine forall_mem_hits fun at_ assignment length hat h => ?_
  simp only [assignmentShape, Option.bind_eq_bind, Option.bind_eq_some_iff, Prod.exists] at h
  obtain ⟨-, -, name, afterName, hname, afterArgs, hargs, afterEquals, hequals, heq⟩ := h
  cases heq
  exact (((((stripStart_suffix _).trans (after?_suffix hequals)).trans (stripStart_suffix _)).trans
    (after?_suffix hargs)).trans (word?_suffix hname)).trans hat

theorem failsWithin_assign {code : Text} {assignment : Text × Text} (h : assignment.2 <:+ code)
    (stories : List Story) : FailsWithin code (assign stories assignment) := by
  rw [assign]
  split
  · split
    · exact .ok _
    · next block hblock =>
      have hpart := (block?_isInfix hblock).trans h.isInfix
      exact ((failsWithin_parseObjectLiteral block).of_isInfix hpart).bind fun entries => .ok _
  · exact .ok _

theorem failsWithin_listing (code : Text) : FailsWithin code (listing code) := by
  rw [listing]
  refine FailsWithin.bind (.mapM fun site hsite => ?_) fun sites =>
    .foldlM (fun assignment hassignment => failsWithin_assign
      (assignmentShape_suffix assignment hassignment)) _
  refine FailsWithin.bind (failsWithin_ofSite fun expression hexpression => ?_) fun story => .ok _
  rcases List.mem_append.mp hsite with htyped | hplain
  · exact typedShape_isInfix site htyped expression hexpression
  · rw [plainShape_expression site (List.mem_filter.mp hplain).1] at hexpression
    cases hexpression

theorem failsWithin_fileOf (component code : Text) : FailsWithin code (fileOf component code) :=
  (failsWithin_settings code component).bind fun _ =>
    (failsWithin_listing code).bind fun _ => .ok _

end Story

namespace Theme

/-- The value that a form reads is a part of the text. -/
def ValueForm.Cuts (form : ValueForm) : Prop :=
  ∀ s value rest, form s = some (value, rest) → value <:+: s

theorem quotedValue_cuts : ValueForm.Cuts quotedValue := by
  intro s value rest h
  simp only [quotedValue, Option.bind_eq_bind, Option.bind_eq_some_iff, Prod.exists] at h
  obtain ⟨mark, afterMark, hmark, value', afterValue, hvalue, closing, rest', -, heq⟩ := h
  cases heq
  exact (run?_isInfix hvalue).trans (one?_suffix hmark).isInfix

theorem integerValue_cuts : ValueForm.Cuts integerValue := fun _ _ _ h => run?_isInfix h

theorem decimalValue_cuts : ValueForm.Cuts decimalValue := fun _ _ _ h => run?_isInfix h

theorem bareValue_cuts : ValueForm.Cuts bareValue := by
  intro s value rest h
  simp only [bareValue, Option.bind_eq_bind, Option.bind_eq_some_iff, Prod.exists] at h
  obtain ⟨value', afterValue, hvalue, heq⟩ := h
  cases heq
  refine (run?_isInfix hvalue).trans (List.IsSuffix.isInfix ?_)
  cases hmark : one? isStringMark s with
  | none => exact List.suffix_rfl
  | some marked => exact one?_suffix hmark

variable {form : ValueForm}

theorem flatMatches_isInfix (hform : form.Cuts) {lead : Text} {words : List Text} :
    ∀ found ∈ flatMatches lead form words s, found.2 <:+: s := by
  have hhits : ∀ found? ∈ hits (flatShape lead form words) s, ∀ found, found? = some found →
      found.2 <:+: s := by
    refine forall_mem_hits fun at_ found? length hat h => ?_
    simp only [flatShape, Option.bind_eq_bind, Option.bind_eq_some_iff, Prod.exists] at h
    obtain ⟨afterLead, hlead, between, afterColon, hcut, heq⟩ := h
    rintro ⟨label, value⟩ rfl
    split at heq
    · cases heq
    · split at heq
      · cases heq
      · next value' rest hvalue =>
        cases heq
        refine (hform _ _ _ hvalue).trans (List.IsSuffix.isInfix ?_)
        exact (((stripStart_suffix _).trans (cut?_suffix hcut)).trans (after?_suffix hlead)).trans hat
  intro found hfound
  obtain ⟨found?, hmem, hsome⟩ := List.mem_filterMap.mp hfound
  exact hhits found? hmem found hsome

theorem blockMarker_trails (names : List Text) (signs : List Char) :
    (blockMarker names signs).Trails := by
  intro at_ rest h
  simp only [blockMarker, Option.bind_eq_bind, Option.bind_eq_some_iff, Prod.exists] at h
  obtain ⟨-, -, afterName, hname, sign, rest', hsign, heq⟩ := h
  cases heq
  exact ((one?_suffix hsign).trans (stripStart_suffix _)).trans (afterAny?_suffix hname)

theorem blockEntryShape_isInfix (hform : form.Cuts) {tight : Bool} :
    ∀ entry ∈ hits (blockEntryShape tight form) s, entry.2 <:+: s := by
  refine forall_mem_hits fun at_ entry length hat h => ?_
  simp only [blockEntryShape, Option.bind_eq_bind, Option.bind_eq_some_iff, Prod.exists] at h
  obtain ⟨-, -, key, afterKey, hkey, afterColon, hcolon, value, rest, hvalue, heq⟩ := h
  cases heq
  have hstart : (if tight then afterKey else stripStart afterKey) <:+ afterKey := by
    split
    · exact List.suffix_rfl
    · exact stripStart_suffix _
  refine (hform _ _ _ hvalue).trans (List.IsSuffix.isInfix ?_)
  exact ((((stripStart_suffix _).trans (after?_suffix hcolon)).trans hstart).trans
    (word?_suffix hkey)).trans hat

theorem blockEntries_isInfix (hform : form.Cuts) {names : List Text} :
    ∀ entry ∈ blockEntries names form s, entry.2 <:+: s := by
  intro entry h
  rw [blockEntries] at h
  split at h
  · cases h
  · next body more hblocks =>
    have hbody := (blockMarker_trails names [':', '=']).blocksAfter body
      (hblocks ▸ List.mem_cons_self)
    exact (blockEntryShape_isInfix hform entry h).trans hbody

/-- A conversion of a text fails only where the text has too many digits. -/
def Conversion.WithinLimit (convert : Conversion α) : Prop := ∀ raw, FailsWithin raw (convert raw)

theorem asText_withinLimit : Conversion.WithinLimit asText := fun _ => .ok _

theorem asFloat_withinLimit : Conversion.WithinLimit asFloat := fun _ => .ok _

theorem asInt_withinLimit : Conversion.WithinLimit asInt := by
  intro raw
  rw [asInt]
  split
  · next hdigits =>
    exact (failsWithin_readSignedDigits (List.all_eq_true.mp hdigits.2)).map _
  · exact .ok _

variable {ι : Type} [TokenFamily ι] [DecidableEq ι] {convert : Conversion α}

omit [TokenFamily ι] in
/-- A leaf is set to what a part of the text converts to, if it does. -/
theorem Conversion.WithinLimit.set (hconvert : convert.WithinLimit) {raw : Text}
    (hraw : raw <:+: s) (scale : Scale ι α) (leaf : ι) :
    FailsWithin s (do
      match ← convert raw with
      | none => return scale
      | some value => return scale.set leaf value) := by
  refine ((hconvert raw).of_isInfix hraw).bind fun value? => ?_
  cases value? <;> exact .ok _

theorem failsWithin_collect (hform : form.Cuts) (hconvert : convert.WithinLimit)
    (words : ι → List Text) (lead s : Text) :
    FailsWithin s (collect words lead form convert s) := by
  rw [collect]
  refine FailsWithin.bind (.foldlM (fun leaf _ scale => ?_) _) fun scale => .ok _
  dsimp only
  split
  · exact .ok _
  · next raw hraw =>
    refine hconvert.set ?_ scale leaf
    rcases Option.or_eq_some_iff.mp hraw with hflat | ⟨-, hblock⟩
    · obtain ⟨found, hfound, rfl⟩ := Option.map_eq_some_iff.mp hflat
      exact flatMatches_isInfix hform found (List.mem_of_head? hfound)
    · exact blockEntries_isInfix hform _ (Entries.mem_of_get? hblock)

theorem failsWithin_classify (hform : form.Cuts) (hconvert : convert.WithinLimit)
    (marks : List (ι × List Text)) (lead : Text) (blockNames : List Text) (s : Text) :
    FailsWithin s (classify marks lead blockNames form convert s) := by
  rw [classify]
  refine FailsWithin.bind (.foldlM (fun found hfound scale => ?_) _) fun flat =>
    FailsWithin.bind (.foldlM (fun mark _ scale => ?_) _) fun scale => .ok _
  · obtain ⟨label, raw⟩ := found
    dsimp only
    split
    · exact .ok _
    · exact hconvert.set (flatMatches_isInfix hform _ hfound) scale _
  · obtain ⟨leaf, names⟩ := mark
    dsimp only
    split
    · exact .ok _
    · split
      · exact .ok _
      · next raw hraw =>
        obtain ⟨key, -, hkey⟩ := List.exists_of_findSome?_eq_some hraw
        exact hconvert.set (blockEntries_isInfix hform _ (Entries.mem_of_get? hkey)) scale leaf

theorem failsWithin_colorsIn (s : Text) : FailsWithin s (colorsIn s) := by
  have hcollect {κ : Type} [TokenFamily κ] [DecidableEq κ] (words : κ → List Text) (lead : Text) :
      FailsWithin s (collect words lead quotedValue asText s) :=
    failsWithin_collect quotedValue_cuts asText_withinLimit words lead s
  refine FailsWithin.bind (.foldlM (fun family _ families => ?_) _) fun families =>
    (hcollect _ _).bind fun _ => (hcollect _ _).bind fun _ => (hcollect _ _).bind fun _ =>
      (hcollect _ _).bind fun _ => .ok _
  refine (hcollect _ _).bind fun scale? => ?_
  cases scale? <;> exact .ok _

theorem failsWithin_typographyIn (s : Text) : FailsWithin s (typographyIn s) :=
  (failsWithin_collect quotedValue_cuts asText_withinLimit _ _ s).bind fun _ =>
    (failsWithin_collect integerValue_cuts asInt_withinLimit _ _ s).bind fun _ =>
      (failsWithin_collect decimalValue_cuts asFloat_withinLimit _ _ s).bind fun _ =>
        (failsWithin_collect quotedValue_cuts asText_withinLimit _ _ s).bind fun _ => .ok _

theorem failsWithin_add {entry : Text × Text} (h : entry.2 <:+: s) (spacing : Spacing) :
    FailsWithin s (spacing.add entry) := by
  obtain ⟨key, raw⟩ := entry
  rw [Spacing.add]
  split
  · exact .ok _
  · split
    · refine ((asInt_withinLimit raw).of_isInfix h).bind fun n? => ?_
      cases n? <;> exact .ok _
    · exact .ok _

theorem gridSizeShape_isInfix :
    ∀ digits ∈ hits gridSizeShape s, digits <:+: s ∧ ∀ c ∈ digits, isDecimal c = true := by
  refine forall_mem_hits fun at_ digits length hat h => ?_
  simp only [gridSizeShape, Option.bind_eq_bind, Option.bind_eq_some_iff, Prod.exists] at h
  obtain ⟨afterKey, hkey, afterColon, hcolon, digits', rest, hdigits, heq⟩ := h
  cases heq
  refine ⟨(run?_isInfix hdigits).trans (List.IsSuffix.isInfix ?_), (run?_eq_some hdigits).2⟩
  exact ((((stripStart_suffix _).trans (after?_suffix hcolon)).trans (stripStart_suffix _)).trans
    (after?_suffix hkey)).trans hat

theorem failsWithin_spacingIn (s : Text) : FailsWithin s (spacingIn s) := by
  refine FailsWithin.bind (.foldlM (fun entry hentry spacing => ?_) _) fun inBlocks =>
    FailsWithin.bind (.foldlM (fun digits hdigits spacing => ?_) _) fun found => .ok _
  · obtain ⟨body, hbody, hmem⟩ := List.mem_flatMap.mp hentry
    have hpart : body <:+: s := by
      rcases List.mem_append.mp hbody with hspacing | hspace
      · exact (keyed_trails _).blocksAfter body hspacing
      · exact (keyed_trails _).blocksAfter body hspace
    exact failsWithin_add ((blockEntryShape_isInfix bareValue_cuts entry hmem).trans hpart) spacing
  · obtain ⟨hpart, hdecimal⟩ := gridSizeShape_isInfix digits hdigits
    exact ((failsWithin_readSignedDigits hdecimal).of_isInfix hpart).bind fun _ => .ok _

/-- A theme source is read unless it holds too long a run of digits. -/
theorem failsWithin_ofSource (s : Text) : FailsWithin s (ofSource s) :=
  (failsWithin_colorsIn s).bind fun _ => (failsWithin_typographyIn s).bind fun _ =>
    (failsWithin_spacingIn s).bind fun _ =>
      (failsWithin_classify quotedValue_cuts asText_withinLimit _ _ _ s).bind fun _ =>
        (failsWithin_classify bareValue_cuts asText_withinLimit _ _ _ s).bind fun _ =>
          (failsWithin_classify integerValue_cuts asInt_withinLimit _ _ _ s).bind fun _ =>
            (failsWithin_classify integerValue_cuts asInt_withinLimit _ _ _ s).bind fun _ => .ok _

theorem failsWithin_factsOf (s : Text) : FailsWithin s (factsOf s) :=
  (failsWithin_ofSource s).bind fun _ => .ok _

end Theme

/-- The text holds a run of more decimal digits than may be read, and the reading fails on account
of it, with its length. -/
def ExceedsLimit (s : Text) (r : Except DigitError α) : Prop :=
  ∃ run, run <:+: s ∧ 4300 < run.length ∧ (∀ c ∈ run, isDecimal c = true) ∧
    r = .error (.reading run.length)

/-- No run of decimal digits in the text is longer than may be read. -/
def WithinLimit (s : Text) : Prop :=
  ∀ run, run <:+: s → (∀ c ∈ run, isDecimal c = true) → run.length ≤ 4300

theorem WithinLimit.of_isInfix (h : WithinLimit s) (hpart : t <:+: s) : WithinLimit t :=
  fun run hrun => h run (hrun.trans hpart)

theorem WithinLimit.of_length_le (h : s.length ≤ 4300) : WithinLimit s :=
  fun _ hrun _ => hrun.length_le.trans h

/-- Where no run of digits is too long, nothing fails. -/
theorem FailsWithin.exists_ok {r : Except DigitError α} (h : FailsWithin s r) (hs : WithinLimit s) :
    ∃ a, r = .ok a := by
  cases r with
  | ok a => exact ⟨a, rfl⟩
  | error e =>
    obtain ⟨run, hpart, hlimit, hrun, -⟩ := h e rfl
    exact absurd (hs run hpart hrun) (Nat.not_le.mpr hlimit)

theorem FailsWithin.total {r : Except DigitError α} (h : FailsWithin s r) :
    (∃ a, r = .ok a) ∨ ExceedsLimit s r := by
  cases r with
  | ok a => exact .inl ⟨a, rfl⟩
  | error e =>
    obtain ⟨run, hpart, hlimit, hrun, rfl⟩ := h e rfl
    exact .inr ⟨run, hpart, hlimit, hrun, rfl⟩

/-- Every text is extracted into the record of its kind, whatever its name; only stories and themes
may fail instead, and only where the text has a run of too many decimal digits. -/
theorem extract_total_within_limit (name text : Text) :
    (∃ c, extract .component name text = .ok (.component c)) ∧
    (∃ d, extract .docs name text = .ok (.document d)) ∧
    ((∃ f, extract .stories name text = .ok (.stories f)) ∨
      ExceedsLimit text (extract .stories name text)) ∧
    ((∃ t, extract .theme name text = .ok (.theme t)) ∨
      ExceedsLimit text (extract .theme name text)) ∧
    ((∃ f, Theme.factsOf text = .ok f) ∨ ExceedsLimit text (Theme.factsOf text)) := by
  refine ⟨⟨_, rfl⟩, ⟨_, rfl⟩, ?_, ?_, (Theme.failsWithin_factsOf text).total⟩
  · rcases (Story.failsWithin_fileOf name text).total with ⟨f, hf⟩ | ⟨run, hpart, hlimit, hrun, hf⟩
    · exact .inl ⟨f, by rw [extract, hf]; rfl⟩
    · exact .inr ⟨run, hpart, hlimit, hrun, by rw [extract, hf]; rfl⟩
  · rcases (Theme.failsWithin_ofSource text).total with ⟨t, ht⟩ | ⟨run, hpart, hlimit, hrun, ht⟩
    · exact .inl ⟨t, by rw [extract, ht]; rfl⟩
    · exact .inr ⟨run, hpart, hlimit, hrun, by rw [extract, ht]; rfl⟩

end ComponentCatalog
