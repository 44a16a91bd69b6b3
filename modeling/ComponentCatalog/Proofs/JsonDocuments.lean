import ComponentCatalog.Json.Writer
import ComponentCatalog.Present.Presenter
import ComponentCatalog.Proofs.NumberText

/-!
Which values are written as documents of the grammar: all but those with an integer of too many
digits, which are not written, and those with a number that is not finite, which is written as a
word that the grammar does not have.
-/
namespace ComponentCatalog

namespace Json

open Grammar Number

mutual

/-- The values without parts that a value consists of. -/
def leaves : Json → List Json
  | .list items => leavesOfItems items
  | .object members => leavesOfMembers members
  | value => [value]

def leavesOfItems : List Json → List Json
  | [] => []
  | item :: items => leaves item ++ leavesOfItems items

def leavesOfMembers : List (Text × Json) → List Json
  | [] => []
  | (_, value) :: members => leaves value ++ leavesOfMembers members

end

/-- No number among the values is infinite or undefined. -/
def AllFinite (values : List Json) : Prop := ∀ x, .float x ∈ values → x.isFinite = true

/-- No integer among the values has more digits than are written. -/
def NoneLong (values : List Json) : Prop := ∀ n, .int n ∈ values → ¬IsLong n

theorem allFinite_append {values values' : List Json} :
    AllFinite (values ++ values') ↔ AllFinite values ∧ AllFinite values' := by
  simp only [AllFinite, List.mem_append, or_imp, forall_and]

theorem noneLong_append {values values' : List Json} :
    NoneLong (values ++ values') ↔ NoneLong values ∧ NoneLong values' := by
  simp only [NoneLong, List.mem_append, or_imp, forall_and]

/-- Two steps whose results are put together succeed if both do. -/
theorem bind_bind_eq_ok_iff {ε α β γ : Type} {r : Except ε α} {r' : Except ε β} {f : α → β → γ}
    {c : γ} : (r >>= fun a => r' >>= fun b => pure (f a b)) = .ok c ↔
      ∃ a, r = .ok a ∧ ∃ b, r' = .ok b ∧ f a b = c := by
  cases r with
  | error e => simp [Bind.bind, Except.bind]
  | ok a => cases r' <;> simp [Bind.bind, Except.bind, Pure.pure, Except.pure]

theorem exists_bind_bind_iff {ε α β γ : Type} {r : Except ε α} {r' : Except ε β} {f : α → β → γ} :
    (∃ c, (r >>= fun a => r' >>= fun b => pure (f a b)) = .ok c) ↔
      (∃ a, r = .ok a) ∧ ∃ b, r' = .ok b := by
  simp only [bind_bind_eq_ok_iff]
  constructor
  · rintro ⟨c, a, ha, b, hb, -⟩
    exact ⟨⟨a, ha⟩, b, hb⟩
  · rintro ⟨⟨a, ha⟩, b, hb⟩
    exact ⟨f a b, a, ha, b, hb, rfl⟩

mutual

theorem exists_writeAt_iff {style : Style} (hstyle : style.digitLimited ∧ ¬style.finiteOnly)
    (depth : Nat) : ∀ v : Json, (∃ t, writeAt style depth v = .ok t) ↔ NoneLong v.leaves
  | .null => iff_of_true ⟨_, rfl⟩ (by simp [leaves, NoneLong])
  | .bool true => iff_of_true ⟨_, rfl⟩ (by simp [leaves, NoneLong])
  | .bool false => iff_of_true ⟨_, rfl⟩ (by simp [leaves, NoneLong])
  | .int n => by
    have hlong : (style.digitLimited = true ∧ Nat.pow 10 digitLimit ≤ n.natAbs) ↔ IsLong n := by
      rw [isLong_iff, and_iff_right hstyle.1]
    rw [writeAt]
    by_cases h : IsLong n
    · rw [if_pos (hlong.mpr h)]
      simp [leaves, NoneLong, h]
    · rw [if_neg (mt hlong.mp h)]
      simp [leaves, NoneLong, h]
  | .float x => iff_of_true ⟨_, if_neg (by simp [hstyle.2])⟩ (by simp [leaves, NoneLong])
  | .text s => iff_of_true ⟨_, rfl⟩ (by simp [leaves, NoneLong])
  | .list [] => iff_of_true ⟨_, rfl⟩ (by simp [leaves, leavesOfItems, NoneLong])
  | .list (item :: items) => by
    rw [writeAt, exists_bind_bind_iff, exists_writeAt_iff hstyle (depth + 1) item,
      exists_writeItems_iff hstyle (depth + 1) items, leaves, leavesOfItems, noneLong_append]
  | .object [] => iff_of_true ⟨_, rfl⟩ (by simp [leaves, leavesOfMembers, NoneLong])
  | .object ((name, value) :: members) => by
    rw [writeAt, exists_bind_bind_iff, exists_writeAt_iff hstyle (depth + 1) value,
      exists_writeMembers_iff hstyle (depth + 1) members, leaves, leavesOfMembers, noneLong_append]

theorem exists_writeItems_iff {style : Style} (hstyle : style.digitLimited ∧ ¬style.finiteOnly)
    (depth : Nat) : ∀ items : List Json,
    (∃ t, writeItems style depth items = .ok t) ↔ NoneLong (leavesOfItems items)
  | [] => iff_of_true ⟨_, rfl⟩ (by simp [leavesOfItems, NoneLong])
  | item :: items => by
    rw [writeItems, exists_bind_bind_iff, exists_writeAt_iff hstyle depth item,
      exists_writeItems_iff hstyle depth items, leavesOfItems, noneLong_append]

theorem exists_writeMembers_iff {style : Style} (hstyle : style.digitLimited ∧ ¬style.finiteOnly)
    (depth : Nat) : ∀ members : List (Text × Json),
    (∃ t, writeMembers style depth members = .ok t) ↔ NoneLong (leavesOfMembers members)
  | [] => iff_of_true ⟨_, rfl⟩ (by simp [leavesOfMembers, NoneLong])
  | (name, value) :: members => by
    rw [writeMembers, exists_bind_bind_iff, exists_writeAt_iff hstyle depth value,
      exists_writeMembers_iff hstyle depth members, leavesOfMembers, noneLong_append]

end

theorem isHex_hexDigit (n : Nat) : IsHex (hexDigit n) := by
  have hall : ∀ k < 16, (hexValue? (Nat.digitChar k)).isSome = true := by decide
  exact hall (n % 16) (Nat.mod_lt n (by decide))

theorem isChars_unitEscape (n : Nat) : IsChars (unitEscape n) :=
  .unit (isHex_hexDigit _) (isHex_hexDigit _) (isHex_hexDigit _) (isHex_hexDigit _) .nil

theorem isChars_codeEscape (n : Nat) : IsChars (codeEscape n) := by
  unfold codeEscape
  split
  · exact isChars_unitEscape n
  · exact (isChars_unitEscape _).append (isChars_unitEscape _)

theorem isChars_ite {p : Prop} [Decidable p] {t u : Text} (ht : IsChars t) (hu : ¬p → IsChars u) :
    IsChars (if p then t else u) := by
  split
  next => exact ht
  next h => exact hu h

theorem isChars_escapeChar (asciiOnly : Bool) (c : Char) : IsChars (escapeChar asciiOnly c) := by
  have hescape {e : Char} (he : e ∈ ['"', '\\', '/', 'b', 'f', 'n', 'r', 't']) :
      IsChars ['\\', e] := .escape he .nil
  unfold escapeChar
  refine isChars_ite (hescape (by decide)) fun hquote => ?_
  refine isChars_ite (hescape (by decide)) fun hslash => ?_
  refine isChars_ite (hescape (by decide)) fun _ => ?_
  refine isChars_ite (hescape (by decide)) fun _ => ?_
  refine isChars_ite (hescape (by decide)) fun _ => ?_
  refine isChars_ite (hescape (by decide)) fun _ => ?_
  refine isChars_ite (hescape (by decide)) fun _ => ?_
  refine isChars_ite (isChars_unitEscape _) fun hlow => ?_
  refine isChars_ite (isChars_codeEscape _) fun _ => ?_
  exact .plain (Nat.le_of_not_lt hlow) hquote hslash .nil

theorem isString_quoted (asciiOnly : Bool) (s : Text) : IsString (quoted asciiOnly s) := by
  refine ⟨s.flatMap (escapeChar asciiOnly), ?_, rfl⟩
  induction s with
  | nil => exact .nil
  | cons c s ih => exact (isChars_escapeChar asciiOnly c).append ih

theorem isSpace_lineBreak (style : Style) (depth : Nat) : IsSpace (lineBreak style depth) := by
  unfold lineBreak
  split
  · refine List.forall_mem_cons.mpr ⟨rfl, fun c hc => ?_⟩
    rw [List.eq_of_mem_replicate hc]
    rfl
  · exact fun c hc => by cases hc

/-- A colon, with a blank behind it or not. -/
theorem exists_colon_eq (style : Style) : ∃ w, IsSpace w ∧ colon style = ':' :: w := by
  unfold colon
  split
  · exact ⟨[' '], List.forall_mem_singleton.mpr rfl, rfl⟩
  · exact ⟨[], List.forall_mem_nil _, rfl⟩

theorem allFinite_leaves_float {x : Float} : AllFinite (leaves (.float x)) ↔ x.isFinite = true := by
  simp [leaves, AllFinite]

mutual

/-- A value whose numbers are finite is written as a value of the grammar. -/
theorem derives_of_writeAt {style : Style} {depth : Nat} : ∀ {v : Json} {t : Text},
    writeAt style depth v = .ok t → AllFinite v.leaves → Derives .value t
  | .null, t, h, _ => by
    cases h
    exact .word (by decide)
  | .bool b, t, h, _ => by
    cases b <;> cases h <;> exact .word (by decide)
  | .int n, t, h, _ => by
    rw [writeAt] at h
    split at h <;> cases h
    exact .number (isNumber_intText n)
  | .float x, t, h, hfinite => by
    rw [writeAt] at h
    split at h <;> cases h
    exact .number (isNumber_text style.floats (allFinite_leaves_float.mp hfinite))
  | .text s, t, h, _ => by
    cases h
    exact .string (isString_quoted style.asciiOnly s)
  | .list [], t, h, _ => by
    cases h
    exact .emptyList (List.forall_mem_nil _)
  | .list (item :: items), t, h, hfinite => by
    rw [writeAt, bind_bind_eq_ok_iff] at h
    obtain ⟨first, hfirst, more, hmore, rfl⟩ := h
    rw [leaves, leavesOfItems, allFinite_append] at hfinite
    have hitems := derives_of_writeItems hmore hfinite.2
      (isSpace_lineBreak style (depth + 1)) (derives_of_writeAt hfirst hfinite.1)
      (isSpace_lineBreak style depth)
    exact .list hitems
  | .object [], t, h, _ => by
    cases h
    exact .emptyObject (List.forall_mem_nil _)
  | .object ((name, value) :: members), t, h, hfinite => by
    rw [writeAt, bind_bind_eq_ok_iff] at h
    obtain ⟨first, hfirst, more, hmore, rfl⟩ := h
    rw [leaves, leavesOfMembers, allFinite_append] at hfinite
    have hmembers := derives_of_writeMembers hmore hfinite.2
      (isSpace_lineBreak style (depth + 1)) (isString_quoted style.asciiOnly name)
      (derives_of_writeAt hfirst hfinite.1) (isSpace_lineBreak style depth)
    exact .object hmembers

/-- Items that follow one that is written make elements with it. -/
theorem derives_of_writeItems {style : Style} {depth : Nat} : ∀ {items : List Json} {more : Text},
    writeItems style depth items = .ok more → AllFinite (leavesOfItems items) →
    ∀ {w first w' : Text}, IsSpace w → Derives .value first → IsSpace w' →
      Derives .elements (w ++ first ++ more ++ w')
  | [], more, h, _, w, first, w', hw, hfirst, hw' => by
    cases h
    rw [List.append_nil]
    exact .lastElement (.element hw hfirst hw')
  | item :: items, more, h, hfinite, w, first, w', hw, hfirst, hw' => by
    rw [writeItems, bind_bind_eq_ok_iff] at h
    obtain ⟨second, hsecond, more, hmore, rfl⟩ := h
    rw [leavesOfItems, allFinite_append] at hfinite
    have hrest := derives_of_writeItems hmore hfinite.2 (isSpace_lineBreak style depth)
      (derives_of_writeAt hsecond hfinite.1) hw'
    have hitems := Derives.moreElements (.element hw hfirst (List.forall_mem_nil _)) hrest
    simpa only [List.append_nil, List.append_assoc, List.cons_append] using hitems

/-- Members that follow one that is written make the members of an object with it. -/
theorem derives_of_writeMembers {style : Style} {depth : Nat} :
    ∀ {members : List (Text × Json)} {more : Text},
    writeMembers style depth members = .ok more → AllFinite (leavesOfMembers members) →
    ∀ {w name first w' : Text}, IsSpace w → IsString name → Derives .value first → IsSpace w' →
      Derives .members (w ++ name ++ colon style ++ first ++ more ++ w')
  | [], more, h, _, w, name, first, w', hw, hname, hfirst, hw' => by
    obtain ⟨blank, hblank, hcolon⟩ := exists_colon_eq style
    have hmember := Derives.lastMember hw hname (List.forall_mem_nil _)
      (.element hblank hfirst hw')
    cases h
    simpa only [hcolon, List.append_nil, List.append_assoc, List.cons_append] using hmember
  | (name', value) :: members, more, h, hfinite, w, name, first, w', hw, hname, hfirst, hw' => by
    obtain ⟨blank, hblank, hcolon⟩ := exists_colon_eq style
    rw [writeMembers, bind_bind_eq_ok_iff] at h
    obtain ⟨second, hsecond, more, hmore, rfl⟩ := h
    rw [leavesOfMembers, allFinite_append] at hfinite
    have hrest := derives_of_writeMembers hmore hfinite.2 (isSpace_lineBreak style depth)
      (isString_quoted style.asciiOnly name') (derives_of_writeAt hsecond hfinite.1) hw'
    have hmembers := Derives.moreMembers hw hname (List.forall_mem_nil _)
      (.element hblank hfirst (List.forall_mem_nil _)) hrest
    simpa only [hcolon, List.append_nil, List.append_assoc, List.cons_append] using hmembers

end

/-- The text ends outside of strings, and if a number among the values is not finite, one of the
capital letters of its word is left without the strings. -/
def Shows (values : List Json) (t : Text) : Prop :=
  ∃ u, Bares t u ∧ (¬AllFinite values → 'I' ∈ u ∨ 'N' ∈ u)

theorem Shows.append {values values' : List Json} {t t' : Text} (h : Shows values t)
    (h' : Shows values' t') : Shows (values ++ values') (t ++ t') := by
  obtain ⟨u, hu, hword⟩ := h
  obtain ⟨u', hu', hword'⟩ := h'
  refine ⟨u ++ u', hu.append hu', fun hfinite => ?_⟩
  rw [allFinite_append, not_and_or] at hfinite
  rcases hfinite with hfinite | hfinite
  · exact (hword hfinite).imp (List.mem_append_left _) (List.mem_append_left _)
  · exact (hword' hfinite).imp (List.mem_append_right _) (List.mem_append_right _)

theorem Shows.append_tame {values : List Json} {t w : Text} (h : Shows values t) (hw : IsTame w) :
    Shows values (t ++ w) := by
  obtain ⟨u, hu, hword⟩ := h
  obtain ⟨u', hu', -⟩ := hw
  exact ⟨u ++ u', hu.append hu', fun hfinite =>
    (hword hfinite).imp (List.mem_append_left _) (List.mem_append_left _)⟩

theorem Shows.tame_append {values : List Json} {t w : Text} (h : Shows values t) (hw : IsTame w) :
    Shows values (w ++ t) := by
  obtain ⟨u, hu, hword⟩ := h
  obtain ⟨u', hu', -⟩ := hw
  exact ⟨u' ++ u, hu'.append hu, fun hfinite =>
    (hword hfinite).imp (List.mem_append_right _) (List.mem_append_right _)⟩

theorem shows_of_allFinite {values : List Json} {t : Text} (h : AllFinite values) (ht : IsTame t) :
    Shows values t := by
  obtain ⟨u, hu, -⟩ := ht
  exact ⟨u, hu, fun hnot => absurd h hnot⟩

/-- A document is no text that shows a number that is not finite. -/
theorem Shows.allFinite {values : List Json} {t : Text} (h : Shows values t) (ht : IsTame t) :
    AllFinite values := by
  obtain ⟨u, hu, hword⟩ := h
  obtain ⟨u', hu', htame⟩ := ht
  have heq : u = u' := hu.bare_eq.symm.trans hu'.bare_eq
  subst heq
  by_contra hfinite
  rcases hword hfinite with hI | hN
  · exact (htame _ hI).1 rfl
  · exact (htame _ hN).2 rfl

theorem shows_float (x : Float) : Shows [.float x] (FloatLayout.json.text x) := by
  by_cases hfinite : x.isFinite = true
  · exact shows_of_allFinite (by simp [AllFinite, hfinite]) (isNumber_text .json hfinite).isTame
  · refine ⟨_, bares_self ?_, fun _ => ?_⟩ <;>
      rcases text_json_of_not_isFinite hfinite with h | h | h <;> rw [h] <;> decide

theorem shows_of_writeAt_of_allFinite {style : Style} {depth : Nat} {v : Json} {t : Text}
    (h : writeAt style depth v = .ok t) (hfinite : AllFinite v.leaves) : Shows v.leaves t :=
  shows_of_allFinite hfinite (derives_of_writeAt h hfinite).isTame

theorem isTame_lineBreak (style : Style) (depth : Nat) : IsTame (lineBreak style depth) :=
  (isSpace_lineBreak style depth).isTame

/-- The name of a member with its colon. -/
theorem isTame_quoted_colon (style : Style) (name : Text) :
    IsTame (quoted style.asciiOnly name ++ colon style) := by
  obtain ⟨w, hw, hcolon⟩ := exists_colon_eq style
  have hmark : IsTame [':'] := isTame_singleton (by decide)
  rw [hcolon]
  exact (isString_quoted style.asciiOnly name).isTame.append (hmark.append (IsSpace.isTame hw))

mutual

/-- In a document a number that is not finite shows. -/
theorem shows_of_writeAt {style : Style} (hstyle : style.floats = .json) {depth : Nat} :
    ∀ {v : Json} {t : Text}, writeAt style depth v = .ok t → Shows v.leaves t
  | .null, t, h => shows_of_writeAt_of_allFinite h (by simp [leaves, AllFinite])
  | .bool b, t, h => shows_of_writeAt_of_allFinite h (by simp [leaves, AllFinite])
  | .int n, t, h => shows_of_writeAt_of_allFinite h (by simp [leaves, AllFinite])
  | .float x, t, h => by
    rw [writeAt, hstyle] at h
    split at h <;> cases h
    exact shows_float x
  | .text s, t, h => shows_of_writeAt_of_allFinite h (by simp [leaves, AllFinite])
  | .list [], t, h => shows_of_writeAt_of_allFinite h (by simp [leaves, leavesOfItems, AllFinite])
  | .list (item :: items), t, h => by
    rw [writeAt, bind_bind_eq_ok_iff] at h
    obtain ⟨first, hfirst, more, hmore, rfl⟩ := h
    have hopen : IsTame ['['] := isTame_singleton (by decide)
    have hclose : IsTame [']'] := isTame_singleton (by decide)
    have hitems := ((shows_of_writeAt hstyle hfirst).tame_append
      (hopen.append (isTame_lineBreak style (depth + 1)))).append (shows_of_writeItems hstyle hmore)
    rw [leaves, leavesOfItems]
    exact (hitems.append_tame (isTame_lineBreak style depth)).append_tame hclose
  | .object [], t, h =>
    shows_of_writeAt_of_allFinite h (by simp [leaves, leavesOfMembers, AllFinite])
  | .object ((name, value) :: members), t, h => by
    rw [writeAt, bind_bind_eq_ok_iff] at h
    obtain ⟨first, hfirst, more, hmore, rfl⟩ := h
    have hopen : IsTame ['\x7b'] := isTame_singleton (by decide)
    have hclose : IsTame ['\x7d'] := isTame_singleton (by decide)
    have hname := (hopen.append (isTame_lineBreak style (depth + 1))).append
      (isTame_quoted_colon style name)
    rw [← List.append_assoc] at hname
    have hvalues := ((shows_of_writeAt hstyle hfirst).tame_append hname).append
      (shows_of_writeMembers hstyle hmore)
    rw [leaves, leavesOfMembers]
    exact (hvalues.append_tame (isTame_lineBreak style depth)).append_tame hclose

theorem shows_of_writeItems {style : Style} (hstyle : style.floats = .json) {depth : Nat} :
    ∀ {items : List Json} {t : Text}, writeItems style depth items = .ok t →
      Shows (leavesOfItems items) t
  | [], t, h => by
    cases h
    exact shows_of_allFinite (by simp [leavesOfItems, AllFinite]) (isTame_of_forall (by simp))
  | item :: items, t, h => by
    rw [writeItems, bind_bind_eq_ok_iff] at h
    obtain ⟨first, hfirst, more, hmore, rfl⟩ := h
    have hcomma : IsTame [','] := isTame_singleton (by decide)
    have hitems := (shows_of_writeAt hstyle hfirst).tame_append
      (hcomma.append (isTame_lineBreak style depth))
    rw [leavesOfItems]
    exact hitems.append (shows_of_writeItems hstyle hmore)

theorem shows_of_writeMembers {style : Style} (hstyle : style.floats = .json) {depth : Nat} :
    ∀ {members : List (Text × Json)} {t : Text}, writeMembers style depth members = .ok t →
      Shows (leavesOfMembers members) t
  | [], t, h => by
    cases h
    exact shows_of_allFinite (by simp [leavesOfMembers, AllFinite]) (isTame_of_forall (by simp))
  | (name, value) :: members, t, h => by
    rw [writeMembers, bind_bind_eq_ok_iff] at h
    obtain ⟨first, hfirst, more, hmore, rfl⟩ := h
    have hcomma : IsTame [','] := isTame_singleton (by decide)
    have hname := (hcomma.append (isTame_lineBreak style depth)).append
      (isTame_quoted_colon style name)
    rw [← List.append_assoc] at hname
    rw [leavesOfMembers]
    exact ((shows_of_writeAt hstyle hfirst).tame_append hname).append
      (shows_of_writeMembers hstyle hmore)

end

/-- A document is written unless an integer has too many digits, and is one of the grammar unless a
number is not finite. -/
theorem exists_isDocument_iff (v : Json) :
    (∃ t, write .document v = .ok t ∧ IsDocument (t ++ ['\n'])) ↔
      AllFinite v.leaves ∧ NoneLong v.leaves := by
  have hwritten : (∃ t, write .document v = .ok t) ↔ NoneLong v.leaves :=
    exists_writeAt_iff ⟨rfl, by decide⟩ 0 v
  have hfeed : IsSpace ['\n'] := List.forall_mem_singleton.mpr rfl
  constructor
  · rintro ⟨t, ht, hdocument⟩
    have hshown := (shows_of_writeAt rfl ht).append_tame hfeed.isTame
    exact ⟨hshown.allFinite hdocument.isTame, hwritten.mp ⟨t, ht⟩⟩
  · rintro ⟨hfinite, hshort⟩
    obtain ⟨t, ht⟩ := hwritten.mpr hshort
    exact ⟨t, ht, .element (List.forall_mem_nil _) (derives_of_writeAt ht hfinite) hfeed⟩

end Json

end ComponentCatalog
