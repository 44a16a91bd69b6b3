import ComponentCatalog.Code.Split
import ComponentCatalog.Proofs.Scanning

/-!
Balanced code: plain characters, literals in quotes and brackets with their partners, side by side,
and no comment. The search for a closing bracket passes such a text without a change of depth, and
the splitting at commas leaves it whole.
-/
namespace ComponentCatalog.Code

open Text

def brackets : List Bracket := [round, square, curly]

/-- The inside of a literal. The quote itself, and a line feed except between backticks, stand in it
only behind a backslash, which takes any character along. -/
inductive Quoted (quote : Char) : Text → Prop where
  | nil : Quoted quote []
  | plain {c : Char} {s : Text} :
      c ≠ quote → c ≠ '\\' → (c = '\n' → quote = '\x60') → Quoted quote s → Quoted quote (c :: s)
  | escaped {c : Char} {s : Text} : Quoted quote s → Quoted quote ('\\' :: c :: s)

/-- Where a slash stands before the text, no comment begins. -/
def OpensNoComment (s : Text) : Prop := s.head? ≠ some '/' ∧ s.head? ≠ some '*'

/-- A text of balanced code; `enclosed` if it stands in brackets, where commas part nothing. -/
inductive Balanced : (enclosed : Bool) → Text → Prop where
  | nil {enclosed : Bool} : Balanced enclosed []
  | plain {enclosed : Bool} {c : Char} :
      isStringMark c = false → isOpening c = false → isClosing c = false →
      (enclosed = false → c ≠ ',') → Balanced enclosed [c]
  | literal {enclosed : Bool} {quote : Char} {content : Text} :
      isStringMark quote = true → Quoted quote content →
      Balanced enclosed (quote :: (content ++ [quote]))
  | group {enclosed : Bool} {g : Bracket} {inner : Text} :
      g ∈ brackets → Balanced true inner →
      Balanced enclosed (g.opening :: (inner ++ [g.closing]))
  | append {enclosed : Bool} {s t : Text} :
      Balanced enclosed s → Balanced enclosed t →
      (s.getLast? = some '/' → OpensNoComment t) → Balanced enclosed (s ++ t)

theorem OpensNoComment.append {s t : Text} (hs : OpensNoComment s)
    (ht : s = [] → OpensNoComment t) : OpensNoComment (s ++ t) := by
  cases s with
  | nil => exact ht rfl
  | cons c s => exact hs

/-- What follows the second of two parts follows the first as well, if the second is empty. -/
theorem opensNoComment_of_append {s t rest : Text}
    (hslash : s.getLast? = some '/' → OpensNoComment t)
    (hrest : (s ++ t).getLast? = some '/' → OpensNoComment rest) :
    (s.getLast? = some '/' → OpensNoComment (t ++ rest)) ∧
      (t.getLast? = some '/' → OpensNoComment rest) := by
  constructor
  · intro h
    refine (hslash h).append ?_
    rintro rfl
    exact hrest (by rwa [List.append_nil])
  · intro h
    refine hrest ?_
    rw [List.getLast?_append, h]
    rfl

/-- Characters that neither quote nor bracket nor comment nor part. -/
def isPlain (c : Char) : Bool :=
  !isStringMark c && !isOpening c && !isClosing c && c != '/' && c != ','

theorem isPlain_iff {c : Char} : isPlain c = true ↔
    isStringMark c = false ∧ isOpening c = false ∧ isClosing c = false ∧ c ≠ '/' ∧ c ≠ ',' := by
  simp [isPlain, and_assoc]

theorem Balanced.append_of_not_slash {enclosed : Bool} {s t : Text} (hs : Balanced enclosed s)
    (hslash : s.getLast? ≠ some '/') (ht : Balanced enclosed t) : Balanced enclosed (s ++ t) :=
  .append hs ht fun h => absurd h hslash

theorem Balanced.of_plain {enclosed : Bool} {s : Text} (h : ∀ c ∈ s, isPlain c = true) :
    Balanced enclosed s := by
  induction s with
  | nil => exact .nil
  | cons c s ih =>
    obtain ⟨hmark, hopen, hclose, hslash, hcomma⟩ := isPlain_iff.mp (h c List.mem_cons_self)
    refine .append_of_not_slash (s := [c]) (.plain hmark hopen hclose fun _ => hcomma) ?_
      (ih fun c hc => h c (.tail _ hc))
    simpa using hslash

/-- In brackets commas may stand among them. -/
theorem Balanced.of_plain_or_comma {s : Text} (h : ∀ c ∈ s, isPlain c = true ∨ c = ',') :
    Balanced true s := by
  induction s with
  | nil => exact .nil
  | cons c s ih =>
    have hrest := ih fun c hc => h c (.tail _ hc)
    rcases h c List.mem_cons_self with hc | rfl
    · obtain ⟨hmark, hopen, hclose, hslash, -⟩ := isPlain_iff.mp hc
      exact .append_of_not_slash (s := [c]) (.plain hmark hopen hclose (by simp))
        (by simpa using hslash) hrest
    · exact .append_of_not_slash (s := [',']) (.plain rfl rfl rfl (by simp)) (by simp) hrest

theorem isPlain_of_isWord {c : Char} (h : isWord c = true) : isPlain c = true := by
  have hne {d : Char} (hd : isWord d = false) : c ≠ d := by
    rintro rfl
    exact Bool.false_ne_true (hd.symm.trans h)
  simp [isPlain_iff, isStringMark, isOpening, isClosing, hne (d := '\'') rfl, hne (d := '"') rfl,
    hne (d := '\x60') rfl, hne (d := '(') rfl, hne (d := ')') rfl, hne (d := '[') rfl,
    hne (d := ']') rfl, hne (d := '\x7b') rfl, hne (d := '\x7d') rfl, hne (d := '/') rfl,
    hne (d := ',') rfl]

/-- What may stand outside of brackets may stand in them. -/
theorem Balanced.enclose {enclosed : Bool} {s : Text} (h : Balanced enclosed s) :
    Balanced true s := by
  induction h with
  | nil => exact .nil
  | plain hmark hopen hclose _ => exact .plain hmark hopen hclose (by simp)
  | literal hmark hquoted => exact .literal hmark hquoted
  | group hg hinner _ => exact .group hg hinner
  | append _ _ hslash ihs iht => exact .append ihs iht hslash

theorem Balanced.join {parts : List Text} (h : ∀ p ∈ parts, Balanced true p) :
    Balanced true (join ", ".toList parts) := by
  have hcomma : Balanced true ", ".toList :=
    .append_of_not_slash (s := [',']) (.plain rfl rfl rfl (by simp)) (by simp)
      (.of_plain (by decide))
  induction parts with
  | nil => exact .nil
  | cons part parts ih =>
    cases parts with
    | nil =>
      have hjoin : Text.join ", ".toList [part] = part := List.append_nil _
      rw [hjoin]
      exact h part List.mem_cons_self
    | cons next parts =>
      rw [join_cons_cons]
      refine .append (h part List.mem_cons_self) ?_ fun _ => by simp [OpensNoComment]
      exact .append_of_not_slash hcomma (by decide) (ih fun p hp => h p (.tail _ hp))

theorem quoted_of_forall {quote : Char} {s : Text}
    (h : ∀ c ∈ s, c ≠ quote ∧ c ≠ '\\' ∧ c ≠ '\n') : Quoted quote s := by
  induction s with
  | nil => exact .nil
  | cons c s ih =>
    obtain ⟨hquote, hbackslash, hfeed⟩ := h c List.mem_cons_self
    exact .plain hquote hbackslash (fun hc => absurd hc hfeed) (ih fun c hc => h c (.tail _ hc))

theorem stringTail_cons {quote c : Char} (rest : Text) (h : c ≠ '\\') :
    stringTail quote (c :: rest) =
      if c = quote then 1
      else if c = '\n' ∧ quote ≠ '\x60' then 0
      else stringTail quote rest + 1 := by
  rw [stringTail.eq_def]
  split <;> simp_all

theorem stringTail_quoted {quote : Char} {content : Text} (hmark : isStringMark quote = true)
    (h : Quoted quote content) (rest : Text) :
    stringTail quote (content ++ quote :: rest) = content.length + 1 := by
  have hbackslash : quote ≠ '\\' := by
    rintro rfl
    cases hmark
  induction h with
  | nil => rw [List.nil_append, stringTail_cons _ hbackslash, if_pos rfl, List.length_nil]
  | @plain c s hquote hplain hfeed _ ih =>
    have hline : ¬(c = '\n' ∧ quote ≠ '\x60') := fun ⟨hc, hne⟩ => hne (hfeed hc)
    rw [List.cons_append, stringTail_cons _ hplain, if_neg hquote, if_neg hline, ih,
      List.length_cons]
  | @escaped c s _ ih =>
    have htail (t : Text) : stringTail quote ('\\' :: c :: t) = stringTail quote t + 2 := by
      rw [stringTail]
    rw [List.cons_append, List.cons_append, htail, ih, List.length_cons, List.length_cons]

theorem opaqueTail?_quoted {quote : Char} {content : Text} (hmark : isStringMark quote = true)
    (h : Quoted quote content) (rest : Text) :
    opaqueTail? quote ((content ++ [quote]) ++ rest) = some (content ++ [quote]).length := by
  have happend : (content ++ [quote]) ++ rest = content ++ quote :: rest := by simp
  rw [happend, opaqueTail?.eq_def, if_pos hmark, stringTail_quoted hmark h, List.length_append]
  rfl

section ClosingFrom

variable {b : Bracket} {depth : Int} {offset : Nat} {c : Char} {rest : Text}

theorem closingFrom_skip (u : Text) :
    closingFrom b u.length depth offset (u ++ rest) =
      closingFrom b 0 depth (offset + u.length) rest := by
  induction u generalizing offset with
  | nil => rfl
  | cons c u ih =>
    rw [List.cons_append, List.length_cons, closingFrom, ih]
    congr 1
    omega

theorem closingFrom_covered {u : Text} (h : opaqueTail? c (u ++ rest) = some u.length) :
    closingFrom b 0 depth offset (c :: (u ++ rest)) =
      closingFrom b 0 depth (offset + (u.length + 1)) rest := by
  rw [closingFrom, h]
  dsimp only
  rw [closingFrom_skip]
  congr 1
  omega

theorem closingFrom_inert (hcovered : opaqueTail? c rest = none) (hopen : c ≠ b.opening)
    (hclose : c ≠ b.closing) :
    closingFrom b 0 depth offset (c :: rest) = closingFrom b 0 depth (offset + 1) rest := by
  rw [closingFrom, hcovered]
  dsimp only
  rw [if_neg hopen, if_neg hclose]

theorem opaqueTail?_eq_none (hmark : isStringMark c = false) (hslash : c ≠ '/') :
    opaqueTail? c rest = none := by
  rw [opaqueTail?.eq_def, hmark, if_neg Bool.false_ne_true, if_neg hslash]

theorem opaqueTail?_plain (hmark : isStringMark c = false)
    (hslash : c = '/' → OpensNoComment rest) : opaqueTail? c rest = none := by
  by_cases hc : c = '/'
  · obtain ⟨hline, hblock⟩ := hslash hc
    rw [opaqueTail?.eq_def, hmark, if_neg Bool.false_ne_true, if_pos hc]
    split
    · exact absurd rfl hline
    · exact absurd rfl hblock
    · rfl
  · exact opaqueTail?_eq_none hmark hc

theorem ne_bracket_of_plain (hb : b ∈ brackets) (hopen : isOpening c = false)
    (hclose : isClosing c = false) : c ≠ b.opening ∧ c ≠ b.closing := by
  have hsides : ∀ b ∈ brackets, isOpening b.opening = true ∧ isClosing b.closing = true := by decide
  constructor <;> rintro rfl
  · exact Bool.false_ne_true (hopen.symm.trans (hsides b hb).1)
  · exact Bool.false_ne_true (hclose.symm.trans (hsides b hb).2)

/-- The brackets of a group change the depth back and forth, or not at all if they are of another
kind. -/
theorem closingFrom_group {g : Bracket} (hb : b ∈ brackets) (hg : g ∈ brackets)
    (hdepth : 0 < depth) :
    ∃ inside, 0 < inside ∧
      (∀ offset rest, closingFrom b 0 depth offset (g.opening :: rest) =
        closingFrom b 0 inside (offset + 1) rest) ∧
      ∀ offset rest, closingFrom b 0 inside offset (g.closing :: rest) =
        closingFrom b 0 depth (offset + 1) rest := by
  have hopaque : ∀ g ∈ brackets, isStringMark g.opening = false ∧ g.opening ≠ '/' ∧
      isStringMark g.closing = false ∧ g.closing ≠ '/' := by decide
  obtain ⟨hopen, hopenSlash, hclose, hcloseSlash⟩ := hopaque g hg
  by_cases hsame : g = b
  · subst hsame
    have hpair : ∀ g ∈ brackets, g.closing ≠ g.opening := by decide
    refine ⟨depth + 1, by omega, fun offset rest => ?_, fun offset rest => ?_⟩
    · rw [closingFrom, opaqueTail?_eq_none hopen hopenSlash]
      dsimp only
      rw [if_pos rfl]
    · have hne : depth + 1 ≠ 1 := by omega
      rw [closingFrom, opaqueTail?_eq_none hclose hcloseSlash]
      dsimp only
      rw [if_neg (hpair g hg), if_pos rfl, if_neg hne, Int.add_sub_cancel]
  · have hother : ∀ b ∈ brackets, ∀ g ∈ brackets, g ≠ b → g.opening ≠ b.opening ∧
        g.opening ≠ b.closing ∧ g.closing ≠ b.opening ∧ g.closing ≠ b.closing := by decide
    obtain ⟨hoo, hoc, hco, hcc⟩ := hother b hb g hg hsame
    exact ⟨depth, hdepth,
      fun _ _ => closingFrom_inert (opaqueTail?_eq_none hopen hopenSlash) hoo hoc,
      fun _ _ => closingFrom_inert (opaqueTail?_eq_none hclose hcloseSlash) hco hcc⟩

theorem opensNoComment_closing {g : Bracket} (hg : g ∈ brackets) (rest : Text) :
    OpensNoComment (g.closing :: rest) := by
  have hclosing : ∀ g ∈ brackets, g.closing ≠ '/' ∧ g.closing ≠ '*' := by decide
  simpa [OpensNoComment] using hclosing g hg

/-- The search for a closing bracket passes balanced code without a change of depth. -/
theorem closingFrom_balanced (hb : b ∈ brackets) {enclosed : Bool} {s : Text}
    (h : Balanced enclosed s) (hdepth : 0 < depth)
    (hrest : s.getLast? = some '/' → OpensNoComment rest) :
    closingFrom b 0 depth offset (s ++ rest) = closingFrom b 0 depth (offset + s.length) rest := by
  induction h generalizing depth offset rest with
  | nil => rfl
  | @plain _ c hmark hopen hclose _ =>
    obtain ⟨hne, hne'⟩ := ne_bracket_of_plain hb hopen hclose
    refine closingFrom_inert (opaqueTail?_plain hmark ?_) hne hne'
    rintro rfl
    exact hrest rfl
  | @literal _ quote content hmark hquoted =>
    rw [List.cons_append, closingFrom_covered (opaqueTail?_quoted hmark hquoted rest),
      List.length_cons]
  | @group _ g inner hg _ ih =>
    obtain ⟨inside, hinside, hopen, hclose⟩ := closingFrom_group hb hg hdepth
    have happend : g.opening :: (inner ++ [g.closing]) ++ rest =
        g.opening :: (inner ++ (g.closing :: rest)) := by simp
    rw [happend, hopen, ih hinside fun _ => opensNoComment_closing hg rest, hclose]
    congr 1
    simp only [List.length_cons, List.length_append, List.length_nil]
    omega
  | @append _ s t _ _ hslash ihs iht =>
    obtain ⟨hs, ht⟩ := opensNoComment_of_append hslash hrest
    rw [List.append_assoc, ihs hdepth hs, iht hdepth ht, List.length_append, Nat.add_assoc]

/-- A text that the search passes without a change of depth is the block of the brackets around
it. -/
theorem block?_of_passed (hb : b ∈ brackets) {body : Text}
    (h : ∀ offset rest, closingFrom b 0 1 offset (body ++ b.closing :: rest) =
      closingFrom b 0 1 (offset + body.length) (b.closing :: rest)) (rest : Text) :
    block? b (b.opening :: (body ++ b.closing :: rest)) = some body := by
  have hopen (s : Text) : closing? b (b.opening :: s) = closingFrom b 0 1 1 s := by
    simp only [brackets, List.mem_cons, List.not_mem_nil, or_false] at hb
    rcases hb with rfl | rfl | rfl <;> rfl
  have hclose (offset : Nat) : closingFrom b 0 1 offset (b.closing :: rest) = some offset := by
    simp only [brackets, List.mem_cons, List.not_mem_nil, or_false] at hb
    rcases hb with rfl | rfl | rfl <;> rfl
  have hhead : (b.opening :: (body ++ b.closing :: rest)).head? = some b.opening := rfl
  rw [block?, if_pos hhead, hopen, h, hclose]
  dsimp only
  rw [slice, Nat.add_comm, List.take_succ_cons, List.take_left, List.drop_one, List.tail_cons]

theorem block?_balanced (hb : b ∈ brackets) {enclosed : Bool} {body : Text}
    (h : Balanced enclosed body) (rest : Text) :
    block? b (b.opening :: (body ++ b.closing :: rest)) = some body :=
  block?_of_passed hb (fun _ rest =>
    closingFrom_balanced hb h Int.one_pos fun _ => opensNoComment_closing hb rest) rest

end ClosingFrom

section PiecesFrom

variable {depth : Nat} {c : Char} {rest : Text}

theorem foldr_prepend (s part : Text) (more : List Text) :
    s.foldr prepend (part :: more) = (s ++ part) :: more := by
  induction s with
  | nil => rfl
  | cons c s ih => rw [List.foldr_cons, ih, prepend, List.cons_append]

theorem piecesFrom_inert (hmark : isStringMark c = false) (hopen : isOpening c = false)
    (hclose : isClosing c = false) (hseparator : depth = 0 → c ≠ ',') :
    piecesFrom (some ',') 0 depth (c :: rest) =
      prepend c (piecesFrom (some ',') 0 depth rest) := by
  have hseparator : ¬(some ',' = some c ∧ depth = 0) := fun ⟨hc, hdepth⟩ =>
    hseparator hdepth (Option.some.inj hc).symm
  rw [piecesFrom]
  simp only [hmark, hopen, hclose, Bool.false_eq_true, false_and, if_false, if_neg hseparator]

theorem piecesFrom_skip (u : Text) :
    piecesFrom (some ',') u.length depth (u ++ rest) =
      u.foldr prepend (piecesFrom (some ',') 0 depth rest) := by
  induction u with
  | nil => rfl
  | cons c u ih => rw [List.cons_append, List.length_cons, piecesFrom, ih, List.foldr_cons]

theorem piecesFrom_group {g : Bracket} (h : g ∈ brackets) :
    piecesFrom (some ',') 0 depth (g.opening :: rest) =
        prepend g.opening (piecesFrom (some ',') 0 (depth + 1) rest) ∧
      piecesFrom (some ',') 0 (depth + 1) (g.closing :: rest) =
        prepend g.closing (piecesFrom (some ',') 0 depth rest) := by
  simp only [brackets, List.mem_cons, List.not_mem_nil, or_false] at h
  rcases h with rfl | rfl | rfl <;> constructor <;> rfl

/-- The splitting at commas leaves balanced code whole. -/
theorem piecesFrom_balanced {enclosed : Bool} {s : Text} (h : Balanced enclosed s)
    (hdepth : enclosed = true → 0 < depth) :
    piecesFrom (some ',') 0 depth (s ++ rest) =
      s.foldr prepend (piecesFrom (some ',') 0 depth rest) := by
  induction h generalizing depth rest with
  | nil => rfl
  | @plain enclosed c hmark hopen hclose hcomma =>
    refine piecesFrom_inert hmark hopen hclose fun hzero => hcomma (Bool.eq_false_iff.mpr ?_)
    exact fun h => absurd (hdepth h) (by omega)
  | @literal _ quote content hmark hquoted =>
    have htail : stringTail quote ((content ++ [quote]) ++ rest) = (content ++ [quote]).length := by
      rw [List.append_assoc, List.length_append]
      exact stringTail_quoted hmark hquoted rest
    rw [List.cons_append, piecesFrom, if_pos hmark, htail, piecesFrom_skip, List.foldr_cons]
  | @group _ g inner hg _ ih =>
    have happend : g.opening :: (inner ++ [g.closing]) ++ rest =
        g.opening :: (inner ++ (g.closing :: rest)) := by simp
    rw [happend, (piecesFrom_group hg).1, ih fun _ => Nat.succ_pos _, (piecesFrom_group hg).2]
    simp
  | append _ _ _ ihs iht =>
    rw [List.append_assoc, ihs hdepth, iht hdepth, List.foldr_append]

theorem piecesFrom_whole {s : Text} (h : Balanced false s) : piecesFrom (some ',') 0 0 s = [s] := by
  have hpieces : piecesFrom (some ',') 0 0 (s ++ []) =
      s.foldr prepend (piecesFrom (some ',') 0 0 []) := piecesFrom_balanced h (by simp)
  rwa [List.append_nil, piecesFrom, foldr_prepend, List.append_nil] at hpieces

section Blanks

variable {lead trail : Text}

theorem balanced_of_spaces (h : ∀ c ∈ lead, c = ' ') : Balanced false lead :=
  .of_plain fun c hc => h c hc ▸ rfl

theorem getLast?_spaces (h : ∀ c ∈ lead, c = ' ') : lead.getLast? ≠ some '/' := fun hlast =>
  absurd (h '/' (List.mem_of_getLast? hlast)) (by decide)

theorem isBlank_of_spaces (h : ∀ c ∈ lead, c = ' ') : ∀ c ∈ lead, isBlank c = true :=
  fun c hc => h c hc ▸ rfl

theorem opensNoComment_spaces (h : ∀ c ∈ trail, c = ' ') : OpensNoComment trail := by
  cases trail with
  | nil => exact ⟨by simp, by simp⟩
  | cons c trail =>
    rw [h c List.mem_cons_self]
    exact ⟨by simp, by simp⟩

theorem strip_pieces_join (hlead : ∀ c ∈ lead, c = ' ') (htrail : ∀ c ∈ trail, c = ' ')
    {part : Text} {parts : List Text} (h : ∀ p ∈ part :: parts, Balanced false p ∧ strip p = p) :
    (piecesFrom (some ',') 0 0 (lead ++ (join ", ".toList (part :: parts) ++ trail))).map strip =
      part :: parts := by
  obtain ⟨hpart, hstrip⟩ := h part List.mem_cons_self
  induction parts generalizing lead part with
  | nil =>
    have hjoin : join ", ".toList [part] = part := List.append_nil _
    have hwhole : Balanced false (lead ++ (part ++ trail)) :=
      .append_of_not_slash (balanced_of_spaces hlead) (getLast?_spaces hlead)
        (.append hpart (balanced_of_spaces htrail) fun _ => opensNoComment_spaces htrail)
    rw [hjoin, piecesFrom_whole hwhole, List.map_singleton,
      strip_blank_append (isBlank_of_spaces hlead),
      strip_append_of_blank (isBlank_of_spaces htrail), hstrip]
  | cons next parts ih =>
    have hcomma (s : Text) : piecesFrom (some ',') 0 0 (", ".toList ++ s) =
        [] :: piecesFrom (some ',') 0 0 ([' '] ++ s) := rfl
    have hfirst : Balanced false (lead ++ part) :=
      .append_of_not_slash (balanced_of_spaces hlead) (getLast?_spaces hlead) hpart
    obtain ⟨hnext, hstrip'⟩ := h next (.tail _ List.mem_cons_self)
    have hspace : ∀ c ∈ [' '], c = ' ' := by simp
    have hmore := ih hspace (fun p hp => h p (.tail _ hp)) hnext hstrip'
    have hsplit : lead ++ (join ", ".toList (part :: next :: parts) ++ trail) =
        (lead ++ part) ++ (", ".toList ++ (join ", ".toList (next :: parts) ++ trail)) := by
      rw [join_cons_cons]
      simp only [List.append_assoc]
    rw [hsplit, piecesFrom_balanced hfirst (by simp), hcomma, foldr_prepend, List.append_nil,
      List.map_cons, strip_blank_append (isBlank_of_spaces hlead), hstrip, hmore]

/-- Balanced parts between commas are split into those parts again. -/
theorem splitTopLevel_join (lead trail : Text) (hlead : ∀ c ∈ lead, c = ' ')
    (htrail : ∀ c ∈ trail, c = ' ') {parts : List Text}
    (h : ∀ p ∈ parts, Balanced false p ∧ strip p = p ∧ p ≠ []) :
    splitTopLevel (some ',') (lead ++ (join ", ".toList parts ++ trail)) = parts := by
  rw [splitTopLevel]
  cases parts with
  | nil =>
    have hblank : Balanced false (lead ++ ([] ++ trail)) :=
      .append_of_not_slash (balanced_of_spaces hlead) (getLast?_spaces hlead)
        (balanced_of_spaces htrail)
    have hjoin : join ", ".toList [] = [] := rfl
    rw [hjoin, piecesFrom_whole hblank, List.map_singleton,
      strip_blank_append (isBlank_of_spaces hlead),
      strip_append_of_blank (isBlank_of_spaces htrail)]
    rfl
  | cons part parts =>
    rw [strip_pieces_join hlead htrail fun p hp => ⟨(h p hp).1, (h p hp).2.1⟩, List.filter_eq_self]
    intro p hp
    simpa using (h p hp).2.2

end Blanks

end PiecesFrom

end ComponentCatalog.Code
