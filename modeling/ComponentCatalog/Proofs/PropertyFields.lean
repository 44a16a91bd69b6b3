import ComponentCatalog.Proofs.PropertySource

/-!
The interface of a property source is found, and its fields are read as they were written: the spans
of the doc comments are known, so that no field is taken for a part of a comment, and each type is
read up to the semicolon after it.
-/
namespace ComponentCatalog.Component

open Text Code

theorem cut?_comment {d : Text} (hstar : '*' ∉ d) (rest : Text) :
    cut? "*/".toList (' ' :: (d ++ (" */".toList ++ rest))) = some (' ' :: (d ++ [' ']), rest) := by
  have hstar : '*' ∉ ' ' :: (d ++ [' ']) := by simp [hstar]
  have hsplit : ' ' :: (d ++ (" */".toList ++ rest)) =
      ' ' :: (d ++ [' ']) ++ ('*' :: ['/'] ++ rest) := by simp
  rw [hsplit]
  exact cut?_append hstar

theorem docComment?_commentOf {d : Text} (hstar : '*' ∉ d) (rest : Text) :
    docComment? (commentOf d ++ rest) = some (' ' :: (d ++ [' ']), rest) := by
  have hsplit : commentOf d ++ rest =
      "/**".toList ++ (' ' :: (d ++ (" */".toList ++ rest))) := by simp [commentOf]
  rw [docComment?, hsplit, after?_append, Option.bind_some, cut?_comment hstar]

theorem commentShape_commentOf {d : Text} (hstar : '*' ∉ d) (offset : Nat) (previous : Option Char)
    (rest : Text) :
    commentShape ⟨offset, previous, commentOf d ++ rest⟩ =
      some ((offset, offset + (commentOf d).length), (commentOf d).length) := by
  have hcut : cut? "*/".toList ('*' :: ' ' :: (d ++ (" */".toList ++ rest))) =
      some ('*' :: ' ' :: (d ++ [' ']), rest) := by
    rw [cut?_cons rfl, cut?_comment hstar]
    rfl
  have hsplit : commentOf d ++ rest =
      '/' :: '*' :: '*' :: ' ' :: (d ++ (" */".toList ++ rest)) := by
    simp [commentOf]
  have hlength : Cursor.lengthTo ⟨offset, previous, commentOf d ++ rest⟩ rest =
      (commentOf d).length := by
    simp [Cursor.lengthTo]
  rw [← hlength, hsplit]
  simp only [commentShape, hcut]
  rfl

theorem commentShape_of_ne {c : Char} (h : c ≠ '/') (offset : Nat) (previous : Option Char)
    (rest : Text) : commentShape ⟨offset, previous, c :: rest⟩ = none := by
  rw [commentShape]
  split
  · simp_all
  · simp_all
  · rfl

/-- Where the comments of a property stand in a text that begins with its block. -/
def Property.commentSpans (offset : Nat) (p : Property) : List (Nat × Nat) :=
  match p.description with
  | none => []
  | some d => [(offset, offset + (commentOf d).length)]

/-- Where the comments of the properties stand in a text that begins with their blocks. -/
def commentSpans : (offset : Nat) → List Property → List (Nat × Nat)
  | _, [] => []
  | offset, p :: properties =>
    p.commentSpans offset ++ commentSpans (offset + p.block.length) properties

namespace Property

variable {p : Property}

theorem slash_notMem_head_append (h : p.WellFormed) :
    '/' ∉ p.head ++ (p.type ++ ";\n".toList) := by
  have hname : '/' ∉ p.name := fun hmem => Bool.false_ne_true (h.name.word '/' hmem)
  have hmark : '/' ∉ if p.required then ": ".toList else "?: ".toList := by
    split <;> decide
  have hend : '/' ∉ ";\n".toList := by decide
  simp only [head, List.mem_append, not_or]
  exact ⟨⟨hname, hmark⟩, h.type.expression.notMem_slash, hend⟩

theorem documentation_eq {d : Text} (h : p.description = some d) :
    p.documentation = commentOf d ++ ['\n'] := by
  rw [documentation, h]

theorem hits_comments (h : p.WellFormed) (hunmarked : p.Unmarked) (offset : Nat)
    (previous : Option Char) (rest : Text) :
    hitsFrom commentShape 0 offset previous (p.block ++ rest) =
      p.commentSpans offset ++
        hitsFrom commentShape 0 (offset + p.block.length) (lastOf previous p.block) rest := by
  have hpass {u : Text} (hu : '/' ∉ u) (offset : Nat) (previous : Option Char) :
      hitsFrom commentShape 0 offset previous (u ++ rest) =
        hitsFrom commentShape 0 (offset + u.length) (lastOf previous u) rest := by
    refine hitsFrom_pass fun v c w hsplit o q => commentShape_of_ne ?_ o q _
    rintro rfl
    exact hu (by simp [hsplit])
  cases hd : p.description with
  | none =>
    have hdocumentation : p.documentation = [] := by simp [documentation, hd]
    rw [commentSpans, hd, block, hdocumentation, List.nil_append,
      hpass (slash_notMem_head_append h), List.nil_append]
  | some d =>
    have hrest : '/' ∉ '\n' :: (p.head ++ (p.type ++ ";\n".toList)) := by
      simpa using slash_notMem_head_append h
    have hsplit : p.block = commentOf d ++ '\n' :: (p.head ++ (p.type ++ ";\n".toList)) := by
      simp [block, documentation_eq hd]
    have hne : commentOf d ≠ [] := by simp [commentOf]
    rw [commentSpans, hd, hsplit, List.append_assoc,
      hitsFrom_hit hne (commentShape_commentOf (hunmarked d hd).1 ..), hpass hrest, lastOf_append,
      List.length_append, Nat.add_assoc]
    rfl

end Property

theorem hits_comments {properties : List Property} (h : ∀ p ∈ properties, p.WellFormed ∧ p.Unmarked)
    (offset : Nat) (previous : Option Char) :
    hitsFrom commentShape 0 offset previous (properties.flatMap Property.block) =
      commentSpans offset properties := by
  induction properties generalizing offset previous with
  | nil => rfl
  | cons p properties ih =>
    obtain ⟨hp, hunmarked⟩ := h p List.mem_cons_self
    rw [List.flatMap_cons, p.hits_comments hp hunmarked, ih fun p hp => h p (.tail _ hp),
      commentSpans]

theorem le_of_mem_commentSpans {properties : List Property} {offset : Nat} :
    ∀ span ∈ commentSpans offset properties, offset ≤ span.1 := by
  induction properties generalizing offset with
  | nil => simp [commentSpans]
  | cons p properties ih =>
    intro span hspan
    rcases List.mem_append.mp hspan with hspan | hspan
    · cases hd : p.description with
      | none => simp [Property.commentSpans, hd] at hspan
      | some d =>
        simp only [Property.commentSpans, hd, List.mem_singleton] at hspan
        rw [hspan]
    · exact Nat.le_trans (Nat.le_add_right _ _) (ih span hspan)

namespace Property

variable {p : Property}

/-- The property as its field declares it. -/
def declared (p : Property) : Property := { p with default := none }

theorem head_ne_nil (h : p.WellFormed) : p.head ≠ [] := by
  simp [head, h.name.ne_nil]

theorem exists_head_cons (h : p.WellFormed) : ∃ c s, p.head = c :: s ∧ isWord c = true := by
  rcases hname : p.name with _ | ⟨c, s⟩
  · exact absurd hname h.name.ne_nil
  · exact ⟨c, _, by rw [head, hname, List.cons_append], h.name.word c (hname ▸ List.mem_cons_self)⟩

theorem fieldName?_head (h : p.WellFormed) (comment : Option Text) {s : Text}
    (hs : stripStart s = s) :
    fieldName? comment (p.head ++ s) = some ⟨comment, p.name, s, !p.required⟩ := by
  have hblank : stripStart (' ' :: s) = s := by
    rw [← List.singleton_append, stripStart_append_of_blank (by decide), hs]
  cases hrequired : p.required with
  | true =>
    have hsplit : p.head ++ s = p.name ++ ':' :: ' ' :: s := by simp [head, hrequired]
    rw [fieldName?, hsplit, word?_append h.name.ne_nil h.name.word rfl]
    simp [after?, hblank]
  | false =>
    have hsplit : p.head ++ s = p.name ++ '?' :: ':' :: ' ' :: s := by simp [head, hrequired]
    rw [fieldName?, hsplit, word?_append h.name.ne_nil h.name.word rfl]
    simp [after?, hblank]

/-- The comment that a field head reads, and the description that is taken from it. -/
theorem fieldHead?_block (h : p.WellFormed) (hunmarked : p.Unmarked) {s : Text}
    (hs : stripStart s = s) :
    ∃ comment, comment.bind firstCommentLine = p.description ∧
      fieldHead? (p.documentation ++ (p.head ++ s)) =
        some (⟨comment, p.name, s, !p.required⟩, p.documentation.length) := by
  obtain ⟨c, tail, hhead, hc⟩ := exists_head_cons h
  cases hd : p.description with
  | none =>
    have hnone : docComment? (p.head ++ s) = none := by
      have hne : '/' ≠ c := by
        rintro rfl
        cases hc
      rw [hhead, List.cons_append, docComment?]
      simp [after?, hne]
    refine ⟨none, rfl, ?_⟩
    simp only [documentation, hd, List.nil_append, fieldHead?, hnone, fieldName?_head h none hs]
    rfl
  | some d =>
    obtain ⟨hne, hstrip, hline, -⟩ := h.description d hd
    obtain ⟨hstar, hslash⟩ := hunmarked d hd
    refine ⟨some (' ' :: (d ++ [' '])),
      firstCommentLine_description hne hstrip hline hstar hslash, ?_⟩
    have hstart : stripStart ('\n' :: (p.head ++ s)) = p.head ++ s := by
      rw [← List.singleton_append, stripStart_append_of_blank (by decide), hhead, List.cons_append,
        stripStart_cons (isBlank_of_isWord hc)]
    rw [documentation_eq hd, List.append_assoc, List.singleton_append, fieldHead?,
      docComment?_commentOf hstar]
    simp only [hstart, fieldName?_head h _ hs, Option.map_some, Option.some.injEq, Prod.mk.injEq,
      true_and, List.length_append, List.length_cons, List.length_nil]
    omega

/-- At the block of a property a field is read that has all but the default. -/
theorem fieldShape_block (h : p.WellFormed) (hunmarked : p.Unmarked) {comments : List (Nat × Nat)}
    {offset : Nat} (hcomments : ∀ span ∈ comments,
      span.2 ≤ offset + p.documentation.length ∨ offset + p.documentation.length < span.1)
    (previous : Option Char) (rest : Text) :
    fieldShape comments
        ⟨offset, previous, p.documentation ++ (p.head ++ p.type) ++ (";\n".toList ++ rest)⟩ =
      some (some p.declared, (p.documentation ++ (p.head ++ p.type)).length) := by
  have hs : stripStart (p.type ++ (";\n".toList ++ rest)) = p.type ++ (";\n".toList ++ rest) :=
    stripStart_eq_self_of_strip h.type.stripped _ h.type.nonempty
  have hsplit : p.documentation ++ (p.head ++ p.type) ++ (";\n".toList ++ rest) =
      p.documentation ++ (p.head ++ (p.type ++ (";\n".toList ++ rest))) := by
    simp only [List.append_assoc]
  obtain ⟨comment, hdescription, hhead⟩ := fieldHead?_block h hunmarked hs
  have hfind : comments.find? (fun span =>
      span.1 ≤ offset + p.documentation.length && offset + p.documentation.length < span.2) =
      none := by
    rw [List.find?_eq_none]
    intro span hspan
    have := hcomments span hspan
    simp only [Bool.and_eq_true, decide_eq_true_eq, not_and]
    omega
  have hlength : typeLength [] none (p.type ++ (";\n".toList ++ rest)) = p.type.length := by
    have hnone : (none : Option Char) ≠ some '=' := by simp
    have hread : ∃ last, last ≠ some '=' ∧ typeLength [] none (p.type ++ (";\n".toList ++ rest)) =
        typeLength [] last (";\n".toList ++ rest) + p.type.length :=
      typeLength_expression h.type.expression (by simp) hnone
    obtain ⟨last, -, hlength⟩ := hread
    rw [hlength]
    exact Nat.zero_add _
  rw [fieldShape, hsplit, hhead]
  simp only [Option.bind_eq_bind, Option.bind_some]
  rw [hfind]
  simp only [hlength, List.take_left, h.type.stripped, h.type.nonempty, if_false, hdescription,
    Bool.not_not, Cursor.lengthTo]
  have hcount : (p.documentation ++ (p.head ++ (p.type ++ (";\n".toList ++ rest)))).length -
      (p.type ++ (";\n".toList ++ rest)).length + p.type.length =
      (p.documentation ++ (p.head ++ p.type)).length := by
    simp only [List.length_append]
    omega
  rw [hcount]
  rfl

end Property

theorem fieldShape_of_not_isWord {c : Char} (hword : isWord c = false) (hslash : c ≠ '/')
    (comments : List (Nat × Nat)) (offset : Nat) (previous : Option Char) (rest : Text) :
    fieldShape comments ⟨offset, previous, c :: rest⟩ = none := by
  have hdoc : docComment? (c :: rest) = none := by
    simp [docComment?, after?, Ne.symm hslash]
  have hspan : (c :: rest).span isWord = ([], c :: rest) := by
    rw [List.span_eq_takeWhile_dropWhile, List.takeWhile_cons_of_neg (by simp [hword]),
      List.dropWhile_cons_of_neg (by simp [hword])]
  have hname : fieldName? none (c :: rest) = none := by
    rw [fieldName?, word?, hspan]
    rfl
  simp only [fieldShape, fieldHead?, hdoc, hname]
  rfl

theorem Property.commentSpans_le {p : Property} {offset : Nat} :
    ∀ span ∈ p.commentSpans offset, span.2 ≤ offset + p.documentation.length := by
  intro span hspan
  cases hd : p.description with
  | none => simp [Property.commentSpans, hd] at hspan
  | some d =>
    simp only [Property.commentSpans, hd, List.mem_singleton] at hspan
    rw [hspan, Property.documentation_eq hd, List.length_append]
    omega

theorem Property.documentation_lt_block {p : Property} (h : p.WellFormed) :
    p.documentation.length < p.block.length := by
  have hhead := List.length_pos_iff.mpr (Property.head_ne_nil h)
  simp only [Property.block, List.length_append]
  omega

theorem hits_fields {properties : List Property} (h : ∀ p ∈ properties, p.WellFormed ∧ p.Unmarked)
    {earlier : List (Nat × Nat)} {offset : Nat} (hearlier : ∀ span ∈ earlier, span.2 ≤ offset)
    (previous : Option Char) :
    hitsFrom (fieldShape (earlier ++ commentSpans offset properties)) 0 offset previous
        (properties.flatMap Property.block) =
      properties.map fun p => some p.declared := by
  -- The scan keeps the spans of the whole text: those behind it pile up in `earlier`.
  induction properties generalizing earlier offset previous with
  | nil => rfl
  | cons p properties ih =>
    obtain ⟨hp, hunmarked⟩ := h p List.mem_cons_self
    have hlt := Property.documentation_lt_block hp
    have hcomments : ∀ span ∈ earlier ++ commentSpans offset (p :: properties),
        span.2 ≤ offset + p.documentation.length ∨ offset + p.documentation.length < span.1 := by
      intro span hspan
      rw [commentSpans, List.mem_append, List.mem_append] at hspan
      rcases hspan with hspan | hspan | hspan
      · exact .inl (Nat.le_trans (hearlier span hspan) (Nat.le_add_right _ _))
      · exact .inl (Property.commentSpans_le span hspan)
      · have := le_of_mem_commentSpans span hspan
        omega
    have hearlier' : ∀ span ∈ earlier ++ p.commentSpans offset,
        span.2 ≤ offset + p.block.length := by
      intro span hspan
      rcases List.mem_append.mp hspan with hspan | hspan
      · exact Nat.le_trans (hearlier span hspan) (Nat.le_add_right _ _)
      · have := Property.commentSpans_le span hspan
        omega
    have hend : ∀ v c w, ";\n".toList = v ++ c :: w → ∀ o q, fieldShape
        (earlier ++ commentSpans offset (p :: properties))
        ⟨o, q, c :: (w ++ properties.flatMap Property.block)⟩ = none := by
      intro v c w hsplit o q
      have hc : c ∈ ";\n".toList := by simp [hsplit]
      have hc : c = ';' ∨ c = '\n' := by simpa using hc
      rcases hc with rfl | rfl <;> exact fieldShape_of_not_isWord rfl (by decide) _ o q _
    have hne : p.documentation ++ (p.head ++ p.type) ≠ [] := by simp [Property.head_ne_nil hp]
    have hsplit : (p :: properties).flatMap Property.block =
        p.documentation ++ (p.head ++ p.type) ++
          (";\n".toList ++ properties.flatMap Property.block) := by
      simp [Property.block]
    have hlength : offset + (p.documentation ++ (p.head ++ p.type)).length + ";\n".toList.length =
        offset + p.block.length := by
      simp only [Property.block, List.length_append]
      omega
    rw [hsplit, hitsFrom_hit hne (Property.fieldShape_block hp hunmarked hcomments _ _),
      hitsFrom_pass hend, hlength, commentSpans, ← List.append_assoc,
      ih (fun p hp => h p (.tail _ hp)) hearlier', List.map_cons]

theorem documentedFields_blocks {properties : List Property}
    (h : ∀ p ∈ properties, p.WellFormed ∧ p.Unmarked) :
    documentedFields ('\n' :: properties.flatMap Property.block) =
      properties.map Property.declared := by
  have hcomments : hits commentShape ('\n' :: properties.flatMap Property.block) =
      [] ++ commentSpans 1 properties := by
    rw [hits, hitsFrom, commentShape_of_ne (by decide)]
    exact hits_comments h 1 (some '\n')
  have hfields : hits (fieldShape ([] ++ commentSpans 1 properties))
      ('\n' :: properties.flatMap Property.block) = properties.map fun p => some p.declared := by
    rw [hits, hitsFrom, fieldShape_of_not_isWord rfl (by decide)]
    exact hits_fields h (by simp) (some '\n')
  rw [documentedFields, hcomments, hfields, List.filterMap_map]
  simp

theorem blockCommentTail_append {d : Text} (hstar : '*' ∉ d) (rest : Text) :
    blockCommentTail (d ++ ("*/".toList ++ rest)) = d.length + 2 := by
  induction d with
  | nil => rfl
  | cons c d ih =>
    rw [List.mem_cons, not_or] at hstar
    rw [List.cons_append, blockCommentTail.eq_def]
    split
    · simp_all
    · simp_all
    · simp_all

theorem opaqueTail?_comment {d : Text} (hstar : '*' ∉ d) (rest : Text) :
    opaqueTail? '/' (("** ".toList ++ (d ++ " */".toList)) ++ rest) =
      some ("** ".toList ++ (d ++ " */".toList)).length := by
  have hstar : '*' ∉ ' ' :: (d ++ [' ']) := by simp [hstar]
  have hsplit : ("** ".toList ++ (d ++ " */".toList)) ++ rest =
      '*' :: '*' :: ((' ' :: (d ++ [' '])) ++ ("*/".toList ++ rest)) := by simp
  have htail : blockCommentTail ('*' :: ((' ' :: (d ++ [' '])) ++ ("*/".toList ++ rest))) =
      blockCommentTail ((' ' :: (d ++ [' '])) ++ ("*/".toList ++ rest)) + 1 := rfl
  rw [hsplit, opaqueTail?.eq_def, if_neg (by decide), if_pos rfl]
  simp only [htail, blockCommentTail_append hstar]
  simp

theorem isPlain_of_mem_head {p : Property} (h : p.WellFormed) : ∀ c ∈ p.head, isPlain c = true := by
  intro c hc
  rcases List.mem_append.mp hc with hc | hc
  · exact isPlain_of_isWord (h.name.word c hc)
  · have hmarks : ∀ c ∈ "?: ".toList, isPlain c = true := by decide
    apply hmarks
    split at hc
    · exact List.mem_cons_of_mem _ hc
    · exact hc

theorem notMem_slash_of_isPlain {s : Text} (h : ∀ c ∈ s, isPlain c = true) : '/' ∉ s :=
  fun hmem => Bool.false_ne_true (h '/' hmem)

theorem balanced_field {p : Property} (h : p.WellFormed) :
    Balanced true (p.head ++ (p.type ++ ";\n".toList)) := by
  have hhead := isPlain_of_mem_head h
  have htype : Balanced true p.type := h.type.expression.balanced (by simp)
  refine .append_of_not_slash (.of_plain hhead)
    (fun hlast => notMem_slash_of_isPlain hhead (List.mem_of_getLast? hlast)) ?_
  exact .append_of_not_slash htype
    (fun hlast => h.type.expression.notMem_slash (List.mem_of_getLast? hlast))
    (.of_plain (by decide))

/-- The search for the closing brace passes the block of a property. -/
theorem closingFrom_block {p : Property} (h : p.WellFormed) (hunmarked : p.Unmarked) {depth : Int}
    (hdepth : 0 < depth) (offset : Nat) (rest : Text) :
    closingFrom curly 0 depth offset (p.block ++ rest) =
      closingFrom curly 0 depth (offset + p.block.length) rest := by
  have hfield (u : Text) (hu : ∀ c ∈ u, isPlain c = true) (offset : Nat) :
      closingFrom curly 0 depth offset (u ++ (p.head ++ (p.type ++ ";\n".toList)) ++ rest) =
      closingFrom curly 0 depth
        (offset + (u ++ (p.head ++ (p.type ++ ";\n".toList))).length) rest := by
    refine closingFrom_balanced (by decide) (.append_of_not_slash (.of_plain hu) ?_
      (balanced_field h)) hdepth ?_
    · exact fun hlast => notMem_slash_of_isPlain hu (List.mem_of_getLast? hlast)
    · simp
  cases hd : p.description with
  | none =>
    have hdocumentation : p.documentation = [] := by simp [Property.documentation, hd]
    simpa [Property.block, hdocumentation] using hfield [] (by simp) offset
  | some d =>
    have hsplit : p.block ++ rest = '/' :: (("** ".toList ++ (d ++ " */".toList)) ++
        (['\n'] ++ (p.head ++ (p.type ++ ";\n".toList)) ++ rest)) := by
      simp [Property.block, Property.documentation_eq hd, commentOf]
    have hlength : p.block.length = ("** ".toList ++ (d ++ " */".toList)).length + 1 +
        (['\n'] ++ (p.head ++ (p.type ++ ";\n".toList))).length := by
      simp [Property.block, Property.documentation_eq hd, commentOf]
      omega
    rw [hsplit, closingFrom_covered (opaqueTail?_comment (hunmarked d hd).1 _),
      hfield ['\n'] (by decide), hlength, Nat.add_assoc]

theorem closingFrom_blocks {properties : List Property}
    (h : ∀ p ∈ properties, p.WellFormed ∧ p.Unmarked) {depth : Int} (hdepth : 0 < depth)
    (offset : Nat) (rest : Text) :
    closingFrom curly 0 depth offset (properties.flatMap Property.block ++ rest) =
      closingFrom curly 0 depth (offset + (properties.flatMap Property.block).length) rest := by
  induction properties generalizing offset with
  | nil => rfl
  | cons p properties ih =>
    obtain ⟨hp, hunmarked⟩ := h p List.mem_cons_self
    rw [List.flatMap_cons, List.append_assoc, closingFrom_block hp hunmarked hdepth,
      ih fun p hp => h p (.tail _ hp), List.length_append, Nat.add_assoc]

theorem declarationMarker_interface {name : Text} (hname : IsName name) (offset : Nat)
    (previous : Option Char) (rest : Text) :
    declarationMarker name
        ⟨offset, previous, "interface ".toList ++ (name ++ (" \x7b".toList ++ rest))⟩ =
      some ('\x7b' :: rest) := by
  have hfound : afterMost isBlank (afterName? name) (name ++ (" \x7b".toList ++ rest)) =
      some (" \x7b".toList ++ rest) := hname.afterMost_append rfl
  have hlead : afterAny? ["type".toList, "interface".toList]
      ("interface ".toList ++ (name ++ (" \x7b".toList ++ rest))) =
      some (' ' :: (name ++ (" \x7b".toList ++ rest))) := rfl
  have hone : one? isBlank (' ' :: (name ++ (" \x7b".toList ++ rest))) =
      some (' ', name ++ (" \x7b".toList ++ rest)) := rfl
  simp only [declarationMarker, hlead, hone, hfound, Option.bind_eq_bind, Option.bind_some]
  rfl

/-- The declaration that is found is the interface, with the blocks of the properties as body. -/
theorem blockAfter?_interface {properties : List Property}
    (h : ∀ p ∈ properties, p.WellFormed ∧ p.Unmarked) {name : Text} (hname : IsName name)
    (rest : Text) :
    blockAfter? curly (declarationMarker name) ("export interface ".toList ++ (name ++
        (" \x7b\n".toList ++ (properties.flatMap Property.block ++ '\x7d' :: rest)))) =
      some ('\n' :: properties.flatMap Property.block) := by
  let body := '\n' :: properties.flatMap Property.block
  let tail := "interface ".toList ++ (name ++ (" \x7b".toList ++ (body ++ '\x7d' :: rest)))
  let shape : Shape Text := fun at_ =>
    (declarationMarker name at_).map fun rest => (rest, at_.lengthTo rest)
  have hpass : followers (declarationMarker name) ("export interface ".toList ++ (name ++
      (" \x7b\n".toList ++ (properties.flatMap Property.block ++ '\x7d' :: rest)))) =
      hitsFrom shape 0 7 (some ' ') tail := rfl
  let at_ : Cursor := ⟨7, some ' ', tail⟩
  have hhit : shape at_ =
      some ('\x7b' :: (body ++ '\x7d' :: rest),
        at_.lengthTo ('\x7b' :: (body ++ '\x7d' :: rest))) := by
    simp only [shape, at_, tail, declarationMarker_interface hname, Option.map_some]
  obtain ⟨more, hmore⟩ := exists_hitsFrom (by simp [tail]) hhit
  have hbody (offset : Nat) (rest : Text) : closingFrom curly 0 1 offset (body ++ rest) =
      closingFrom curly 0 1 (offset + body.length) rest := by
    rw [List.cons_append, closingFrom_inert rfl (by decide) (by decide),
      closingFrom_blocks h Int.one_pos, List.length_cons]
    congr 1
    omega
  rw [blockAfter?, hpass, hmore, List.find?_cons_of_pos rfl]
  exact block?_of_passed (by decide) (fun offset rest => hbody offset _) rest

/-- The fields of the interface are the properties without their defaults. -/
theorem declaredProperties_propertySource {component : Text} {properties : List Property}
    (h : ∀ p ∈ properties, p.WellFormed ∧ p.Unmarked) (hcomponent : IsName component) :
    declaredProperties (propertySource component properties) (component ++ "Props".toList) =
      properties.map Property.declared := by
  have hname := hcomponent.append (v := "Props".toList) (by decide)
  have hblock : blockAfter? curly (declarationMarker (component ++ "Props".toList))
      (propertySource component properties) = some ('\n' :: properties.flatMap Property.block) :=
    blockAfter?_interface h hname _
  rw [declaredProperties, hblock]
  dsimp only
  rw [documentedFields_blocks h]
  cases properties with
  | nil => rfl
  | cons p properties => rfl

end ComponentCatalog.Component
