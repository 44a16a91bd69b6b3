import ComponentCatalog.Proofs.BlockPassing
import ComponentCatalog.Proofs.DigitLimit
import ComponentCatalog.Proofs.Places
import ComponentCatalog.Proofs.StorySettings

/-!
The controls of a story file. In every file their settings are cut out of the `argTypes` block one
after the other and apart, each from behind its opening brace up to the partner of that brace. So
printed controls are read back, each with the settings it was printed with.
-/
namespace ComponentCatalog.Story

open Text Code
open Component (IsName)

/-- A control in a block: where its name stands, and from where to where its settings. -/
structure ControlSite where
  name : Text
  place : Nat
  first : Nat
  last : Nat
  deriving DecidableEq, Repr

/-- A name, a colon and an opening brace, with blanks at most between them. -/
def IsHead (name head : Text) : Prop :=
  ∃ gap gap', (∀ c ∈ gap ++ gap', isBlank c = true) ∧
    head = name ++ (gap ++ ':' :: (gap' ++ ['\x7b']))

/-- The control has its head in the text, and behind it the settings up to the partner of the
opening brace; where it has none, up to the first closing brace. -/
structure ControlSite.StandsIn (site : ControlSite) (s : Text) : Prop where
  name : IsName site.name
  head : IsHead site.name (slice s site.place site.first)
  ordered : site.place < site.first ∧ site.first ≤ site.last ∧ site.last < s.length
  closing : s[site.last]? = some '\x7d'
  partner : findClosing curly s (site.first - 1 : Nat) = some site.last ∨
    findClosing curly s (site.first - 1 : Nat) = none ∧ '\x7d' ∉ slice s site.first site.last

/-- The settings of the control. -/
def ControlSite.config (s : Text) (site : ControlSite) : Text := slice s site.first site.last

def siteOf? (hit : Hit (Option (Text × Text))) : Option ControlSite :=
  hit.value.map fun (name, config) =>
    ⟨name, hit.first, hit.first + hit.length - 1 - config.length, hit.first + hit.length - 1⟩

/-- Where the controls of a block stand. -/
def controlSites (s : Text) : List ControlSite := (places controlShape s).filterMap siteOf?

section Shape

variable {at_ : Cursor} {name config s : Text} {length : Nat}

theorem controlShape_of_not_isWord {c : Char} (hc : isWord c = false) (offset : Nat)
    (previous : Option Char) (rest : Text) :
    controlShape ⟨offset, previous, c :: rest⟩ = none := by
  have hstart : Cursor.atWordStart ⟨offset, previous, c :: rest⟩ = false := by
    simp [Cursor.atWordStart, hc]
  rw [controlShape, hstart]
  rfl

/-- A control as it is found: its head, its settings and the closing brace behind them. -/
theorem controlShape_eq_some (h : controlShape at_ = some (some (name, config), length)) :
    ∃ head rest, IsName name ∧ IsHead name head ∧ at_.rest = head ++ (config ++ '\x7d' :: rest) ∧
      length = head.length + config.length + 1 ∧
      (closing? curly ('\x7b' :: (config ++ '\x7d' :: rest)) = some (config.length + 1) ∨
        closing? curly ('\x7b' :: (config ++ '\x7d' :: rest)) = none ∧ '\x7d' ∉ config) := by
  simp only [controlShape, Option.bind_eq_bind, Option.bind_eq_some_iff, Prod.exists] at h
  obtain ⟨-, -, name', afterName, hname, afterColon, hcolon, -, -, hfound⟩ := h
  obtain ⟨hne, hword, hrest⟩ := word?_split hname
  obtain ⟨gap, hgap, hafterName⟩ := stripStart_split afterName
  obtain ⟨gap', hgap', hafterColon⟩ := stripStart_split afterColon
  split at hfound
  next config' hblock =>
    cases hfound
    obtain ⟨rest, hbody, hpartner⟩ := block?_eq_some (by decide) hblock
    have hsplit : at_.rest = name ++ (gap ++ ':' :: (gap' ++ stripStart afterColon)) := by
      rw [← hafterColon, hrest]
      exact congrArg (name ++ ·) (hafterName.trans (by rw [after?_eq_some.mp hcolon]; rfl))
    have hgaps : ∀ c ∈ gap ++ gap', isBlank c = true :=
      fun c hc => (List.mem_append.mp hc).elim (hgap c) (hgap' c)
    refine ⟨name ++ (gap ++ ':' :: (gap' ++ ['\x7b'])), rest, ⟨hne, hword⟩, ⟨gap, gap', hgaps, rfl⟩,
      ?_, ?_, ?_⟩
    · rw [hsplit, hbody]
      simp [curly]
    · rw [Cursor.lengthTo, hsplit]
      simp only [List.length_append, List.length_cons, List.length_nil]
      omega
    · rw [hbody] at hpartner
      exact hpartner
  next => cases hfound

/-- A control is found where it is printed, if no word character stands before it. -/
theorem controlShape_control (hname : IsName name) (offset : Nat) {previous : Option Char}
    (hprevious : previous.any isWord = false) {rest : Text}
    (hblock : block? curly rest = some config) (hhead : rest.head? = some '\x7b') :
    controlShape ⟨offset, previous, name ++ (": ".toList ++ rest)⟩ =
      some (some (name, config), name.length + 2 + config.length + 2) := by
  have hstart := hname.atWordStart offset hprevious (": ".toList ++ rest)
  have hword : word? (name ++ (": ".toList ++ rest)) = some (name, ": ".toList ++ rest) :=
    word?_append hname.ne_nil hname.word rfl
  have hcolon : after? [':'] (stripStart (": ".toList ++ rest)) = some (' ' :: rest) := rfl
  have hstrip : stripStart (' ' :: rest) = rest := by
    obtain ⟨tail, rfl⟩ := List.head?_eq_some_iff.mp hhead
    rfl
  rw [controlShape, guard_bind hstart]
  simp only [hword, hcolon, hstrip, hhead, hblock, Option.bind_eq_bind, Option.bind_some,
    Option.pure_def, guard_true, Cursor.lengthTo, List.length_append]
  congr 2
  simp
  omega

end Shape

section Sites

variable {s : Text} {site : ControlSite} {hit : Hit (Option (Text × Text))}

/-- A control that is found stands in the text, with the settings that are read. -/
theorem standsIn_of_siteOf? (hhit : hit ∈ places controlShape s) (hsite : siteOf? hit = some site) :
    hit.value = some (site.name, site.config s) ∧ site.StandsIn s := by
  obtain ⟨⟨name, config⟩, hvalue, rfl⟩ := Option.map_eq_some_iff.mp hsite
  obtain ⟨-, -, hshape⟩ := (scanned_places controlShape s).hit hit hhit
  rw [hvalue] at hshape
  obtain ⟨head, rest, hname, hhead, hdrop, hlength, hpartner⟩ := controlShape_eq_some hshape
  obtain ⟨place, length, value⟩ := hit
  have hdrop : s.drop place = head ++ (config ++ '\x7d' :: rest) := hdrop
  dsimp only at hlength hvalue ⊢
  obtain ⟨init, rfl⟩ : ∃ init, head = init ++ ['\x7b'] := by
    obtain ⟨gap, gap', -, rfl⟩ := hhead
    exact ⟨name ++ (gap ++ ':' :: gap'), by simp⟩
  -- The three places of the control in terms of its parts.
  have hinit : (init ++ ['\x7b']).length = init.length + 1 := by simp
  have hlast : place + length - 1 = place + (init.length + 1) + config.length := by omega
  have hfirst : place + length - 1 - config.length = place + (init.length + 1) := by omega
  rw [hfirst, hlast]
  have hconfig : s.drop (place + (init.length + 1)) = config ++ '\x7d' :: rest := by
    rw [← List.drop_drop, hdrop, ← hinit, List.drop_left]
  have hbrace : s.drop (place + init.length) = '\x7b' :: (config ++ '\x7d' :: rest) := by
    rw [← List.drop_drop, hdrop, List.append_assoc, List.drop_left]
    rfl
  have hslice : slice s (place + (init.length + 1)) (place + (init.length + 1) + config.length) =
      config := by
    rw [slice_add, hconfig, List.take_left]
  have hend : s.drop (place + (init.length + 1) + config.length) = '\x7d' :: rest := by
    rw [← List.drop_drop, hconfig, List.drop_left]
  have hclosing : s[place + (init.length + 1) + config.length]? = some '\x7d' := by
    rw [← List.head?_drop, hend]
    rfl
  have hordered : place < place + (init.length + 1) ∧
      place + (init.length + 1) ≤ place + (init.length + 1) + config.length ∧
      place + (init.length + 1) + config.length < s.length :=
    ⟨by omega, by omega, (List.getElem?_eq_some_iff.mp hclosing).1⟩
  refine ⟨?_, hname, ?_, hordered, hclosing, ?_⟩
  · rw [ControlSite.config, hslice]
    exact hvalue
  · rw [← hinit, slice_add, hdrop, List.take_left]
    exact hhead
  · have hopen : place + (init.length + 1) - 1 = place + init.length := by omega
    dsimp only
    rw [hopen, findClosing_of_lt (by omega), hbrace, hslice]
    refine hpartner.imp (fun hfound => ?_) (fun hnone => ⟨?_, hnone.2⟩)
    · rw [hfound, Option.map_some]
      congr 1
      omega
    · rw [hnone.1, Option.map_none]

theorem standsIn_of_mem_controlSites (h : site ∈ controlSites s) : site.StandsIn s := by
  obtain ⟨hit, hhit, hsite⟩ := List.mem_filterMap.mp h
  exact (standsIn_of_siteOf? hhit hsite).2

/-- The controls stand one after the other. -/
theorem controlSites_apart (s : Text) : (controlSites s).Pairwise fun x y => x.last < y.place := by
  apply (scanned_places controlShape s).apart.filterMap
  intro hit hit' hle x hx y hy
  obtain ⟨_, -, rfl⟩ := Option.map_eq_some_iff.mp hx
  obtain ⟨_, -, rfl⟩ := Option.map_eq_some_iff.mp hy
  unfold Hit.last at hle
  dsimp only
  omega

/-- The names and the settings of the controls are what the scan gives. -/
theorem filterMap_hits_controlShape (s : Text) :
    (hits controlShape s).filterMap id =
      (controlSites s).map fun site => (site.name, site.config s) := by
  rw [← map_value_places, List.filterMap_map, controlSites, List.map_filterMap]
  refine List.filterMap_congr fun hit hhit => ?_
  cases hsite : siteOf? hit with
  | none => exact Option.map_eq_none_iff.mp hsite
  | some site => exact (standsIn_of_siteOf? hhit hsite).1

end Sites

/-- The entry has the name of the control, and the literals that are mined of its settings. -/
def Mined (control : Text × Text) (entry : Text × Entries Value) : Prop :=
  entry.1 = control.1 ∧ parseObjectLiteral control.2 = .ok entry.2

section Reading

variable {code block s : Text} {found : List (Text × Text)}

def readControl (control : Text × Text) : Except DigitError (Text × Entries Value) := do
  return (control.1, ← parseObjectLiteral control.2)

theorem mined_of_readControl {control : Text × Text} {entry : Text × Entries Value}
    (h : readControl control = .ok entry) : Mined control entry := by
  cases hconfig : parseObjectLiteral control.2 with
  | error e =>
    rw [readControl, hconfig] at h
    cases h
  | ok config =>
    rw [readControl, hconfig] at h
    cases h
    exact ⟨rfl, hconfig⟩

/-- Settings without too long a run of digits are all mined. -/
theorem exists_mined (h : ∀ control ∈ found, WithinLimit control.2) :
    ∃ entries, found.mapM readControl = .ok entries ∧ List.Forall₂ Mined found entries := by
  have htotal : ∀ control ∈ found, ∃ entry, readControl control = .ok entry := by
    intro control hcontrol
    obtain ⟨config, hconfig⟩ :=
      (failsWithin_parseObjectLiteral control.2).exists_ok (h control hcontrol)
    exact ⟨(control.1, config), by rw [readControl, hconfig]; rfl⟩
  have hnone : FailsWithin [] (found.mapM readControl) := .mapM fun control hcontrol => by
    obtain ⟨entry, hentry⟩ := htotal control hcontrol
    rw [hentry]
    exact .ok _
  obtain ⟨entries, hentries⟩ := hnone.exists_ok fun run hrun _ => by
    rw [List.infix_nil.mp hrun]
    exact Nat.zero_le _
  exact ⟨entries, hentries, (Entries.forall₂_of_mapM hentries).imp fun _ _ => mined_of_readControl⟩

theorem controls_of_none (h : blockAfter? curly (keyed "argTypes".toList) code = none) :
    controls code = .ok [] := by
  rw [controls, h]

/-- The controls of a file are mined from the settings that the scan of the block gives. -/
theorem controls_of_block (h : blockAfter? curly (keyed "argTypes".toList) code = some block)
    (hlimit : ∀ control ∈ (hits controlShape block).filterMap id, WithinLimit control.2) :
    ∃ entries, List.Forall₂ Mined ((hits controlShape block).filterMap id) entries ∧
      controls code = .ok (Entries.ofPairs entries) := by
  obtain ⟨entries, hread, hmined⟩ := exists_mined hlimit
  refine ⟨entries, hmined, ?_⟩
  have hcontrols : controls code = (((hits controlShape block).filterMap id).mapM readControl >>=
      fun pairs => return Entries.ofPairs pairs) := by
    rw [controls, h]
    rfl
  rw [hcontrols, hread]
  rfl

end Reading

/-- Blanks lengthen no run of digits. -/
theorem withinLimit_padded {s : Text} (h : WithinLimit s) : WithinLimit (' ' :: (s ++ [' '])) := by
  have hspace : isDecimal ' ' ≠ true := by decide
  intro run hrun hdigits
  have hend : ∀ t, run = t ++ [' '] → False := by
    rintro t rfl
    exact hspace (hdigits ' ' (by simp))
  rcases List.infix_cons_iff.mp hrun with hprefix | hinfix
  · rcases List.prefix_cons_iff.mp hprefix with rfl | ⟨t, rfl, -⟩
    · exact Nat.zero_le _
    · exact absurd (hdigits ' ' List.mem_cons_self) hspace
  · rcases List.infix_concat_iff.mp hinfix with hsuffix | hinfix
    · rcases List.suffix_concat_iff.mp hsuffix with rfl | ⟨t, rfl, -⟩
      · exact Nat.zero_le _
      · exact (hend t rfl).elim
    · exact h run hinfix hdigits

/-- A control with the text of its settings. -/
structure Control where
  name : Text
  config : Text

/-- The settings with a blank on either side. -/
def Control.padded (c : Control) : Text := ' ' :: (c.config ++ [' '])

def Control.block (c : Control) : Text := '\x7b' :: (c.padded ++ ['\x7d'])

def Control.source (c : Control) : Text := c.name ++ (": ".toList ++ c.block)

/-- The controls one behind the other. -/
def controlsBody (cs : List Control) : Text :=
  ' ' :: (join ", ".toList (cs.map Control.source) ++ [' '])

def controlsSource (cs : List Control) : Text :=
  "argTypes: \x7b".toList ++ (controlsBody cs ++ ['\x7d'])

/-- The settings hold what they may: the final brace and none before it closes them, and no run of
digits is too long. -/
structure Control.WellFormed (c : Control) : Prop where
  name : IsName c.name
  closed : findClosing curly c.block (0 : Nat) = some (c.config.length + 3)
  digits : WithinLimit c.config

section Printed

variable {c : Control} {cs : List Control}

theorem Control.length_block (c : Control) : c.block.length = c.config.length + 4 := by
  simp [block, padded]

theorem Control.WellFormed.passes_block (h : c.WellFormed) : Passes curly c.block :=
  passes_of_findClosing (by decide)
    (List.forall_mem_cons.mpr ⟨by decide, List.forall_mem_singleton.mpr (by decide)⟩)
    h.closed (c.length_block.trans rfl)

theorem Control.WellFormed.passes_source (h : c.WellFormed) : Passes curly c.source :=
  (passes_of_plain (by decide) fun d hd => isPlain_of_isWord (h.name.word d hd)).append
    ((passes_of_plain (by decide) (by decide)).append h.passes_block)

theorem passes_controlsBody (h : ∀ c ∈ cs, c.WellFormed) : Passes curly (controlsBody cs) := by
  have hspace : Passes curly [' '] := passes_of_plain (by decide) (by decide)
  refine hspace.append (.append (passes_join (by decide) fun part hpart => ?_) hspace)
  obtain ⟨c, hc, rfl⟩ := List.mem_map.mp hpart
  exact (h c hc).passes_source

theorem trailing_of_eq_some {marker : Marker} {at_ : Cursor} {rest : Text}
    (h : marker at_ = some rest) : trailing marker at_ = some (rest, at_.lengthTo rest) := by
  rw [trailing, h]
  rfl

/-- The block of the controls is found, with all of them. -/
theorem blockAfter?_controlsSource (h : ∀ c ∈ cs, c.WellFormed) :
    blockAfter? curly (keyed "argTypes".toList) (controlsSource cs) = some (controlsBody cs) := by
  have hkeyed (rest : Text) : keyed "argTypes".toList
      ⟨0, none, "argTypes".toList ++ (": \x7b".toList ++ rest)⟩ = some (" \x7b".toList ++ rest) := by
    have hboundary : isBoundary none (some 'a') = true := by decide
    rw [keyed, after?_append]
    exact if_pos hboundary
  have hstrip (rest : Text) : stripStart (" \x7b".toList ++ rest) = '\x7b' :: rest := rfl
  have hleads (rest : Text) : leadsTo curly (" \x7b".toList ++ rest) = true := by
    rw [leadsTo, hstrip]
    rfl
  have hsplit : controlsSource cs =
      "argTypes".toList ++ (": \x7b".toList ++ (controlsBody cs ++ ['\x7d'])) := rfl
  obtain ⟨more, hmore⟩ := exists_hitsFrom (by simp) (trailing_of_eq_some (hkeyed _))
  rw [blockAfter?_eq, hits, hsplit, hmore, List.find?_cons_of_pos (hleads _), Option.bind_some,
    hstrip]
  exact block?_of_passed (b := curly) (by decide)
    (fun offset rest => passes_controlsBody h 1 offset _ le_rfl) []

theorem Control.WellFormed.block?_block (h : c.WellFormed) (rest : Text) :
    block? curly (c.block ++ rest) = some c.padded := by
  have hsplit : c.block ++ rest = '\x7b' :: (c.padded ++ '\x7d' :: rest) := by simp [Control.block]
  have hwhole : slice c.block 0 (c.config.length + 3 + 1) = c.block := by
    rw [slice, ← c.length_block, List.take_length, List.drop_zero]
  have hfound := findClosing_slice (b := curly) (by decide) (by decide) h.closed [] rest
  rw [hwhole, List.nil_append, List.length_nil, Nat.zero_add, Nat.sub_zero] at hfound
  have hlength : c.config.length + 3 = c.padded.length + 1 := by simp [Control.padded]
  rw [block?_of_findClosing hfound, hsplit, hlength, slice, List.take_succ_cons, List.take_left]
  rfl

/-- A printed control is found as one, and the scan goes on behind it. -/
theorem hitsFrom_control (h : c.WellFormed) (offset : Nat) {previous : Option Char}
    (hprevious : previous.any isWord = false) (rest : Text) :
    hitsFrom controlShape 0 offset previous (c.source ++ rest) =
      some (c.name, c.padded) ::
        hitsFrom controlShape 0 (offset + c.source.length) (some '\x7d') rest := by
  have hne : c.source ≠ [] := List.append_ne_nil_of_left_ne_nil h.name.ne_nil _
  have hsplit : c.source ++ rest = c.name ++ (": ".toList ++ (c.block ++ rest)) := by
    simp [Control.source]
  have hlength : c.source.length = c.name.length + 2 + c.padded.length + 2 := by
    simp [Control.source, Control.block]
    omega
  have hshape : controlShape ⟨offset, previous, c.source ++ rest⟩ =
      some (some (c.name, c.padded), c.source.length) := by
    rw [hsplit, controlShape_control h.name offset hprevious (h.block?_block rest) rfl, hlength]
  have hlast : lastOf previous c.source = some '\x7d' := by
    simp [Control.source, Control.block, lastOf]
  rw [hitsFrom_hit hne hshape, hlast]

theorem hitsFrom_controlShape_skip {u : Text} (hu : ∀ d ∈ u, isWord d = false) (offset : Nat)
    (previous : Option Char) (rest : Text) :
    hitsFrom controlShape 0 offset previous (u ++ rest) =
      hitsFrom controlShape 0 (offset + u.length) (lastOf previous u) rest :=
  hitsFrom_pass fun v d w hsplit o q =>
    controlShape_of_not_isWord (hu d (by simp [hsplit])) o q (w ++ rest)

theorem hitsFrom_controls (h : ∀ c ∈ cs, c.WellFormed) (offset : Nat) {previous : Option Char}
    (hprevious : previous.any isWord = false) :
    hitsFrom controlShape 0 offset previous (join ", ".toList (cs.map Control.source) ++ [' ']) =
      cs.map fun c => some (c.name, c.padded) := by
  induction cs generalizing offset previous with
  | nil => exact hitsFrom_controlShape_skip (u := [' ']) (by decide) offset previous []
  | cons c cs ih =>
    have hc := h c List.mem_cons_self
    cases cs with
    | nil =>
      have hone : join ", ".toList ([c].map Control.source) = c.source := List.append_nil _
      rw [hone, hitsFrom_control hc offset hprevious]
      rfl
    | cons d cs =>
      have hjoin : join ", ".toList ((c :: d :: cs).map Control.source) ++ [' '] =
          c.source ++ (", ".toList ++
            (join ", ".toList ((d :: cs).map Control.source) ++ [' '])) := by
        rw [List.map_cons, List.map_cons, join_cons_cons]
        simp only [List.append_assoc]
      have hspace : (some ' ').any isWord = false := rfl
      rw [hjoin, hitsFrom_control hc offset hprevious, hitsFrom_controlShape_skip (by decide),
        show lastOf (some '\x7d') ", ".toList = some ' ' from rfl,
        ih (fun c hc => h c (.tail _ hc)) _ hspace]
      rfl

/-- The scan of the block finds the printed controls and no others. -/
theorem hits_controlsBody (h : ∀ c ∈ cs, c.WellFormed) :
    hits controlShape (controlsBody cs) = cs.map fun c => some (c.name, c.padded) := by
  have hspace : ∀ d ∈ [' '], isWord d = false := by decide
  have hskip := hitsFrom_controlShape_skip hspace 0 none
    (join ", ".toList (cs.map Control.source) ++ [' '])
  exact hskip.trans (hitsFrom_controls h 1 rfl)

theorem keys_of_mined {found : List (Text × Text)} {entries : List (Text × Entries Value)}
    (h : List.Forall₂ Mined found entries) : Entries.keys entries = found.map Prod.fst := by
  induction h with
  | nil => rfl
  | cons hmined _ ih =>
    rw [Entries.keys, List.map_cons, List.map_cons, hmined.1]
    exact congrArg (_ :: ·) ih

theorem controls_controlsSource (h : ∀ c ∈ cs, c.WellFormed)
    (hnames : (cs.map Control.name).Nodup) :
    ∃ found, controls (controlsSource cs) = .ok found ∧
      List.Forall₂ (fun c entry => Mined (c.name, c.padded) entry) cs found := by
  have hfound : (hits controlShape (controlsBody cs)).filterMap id =
      cs.map fun c => (c.name, c.padded) := by
    rw [hits_controlsBody h, List.filterMap_map]
    exact congrFun List.filterMap_eq_map cs
  obtain ⟨entries, hmined, hcontrols⟩ := controls_of_block (blockAfter?_controlsSource h) <| by
    rw [hfound]
    intro control hcontrol
    obtain ⟨c, hc, rfl⟩ := List.mem_map.mp hcontrol
    exact withinLimit_padded (h c hc).digits
  rw [hfound] at hmined
  have hkeys : (Entries.keys entries).Nodup := by
    rw [keys_of_mined hmined, List.map_map]
    exact hnames
  rw [Entries.ofPairs_eq_self hkeys] at hcontrols
  exact ⟨entries, hcontrols, List.forall₂_map_left_iff.mp hmined⟩

end Printed

/-- Printed controls are read back, in order and with nothing between them lost or added. In every
other file too, unless a run of digits is too long, all settings are mined, and they are cut out of
the block one after the other and apart. -/
theorem controls_read_back_and_apart :
    (∀ cs : List Control, (∀ c ∈ cs, c.WellFormed) → (cs.map Control.name).Nodup →
      ∃ found, controls (controlsSource cs) = .ok found ∧
        List.Forall₂ (fun c entry => Mined (c.name, c.padded) entry) cs found) ∧
    ∀ code : Text, WithinLimit code →
      (blockAfter? curly (keyed "argTypes".toList) code = none → controls code = .ok []) ∧
      ∀ block, blockAfter? curly (keyed "argTypes".toList) code = some block →
        (∀ site ∈ controlSites block, site.StandsIn block) ∧
        (controlSites block).Pairwise (fun x y => x.last < y.place) ∧
        ∃ entries, controls code = .ok (Entries.ofPairs entries) ∧
          List.Forall₂ (fun site entry => Mined (site.name, site.config block) entry)
            (controlSites block) entries := by
  refine ⟨fun cs h hnames => controls_controlsSource h hnames, fun code hlimit =>
    ⟨controls_of_none, fun block hblock => ⟨fun site => standsIn_of_mem_controlSites,
      controlSites_apart block, ?_⟩⟩⟩
  have hfound := filterMap_hits_controlShape block
  obtain ⟨entries, hmined, hcontrols⟩ := controls_of_block hblock <| by
    rw [hfound]
    intro control hcontrol
    obtain ⟨site, -, rfl⟩ := List.mem_map.mp hcontrol
    have hpart : site.config block <:+: block :=
      (List.drop_suffix _ _).isInfix.trans (List.take_prefix _ _).isInfix
    exact hlimit.of_isInfix (hpart.trans ((keyed_trails _).blockAfter? hblock))
  rw [hfound] at hmined
  exact ⟨entries, hcontrols, List.forall₂_map_left_iff.mp hmined⟩

/-- Settings with a brace in a literal, a nested entry that looks like a control, and a comment. -/
def nestedControls : List Control :=
  [⟨"size".toList, "if: '\x7d', control: \x7b type: 'select' \x7d".toList⟩,
    ⟨"on".toList, "/* \x7d */".toList⟩]

/-- A block in which a control is begun in a comment. -/
def commentedControl : Text := "argTypes: \x7b /* a: \x7b */ b: \x7b y: 1 \x7d \x7d".toList

theorem controls_of_nestedControls :
    (∀ c ∈ nestedControls, c.WellFormed) ∧ (nestedControls.map Control.name).Nodup ∧
      (∃ found, controls (controlsSource nestedControls) = .ok found ∧
        List.Forall₂ (fun c entry => Mined (c.name, c.padded) entry) nestedControls found) ∧
      WithinLimit commentedControl ∧
      ∃ block, blockAfter? curly (keyed "argTypes".toList) commentedControl = some block ∧
        controlSites block = [⟨"a".toList, 4, 8, 22⟩] ∧
        (∀ site ∈ controlSites block, site.StandsIn block) ∧
        ∃ entries, controls commentedControl = .ok (Entries.ofPairs entries) ∧
          List.Forall₂ (fun site entry => Mined (site.name, site.config block) entry)
            (controlSites block) entries := by
  have hformed : ∀ c ∈ nestedControls, c.WellFormed := by
    refine List.forall_mem_cons.mpr ⟨?_, List.forall_mem_singleton.mpr ?_⟩
    · exact ⟨by decide, by decide, WithinLimit.of_length_le (by decide)⟩
    · exact ⟨by decide, by decide, WithinLimit.of_length_le (by decide)⟩
  have hnames : (nestedControls.map Control.name).Nodup := by decide
  have hlimit : WithinLimit commentedControl := WithinLimit.of_length_le (by decide)
  have hblock : blockAfter? curly (keyed "argTypes".toList) commentedControl =
      some " /* a: \x7b */ b: \x7b y: 1 \x7d ".toList := by decide +kernel
  obtain ⟨hstands, -, hentries⟩ := (controls_read_back_and_apart.2 _ hlimit).2 _ hblock
  exact ⟨hformed, hnames, controls_read_back_and_apart.1 _ hformed hnames, hlimit, _, hblock,
    by decide +kernel, hstands, hentries⟩

end ComponentCatalog.Story
