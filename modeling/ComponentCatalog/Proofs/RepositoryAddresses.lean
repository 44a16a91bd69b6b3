import ComponentCatalog.Proofs.PercentEncoding
import ComponentCatalog.Proofs.Reading
import ComponentCatalog.Proofs.Scanning
import ComponentCatalog.Service.Address
import ComponentCatalog.Source.GitHub

/-!
What the addresses of a repository are read as. The path of an address goes from behind the host to
the first question mark or number sign, and its parameters from there to the number sign.
-/
namespace ComponentCatalog

open Text

namespace Url

/-- The character ends the path of an address. -/
def endsPath (c : Char) : Bool := c == '?' || c == '#'

/-- What an address has behind its host. -/
def behindHost (url : Text) : Text :=
  match cut? "://".toList url with
  | some (_, rest) => rest.dropWhile fun c => c != '/' && !endsPath c
  | none => url

/-- The path of an address with its escapes resolved. -/
def path (url : Text) : Text := unquote ((behindHost url).takeWhile (!endsPath ·))

/-- The parameters of an address with their escapes resolved. -/
def parameters (url : Text) : List (Text × Text) :=
  match cut? ['?'] (before ['#'] (behindHost url)) with
  | some (_, query) => Service.Address.parametersOf query
  | none => []

/-- No character of the text means something else in the path of an address. -/
def Literal (s : Text) : Prop := ∀ c ∈ s, endsPath c = false ∧ c ≠ '%'

instance (s : Text) : Decidable (Literal s) :=
  inferInstanceAs (Decidable (∀ c ∈ s, endsPath c = false ∧ c ≠ '%'))

variable {url lead s t query more : Text} {c : Char}

theorem endsPath_iff : endsPath c = true ↔ c = '?' ∨ c = '#' := by
  rw [endsPath, Bool.or_eq_true, beq_iff_eq, beq_iff_eq]

theorem endsPath_of_mem_quote (h : c ∈ quote s) : endsPath c = false := by
  rw [Bool.eq_false_iff, ne_eq, endsPath_iff]
  rintro (rfl | rfl)
  all_goals exact notMem_quote (by decide) (by decide) h

theorem literal_append : Literal (s ++ t) ↔ Literal s ∧ Literal t := List.forall_mem_append

theorem Literal.unquote (h : Literal s) : unquote s = s :=
  unquote_of_notMem fun hmem => (h _ hmem).2 rfl

theorem behindHost_eq {scheme host : Text} (hscheme : ':' ∉ scheme)
    (hhost : ∀ c ∈ host, (c != '/' && !endsPath c) = true) (rest : Text) :
    behindHost (scheme ++ ("://".toList ++ (host ++ '/' :: rest))) = '/' :: rest := by
  have hcut : cut? "://".toList (scheme ++ ("://".toList ++ (host ++ '/' :: rest))) =
      some (scheme, host ++ '/' :: rest) := cut?_append hscheme
  rw [behindHost, hcut]
  dsimp only
  rw [List.dropWhile_append_of_pos hhost, List.dropWhile_cons_of_neg (by decide)]

/-- A path that ends in a quoted part is read up to the end of that part. -/
theorem path_of_quoted (h : behindHost url = lead ++ '/' :: (quote s ++ more))
    (hlead : ∀ c ∈ lead, endsPath c = false) (hmore : more.takeWhile (!endsPath ·) = []) :
    path url = unquote lead ++ '/' :: s := by
  have hquoted : ∀ c ∈ quote s, (!endsPath c) = true := fun c hc => by
    rw [endsPath_of_mem_quote hc]
    rfl
  rw [path, h, List.takeWhile_append_of_pos fun c hc => by rw [hlead c hc]; rfl,
    List.takeWhile_cons_of_pos (by decide), List.takeWhile_append_of_pos hquoted, hmore,
    List.append_nil, unquote_append_slash, unquote_quote]

/-- A mark before the end of the path cuts it off there. -/
theorem length_path_le (h : behindHost url = lead ++ more) (hc : c ∈ lead)
    (hends : endsPath c = true) : (path url).length ≤ lead.length := by
  have hshort : (lead.takeWhile (!endsPath ·)).length ≠ lead.length := fun hlength => by
    have hself := (List.takeWhile_prefix (l := lead) (!endsPath ·)).eq_of_length hlength
    have hplain := List.takeWhile_eq_self_iff.mp hself c hc
    simp [hends] at hplain
  have hle := length_unquote_le (lead.takeWhile (!endsPath ·))
  rw [path, h, List.takeWhile_append, if_neg hshort]
  exact hle.trans (List.takeWhile_prefix _).length_le

theorem parameters_of_query (h : behindHost url = lead ++ '?' :: query)
    (hlead : ∀ c ∈ lead, endsPath c = false) (hquery : '#' ∉ query) :
    parameters url = Service.Address.parametersOf query := by
  have hquestion : '?' ∉ lead := fun hc => absurd (hlead _ hc) (by decide)
  have hhash : '#' ∉ lead ++ '?' :: query :=
    List.not_mem_append (fun hc => absurd (hlead _ hc) (by decide))
      (List.not_mem_cons_of_ne_of_not_mem (by decide) hquery)
  have hcut : cut? ['?'] (lead ++ '?' :: query) = some (lead, query) := cut?_append hquestion
  rw [parameters, h, before_eq_self hhash, hcut]

/-- A quoted value of a parameter is read back. -/
theorem parametersOf_quoted {name : Text} (hamp : '&' ∉ name) (heq : '=' ∉ name)
    (hplus : '+' ∉ name) (hescape : '%' ∉ name) (value : Text) :
    Service.Address.parametersOf (name ++ '=' :: quote value) = [(name, value)] := by
  have hamps : '&' ∉ name ++ '=' :: quote value :=
    List.not_mem_append hamp
      (List.not_mem_cons_of_ne_of_not_mem (by decide) (notMem_quote (by decide) (by decide)))
  have hcut : cut? ['='] (name ++ '=' :: quote value) = some (name, quote value) := cut?_append heq
  have hblanks {s : Text} (hs : '+' ∉ s) : s.map (fun c => if c = '+' then ' ' else c) = s :=
    (List.map_congr_left fun c hc => if_neg (ne_of_mem_of_not_mem hc hs)).trans (List.map_id' s)
  rw [Service.Address.parametersOf, List.splitOn_eq_singleton hamps, List.filter_singleton,
    decide_eq_true (by simp), cond_true, List.map_singleton, Service.Address.parameterOf, hcut]
  dsimp only
  rw [hblanks hplus, hblanks (notMem_quote (by decide) (by decide)), unquote_of_notMem hescape,
    unquote_quote]

end Url

namespace GitHub

variable {r : Repository} {s : Session Web}

/-- A call makes one request, however it is answered. -/
theorem requests_body (r : Repository) (url path accept : Text) (s : Session Web) :
    ((body r url path accept).run s).2.state.requests =
      s.state.requests ++ [request r url accept] := by
  unfold body
  simp only [Reading.run_bind, Reading.run_report, Reading.run_get, Reading.run_modify]
  split
  · rfl
  · rfl
  · split
    · rfl
    · split <;> rfl

theorem requests_fetchText (r : Repository) (path : Text) (s : Session Web) :
    ((fetchText r path).run s).2.state.requests =
      s.state.requests ++ [request r (fileUrl r path) "text/plain".toList] := by
  rw [← requests_body r (fileUrl r path) path, fetchText, Reading.run_bind]
  split <;> simp_all

theorem requests_listDirectory (r : Repository) (path : Text) (s : Session Web) :
    ((listDirectory r path).run s).2.state.requests =
      s.state.requests ++
        [request r (listingUrl r path) "application/vnd.github+json".toList] := by
  rw [← requests_body r (listingUrl r path) path, listDirectory, Reading.run_bind]
  split
  · rename_i octets t hrun
    rw [hrun]
    dsimp only
    cases directoryNames path octets <;> rfl
  · simp_all

/-- A name of word characters, dots and hyphens. -/
def IsSlug (s : Text) : Prop := ∀ c ∈ s, isWord c = true ∨ c = '-' ∨ c = '.'

instance (s : Text) : Decidable (IsSlug s) :=
  inferInstanceAs (Decidable (∀ c ∈ s, isWord c = true ∨ c = '-' ∨ c = '.'))

/-- The path of the repository among the files. -/
def Repository.place (r : Repository) : Text := '/' :: (r.owner ++ '/' :: r.name)

/-- The path of its branch. -/
def Repository.branchPlace (r : Repository) : Text := r.place ++ '/' :: r.branch

/-- The path of the contents of the repository among the listings. -/
def Repository.contentsPlace (r : Repository) : Text :=
  '/' :: ("repos".toList ++ (r.place ++ "/contents".toList))

theorem IsSlug.literal {name : Text} (h : IsSlug name) : Url.Literal name := by
  have hmarks {mark : Char} (hword : isWord mark = false) (hhyphen : mark ≠ '-')
      (hdot : mark ≠ '.') : mark ∉ name := fun hc => by
    rcases h mark hc with hc | hc | hc
    · exact Bool.false_ne_true (hword.symm.trans hc)
    · exact hhyphen hc
    · exact hdot hc
  refine fun c hc => ⟨?_, ?_⟩
  · rw [Bool.eq_false_iff, ne_eq, Url.endsPath_iff]
    rintro (rfl | rfl)
    all_goals exact hmarks (by decide) (by decide) (by decide) hc
  · rintro rfl
    exact hmarks (by decide) (by decide) (by decide) hc

theorem literal_place (howner : IsSlug r.owner) (hname : IsSlug r.name) : Url.Literal r.place := by
  have hslash : Url.Literal ['/'] := by decide
  exact Url.literal_append.mpr ⟨hslash, Url.literal_append.mpr
    ⟨howner.literal, Url.literal_append.mpr ⟨hslash, hname.literal⟩⟩⟩

theorem literal_contentsPlace (howner : IsSlug r.owner) (hname : IsSlug r.name) :
    Url.Literal r.contentsPlace := by
  have hrepos : Url.Literal ('/' :: "repos".toList) := by decide
  have hcontents : Url.Literal "/contents".toList := by decide
  exact Url.literal_append.mpr ⟨hrepos, Url.literal_append.mpr
    ⟨literal_place howner hname, hcontents⟩⟩

theorem behindHost_fileUrl (r : Repository) (path : Text) :
    Url.behindHost (fileUrl r path) = r.branchPlace ++ '/' :: Url.quote (normalizePath path) := by
  have hlead : "https://raw.githubusercontent.com/".toList =
      "https".toList ++ ("://".toList ++ ("raw.githubusercontent.com".toList ++ ['/'])) := by
    decide +kernel
  unfold fileUrl
  rw [hlead]
  simp only [List.append_assoc, List.cons_append, List.nil_append, Repository.branchPlace,
    Repository.place]
  exact Url.behindHost_eq (by decide) (by decide) _

theorem behindHost_listingUrl (r : Repository) (path : Text) :
    Url.behindHost (listingUrl r path) =
      r.contentsPlace ++ '/' :: (Url.quote (normalizePath path) ++
        '?' :: ("ref".toList ++ '=' :: Url.quote r.branch)) := by
  have hlead : "https://api.github.com/repos/".toList =
      "https".toList ++ ("://".toList ++ ("api.github.com".toList ++ '/' :: "repos/".toList)) := by
    decide +kernel
  have hslash : "repos/".toList = "repos".toList ++ ['/'] := rfl
  have hcontents : "/contents/".toList = "/contents".toList ++ ['/'] := rfl
  have hquery : "?ref=".toList = '?' :: ("ref".toList ++ ['=']) := rfl
  unfold listingUrl
  simp only [hlead, hslash, hcontents, hquery, List.append_assoc, List.cons_append, List.nil_append,
    Repository.contentsPlace, Repository.place]
  exact Url.behindHost_eq (by decide) (by decide) _

theorem path_listingUrl (howner : IsSlug r.owner) (hname : IsSlug r.name) (path : Text) :
    Url.path (listingUrl r path) = r.contentsPlace ++ '/' :: normalizePath path := by
  have hliteral := literal_contentsPlace howner hname
  rw [Url.path_of_quoted (behindHost_listingUrl r path) (fun c hc => (hliteral c hc).1) rfl,
    hliteral.unquote]

theorem parameters_listingUrl (howner : IsSlug r.owner) (hname : IsSlug r.name) (path : Text) :
    Url.parameters (listingUrl r path) = [("ref".toList, r.branch)] := by
  have hlead : ∀ c ∈ r.contentsPlace ++ '/' :: Url.quote (normalizePath path),
      Url.endsPath c = false := by
    rw [List.forall_mem_append, List.forall_mem_cons]
    exact ⟨fun c hc => (literal_contentsPlace howner hname c hc).1, rfl,
      fun c hc => Url.endsPath_of_mem_quote hc⟩
  have hquery : '#' ∉ "ref".toList ++ '=' :: Url.quote r.branch :=
    List.not_mem_append (by decide)
      (List.not_mem_cons_of_ne_of_not_mem (by decide) (Url.notMem_quote (by decide) (by decide)))
  have hbehind := behindHost_listingUrl r path
  rw [← List.cons_append, ← List.append_assoc] at hbehind
  rw [Url.parameters_of_query hbehind hlead hquery]
  exact Url.parametersOf_quoted (by decide) (by decide) (by decide) (by decide) r.branch

/-- A branch without a mark stands in the path, where its escapes are resolved. -/
theorem path_fileUrl (howner : IsSlug r.owner) (hname : IsSlug r.name)
    (hbranch : ∀ c ∈ r.branch, Url.endsPath c = false) (path : Text) :
    Url.path (fileUrl r path) =
      r.place ++ '/' :: (Url.unquote r.branch ++ '/' :: normalizePath path) := by
  have hliteral := literal_place howner hname
  have hlead : ∀ c ∈ r.branchPlace, Url.endsPath c = false := by
    rw [Repository.branchPlace, List.forall_mem_append, List.forall_mem_cons]
    exact ⟨fun c hc => (hliteral c hc).1, rfl, hbranch⟩
  have hbehind := behindHost_fileUrl r path
  rw [← List.append_nil (Url.quote _)] at hbehind
  rw [Url.path_of_quoted hbehind hlead rfl, Repository.branchPlace, Url.unquote_append_slash,
    hliteral.unquote, List.append_assoc, List.cons_append]

theorem path_fileUrl_iff (howner : IsSlug r.owner) (hname : IsSlug r.name) (path : Text) :
    Url.path (fileUrl r path) = r.branchPlace ++ '/' :: normalizePath path ↔
      '?' ∉ r.branch ∧ '#' ∉ r.branch ∧ ¬Url.HasEscape r.branch := by
  by_cases hbranch : ∀ c ∈ r.branch, Url.endsPath c = false
  · have hquestion : '?' ∉ r.branch := fun h => absurd (hbranch _ h) (by decide)
    have hhash : '#' ∉ r.branch := fun h => absurd (hbranch _ h) (by decide)
    rw [path_fileUrl howner hname hbranch, Repository.branchPlace, List.append_assoc,
      List.append_right_inj, List.cons_append, List.cons_inj_right, List.append_left_inj,
      Url.unquote_eq_self_iff]
    exact ⟨fun h => ⟨hquestion, hhash, h⟩, fun h => h.2.2⟩
  · -- The path is cut off within the branch, so that it is too short.
    obtain ⟨c, hc, hends⟩ : ∃ c ∈ r.branch, Url.endsPath c = true := by simpa using hbranch
    have hmem : c ∈ r.branchPlace := List.mem_append_right _ (.tail _ hc)
    have hshort := Url.length_path_le (behindHost_fileUrl r path) hmem hends
    refine iff_of_false (fun h => ?_) fun ⟨hquestion, hhash, _⟩ => ?_
    · rw [h, List.length_append, List.length_cons] at hshort
      omega
    · rcases Url.endsPath_iff.mp hends with rfl | rfl
      · exact hquestion hc
      · exact hhash hc

/-- A listing is asked for at its path, and on its branch. A file is asked for at its path on its
branch exactly if the branch has no question mark, number sign or escape, as the branch is not
quoted there. -/
theorem addresses_against_branch (howner : IsSlug r.owner) (hname : IsSlug r.name) (path : Text)
    (s : Session Web) :
    ∃ file listing : Request,
      ((fetchText r path).run s).2.state.requests = s.state.requests ++ [file] ∧
      ((listDirectory r path).run s).2.state.requests = s.state.requests ++ [listing] ∧
      Url.path listing.url = r.contentsPlace ++ '/' :: normalizePath path ∧
      Url.parameters listing.url = [("ref".toList, r.branch)] ∧
      (Url.path file.url = r.branchPlace ++ '/' :: normalizePath path ↔
        '?' ∉ r.branch ∧ '#' ∉ r.branch ∧ ¬Url.HasEscape r.branch) :=
  ⟨_, _, requests_fetchText r path s, requests_listDirectory r path s,
    path_listingUrl howner hname path, parameters_listingUrl howner hname path,
    path_fileUrl_iff howner hname path⟩

/-- A repository whose branch has a number sign. -/
def markedRepository : Repository := ⟨"grafana".toList, "grafana".toList, "fix#1".toList, none⟩

/-- A program at its beginning, on a web of empty files. -/
def freshSession : Session Web := ⟨⟨fun _ => .body [], [], 0⟩, []⟩

theorem addresses_of_markedRepository :
    IsSlug markedRepository.owner ∧ IsSlug markedRepository.name ∧
      ∃ file listing : Request,
        ((fetchText markedRepository "a.ts".toList).run freshSession).2.state.requests = [file] ∧
        ((listDirectory markedRepository "a.ts".toList).run freshSession).2.state.requests =
          [listing] ∧
        Url.path listing.url = "/repos/grafana/grafana/contents/a.ts".toList ∧
        Url.parameters listing.url = [("ref".toList, "fix#1".toList)] ∧
        Url.path file.url ≠ "/grafana/grafana/fix#1/a.ts".toList := by
  have howner : IsSlug markedRepository.owner := by decide
  have hname : IsSlug markedRepository.name := by decide
  obtain ⟨file, listing, hfile, hlisting, hpath, href, hiff⟩ :=
    addresses_against_branch howner hname "a.ts".toList freshSession
  refine ⟨howner, hname, file, listing, hfile, hlisting, hpath, href, fun h => ?_⟩
  exact (hiff.mp h).2.1 (by decide)

end GitHub

end ComponentCatalog
