import EdgeSync.Proofs.Web.Following
import EdgeSync.Proofs.Web.Hosted
import EdgeSync.Proofs.Web.Paths
import EdgeSync.Sync.Registration

/-!
# Where Tokens Are Exchanged

The address where a token is exchanged is put together as a text: the base without the slashes at
its end, the route, and the token as it is. Then the whole text is read. Whatever the token is, the
request stays at the host and port of the base. The token makes one segment that stands for it
exactly if it is plain, and the segments in front of it are those of the base exactly if the text of
the base is level: if slashes at its end and behind its path are the same.

## Main definitions

- `stem`, `Based`: what counts of a base, and how it is read
- `Intends`: the address that is wanted
- `IsPlain`, `IsLevel`, `IsTidy`: tokens and bases

## Main results

- `exists_based`: how the text of a base is read
- `Based.parse?_registrationAddress`: how the whole text is read
- `Requests`, `exists_requests`: where the requests go
- `dots_leave_route`: tokens and bases with dots
- `addresses_of_read`: what is requested with which token
-/

namespace EdgeSync

open EdgeSync.Text EdgeSync.Web

/-! ## Cleaning -/

section Cleaning

variable {p : Char → Bool} {d : Char}

theorem dropWhile_append_cons (hd : p d = false) (cs ds : List Char) :
    (cs ++ d :: ds).dropWhile p = cs.dropWhile p ++ d :: ds := by
  induction cs with
  | nil => exact List.dropWhile_cons_of_neg (by simp [hd])
  | cons c cs ih =>
    rw [List.cons_append, List.dropWhile_cons, List.dropWhile_cons, ih]
    split <;> rfl

theorem dropEndWhile_append_cons (hd : p d = false) (cs ds : List Char) :
    dropEndWhile p (cs ++ d :: ds) = cs ++ d :: dropEndWhile p ds := by
  have hreverse : (cs ++ d :: ds).reverse = ds.reverse ++ d :: cs.reverse := by simp
  rw [dropEndWhile, hreverse, dropWhile_append_cons hd]
  simp [dropEndWhile]

/-- The characters that count, but for those at the ends. -/
def unbroken (cs : List Char) : List Char :=
  cs.filter fun c => !isLineBreak c

end Cleaning

/-- A base without the slashes at its end. -/
def bare (base : String) : List Char :=
  dropEndWhile (· == '/') base.toList

/-- What counts of a base when something follows it. -/
def stem (base : String) : List Char :=
  unbroken ((bare base).dropWhile isEdge)

theorem clean_append (base : String) (rest : List Char) :
    clean (bare base ++ '/' :: rest) = stem base ++ '/' :: unbroken (dropEndWhile isEdge rest) := by
  rw [clean, dropWhile_append_cons (by rfl), dropEndWhile_append_cons (by rfl), List.filter_append]
  rfl

/-- Slashes always count. -/
theorem unbroken_slashes (count : Nat) :
    unbroken (dropEndWhile isEdge (List.replicate count '/')) = List.replicate count '/' := by
  have hslash : ∀ c ∈ List.replicate count '/', c = '/' := fun c => List.eq_of_mem_replicate
  have hlast : ∀ c ∈ (List.replicate count '/').getLast?, isEdge c = false := by
    intro c hc
    rw [hslash c (List.mem_of_getLast? hc)]
    rfl
  rw [dropEndWhile_eq_self hlast, unbroken, List.filter_eq_self]
  intro c hc
  rw [hslash c hc]
  rfl

/-- A base is its stem and slashes; or it ends with blanks, which count when something follows. -/
theorem clean_cases (base : String) :
    (∃ count, clean base.toList = stem base ++ List.replicate count '/') ∨
      ∃ e rest, isEdge e = true ∧ (∀ c ∈ rest, isEdge c = true) ∧
        stem base = clean base.toList ++ e :: rest ∧
        ∃ c ∈ (bare base).getLast?, isEdge c = true := by
  obtain ⟨slashes, hbase, hslashes⟩ := exists_dropEndWhile (· == '/') base.toList
  change base.toList = bare base ++ slashes at hbase
  obtain ⟨count, rfl⟩ : ∃ count, slashes = List.replicate count '/' :=
    ⟨_, List.eq_replicate_of_mem fun c hc => by simpa using hslashes c hc⟩
  cases count with
  | succ count =>
    -- Behind a slash no blank is dropped.
    refine .inl ⟨count + 1, ?_⟩
    rw [hbase, List.replicate_succ, clean_append, unbroken_slashes]
  | zero =>
    rw [List.replicate_zero, List.append_nil] at hbase
    obtain ⟨edges, hcut, hedges⟩ := exists_dropEndWhile isEdge ((bare base).dropWhile isEdge)
    have hstem : stem base = clean base.toList ++ unbroken edges := by
      rw [stem, hcut, unbroken, List.filter_append, ← unbroken, hbase, clean]
      rfl
    cases hkept : unbroken edges with
    | nil =>
      refine .inl ⟨0, ?_⟩
      rw [hstem, hkept, List.replicate_zero, List.append_nil, List.append_nil]
    | cons e rest =>
      have hkeptEdges : ∀ c ∈ e :: rest, isEdge c = true := fun c hc =>
        hedges c (List.mem_of_mem_filter (hkept ▸ hc))
      rw [List.forall_mem_cons] at hkeptEdges
      refine .inr ⟨e, rest, hkeptEdges.1, hkeptEdges.2, by rw [hstem, hkept], ?_⟩
      -- The blanks at the end of the base are those that were dropped.
      have hne : edges ≠ [] := by
        rintro rfl
        cases hkept
      refine ⟨edges.getLast hne, ?_, hedges _ (List.getLast_mem hne)⟩
      have hwhole : bare base = (bare base).takeWhile isEdge ++
          (dropEndWhile isEdge ((bare base).dropWhile isEdge) ++ edges) := by
        rw [← hcut, List.takeWhile_append_dropWhile]
      rw [hwhole, ← List.append_assoc, List.getLast?_append_of_ne_nil _ hne]
      exact List.getLast?_eq_getLast_of_ne_nil hne

/-! ## Bases -/

/-- The scheme of the requests. -/
def httpScheme : List Char := ['h', 't', 't', 'p']

theorem isSpecial_httpScheme : isSpecial httpScheme = true := by decide

theorem httpScheme_ne_fileScheme : httpScheme ≠ fileScheme := by decide

/-- The segments of a path without the empty ones at its end. -/
def Web.Url.trunk (u : Url) : List (List Char) :=
  match u.path with
  | .segments items => Web.trunk items
  | .whole _ => []

/-- An address with another path. -/
def Web.Url.withPath (u : Url) (items : List (List Char)) : Url :=
  { u with path := .segments items }

/-- Slashes at the end of the text of a base and behind its path are the same: with one slash it
is the base with one slash. -/
def IsLevel (names : NameForm) (base : String) (u : Url) : Prop :=
  Url.parse? names (String.ofList (bare base ++ ['/'])) = some (u.withPath (u.trunk ++ [[]]))

/-- The text of a base without its last slashes does not end with a blank, and its last segment is
neither empty nor made of dots. -/
structure IsTidy (base : String) : Prop where
  last : ∀ c ∈ (bare base).getLast?, isEdge c = false
  plain : EndsPlain (splitOn (isDivider true) (stem base))

variable {names : NameForm} {base : String} {u : Url} {scheme place tail cs : List Char}
  {a : Authority}

/-- How the text of a base is read: a place, which says what the host is, and a path. -/
structure Based (names : NameForm) (base : String) (u : Url) (place tail : List Char)
    (a : Authority) : Prop where
  split : Split httpScheme place tail (stem base)
  nonempty : place ≠ []
  authority : ∀ last, readAuthority? names httpScheme last place = some a
  uncut : ∀ c ∈ tail, endsPath c = false
  reads : u = ⟨httpScheme, a.userInfo, some a.host, a.port, u.path, none, none⟩
  tidy : IsTidy base → u.trunk = walk [] (pieces tail)

theorem endsPath_eq_false_of_hosted (hquery : (Url.hosted scheme a tail).query = none)
    (hfragment : (Url.hosted scheme a tail).fragment = none) :
    ∀ c ∈ tail, endsPath c = false := by
  have hdrop : (tail.dropWhile fun c => !endsPath c) = [] := by
    cases hrest : tail.dropWhile fun c => !endsPath c with
    | nil => rfl
    | cons c rest =>
      have hends : endsPath c = true := by
        simpa using head_dropWhile (fun c => !endsPath c) tail c (by rw [hrest]; rfl)
      simp only [Url.hosted, hrest] at hquery hfragment
      simp only [endsPath, Bool.or_eq_true, beq_iff_eq] at hends
      rcases hends with rfl | rfl
      · cases hquery
      · cases hfragment
  intro c hc
  simpa using List.dropWhile_eq_nil_iff.mp hdrop c hc

/-- A blank ends neither a place nor a path. -/
theorem endsAuthority_eq_false_of_edge {c : Char} (h : isEdge c = true) :
    endsAuthority true c = false := by
  rw [← Bool.not_eq_true]
  intro hends
  simp only [endsAuthority, isDivider, endsPath, Bool.true_and, Bool.or_eq_true,
    beq_iff_eq] at hends
  rcases hends with (rfl | rfl) | rfl | rfl <;> exact absurd h (by decide)

/-- Behind a place there is nothing, a query, a fragment, or a path that begins with a divider. -/
theorem isDivider_head (h : Split scheme place tail cs)
    (huncut : ∀ c ∈ tail, endsPath c = false) : ∀ c ∈ tail.head?, isDivider true c = true := by
  intro c hc
  have hends := h.ends c hc
  rwa [endsAuthority, huncut c (List.mem_of_mem_head? hc), Bool.or_false] at hends

/-- The last segment of a text is that of its path. -/
theorem endsPlain_pieces (h : Split scheme place tail cs)
    (huncut : ∀ c ∈ tail, endsPath c = false) (hplain : EndsPlain (splitOn (isDivider true) cs)) :
    EndsPlain (pieces tail) := by
  cases tail with
  | nil => exact nofun
  | cons d tail =>
    obtain ⟨word, dividers, -, -, -, rfl⟩ := h.leads
    rw [← List.append_assoc, splitOn_append_divider (isDivider_head h huncut d rfl)] at hplain
    intro last hlast
    refine hplain last ?_
    rw [List.getLast?_append_of_ne_nil _ (splitOn_ne_nil _ _)]
    exact hlast

/-- A base without query and fragment has a host that goes with everything behind it; or nothing
can be read if something follows. -/
theorem exists_based (h : Url.parse? names base = some u)
    (hscheme : u.scheme = httpScheme) (hquery : u.query = none) (hfragment : u.fragment = none) :
    (∃ place tail a, Based names base u place tail a) ∨
      ∃ place e rest, isEdge e = true ∧ (∀ c ∈ rest, isEdge c = true) ∧
        Split httpScheme (place ++ e :: rest) [] (stem base) ∧ ¬ IsTidy base := by
  have hspecial : isSpecial u.scheme = true := hscheme ▸ isSpecial_httpScheme
  have hfile : u.scheme ≠ fileScheme := hscheme ▸ httpScheme_ne_fileScheme
  obtain ⟨place, tail, a, hsplit, hauthority, hu⟩ := exists_split h hspecial hfile
  rw [hscheme] at hsplit hauthority hu
  subst hu
  have hnonempty : place ≠ [] := by
    rintro rfl
    rw [readAuthority?_nil isSpecial_httpScheme] at hauthority
    cases hauthority
  have hall : ∀ last, readAuthority? names httpScheme last place = some a := fun last =>
    (readAuthority?_last isSpecial_httpScheme _ _ _).trans hauthority
  -- Without query and fragment all that follows the place is a path.
  have huncut := endsPath_eq_false_of_hosted hquery hfragment
  have hreads : Url.hosted httpScheme a tail = ⟨httpScheme, a.userInfo, some a.host, a.port,
      (Url.hosted httpScheme a tail).path, none, none⟩ := by
    show Url.mk _ _ _ _ _ (Url.hosted httpScheme a tail).query
      (Url.hosted httpScheme a tail).fragment = _
    rw [hquery, hfragment]
    rfl
  rcases clean_cases base with ⟨count, hclean⟩ | ⟨e, rest, he, hrest, hstem, c, hc, hedge⟩
  · rw [hclean] at hsplit
    obtain ⟨before, rfl, hbefore⟩ := hsplit.of_append_slashes hnonempty fun c hc =>
      List.eq_of_mem_replicate hc
    have huncut' : ∀ c ∈ before, endsPath c = false :=
      fun c hc => huncut c (List.mem_append_left _ hc)
    refine .inl ⟨place, before, a, hbefore, hnonempty, hall, huncut', hreads, fun htidy => ?_⟩
    have hpath : ((before ++ List.replicate count '/').takeWhile fun c => !endsPath c) =
        before ++ List.replicate count '/' :=
      List.takeWhile_eq_self_iff.mpr fun c hc => by rw [huncut c hc]; rfl
    simp only [Url.hosted, Url.trunk, hpath]
    exact trunk_readSegments (isDivider_head hbefore huncut')
      (endsPlain_pieces hbefore huncut' htidy.plain) count
  · have huntidy : ¬ IsTidy base := by
      intro htidy
      rw [htidy.last c hc] at hedge
      cases hedge
    have hwithin : ∀ c ∈ e :: rest, endsAuthority true c = false := by
      rw [List.forall_mem_cons]
      exact ⟨endsAuthority_eq_false_of_edge he,
        fun c hc => endsAuthority_eq_false_of_edge (hrest c hc)⟩
    -- The blanks become a part of the place, or of the last segment.
    rcases eq_or_ne tail [] with rfl | htail
    · refine .inr ⟨place, e, rest, he, hrest, ?_, huntidy⟩
      rw [hstem]
      exact hsplit.append_place hnonempty hwithin
    · refine .inl ⟨place, tail ++ e :: rest, a, ?_, hnonempty, hall, ?_, hreads,
        fun htidy => absurd htidy huntidy⟩
      · rw [hstem]
        exact hsplit.append hnonempty fun hnil => absurd hnil htail
      · rw [List.forall_mem_append]
        refine ⟨huncut, fun c hc => ?_⟩
        exact (Bool.or_eq_false_iff.mp (hwithin c hc)).2

/-! ## Addresses -/

/-- The segments between those of the base and the token. -/
def route : List (List Char) :=
  [['s', 'a', 't', 'e', 'l', 'l', 'i', 't', 'e', 's'], ['z', 't', 'r']]

/-- What is left of a token in the text of an address. -/
def kept (token : List Char) : List Char :=
  unbroken (dropEndWhile isEdge token)

/-- What is left of it in the path. -/
def routed (token : List Char) : List Char :=
  (kept token).takeWhile fun c => !endsPath c

/-- What goes on behind the stem of a base. -/
theorem Based.parse? (h : Based names base u place tail a) {text : String} {rest : List Char}
    (htext : clean text.toList = stem base ++ '/' :: rest) :
    Url.parse? names text = some { u with
      path := .segments (addSegments (walk [] (pieces tail))
        (splitOn (isDivider true) (rest.takeWhile fun c => !endsPath c)))
      query := readQuery true (rest.dropWhile fun c => !endsPath c)
      fragment := readFragment (rest.dropWhile fun c => !endsPath c) } := by
  have hsplit : Split httpScheme place (tail ++ '/' :: rest) (clean text.toList) := by
    rw [htext]
    refine h.split.append h.nonempty fun _ => ?_
    rintro c ⟨⟩
    rfl
  have hrun : ∀ c ∈ tail, (!endsPath c) = true := fun c hc => by rw [h.uncut c hc]; rfl
  have htake : ((tail ++ '/' :: rest).takeWhile fun c => !endsPath c) =
      tail ++ '/' :: rest.takeWhile fun c => !endsPath c := by
    rw [List.takeWhile_append_of_pos hrun]
    rfl
  have hdrop : ((tail ++ '/' :: rest).dropWhile fun c => !endsPath c) =
      rest.dropWhile fun c => !endsPath c := by
    rw [List.dropWhile_append_of_pos hrun]
    rfl
  rw [parse?_of_split isSpecial_httpScheme httpScheme_ne_fileScheme hsplit, h.authority,
    Option.map_some, h.reads, Url.hosted, htake, hdrop,
    readSegments_append (isDivider_head h.split h.uncut)]

theorem clean_registrationAddress (base token : String) :
    clean (registrationAddress base token).toList =
      stem base ++ '/' :: ("satellites/ztr/".toList ++ kept token.toList) := by
  have htext : (registrationAddress base token).toList =
      bare base ++ '/' :: ("satellites/ztr".toList ++ '/' :: token.toList) := by
    simp [registrationAddress, bare]
  rw [htext, clean_append, dropEndWhile_append_cons (by rfl), unbroken, List.filter_append]
  rfl

theorem walk_route (path : List (List Char)) : walk path route = path ++ route := by
  have hsteps : walk path route = (path ++ [route[0]]) ++ [route[1]] := rfl
  rw [hsteps, List.append_assoc]
  rfl

/-- The text of an address is read as the path of the base, the route, and the segments that the
token makes. -/
theorem Based.parse?_registrationAddress (h : Based names base u place tail a) (token : String) :
    Url.parse? names (registrationAddress base token) = some { u with
      path := .segments (addSegments (walk [] (pieces tail) ++ route)
        (splitOn (isDivider true) (routed token.toList)))
      query := readQuery true ((kept token.toList).dropWhile fun c => !endsPath c)
      fragment := readFragment ((kept token.toList).dropWhile fun c => !endsPath c) } := by
  have hrun : ∀ c ∈ "satellites/ztr/".toList, (!endsPath c) = true :=
    List.all_eq_true.mp rfl
  have hsplit : splitOn (isDivider true) ("satellites/ztr/".toList ++ routed token.toList) =
      route ++ splitOn (isDivider true) (routed token.toList) := rfl
  rw [h.parse? (clean_registrationAddress base token), List.takeWhile_append_of_pos hrun,
    List.dropWhile_append_of_pos hrun, ← routed, hsplit, addSegments_append (splitOn_ne_nil _ _),
    walk_route]

theorem clean_slashed (base : String) :
    clean (String.ofList (bare base ++ ['/'])).toList = stem base ++ ['/'] := by
  rw [String.toList_ofList, clean_append]
  rfl

/-- A base is level if and only if its path without the empty segments at the end is what its text
makes of it when something follows. -/
theorem Based.isLevel_iff (h : Based names base u place tail a) :
    IsLevel names base u ↔ walk [] (pieces tail) = u.trunk := by
  have hquery : u.query = none := by rw [h.reads]
  have hfragment : u.fragment = none := by rw [h.reads]
  have hslashed : Url.parse? names (String.ofList (bare base ++ ['/'])) =
      some (u.withPath (walk [] (pieces tail) ++ [[]])) := by
    rw [h.parse? (clean_slashed base), Url.withPath, hquery, hfragment]
    rfl
  rw [IsLevel, hslashed, Option.some.injEq, Url.withPath, Url.withPath, Url.mk.injEq]
  simp

/-- With a blank at the end of its place nothing can be read. -/
theorem parse?_eq_none_of_edge {text : String} {rest more : List Char} {e : Char}
    (he : isEdge e = true) (hrest : ∀ c ∈ rest, isEdge c = true)
    (hsplit : Split httpScheme (place ++ e :: rest) [] cs)
    (htext : clean text.toList = cs ++ '/' :: more) : Url.parse? names text = none := by
  have hlong : Split httpScheme (place ++ e :: rest) ('/' :: more) (clean text.toList) := by
    rw [htext]
    refine hsplit.append (List.append_ne_nil_of_right_ne_nil _ (List.cons_ne_nil _ _)) fun _ => ?_
    rintro c ⟨⟩
    rfl
  rw [parse?_of_split isSpecial_httpScheme httpScheme_ne_fileScheme hlong,
    readAuthority?_edge isSpecial_httpScheme he hrest, Option.map_none]

/-! ## Tokens -/

/-- A token of which nothing is lost in the text of an address, and which makes one segment that
stands for it. -/
structure IsPlain (token : List Char) : Prop extends IsPlainSegment token where
  uncut : ∀ c ∈ token, endsPath c = false
  unbroken : ∀ c ∈ token, isLineBreak c = false
  last : ∀ c ∈ token.getLast?, isEdge c = false

theorem kept_sublist (token : List Char) : (kept token).Sublist token :=
  List.filter_sublist.trans (List.rdropWhile_prefix isEdge token).sublist

theorem routed_sublist (token : List Char) : (routed token).Sublist token :=
  (List.takeWhile_sublist _).trans (kept_sublist token)

theorem kept_eq_self_iff {token : List Char} :
    kept token = token ↔
      (∀ c ∈ token, isLineBreak c = false) ∧ ∀ c ∈ token.getLast?, isEdge c = false := by
  constructor
  · intro h
    have hsub : (kept token).Sublist (dropEndWhile isEdge token) := List.filter_sublist
    rw [h] at hsub
    have hdrop : dropEndWhile isEdge token = token :=
      (List.rdropWhile_prefix isEdge token).sublist.antisymm hsub
    rw [kept, hdrop, unbroken, List.filter_eq_self] at h
    refine ⟨fun c hc => by simpa using h c hc, ?_⟩
    rw [← hdrop]
    exact getLast?_dropEndWhile isEdge token
  · rintro ⟨hunbroken, hlast⟩
    rw [kept, dropEndWhile_eq_self hlast, unbroken, List.filter_eq_self]
    intro c hc
    rw [hunbroken c hc]
    rfl

theorem routed_eq_self_iff {token : List Char} :
    routed token = token ↔ kept token = token ∧ ∀ c ∈ token, endsPath c = false := by
  constructor
  · intro h
    have hsub : (routed token).Sublist (kept token) := List.takeWhile_sublist _
    rw [h] at hsub
    have hkept : kept token = token := (kept_sublist token).antisymm hsub
    rw [routed, hkept, List.takeWhile_eq_self_iff] at h
    exact ⟨hkept, fun c hc => by simpa using h c hc⟩
  · rintro ⟨hkept, huncut⟩
    rw [routed, hkept, List.takeWhile_eq_self_iff]
    intro c hc
    rw [huncut c hc]
    rfl

theorem isPlain_iff {token : List Char} :
    IsPlain token ↔ routed token = token ∧ IsPlainSegment token := by
  rw [routed_eq_self_iff, kept_eq_self_iff]
  constructor
  · exact fun h => ⟨⟨⟨h.unbroken, h.last⟩, h.uncut⟩, h.toIsPlainSegment⟩
  · rintro ⟨⟨⟨hunbroken, hlast⟩, huncut⟩, hplain⟩
    exact ⟨hplain, huncut, hunbroken, hlast⟩

theorem isPlain_iff_unescape {token : List Char} :
    IsPlain token ↔ routed token = token ∧ (token.all fun c => !isDivider true c) = true ∧
      isDot token = false ∧ isDoubleDot token = false ∧ unescape token = bytes token := by
  have hundivided : (token.all fun c => !isDivider true c) = true ↔
      ∀ c ∈ token, isDivider true c = false := by
    simp
  rw [isPlain_iff, hundivided, unescape_eq_bytes_iff]
  exact and_congr_right fun _ => ⟨fun h => ⟨h.undivided, h.noDot, h.noDoubleDot, h.noEscape⟩,
    fun h => ⟨h.1, h.2.1, h.2.2.1, h.2.2.2⟩⟩

/-- It can be computed whether a token is plain. -/
instance (token : List Char) : Decidable (IsPlain token) :=
  decidable_of_iff _ isPlain_iff_unescape.symm

/-! ## What Is Requested -/

/-- The host and the port of an address are those of another one, and so are the account and the
scheme. -/
structure SameHost (u target : Url) : Prop where
  scheme : target.scheme = u.scheme
  userInfo : target.userInfo = u.userInfo
  host : target.host = u.host
  port : target.port = u.port

/-- An address is the wanted one for a token: at the same host it has the path of the base, without
slashes at the end, the route, and one more segment, which stands for the token. -/
structure Intends (u : Url) (token : String) (target : Url) : Prop extends SameHost u target where
  path : ∃ last, target.path = .segments (u.trunk ++ route ++ [last]) ∧
    unescapeText? last = some token

/-- The wanted address is read if and only if the base is level and the token is plain. -/
theorem Based.intends_iff (h : Based names base u place tail a) (token : String) :
    (∃ target, Url.parse? names (registrationAddress base token) = some target ∧
      Intends u token target) ↔ IsLevel names base u ∧ IsPlain token.toList := by
  have hstands := addSegments_stands_iff (walk [] (pieces tail) ++ route) (u.trunk ++ route)
    (routed_sublist token.toList)
  rw [h.parse?_registrationAddress, h.isLevel_iff, isPlain_iff]
  -- What stands in front of the token is the route behind the base, if anything is.
  rw [List.append_left_inj] at hstands
  rw [← hstands]
  constructor
  · rintro ⟨target, heq, hintends⟩
    cases heq
    obtain ⟨last, hpath, hlast⟩ := hintends.path
    exact ⟨last, Path.segments.inj hpath, unescapeText?_eq_some_iff.mp hlast⟩
  · rintro ⟨last, hpath, hlast⟩
    exact ⟨_, rfl, ⟨rfl, rfl, rfl, rfl⟩, last, congrArg Path.segments hpath,
      unescapeText?_eq_some_iff.mpr hlast⟩

/-- With a level base and a plain token nothing but the path is different from the base. -/
theorem Based.parse?_plain (h : Based names base u place tail a) (hlevel : IsLevel names base u)
    {token : String} (hplain : IsPlain token.toList) :
    Url.parse? names (registrationAddress base token) =
      some (u.withPath (u.trunk ++ route ++ [escape pathMarks token.toList])) := by
  have hrouted := (isPlain_iff.mp hplain).1
  have hkept := (routed_eq_self_iff.mp hrouted).1
  have hnothing : (token.toList.dropWhile fun c => !endsPath c) = [] :=
    List.dropWhile_eq_nil_iff.mpr fun c hc => by rw [hplain.uncut c hc]; rfl
  have hquery : u.query = none := by rw [h.reads]
  have hfragment : u.fragment = none := by rw [h.reads]
  have hpath : addSegments (u.trunk ++ route) [token.toList] =
      u.trunk ++ route ++ [escape pathMarks token.toList] :=
    finish_plain hplain.noDot hplain.noDoubleDot _
  rw [h.parse?_registrationAddress, h.isLevel_iff.mp hlevel, hrouted, hkept, hnothing,
    splitOn_eq_singleton hplain.undivided, hpath, Url.withPath, hquery, hfragment]
  rfl

theorem Based.hasHost (h : Based names base u place tail a) : u.hasHost = true := by
  have hhost := isEmpty_of_readAuthority? isSpecial_httpScheme (h.authority true)
  rw [h.reads, Url.hasHost, Option.any_some, hhost]
  rfl

/-- The requests that are made for a token: the first one goes to the address for the token, and
each later one where the reply to the one before sends the client. -/
structure Requests (n : Network) (base : String) (token : String) (target : Url)
    (requests : List Request) : Prop where
  appended : (register n base token).2.requests = n.requests ++ requests
  first : ∃ header, requests.head? = some ⟨target.withoutAccount.withoutFragment.text, header⟩
  later : List.IsChain n.SendsOn requests

/-- If requests come in, an address with a host is requested. -/
theorem exists_requests {n : Network} (hreachable : n.isReachable = true) {token : String}
    {target : Url} (hparse : Url.parse? n.names (registrationAddress base token) = some target)
    (hscheme : target.scheme = httpScheme) (hhost : target.hasHost = true) :
    ∃ requests, Requests n base token target requests := by
  have hshape : target.withoutAccount.scheme = target.scheme ∧
      target.withoutAccount.host = target.host := by
    rw [Url.withoutAccount]
    split <;> exact ⟨rfl, rfl⟩
  have hweb : target.withoutAccount.isWeb = true := by rw [Url.isWeb, hshape.1, hscheme]; rfl
  have hhost' : target.withoutAccount.hasHost = true := by
    rw [Url.hasHost, hshape.2]
    exact hhost
  have hfollow := n.follow_requests Network.maxHops target.withoutAccount
    ((target.account?.or none).map Account.header)
  rw [Network.ask_of_isReachable hweb hhost' hreachable] at hfollow
  refine ⟨_, ?_, ⟨_, hfollow.1⟩, hfollow.2⟩
  simp only [register, Network.getText, hparse, Network.get]

/-- Addresses with a host that differ in the last segment only have different texts. -/
theorem last_eq_of_text {u : Url} (hhost : u.host.isNone = false) {front : List (List Char)}
    {last last' : List Char}
    (h : (u.withPath (front ++ [last])).withoutAccount.withoutFragment.text =
      (u.withPath (front ++ [last'])).withoutAccount.withoutFragment.text) : last = last' := by
  -- What becomes of the account does not depend on the path.
  have hkeep : ∀ items, (u.withPath items).withoutAccount.withoutFragment =
      u.withoutAccount.withoutFragment.withPath items := by
    intro items
    have haccount : (u.withPath items).account? = u.account? := rfl
    simp only [Url.withoutAccount, haccount]
    split <;> rfl
  have hstill : u.withoutAccount.withoutFragment.host.isNone = false := by
    rw [Url.withoutAccount]
    split <;> exact hhost
  rw [hkeep, hkeep, Url.text, Url.text, String.ofList_inj] at h
  have hpath : ∀ items, (u.withoutAccount.withoutFragment.withPath items).pathText =
      items.flatMap fun segment => '/' :: segment := by
    intro items
    simp [Url.pathText, Url.withPath, hstill]
  have hauthority : ∀ items, (u.withoutAccount.withoutFragment.withPath items).authorityText =
      u.withoutAccount.withoutFragment.authorityText := fun _ => rfl
  simp only [Url.chars, hpath, hauthority, List.flatMap_append, List.flatMap_singleton] at h
  simpa [Url.withPath] using h

/-- What is requested at a base with which token. -/
structure Addresses (names : NameForm) (base : String) (u : Url) : Prop where
  /-- Whatever the token is, the request stays at the host. -/
  stays : ∀ token target, Url.parse? names (registrationAddress base token) = some target →
    SameHost u target
  /-- The wanted address is read if and only if the base is level and the token is plain. -/
  intends : ∀ token, (∃ target, Url.parse? names (registrationAddress base token) = some target ∧
    Intends u token target) ↔ IsLevel names base u ∧ IsPlain token.toList
  /-- Then nothing but the path is different from the base. -/
  plain : ∀ token, IsLevel names base u → IsPlain token.toList →
    Url.parse? names (registrationAddress base token) =
      some (u.withPath (u.trunk ++ route ++ [escape pathMarks token.toList]))
  /-- A tidy base is level. -/
  tidy : IsTidy base → IsLevel names base u
  /-- If requests come in, the address is requested, and then only those are where the replies
  send the client. -/
  requests : ∀ (n : Network) token target, n.names = names → n.isReachable = true →
    Url.parse? names (registrationAddress base token) = some target →
    ∃ requests, Requests n base token target requests
  /-- Different plain tokens never make the same requests. -/
  distinct : ∀ (n : Network) token token', n.names = names → n.isReachable = true →
    IsLevel names base u → IsPlain token.toList → IsPlain token'.toList →
    (register n base token).2.requests = (register n base token').2.requests → token = token'

theorem Based.addresses (h : Based names base u place tail a) : Addresses names base u := by
  have hstays : ∀ token target, Url.parse? names (registrationAddress base token) = some target →
      SameHost u target := by
    intro token target htarget
    rw [h.parse?_registrationAddress] at htarget
    cases htarget
    exact ⟨rfl, rfl, rfl, rfl⟩
  have hscheme : u.scheme = httpScheme := by rw [h.reads]
  have hrequests : ∀ (n : Network) token target, n.names = names → n.isReachable = true →
      Url.parse? names (registrationAddress base token) = some target →
      ∃ requests, Requests n base token target requests := by
    rintro n token target rfl hreachable htarget
    obtain ⟨hsame, -, hhost, -⟩ := hstays token target htarget
    have htargetHost : target.hasHost = true := by
      rw [Url.hasHost, hhost]
      exact h.hasHost
    exact exists_requests hreachable htarget (hsame.trans hscheme) htargetHost
  refine ⟨hstays, h.intends_iff, fun _ hlevel hplain => h.parse?_plain hlevel hplain,
    fun htidy => h.isLevel_iff.mpr (h.tidy htidy).symm, hrequests, ?_⟩
  intro n token token' hnames hreachable hlevel hplain hplain' hequal
  obtain ⟨requests, happended, ⟨header, hfirst⟩, -⟩ :=
    hrequests n token _ hnames hreachable (h.parse?_plain hlevel hplain)
  obtain ⟨requests', happended', ⟨header', hfirst'⟩, -⟩ :=
    hrequests n token' _ hnames hreachable (h.parse?_plain hlevel hplain')
  -- The first request tells the addresses apart.
  rw [happended, happended', List.append_right_inj] at hequal
  rw [hequal, hfirst', Option.some.injEq, Request.mk.injEq] at hfirst
  have hhost : u.host.isNone = false := by rw [h.reads]; rfl
  have hlast := last_eq_of_text hhost hfirst.1
  -- The segment says which token it stands for.
  have hstands : ∀ t : String, IsPlain t.toList →
      unescapeText? (escape pathMarks t.toList) = some t := by
    intro t ht
    rw [unescapeText?_eq_some_iff, isSafe_pathMarks.unescape_escape]
    exact unescape_eq_bytes_iff.mpr ht.noEscape
  have hread := hstands token' hplain'
  rw [hlast, hstands token hplain] at hread
  exact Option.some.inj hread

/-- For every base that requests can be sent to, without query and fragment, it is known what is
requested with which token. -/
theorem addresses_of_read (hparse : Url.parse? names base = some u)
    (hscheme : u.scheme = httpScheme) (hquery : u.query = none) (hfragment : u.fragment = none) :
    Addresses names base u := by
  rcases exists_based hparse hscheme hquery hfragment with
    ⟨place, tail, a, hbased⟩ | ⟨place, e, rest, he, hrest, hsplit, huntidy⟩
  · exact hbased.addresses
  · -- Nothing is read, whether the route follows or only a slash.
    have hnone : ∀ token, Url.parse? names (registrationAddress base token) = none := fun token =>
      parse?_eq_none_of_edge he hrest hsplit (clean_registrationAddress base token)
    have hnotLevel : ¬ IsLevel names base u := by
      rw [IsLevel, parse?_eq_none_of_edge he hrest hsplit (clean_slashed base)]
      exact nofun
    refine ⟨?_, ?_, fun _ hlevel => absurd hlevel hnotLevel,
      fun htidy => absurd htidy huntidy, ?_, fun _ _ _ _ _ hlevel => absurd hlevel hnotLevel⟩
    · intro token target htarget
      rw [hnone] at htarget
      cases htarget
    · intro token
      rw [hnone]
      exact iff_of_false (fun ⟨_, htarget, _⟩ => nomatch htarget) fun hboth => hnotLevel hboth.1
    · intro n token target _ _ htarget
      rw [hnone] at htarget
      cases htarget

/-! ## Plain Tokens and Others -/

/-- A host that is known by its name, with a path. -/
def groundControl (path : List (List Char)) : Url :=
  ⟨httpScheme, .none, some (.name "gc.example.com".toList), none, .segments path, none, none⟩

/-- Slashes at the end of a base and a token that needs escapes do no harm. -/
theorem addresses_groundControl :
    Url.parse? asciiOnly "http://gc.example.com/edge//" =
        some (groundControl [['e', 'd', 'g', 'e'], [], []]) ∧
      Addresses asciiOnly "http://gc.example.com/edge//"
        (groundControl [['e', 'd', 'g', 'e'], [], []]) ∧
      IsTidy "http://gc.example.com/edge//" ∧ IsPlain "50% <now>".toList := by
  have hparse : Url.parse? asciiOnly "http://gc.example.com/edge//" =
      some (groundControl [['e', 'd', 'g', 'e'], [], []]) := by
    decide +kernel
  have hlast : (bare "http://gc.example.com/edge//").getLast? = some 'e' := by decide +kernel
  have hsegment : (splitOn (isDivider true) (stem "http://gc.example.com/edge//")).getLast? =
      some ['e', 'd', 'g', 'e'] := by
    decide +kernel
  have htidy : IsTidy "http://gc.example.com/edge//" := by
    refine ⟨fun c hc => ?_, fun segment hmem => ?_⟩
    · cases hlast.symm.trans hc
      rfl
    · cases hsegment.symm.trans hmem
      exact ⟨List.cons_ne_nil _ _, rfl, rfl⟩
  have hplain : IsPlain "50% <now>".toList := by decide +kernel
  exact ⟨hparse, addresses_of_read hparse rfl rfl rfl, htidy, hplain⟩

/-- A token with dots takes away the end of the route, so that the request goes elsewhere, and
another token is requested alike. A base that ends with a dot keeps an empty segment in front of the
route, whatever the token is. -/
theorem dots_leave_route :
    Url.parse? asciiOnly "http://gc.example.com" = some (groundControl [[]]) ∧
      (¬ ∃ target, Url.parse? asciiOnly (registrationAddress "http://gc.example.com" "../x") =
        some target ∧ Intends (groundControl [[]]) "../x" target) ∧
      (register (.bare true) "http://gc.example.com" "../x").2.requests =
        [⟨"http://gc.example.com/satellites/x", none⟩] ∧
      Url.parse? asciiOnly (registrationAddress "http://gc.example.com" "./x") =
        Url.parse? asciiOnly (registrationAddress "http://gc.example.com" "x") ∧
      Url.parse? asciiOnly "http://gc.example.com/a//." = some (groundControl [['a'], [], []]) ∧
      ¬ ∃ target, Url.parse? asciiOnly (registrationAddress "http://gc.example.com/a//." "x") =
        some target ∧ Intends (groundControl [['a'], [], []]) "x" target := by
  have htoken : Url.parse? asciiOnly (registrationAddress "http://gc.example.com" "../x") =
      some (groundControl ["satellites".toList, ['x']]) := by
    decide +kernel
  have hbase : Url.parse? asciiOnly (registrationAddress "http://gc.example.com/a//." "x") =
      some (groundControl [['a'], [], "satellites".toList, "ztr".toList, ['x']]) := by
    decide +kernel
  refine ⟨by decide +kernel, ?_, by decide +kernel, by decide +kernel, by decide +kernel, ?_⟩
  · rintro ⟨target, htarget, hintends⟩
    rw [htoken] at htarget
    cases htarget
    obtain ⟨last, hpath, -⟩ := hintends.path
    have htrunk : (groundControl [[]]).trunk = [] := by decide
    rw [htrunk] at hpath
    exact absurd (congrArg List.length (Path.segments.inj hpath)) (by simp [route])
  · rintro ⟨target, htarget, hintends⟩
    rw [hbase] at htarget
    cases htarget
    obtain ⟨last, hpath, -⟩ := hintends.path
    have htrunk : (groundControl [['a'], [], []]).trunk = [['a']] := by decide
    rw [htrunk] at hpath
    exact absurd (congrArg List.length (Path.segments.inj hpath)) (by simp [route])

end EdgeSync
