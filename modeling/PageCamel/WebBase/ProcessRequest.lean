import PageCamel.WebBase.Respond
import Mathlib.Data.List.Nodup
import Mathlib.Data.List.Perm.Basic

/-!
`process_request` from the request to the page: filters, the checks of the method, and the
choice of the page. Three loops look for a registered path: the check of the method, the
answer to OPTIONS, and the dispatch.
-/

namespace PageCamel.WebBase
open PageCamel.Lib PageCamel.Lib.Http1

/-! ### Registered paths -/

/-- The parts of a request that filters can change and `process_request` looks at. -/
structure Ua where
  url : Octets
  method : Octets
  httpversion : Octets := octets "1.1"
  headers : List (Octets × Octets) := []
  deriving DecidableEq, Repr

def Ua.header (ua : Ua) (name : Octets) : Option Octets := ua.headers.lookup name

/-- A callback that may answer the request. -/
abbrev Filter := Ua → Option PageResult × Ua

structure PathConf where
  methods : List Octets
  page : Ua → PageResult × Ua

/-- A hash of registered paths, in the order in which `keys` gives them. -/
structure PathTable where
  entries : List (Octets × PathConf)
  nodup : (entries.map Prod.fst).Nodup

/-- A registered path, with the hash it is in. -/
inductive Entry where
  | webpath (dpath : Octets)
  | overridewebpath (dpath : Octets)
  deriving DecidableEq, Repr

section Select
variable (pathMatches : Octets → Octets → Bool)

/-- A loop that stops at the first path that matches. -/
def PathTable.first (table : PathTable) (webpath : Octets) : Option (Octets × PathConf) :=
  table.entries.find? fun entry => pathMatches entry.1 webpath

/-- A loop that goes on, and keeps the last path that matches. -/
def PathTable.last (table : PathTable) (webpath : Octets) : Option (Octets × PathConf) :=
  table.entries.foldl
    (fun found entry => if pathMatches entry.1 webpath then some entry else found) none

/-- The path whose methods are checked. -/
def checkedEntry (webpaths : PathTable) (webpath : Octets) : Option (Entry × PathConf) :=
  (webpaths.first pathMatches webpath).map fun entry => (.webpath entry.1, entry.2)

/-- The path whose methods OPTIONS tells. -/
def optionsEntry (webpaths : PathTable) (webpath : Octets) : Option (Entry × PathConf) :=
  (webpaths.last pathMatches webpath).map fun entry => (.webpath entry.1, entry.2)

/-- The path whose page is called. -/
def dispatchEntry (webpaths overridewebpaths : PathTable) (webpath : Octets) :
    Option (Entry × PathConf) :=
  match overridewebpaths.first pathMatches webpath with
  | some entry => some (.overridewebpath entry.1, entry.2)
  | none => (webpaths.first pathMatches webpath).map fun entry => (.webpath entry.1, entry.2)

end Select

/-! ### The request -/

/-- `pathMatches` is the match with `/^$dpath/`; `cors` has the methods by path and origin;
`requestBody` reads and parses the body, or fails. -/
structure WebServer where
  pathMatches : Octets → Octets → Bool
  webpaths : PathTable
  overridewebpaths : PathTable
  supportedmethods : List Octets
  forbiddenMethods : List Octets := [octets "TRACE", octets "TRACK"]
  customMethods : List (Octets × Filter) := []
  logstart : List Filter := []
  fastredirect : List Filter := []
  prefilter : List Filter := []
  authcheck : List Filter := []
  postauthfilter : List Filter := []
  cors : List (Octets × List (Octets × Option (List Octets))) := []
  requestBody : Ua → Option Ua := some

/-- The variables of `process_request`, and the page that was called. -/
structure RequestState where
  ua : Ua
  webpath : Octets
  uamethod : Octets := []
  result : PageResult := fallbackresult
  pagedone : Bool := false
  allowedmethods : List Octets := []
  headAutomagic : Bool := false
  called : Option Entry := none

/-- Two slashes become one, from left to right. -/
def squeezeSlashes : Octets → Octets
  | 0x2F :: 0x2F :: rest => 0x2F :: squeezeSlashes rest
  | b :: rest => b :: squeezeSlashes rest
  | [] => []

/-- The path without backslashes, double slashes and the postfix of a dynamic path. -/
def cleanPath (url : Octets) : Octets :=
  let path := squeezeSlashes (squeezeSlashes (url.map fun b => if b = 0x5C then 0x2F else b))
  let digits := (path.reverse.takeWhile isDigit).length
  match path.reverse.drop digits with
  | 0x2A :: rest => if digits = 0 then path else rest.reverse
  | _ => path

/-- Callbacks until one answers. -/
def runFilters : List Filter → Filter
  | [], ua => (none, ua)
  | filter :: filters, ua =>
      match filter ua with
      | (some result, ua) => (some result, ua)
      | (none, ua) => runFilters filters ua

def RequestState.done (s : RequestState) (result : PageResult) : RequestState :=
  { s with result, pagedone := true }

def RequestState.filter (filters : List Filter) (s : RequestState) : RequestState :=
  if s.pagedone then s
  else
    match runFilters filters s.ua with
    | (some result, ua) => { s with ua }.done result
    | (none, ua) => { s with ua }

/-- A page without data, type and body. -/
def emptyPage (status : Nat) : PageResult := { status }

def textPage (status : Nat) (text : String) : PageResult :=
  { status, data := some (.octets (octets text)) }

/-- The version and the Host header. -/
def RequestState.checkVersion (s : RequestState) : RequestState :=
  if s.pagedone then s
  else if s.ua.httpversion ≠ octets "1.0" ∧ s.ua.httpversion ≠ octets "1.1" then
    s.done (textPage 400 "unsupported HTTP version")
  else if s.ua.header (octets "Host") = none ∧ s.ua.httpversion = octets "1.1" then
    s.done (textPage 400 "Host header missing")
  else s

/-- Methods that no path may have, and methods that no path has. -/
def RequestState.checkMethod (server : WebServer) (s : RequestState) : RequestState :=
  if s.pagedone then s
  else if s.uamethod ∈ server.forbiddenMethods then
    s.done (textPage 403 "Unsafe method requested. Request refused.")
  else if s.uamethod ∉ server.supportedmethods then s.done (emptyPage 501)
  else s

/-- OPTIONS, without the headers for other origins. -/
def RequestState.options (server : WebServer) (s : RequestState) : RequestState :=
  if s.pagedone ∨ s.uamethod ≠ octets "OPTIONS" then s
  else
    let allowedmethods :=
      if s.webpath = octets "*" then server.supportedmethods
      else
        match optionsEntry server.pathMatches server.webpaths s.webpath with
        | some (_, conf) => conf.methods
        | none => server.supportedmethods
    { s with allowedmethods }.done (emptyPage 200)

def RequestState.custom (server : WebServer) (s : RequestState) : RequestState :=
  if s.pagedone then s
  else
    match server.customMethods.lookup s.uamethod with
    | none => s
    | some filter =>
        match filter s.ua with
        | (some result, ua) => { s with ua }.done result
        | (none, ua) => { s with ua }.done (emptyPage 500)

/-- `/^(?:GET|POST|HEAD)$/i`. -/
def isDefaultMethod (method : Octets) : Bool :=
  let method := if method.getLast? = some 10 then method.dropLast else method
  lc method = octets "get" ∨ lc method = octets "post" ∨ lc method = octets "head"

/-- The method is allowed for the path, or is HEAD and GET is. -/
def MethodAllowed (methods : List Octets) (method : Octets) : Prop :=
  method ∈ methods ∨ method = octets "HEAD" ∧ octets "GET" ∈ methods

/-- The check of the method against the path of the request. -/
def RequestState.checkPath (server : WebServer) (s : RequestState) : RequestState :=
  if s.pagedone then s
  else
    match checkedEntry server.pathMatches server.webpaths s.webpath with
    | some (_, conf) =>
        if s.uamethod ∈ conf.methods then { s with allowedmethods := conf.methods }
        else if s.uamethod = octets "HEAD" ∧ octets "GET" ∈ conf.methods then
          { s with allowedmethods := conf.methods ++ [octets "HEAD"], headAutomagic := true }
        else { s with allowedmethods := conf.methods }.done (emptyPage 405)
    | none =>
        if isDefaultMethod s.uamethod then { s with headAutomagic := true }
        else
          { s with allowedmethods := [octets "GET", octets "POST", octets "HEAD"] }.done
            (emptyPage 405)

/-- `get_cors_config`, down to the methods. -/
def corsMethods (server : WebServer) (path origin : Octets) : Option (List Octets) :=
  if origin = octets "*" then none
  else
    match server.cors.find? fun entry => entry.1.isPrefixOf path with
    | none => none
    | some (foundpath, confs) =>
        if foundpath = [] then none
        else
          match confs.lookup origin with
          | some conf => conf
          | none => (confs.lookup (octets "*")).join

def RequestState.checkCors (server : WebServer) (s : RequestState) : RequestState :=
  if s.pagedone then s
  else
    match s.ua.header (octets "Origin") with
    | none => s
    | some origin =>
        match corsMethods server s.ua.url origin with
        | none => s
        | some methods => if s.ua.method ∈ methods then s else s.done (emptyPage 405)

/-- The body is read when the request was not answered yet; without it the connection ends. -/
def RequestState.readBody (server : WebServer) (s : RequestState) : Option RequestState :=
  if s.pagedone then some s else (server.requestBody s.ua).map fun ua => { s with ua }

def RequestState.dispatch (server : WebServer) (s : RequestState) : RequestState :=
  if s.pagedone then s
  else
    match dispatchEntry server.pathMatches server.webpaths server.overridewebpaths s.webpath with
    | none => s
    | some (entry, conf) =>
        { s with ua := (conf.page s.ua).2, called := some entry }.done (conf.page s.ua).1

/-- Everything in front of the body. -/
def WebServer.checks (server : WebServer) (ua : Ua) : RequestState :=
  let webpath := cleanPath ua.url
  let s : RequestState := { ua := { ua with url := webpath }, webpath }
  let s := (s.filter server.logstart).filter server.fastredirect
  let s := ({ s with uamethod := s.ua.method }.checkVersion.checkMethod server).options server
  ((s.custom server).checkPath server).checkCors server

/-- Everything behind the body: a prefilter may have changed the URL. -/
def WebServer.answer (server : WebServer) (s : RequestState) : RequestState :=
  let s := s.filter server.prefilter
  let s := { s with webpath := s.ua.url }
  ((s.filter server.authcheck).filter server.postauthfilter).dispatch server

/-- Up to the result of the page; `none` when the body does not come. -/
def WebServer.processRequest (server : WebServer) (ua : Ua) : Option RequestState :=
  ((server.checks ua).readBody server).map server.answer

/-! ### One entry for a path -/

section Select
variable {pathMatches : Octets → Octets → Bool}

theorem foldl_last {α : Type} (p : α → Bool) (xs : List α) :
    ∀ found, xs.foldl (fun found x => if p x then some x else found) found =
      (xs.reverse.find? p).or found := by
  induction xs with
  | nil => exact fun _ => rfl
  | cons x xs ih =>
      intro found
      rw [List.foldl_cons, ih, List.reverse_cons, List.find?_append, Option.or_assoc]
      by_cases hx : p x <;> simp [hx]

theorem last_eq (table : PathTable) (webpath : Octets) : table.last pathMatches webpath =
    table.entries.reverse.find? fun entry => pathMatches entry.1 webpath := by
  rw [PathTable.last, foldl_last, Option.or_none]

/-- With only one element to find, the search finds it. -/
theorem find?_of_unique {α : Type} {p : α → Bool} {xs : List α} {x : α} (hMem : x ∈ xs)
    (hx : p x = true) (hUnique : ∀ y ∈ xs, p y = true → y = x) : xs.find? p = some x := by
  cases hFind : xs.find? p with
  | none => exact absurd hx (List.find?_eq_none.mp hFind x hMem)
  | some y => rw [hUnique y (List.mem_of_find?_eq_some hFind) (List.find?_some hFind)]

/-- The table with the entry in front. -/
theorem exists_first {table : PathTable} {entry : Octets × PathConf} (hMem : entry ∈ table.entries)
    {webpath : Octets} (hMatch : pathMatches entry.1 webpath = true) :
    ∃ order : PathTable, order.entries.Perm table.entries ∧
      order.first pathMatches webpath = some entry := by
  obtain ⟨before, after, hSplit⟩ := List.append_of_mem hMem
  have hPerm : (entry :: (before ++ after)).Perm table.entries :=
    hSplit ▸ List.perm_middle.symm
  refine ⟨⟨entry :: (before ++ after), ?_⟩, hPerm, ?_⟩
  · exact (hPerm.map Prod.fst).nodup_iff.mpr table.nodup
  · rw [PathTable.first, List.find?_cons_of_pos (by simpa using hMatch)]

/-- The three loops find one entry, whatever the order of the hashes, exactly when no override
path matches and only one path does. -/
theorem entries_agree_iff (webpaths overridewebpaths : PathTable) (webpath : Octets) :
    (∃ entry, ∀ web overrides : PathTable, web.entries.Perm webpaths.entries →
      overrides.entries.Perm overridewebpaths.entries →
        checkedEntry pathMatches web webpath = entry ∧
        optionsEntry pathMatches web webpath = entry ∧
        dispatchEntry pathMatches web overrides webpath = entry) ↔
    (∀ entry ∈ overridewebpaths.entries, pathMatches entry.1 webpath = false) ∧
      ∀ entry ∈ webpaths.entries, ∀ other ∈ webpaths.entries,
        pathMatches entry.1 webpath = true → pathMatches other.1 webpath = true →
          entry = other := by
  constructor
  · rintro ⟨entry, hAgree⟩
    constructor
    · intro override hMem
      by_contra hMatch
      obtain ⟨overrides, hPerm, hFirst⟩ := exists_first hMem (Bool.not_eq_false _ ▸ hMatch)
      obtain ⟨hChecked, -, hDispatch⟩ := hAgree webpaths overrides (.refl _) hPerm
      rw [← hChecked, checkedEntry, dispatchEntry, hFirst] at hDispatch
      cases hFound : webpaths.first pathMatches webpath <;> simp [hFound] at hDispatch
    · intro first hMem other hOther hMatch hMatch'
      obtain ⟨web, hPerm, hFirst⟩ := exists_first hMem hMatch
      obtain ⟨web', hPerm', hFirst'⟩ := exists_first hOther hMatch'
      have hChecked := (hAgree web overridewebpaths hPerm (.refl _)).1
      have hChecked' := (hAgree web' overridewebpaths hPerm' (.refl _)).1
      rw [checkedEntry, hFirst] at hChecked
      rw [checkedEntry, hFirst'] at hChecked'
      have hSame := hChecked.trans hChecked'.symm
      simp only [Option.map_some, Option.some.injEq, Prod.mk.injEq, Entry.webpath.injEq] at hSame
      exact Prod.ext hSame.1 hSame.2
  · rintro ⟨hOver, hUnique⟩
    have hFirst (web : PathTable) (hPerm : web.entries.Perm webpaths.entries) :
        web.first pathMatches webpath = webpaths.first pathMatches webpath ∧
        web.last pathMatches webpath = webpaths.first pathMatches webpath := by
      rw [last_eq]
      cases hFound : webpaths.first pathMatches webpath with
      | none =>
          have hNone := List.find?_eq_none.mp hFound
          refine ⟨List.find?_eq_none.mpr fun entry hMem => hNone entry (hPerm.mem_iff.mp hMem),
            List.find?_eq_none.mpr fun entry hMem => ?_⟩
          exact hNone entry (hPerm.mem_iff.mp (List.mem_reverse.mp hMem))
      | some entry =>
          have hMem := List.mem_of_find?_eq_some hFound
          have hMatch := List.find?_some hFound
          have hOnly (other : Octets × PathConf) (hOther : other ∈ web.entries)
              (hMatch' : pathMatches other.1 webpath = true) : other = entry :=
            hUnique other (hPerm.mem_iff.mp hOther) entry hMem hMatch' hMatch
          refine ⟨find?_of_unique (hPerm.mem_iff.mpr hMem) hMatch hOnly,
            find?_of_unique (List.mem_reverse.mpr (hPerm.mem_iff.mpr hMem)) hMatch ?_⟩
          exact fun other hOther => hOnly other (List.mem_reverse.mp hOther)
    refine ⟨checkedEntry pathMatches webpaths webpath, fun web overrides hPerm hPerm' => ?_⟩
    have hNone : overrides.first pathMatches webpath = none :=
      List.find?_eq_none.mpr fun entry hMem => by
        simp [hOver entry (hPerm'.mem_iff.mp hMem)]
    simp only [checkedEntry, optionsEntry, dispatchEntry, hNone, hFirst web hPerm, and_self]

end Select

/-! ### The method of a called page -/

/-- What the steps in front of the dispatch leave alone. -/
structure RequestState.Keeps (s s' : RequestState) : Prop where
  webpath : s'.webpath = s.webpath
  uamethod : s'.uamethod = s.uamethod
  called : s'.called = s.called
  open_ : s'.pagedone = false → s.pagedone = false

theorem RequestState.Keeps.refl (s : RequestState) : s.Keeps s := ⟨rfl, rfl, rfl, id⟩

theorem RequestState.Keeps.trans {s s' s'' : RequestState} (h : s.Keeps s') (h' : s'.Keeps s'') :
    s.Keeps s'' :=
  ⟨h'.webpath.trans h.webpath, h'.uamethod.trans h.uamethod, h'.called.trans h.called,
    fun hOpen => h.open_ (h'.open_ hOpen)⟩

theorem keeps_done (s : RequestState) (ua : Ua) (methods : List Octets) (automagic : Bool)
    (result : PageResult) : s.Keeps
      ({ s with ua, allowedmethods := methods, headAutomagic := automagic }.done result) :=
  ⟨rfl, rfl, rfl, fun hOpen => by cases hOpen⟩

theorem keeps_filter (filters : List Filter) (s : RequestState) : s.Keeps (s.filter filters) := by
  rw [RequestState.filter]
  split
  · exact .refl s
  · split
    · exact keeps_done s ..
    · exact ⟨rfl, rfl, rfl, id⟩

theorem keeps_checkVersion (s : RequestState) : s.Keeps s.checkVersion := by
  rw [RequestState.checkVersion]
  split
  · exact .refl s
  · split
    · exact keeps_done s ..
    · split
      · exact keeps_done s ..
      · exact .refl s

theorem keeps_checkMethod (server : WebServer) (s : RequestState) :
    s.Keeps (s.checkMethod server) := by
  rw [RequestState.checkMethod]
  split
  · exact .refl s
  · split
    · exact keeps_done s ..
    · split
      · exact keeps_done s ..
      · exact .refl s

theorem keeps_options (server : WebServer) (s : RequestState) : s.Keeps (s.options server) := by
  rw [RequestState.options]
  split
  · exact .refl s
  · exact keeps_done s ..

theorem keeps_custom (server : WebServer) (s : RequestState) : s.Keeps (s.custom server) := by
  rw [RequestState.custom]
  split
  · exact .refl s
  · split
    · exact .refl s
    · split <;> exact keeps_done s ..

theorem keeps_checkPath (server : WebServer) (s : RequestState) : s.Keeps (s.checkPath server) := by
  rw [RequestState.checkPath]
  split
  · exact .refl s
  · split
    · split
      · exact ⟨rfl, rfl, rfl, id⟩
      · split
        · exact ⟨rfl, rfl, rfl, id⟩
        · exact keeps_done s ..
    · split
      · exact ⟨rfl, rfl, rfl, id⟩
      · exact keeps_done s ..

theorem keeps_checkCors (server : WebServer) (s : RequestState) : s.Keeps (s.checkCors server) := by
  rw [RequestState.checkCors]
  split
  · exact .refl s
  · split
    · exact .refl s
    · split
      · exact .refl s
      · split
        · exact .refl s
        · exact keeps_done s ..

theorem keeps_readBody {server : WebServer} {s s' : RequestState}
    (hRead : s.readBody server = some s') : s.Keeps s' := by
  rw [RequestState.readBody] at hRead
  split at hRead
  · cases hRead
    exact .refl s
  · obtain ⟨ua, _, rfl⟩ := Option.map_eq_some_iff.mp hRead
    exact ⟨rfl, rfl, rfl, id⟩

/-- A request that passes the check of the path has an allowed method, or no path and one of
the default methods. -/
def RequestState.Checked (server : WebServer) (s : RequestState) : Prop :=
  match checkedEntry server.pathMatches server.webpaths s.webpath with
  | some (_, conf) => MethodAllowed conf.methods s.uamethod
  | none => isDefaultMethod s.uamethod

theorem checkPath_checked {server : WebServer} {s : RequestState}
    (hOpen : (s.checkPath server).pagedone = false) : s.Checked server := by
  rw [RequestState.checkPath, if_neg (by simp [(keeps_checkPath server s).open_ hOpen])] at hOpen
  rw [RequestState.Checked]
  split
  · next entry conf hEntry =>
      rw [hEntry] at hOpen
      dsimp only at hOpen
      split at hOpen
      · next hMethod => exact .inl hMethod
      · split at hOpen
        · next hHead => exact .inr hHead
        · cases hOpen
  · next hEntry =>
      rw [hEntry] at hOpen
      dsimp only at hOpen
      split at hOpen
      · next hDefault => exact hDefault
      · cases hOpen

/-- What the checks let through. -/
theorem checks_checked (server : WebServer) (ua : Ua) :
    (server.checks ua).webpath = cleanPath ua.url ∧ (server.checks ua).called = none ∧
      ((server.checks ua).pagedone = false → (server.checks ua).Checked server) := by
  rw [WebServer.checks]
  generalize hEarly : ((RequestState.filter server.logstart
    { ua := { ua with url := cleanPath ua.url }, webpath := cleanPath ua.url }).filter
      server.fastredirect) = s
  have hFilters : RequestState.Keeps
      { ua := { ua with url := cleanPath ua.url }, webpath := cleanPath ua.url } s :=
    hEarly ▸ (keeps_filter ..).trans (keeps_filter ..)
  generalize hTest : (({ s with uamethod := s.ua.method } : RequestState).checkVersion.checkMethod
    server).options server = tested
  have hTests : RequestState.Keeps { s with uamethod := s.ua.method } tested :=
    hTest ▸ ((keeps_checkVersion _).trans (keeps_checkMethod ..)).trans (keeps_options ..)
  have hPath := (keeps_custom server tested).trans (keeps_checkPath server _)
  have hAll := hPath.trans (keeps_checkCors server _)
  refine ⟨(hAll.webpath.trans hTests.webpath).trans hFilters.webpath,
    (hAll.called.trans hTests.called).trans hFilters.called, fun hOpen => ?_⟩
  have hChecked := checkPath_checked ((keeps_checkCors server _).open_ hOpen)
  have hAfter := (keeps_checkPath server (tested.custom server)).trans (keeps_checkCors server _)
  rw [RequestState.Checked] at hChecked ⊢
  rw [hAfter.webpath, hAfter.uamethod]
  exact hChecked

/-- A page that is called is the one that the dispatch finds for the present path. -/
theorem dispatch_called {server : WebServer} {s : RequestState} {entry : Entry}
    (hNone : s.called = none) (hCalled : (s.dispatch server).called = some entry) :
    s.pagedone = false ∧ ∃ conf, dispatchEntry server.pathMatches server.webpaths
      server.overridewebpaths s.webpath = some (entry, conf) := by
  rw [RequestState.dispatch] at hCalled
  split at hCalled
  · rw [hNone] at hCalled
    cases hCalled
  · next hOpen =>
      refine ⟨by simpa using hOpen, ?_⟩
      split at hCalled
      · rw [hNone] at hCalled
        cases hCalled
      · next entry' conf hEntry =>
          obtain rfl : entry' = entry := Option.some.inj hCalled
          exact ⟨conf, hEntry⟩

theorem dispatch_webpath (server : WebServer) (s : RequestState) :
    (s.dispatch server).webpath = s.webpath ∧ (s.dispatch server).uamethod = s.uamethod := by
  rw [RequestState.dispatch]
  split
  · exact ⟨rfl, rfl⟩
  · split <;> exact ⟨rfl, rfl⟩

/-- A page of `webpaths` among the dispatched ones is the one a check of the path finds. -/
theorem checkedEntry_of_dispatch {server : WebServer} {webpath dpath : Octets} {conf : PathConf}
    (hDispatch : dispatchEntry server.pathMatches server.webpaths server.overridewebpaths webpath =
      some (.webpath dpath, conf)) :
    checkedEntry server.pathMatches server.webpaths webpath = some (.webpath dpath, conf) := by
  rw [dispatchEntry] at hDispatch
  split at hDispatch
  · cases hDispatch
  · exact hDispatch

/-- A page of `webpaths` is called only with a method that the path of the request allows, which
is the path of the page unless the URL was rewritten; or with a default method when the request
had no path of its own. -/
theorem page_method_checked (server : WebServer) (ua : Ua) {s : RequestState} {dpath : Octets}
    (hDone : server.processRequest ua = some s) (hCalled : s.called = some (.webpath dpath)) :
    match checkedEntry server.pathMatches server.webpaths (cleanPath ua.url) with
    | some (entry, conf) => MethodAllowed conf.methods s.uamethod ∧
        (s.webpath = cleanPath ua.url → entry = .webpath dpath)
    | none => isDefaultMethod s.uamethod ∧ s.webpath ≠ cleanPath ua.url := by
  obtain ⟨read, hRead, rfl⟩ := Option.map_eq_some_iff.mp hDone
  have hBody := keeps_readBody hRead
  have hPrefilter := keeps_filter server.prefilter read
  generalize hRoute : { read.filter server.prefilter with
    webpath := (read.filter server.prefilter).ua.url } = routed
  have hRest := (keeps_filter server.authcheck routed).trans
    (keeps_filter server.postauthfilter _)
  generalize hReady : (routed.filter server.authcheck).filter server.postauthfilter = ready at hRest
  have hAnswer : server.answer read = ready.dispatch server := by
    rw [← hReady, ← hRoute]
    rfl
  rw [hAnswer] at hCalled ⊢
  have hRouted : routed.pagedone = (read.filter server.prefilter).pagedone ∧
      routed.called = (read.filter server.prefilter).called ∧
      routed.uamethod = (read.filter server.prefilter).uamethod := by
    subst hRoute
    exact ⟨rfl, rfl, rfl⟩
  obtain ⟨hPath, hNone, hChecked⟩ := checks_checked server ua
  have hCalledNone : ready.called = none := by
    rw [hRest.called, hRouted.2.1, hPrefilter.called, hBody.called, hNone]
  obtain ⟨hOpen, conf, hDispatch⟩ := dispatch_called hCalledNone hCalled
  have hEarly := hChecked (hBody.open_ (hPrefilter.open_ (hRouted.1 ▸ hRest.open_ hOpen)))
  have hMethod : (ready.dispatch server).uamethod = (server.checks ua).uamethod := by
    rw [(dispatch_webpath server ready).2, hRest.uamethod, hRouted.2.2, hPrefilter.uamethod,
      hBody.uamethod]
  rw [(dispatch_webpath server ready).1, hMethod]
  have hFound := checkedEntry_of_dispatch hDispatch
  rw [RequestState.Checked, hPath] at hEarly
  cases hEntry : checkedEntry server.pathMatches server.webpaths (cleanPath ua.url) with
  | some found =>
      rw [hEntry] at hEarly
      refine ⟨hEarly, fun hSame => ?_⟩
      rw [hSame, hEntry] at hFound
      exact congrArg Prod.fst (Option.some.inj hFound)
  | none =>
      rw [hEntry] at hEarly
      refine ⟨hEarly, fun hSame => ?_⟩
      rw [hSame, hEntry] at hFound
      cases hFound

/-! ### Servers -/

def prefixMatches (dpath webpath : Octets) : Bool := dpath.isPrefixOf webpath

def okPage (ua : Ua) : PageResult × Ua := ({ status := 200, data := some (.octets ua.url) }, ua)

/-- `/a` is for GET and POST, `/b` is for GET, and a prefilter may send `/a` to `/b`. -/
def twoPaths (rewrites : Bool) : WebServer where
  pathMatches := prefixMatches
  webpaths := ⟨[(octets "/a", ⟨[octets "GET", octets "POST"], okPage⟩),
    (octets "/b", ⟨[octets "GET"], okPage⟩)], by decide⟩
  overridewebpaths := ⟨[], by decide⟩
  supportedmethods := [octets "GET", octets "POST", octets "HEAD", octets "OPTIONS"]
  prefilter :=
    [fun ua => (none, if rewrites ∧ ua.url = octets "/a" then { ua with url := octets "/b" } else ua)]

def postRequest : Ua where
  url := octets "/a"
  method := octets "POST"
  headers := [(octets "Host", octets "h")]

/-- A POST to `/a`. -/
theorem page_method_checked_plain : MethodAllowed [octets "GET", octets "POST"] (octets "POST") := by
  have hAllowed : MethodAllowed [octets "GET", octets "POST"] (octets "POST") ∧ _ :=
    @page_method_checked (twoPaths false) postRequest _ (octets "/a") rfl rfl
  exact hAllowed.1

/-- The page of `/b` is called for POST. -/
theorem page_method_rewritten :
    ∃ s, (twoPaths true).processRequest postRequest = some s ∧ s.uamethod = octets "POST" ∧
      s.called = some (.webpath (octets "/b")) ∧
      ∃ conf, (twoPaths true).webpaths.entries.lookup (octets "/b") = some conf ∧
        ¬ MethodAllowed conf.methods s.uamethod := by
  refine ⟨_, rfl, rfl, rfl, ⟨[octets "GET"], okPage⟩, rfl, ?_⟩
  rintro (hPost | ⟨hHead, _⟩)
  · exact absurd (List.mem_singleton.mp hPost) (by decide)
  · exact absurd hHead (by decide)

/-- Two paths, one in front of the other. -/
def nestedPaths : PathTable :=
  ⟨[(octets "/a", ⟨[octets "GET"], okPage⟩), (octets "/a/b", ⟨[octets "POST"], okPage⟩)], by decide⟩

/-- The check of the method finds `/a` for `/a/b`, and OPTIONS finds `/a/b`. -/
theorem entries_disagree :
    (checkedEntry prefixMatches nestedPaths (octets "/a/b")).map Prod.fst =
        some (.webpath (octets "/a")) ∧
      (optionsEntry prefixMatches nestedPaths (octets "/a/b")).map Prod.fst =
        some (.webpath (octets "/a/b")) ∧
      ¬ ∃ entry, ∀ web overrides : PathTable, web.entries.Perm nestedPaths.entries →
        overrides.entries.Perm [] →
          checkedEntry prefixMatches web (octets "/a/b") = entry ∧
          optionsEntry prefixMatches web (octets "/a/b") = entry ∧
          dispatchEntry prefixMatches web overrides (octets "/a/b") = entry := by
  have hChecked : (checkedEntry prefixMatches nestedPaths (octets "/a/b")).map Prod.fst =
      some (.webpath (octets "/a")) := by decide
  have hOptions : (optionsEntry prefixMatches nestedPaths (octets "/a/b")).map Prod.fst =
      some (.webpath (octets "/a/b")) := by decide
  refine ⟨hChecked, hOptions, ?_⟩
  rintro ⟨entry, hAgree⟩
  obtain ⟨hSame, hSame', -⟩ := hAgree nestedPaths ⟨[], by decide⟩ (.refl _) (.refl _)
  rw [hSame, ← hSame', hOptions] at hChecked
  exact absurd hChecked (by decide)

end PageCamel.WebBase
