import Wafer.Config.OutboundHttp
import Wafer.Lib.Text

/-!
# Authorization of outbound HTTP requests

`authorize` takes scheme, host and port from the URI of a request and looks for
the canonical destination among the granted ones. The URI belongs to a library:
an authority is a text of the form `[userinfo "@"] host [":" port]`, and the
functions that read host and port off it are parameters.

## Main results

- `authorize_name` — requests to a name or an IPv4 address
- `authorize_ipLiteral` — requests to a bracketed address are denied
- `Misread`, `Overlooked` — requests wrongly denied or wrongly let through
- `authorized_iff` — the requests that are authorized exactly if they are granted
-/

namespace Wafer

open Lib

/-! ## Authorities -/

/-- A host of a URI: a name or an IPv4 address as it stands, or an address in brackets. -/
inductive AuthorityHost
  | name (text : List Char)
  | ipLiteral (inner : List Char)
  deriving DecidableEq, Repr

namespace AuthorityHost

/-- The host as written. -/
def written : AuthorityHost → List Char
  | name text => text
  | ipLiteral inner => '[' :: inner ++ [']']

/-- No delimiter of an authority stands in the host, but for colons between brackets. -/
def Delimited : AuthorityHost → Prop
  | name text => ':' ∉ text ∧ ']' ∉ text
  | ipLiteral inner => ']' ∉ inner

end AuthorityHost

/-- The parts of an authority. -/
structure Authority where
  userinfo : Option (List Char)
  host : AuthorityHost
  port : Option (List Char)
  host_delimited : host.Delimited
  port_digits : ∀ p ∈ port, ∀ c ∈ p, c.isDigit = true

namespace Authority

def digitsValue (digits : List Char) : ℕ :=
  digits.foldl (fun n c => 10 * n + (c.toNat - '0'.toNat)) 0

def userinfoText (a : Authority) : List Char := a.userinfo.elim [] (· ++ ['@'])

def portText (a : Authority) : List Char := a.port.elim [] (':' :: ·)

def asStr (a : Authority) : List Char := a.userinfoText ++ a.host.written ++ a.portText

/-- The port as a 16-bit number, if there is one and it is one. -/
def portNumber (a : Authority) : Option ℕ :=
  a.port.bind fun digits =>
    let number := digitsValue digits
    if digits ≠ [] ∧ number < 65536 then some number else none

end Authority

structure WasiRequest where
  method : String
  schemeStr : Option String
  authority : Option Authority

/-! ## The policy -/

section Authorize

-- `Authority::host` and `Authority::port_u16`
variable (host : List Char → List Char) (portU16 : List Char → Option ℕ)

/-- A colon behind the last bracket, or anywhere if there is none. -/
def explicitPort (authorityText : List Char) : Bool :=
  match rsplitOnce ']' authorityText with
  | none => authorityText.contains ':'
  | some (_, suffix) => suffix.head? = some ':'

def schemeOf (request : WasiRequest) : Option HttpScheme :=
  match request.schemeStr with
  | some "http" => some .http
  | some "https" => some .https
  | _ => none

/-- The granted destination the request goes to; a denied request has none. -/
def authorize (destinations : List CanonicalHttpDestination) (request : WasiRequest) :
    Option CanonicalHttpDestination :=
  if request.method = "CONNECT" then none
  else
    match schemeOf request, request.authority with
    | some scheme, some authority =>
      let text := authority.asStr
      if explicitPort text ∧ portU16 text = none then none
      else
        let port := (portU16 text).getD scheme.defaultPort
        match (⟨scheme, String.ofList (host text), some port⟩ :
            OutboundHttpDestination).canonicalize with
        | .error _ => none
        | .ok requested => destinations.find? (· = requested)
    | _, _ => none

end Authorize

/-! ## What a URI asks for -/

/-- The port of the URI, or the default one of its scheme. A port that is no number of 16 bits
is none. -/
def Authority.effectivePort (a : Authority) (scheme : HttpScheme) : Option ℕ :=
  match a.port with
  | none => some scheme.defaultPort
  | some _ => a.portNumber

/-- The canonical destination of the URI. Between brackets stands an IPv6 address. -/
def Authority.canonical (a : Authority) (scheme : HttpScheme) : Option CanonicalHttpDestination :=
  (a.effectivePort scheme).bind fun port =>
    match a.host with
    | .name text =>
      (⟨scheme, String.ofList text, some port⟩ : OutboundHttpDestination).canonicalize.toOption
    | .ipLiteral inner =>
      match IpAddr.parse (String.ofList inner) with
      | some (.v6 _) =>
        (⟨scheme, String.ofList inner, some port⟩ : OutboundHttpDestination).canonicalize.toOption
      | _ => none

/-- Scheme, host and effective port of the request canonicalise to one of the grants. -/
def Granted (grants : List OutboundHttpDestination) (request : WasiRequest) : Prop :=
  ∃ scheme authority destination, schemeOf request = some scheme ∧
    request.authority = some authority ∧ authority.canonical scheme = some destination ∧
    ∃ grant ∈ grants, grant.canonicalize = .ok destination

/-- By itself the user information looks as if a port followed. -/
def Authority.UserLooksPorted (a : Authority) : Prop :=
  ∃ u, a.userinfo = some u ∧ explicitPort u = true

def Authority.UserHasBracket (a : Authority) : Prop := ∃ u, a.userinfo = some u ∧ ']' ∈ u

def Authority.withoutPort (a : Authority) : Authority :=
  { a with port := none, port_digits := nofun }

/-- The request names an address in brackets, or has no port but user information that looks as if
it had one. -/
def Misread (request : WasiRequest) : Prop :=
  ∃ authority, request.authority = some authority ∧
    ((∃ inner, authority.host = .ipLiteral inner) ∨
      authority.port = none ∧ authority.UserLooksPorted)

/-- The port of the request is no number of 16 bits, which a bracket in the user information hides,
and without the port the request would be granted. -/
def Overlooked (grants : List OutboundHttpDestination) (request : WasiRequest) : Prop :=
  ∃ authority, request.authority = some authority ∧ (∃ text, authority.host = .name text) ∧
    authority.port.isSome = true ∧ authority.portNumber = none ∧ authority.UserHasBracket ∧
    ¬authority.UserLooksPorted ∧
    Granted grants { request with authority := some authority.withoutPort }

variable {host : List Char → List Char} {portU16 : List Char → Option ℕ}
  {destinations : List CanonicalHttpDestination} {a : Authority} {scheme : HttpScheme}

theorem bracket_not_mem_portText (a : Authority) : ']' ∉ a.portText := by
  rw [Authority.portText]
  cases hport : a.port with
  | none => simp
  | some p =>
    have hdigit : ']' ∉ p := fun hmem =>
      absurd (a.port_digits p hport ']' hmem) (by decide)
    simp [hdigit]

/-- A bracket in the user information hides what comes behind it. -/
theorem explicitPort_userinfo {u rest : List Char} (hrest : ']' ∉ rest) :
    explicitPort (u ++ '@' :: rest) = true ↔
      explicitPort u = true ∨ ']' ∉ u ∧ ':' ∈ rest := by
  by_cases hu : ']' ∈ u
  · obtain ⟨⟨before, after⟩, hcut⟩ := Option.isSome_iff_exists.mp (rsplitOnce_isSome hu)
    obtain ⟨rfl, hafter⟩ := rsplitOnce_eq_some hcut
    have htext : (before ++ ']' :: after) ++ '@' :: rest =
        before ++ ']' :: (after ++ '@' :: rest) := by simp
    rw [explicitPort, explicitPort, htext, rsplitOnce_append (by simp [hafter, hrest]), hcut]
    cases after <;> simp
  · have htext : ']' ∉ u ++ '@' :: rest := by simp [hu, hrest]
    rw [explicitPort, explicitPort, rsplitOnce_eq_none htext, rsplitOnce_eq_none hu]
    simp [hu]

/-- With a name for a host, a port is seen unless a bracket comes before it. -/
theorem explicitPort_name {text : List Char} (hhost : a.host = .name text) :
    explicitPort a.asStr = true ↔
      a.UserLooksPorted ∨ ¬a.UserHasBracket ∧ a.port.isSome = true := by
  have hdelimited : ':' ∉ text ∧ ']' ∉ text := by
    have h := a.host_delimited
    rw [hhost] at h
    exact h
  have hbracket : ']' ∉ text ++ a.portText := by
    rw [List.mem_append, not_or]
    exact ⟨hdelimited.2, bracket_not_mem_portText a⟩
  have hcolon : ':' ∈ text ++ a.portText ↔ a.port.isSome = true := by
    rw [List.mem_append, or_iff_right hdelimited.1, Authority.portText]
    cases a.port <;> simp
  rw [Authority.asStr, hhost, AuthorityHost.written, List.append_assoc, Authority.userinfoText]
  cases hu : a.userinfo with
  | none =>
    rw [Option.elim_none, List.nil_append, explicitPort, rsplitOnce_eq_none hbracket]
    simp [Authority.UserLooksPorted, Authority.UserHasBracket, hu, hcolon]
  | some u =>
    rw [Option.elim_some, List.append_assoc, List.singleton_append, explicitPort_userinfo hbracket,
      hcolon]
    simp [Authority.UserLooksPorted, Authority.UserHasBracket, hu]

/-! ## Canonical forms -/

theorem parse_bracket (rest : List Char) : IpAddr.parse (String.ofList ('[' :: rest)) = none := by
  have hdecimal : IpAddr.readNumber 10 3 256 false ('[' :: rest) = none := by
    have hnone : (IpAddr.toDigit 10 '[').isSome = false := by decide
    simp [IpAddr.readNumber, hnone]
  have hhex : IpAddr.readNumber 16 4 65536 true ('[' :: rest) = none := by
    have hnone : (IpAddr.toDigit 16 '[').isSome = false := by decide
    simp [IpAddr.readNumber, hnone]
  have hv4 : IpAddr.readIpv4 ('[' :: rest) = none := by simp [IpAddr.readIpv4, hdecimal]
  have hv6 : IpAddr.readIpv6 ('[' :: rest) = none := by
    simp [IpAddr.readIpv6, IpAddr.readGroups, hv4, hhex, IpAddr.readChar]
  simp only [IpAddr.parse, String.toList_ofList, hv4, hv6]

theorem canonicalDnsName_bracket (rest : List Char) (name : String) :
    canonicalDnsName (String.ofList ('[' :: rest)) ≠ .ok name := by
  intro h
  simp only [canonicalDnsName, String.toList_ofList] at h
  split at h
  · cases h
  · split at h
    · next hvalid =>
      -- the first label starts with the bracket
      obtain ⟨label, labels, hlabels⟩ := List.exists_cons_of_ne_nil (List.splitOn_ne_nil '.' rest)
      have hsplit : ('[' :: rest).splitOn '.' = ('[' :: label) :: labels := by
        rw [List.splitOn_cons_eq_if_modifyHead, if_neg (by decide), hlabels]
        rfl
      rw [hsplit, List.all_cons, Bool.and_eq_true] at hvalid
      have hfirst := hvalid.1
      simp only [validLabel, List.all_cons, Bool.and_eq_true] at hfirst
      exact absurd hfirst.2.1 (by decide)
    · cases h

/-- A destination is canonical by its address or by its name. -/
theorem host_of_canonicalize {d : OutboundHttpDestination} {c : CanonicalHttpDestination}
    (h : d.canonicalize = .ok c) :
    (IpAddr.parse d.host).isSome = true ∨ ∃ name, canonicalDnsName d.host = .ok name := by
  cases hparse : IpAddr.parse d.host with
  | some ip => exact .inl rfl
  | none =>
    right
    cases hname : canonicalDnsName d.host with
    | ok name => exact ⟨name, rfl⟩
    | error e =>
      simp only [OutboundHttpDestination.canonicalize, hparse, hname, Except.map, bind,
        Except.bind, throw, throwThe, MonadExceptOf.throw] at h
      split at h
      · cases h
      · split at h <;> cases h

/-- No request to a bracketed address is authorized. -/
theorem authorize_ipLiteral {request : WasiRequest} {inner : List Char}
    (hauthority : request.authority = some a) (hhost : a.host = .ipLiteral inner)
    (hread : host a.asStr = a.host.written) :
    authorize host portU16 destinations request = none := by
  have hbracket : ∀ (scheme : HttpScheme) port c, (⟨scheme, String.ofList (host a.asStr), port⟩ :
      OutboundHttpDestination).canonicalize ≠ .ok c := by
    intro scheme port c h
    rw [hread, hhost, AuthorityHost.written, List.cons_append] at h
    rcases host_of_canonicalize h with hip | ⟨name, hname⟩
    · rw [parse_bracket] at hip
      cases hip
    · exact canonicalDnsName_bracket _ _ hname
  simp only [authorize, hauthority]
  split
  · rfl
  · split
    · next scheme authority hscheme hsome =>
      obtain rfl := Option.some.inj hsome
      split
      · rfl
      · split
        · rfl
        · next c hcanonical => exact absurd hcanonical (hbracket scheme _ c)
    · rfl

/-- What is read off the authority: the host, and the port if it is a number. -/
theorem canonical_name {text : List Char} (scheme : HttpScheme) (hhost : a.host = .name text)
    (hport : a.port.isSome = true → a.portNumber.isSome = true) :
    a.canonical scheme = (⟨scheme, String.ofList text,
      some (a.portNumber.getD scheme.defaultPort)⟩ : OutboundHttpDestination).canonicalize.toOption
      := by
  have heffective : a.effectivePort scheme = some (a.portNumber.getD scheme.defaultPort) := by
    rw [Authority.effectivePort]
    cases hp : a.port with
    | none =>
      have hnone : a.portNumber = none := by rw [Authority.portNumber, hp, Option.bind_none]
      rw [hnone]
      rfl
    | some digits =>
      obtain ⟨n, hn⟩ := Option.isSome_iff_exists.mp (hport (by simp [hp]))
      rw [hn]
      rfl
  rw [Authority.canonical, heffective, Option.bind_some, hhost]

theorem authorize_name {request : WasiRequest} {text : List Char}
    (hauthority : request.authority = some a) (hhost : a.host = .name text)
    (hread : host a.asStr = a.host.written) (hreadPort : portU16 a.asStr = a.portNumber) :
    (authorize host portU16 destinations request).isSome = true ↔
      request.method ≠ "CONNECT" ∧ ¬(explicitPort a.asStr = true ∧ a.portNumber = none) ∧
        ∃ scheme, schemeOf request = some scheme ∧ ∃ destination ∈ destinations,
          (⟨scheme, String.ofList text, some (a.portNumber.getD scheme.defaultPort)⟩ :
            OutboundHttpDestination).canonicalize.toOption = some destination := by
  have hwritten : host a.asStr = text := by rw [hread, hhost, AuthorityHost.written]
  simp only [authorize, hauthority]
  by_cases hconnect : request.method = "CONNECT"
  · simp [hconnect]
  · rw [if_neg hconnect]
    cases hscheme : schemeOf request with
    | none => simp
    | some scheme =>
      simp only [hconnect, not_false_eq_true, true_and, Option.some.injEq, exists_eq_left', ne_eq]
      rw [hwritten, hreadPort]
      by_cases hbad : explicitPort a.asStr = true ∧ a.portNumber = none
      · simp [hbad]
      · rw [if_neg hbad, and_iff_right hbad]
        split
        · next e hcanonical => simp [hcanonical, Except.toOption]
        · next requested hcanonical =>
          simp only [hcanonical, Except.toOption, Option.some.injEq, List.find?_isSome,
            decide_eq_true_eq]
          exact ⟨fun ⟨d, hd, he⟩ => ⟨d, hd, he.symm⟩, fun ⟨d, hd, he⟩ => ⟨d, hd, he.symm⟩⟩

/-- A grant among the canonical destinations. -/
theorem granted_iff {config : CapabilitiesConfig} {capabilities : Capabilities}
    {request : WasiRequest} (hconfig : Capabilities.ofConfig config = .ok capabilities)
    (hauthority : request.authority = some a) :
    Granted config.outboundHttp request ↔
      ∃ scheme, schemeOf request = some scheme ∧
        ∃ destination ∈ capabilities.outboundHttp, a.canonical scheme = some destination := by
  have hmem := Capabilities.mem_ofConfig hconfig
  constructor
  · rintro ⟨scheme, b, destination, hscheme, hb, hcanonical, hgrant⟩
    obtain rfl : a = b := Option.some.inj (hauthority.symm.trans hb)
    exact ⟨scheme, hscheme, destination, (hmem destination).mpr hgrant, hcanonical⟩
  · rintro ⟨scheme, hscheme, destination, hd, hcanonical⟩
    exact ⟨scheme, a, destination, hscheme, hauthority, hcanonical, (hmem destination).mp hd⟩

theorem misread_iff {request : WasiRequest} (hauthority : request.authority = some a) :
    Misread request ↔ (∃ inner, a.host = .ipLiteral inner) ∨
      a.port = none ∧ a.UserLooksPorted := by
  simp only [Misread, hauthority, Option.some.injEq, exists_eq_left']

theorem overlooked_iff {grants : List OutboundHttpDestination} {request : WasiRequest}
    (hauthority : request.authority = some a) :
    Overlooked grants request ↔ (∃ text, a.host = .name text) ∧ a.port.isSome = true ∧
      a.portNumber = none ∧ a.UserHasBracket ∧ ¬a.UserLooksPorted ∧
      Granted grants { request with authority := some a.withoutPort } := by
  simp only [Overlooked, hauthority, Option.some.injEq, exists_eq_left']

/-- A port that is no number is no effective port, so nothing is canonical. -/
theorem canonical_eq_none (scheme : HttpScheme) (hport : a.port.isSome = true)
    (hnumber : a.portNumber = none) : a.canonical scheme = none := by
  obtain ⟨digits, hp⟩ := Option.isSome_iff_exists.mp hport
  have heffective : a.effectivePort scheme = none := by
    rw [Authority.effectivePort, hp]
    exact hnumber
  rw [Authority.canonical, heffective, Option.bind_none]

/-- A request that is neither misread nor overlooked is authorized exactly if its method is not
CONNECT and it is granted; a granted request that is misread is denied, and an overlooked one, which
is not granted, is let through. -/
theorem authorized_iff {config : CapabilitiesConfig} {capabilities : Capabilities}
    {request : WasiRequest} (hconfig : Capabilities.ofConfig config = .ok capabilities)
    (hhost : ∀ a ∈ request.authority, host a.asStr = a.host.written)
    (hport : ∀ a ∈ request.authority, portU16 a.asStr = a.portNumber) :
    ((authorize host portU16 capabilities.outboundHttp request).isSome = true ↔
      request.method ≠ "CONNECT" ∧ Granted config.outboundHttp request) ↔
    ¬(request.method ≠ "CONNECT" ∧
      (Granted config.outboundHttp request ∧ Misread request ∨
        Overlooked config.outboundHttp request)) := by
  cases hauthority : request.authority with
  | none =>
    have hgranted : ¬Granted config.outboundHttp request := by
      rintro ⟨_, _, _, -, hsome, -⟩
      rw [hauthority] at hsome
      cases hsome
    simp [authorize, hauthority, hgranted, Overlooked]
  | some a =>
    have hread := hhost a hauthority
    have hreadPort := hport a hauthority
    have hmisread := misread_iff hauthority
    have hoverlooked := @overlooked_iff a config.outboundHttp request hauthority
    have hgranted := granted_iff hconfig hauthority
    cases hkind : a.host with
    | ipLiteral inner =>
      have hdenied : authorize host portU16 capabilities.outboundHttp request = none :=
        authorize_ipLiteral hauthority hkind hread
      have hm : Misread request := hmisread.mpr (.inl ⟨inner, hkind⟩)
      rw [hkind] at hoverlooked
      simp [hdenied, hm, hoverlooked]
    | name text =>
      have hname := @authorize_name _ _ capabilities.outboundHttp _ _ _ hauthority hkind hread
        hreadPort
      have hexplicit := explicitPort_name hkind
      by_cases hbad : a.port.isSome = true ∧ a.portNumber = none
      · -- such a request is not granted; it is let through if a bracket hides its port
        have hungranted : ¬Granted config.outboundHttp request := by
          rw [hgranted]
          rintro ⟨scheme, -, destination, -, hcanonical⟩
          rw [canonical_eq_none scheme hbad.1 hbad.2] at hcanonical
          cases hcanonical
        have hwithout := @granted_iff a.withoutPort _ _ { request with
          authority := some a.withoutPort } hconfig rfl
        have hnumber : a.withoutPort.portNumber = a.portNumber := hbad.2.symm
        simp only [canonical_name _ (show a.withoutPort.host = .name text from hkind) nofun,
          hnumber] at hwithout
        rw [hname, hoverlooked, hwithout, hexplicit]
        simp only [hungranted, hbad.1, hbad.2, hkind, schemeOf]
        grind
      · -- a port that is left out or is a number is the one that is read
        have hport : a.port.isSome = true → a.portNumber.isSome = true := by
          intro hp
          by_contra hn
          exact hbad ⟨hp, by simpa using hn⟩
        have hnumber : a.portNumber = none ↔ a.port = none := by
          constructor
          · intro hn
            by_contra hp
            exact hbad ⟨by simpa [Option.isSome_iff_ne_none] using hp, hn⟩
          · intro hp
            rw [Authority.portNumber, hp, Option.bind_none]
        simp only [canonical_name _ hkind hport] at hgranted
        have hseen : ¬Overlooked config.outboundHttp request := fun ho =>
          have h := hoverlooked.mp ho
          hbad ⟨h.2.1, h.2.2.1⟩
        rw [hname, ← hgranted, hmisread, hexplicit, hnumber]
        have hnone : a.port = none → ¬a.port.isSome = true := fun hp => by simp [hp]
        simp only [hkind, reduceCtorEq, exists_false, false_or, hseen, or_false]
        grind

/-! ## A granted address out of reach -/

/-- The host behind the user information, up to its closing bracket or to the port. -/
def readHost (authorityText : List Char) : List Char :=
  let hostPort := (rsplitOnce '@' authorityText).elim authorityText (·.2)
  if hostPort.head? = some '[' then hostPort.takeWhile (· ≠ ']') ++ [']']
  else hostPort.takeWhile (· ≠ ':')

/-- The number behind the last colon. -/
def readPort (authorityText : List Char) : Option ℕ :=
  (rsplitOnce ':' authorityText).bind fun cut =>
    let number := Authority.digitsValue cut.2
    if cut.2 ≠ [] ∧ cut.2.all Char.isDigit ∧ number < 65536 then some number else none

def sensorGrants : CapabilitiesConfig where
  outboundHttp := [⟨.http, "fd00::1", none⟩, ⟨.https, "Example.com", none⟩]

def sensorCapabilities : Capabilities where
  outboundHttp := [⟨.http, .ip (.v6 [0xfd00, 0, 0, 0, 0, 0, 0, 1]), 80⟩,
    ⟨.https, .dns "example.com", 443⟩]

def nameAuthority : Authority where
  userinfo := some "key".toList
  host := .name "EXAMPLE.com".toList
  port := some "443".toList
  host_delimited := by simp [AuthorityHost.Delimited]
  port_digits := by
    rintro p ⟨⟩
    exact forall_mem_of_all (by decide)

def ipv6Authority : Authority where
  userinfo := none
  host := .ipLiteral "fd00::1".toList
  port := none
  host_delimited := by simp [AuthorityHost.Delimited]
  port_digits := by decide

theorem authorized_iff_name :
    Capabilities.ofConfig sensorGrants = .ok sensorCapabilities ∧
      (((authorize readHost readPort sensorCapabilities.outboundHttp
          ⟨"GET", some "https", some nameAuthority⟩).isSome = true ↔
        "GET" ≠ "CONNECT" ∧ Granted sensorGrants.outboundHttp
          ⟨"GET", some "https", some nameAuthority⟩) ↔
      ¬("GET" ≠ "CONNECT" ∧
        (Granted sensorGrants.outboundHttp ⟨"GET", some "https", some nameAuthority⟩ ∧
            Misread ⟨"GET", some "https", some nameAuthority⟩ ∨
          Overlooked sensorGrants.outboundHttp ⟨"GET", some "https", some nameAuthority⟩))) := by
  have hconfig : Capabilities.ofConfig sensorGrants = .ok sensorCapabilities := by decide +kernel
  refine ⟨hconfig, authorized_iff hconfig ?_ ?_⟩
  · intro a ha
    obtain rfl := Option.some.inj ha
    decide +kernel
  · intro a ha
    obtain rfl := Option.some.inj ha
    decide +kernel

/-- `[x]@example.com:99999` -/
def hiddenPortAuthority : Authority where
  userinfo := some "[x]".toList
  host := .name "example.com".toList
  port := some "99999".toList
  host_delimited := by simp [AuthorityHost.Delimited]
  port_digits := by
    rintro p ⟨⟩
    exact forall_mem_of_all (by decide)

-- the request goes to port 443
example : authorize readHost readPort sensorCapabilities.outboundHttp
    ⟨"GET", some "https", some hiddenPortAuthority⟩ = some ⟨.https, .dns "example.com", 443⟩ := by
  decide +kernel

/-- The granted address `fd00::1` is not reachable by a request to `http://[fd00::1]/`. -/
theorem ipv6_grant_unreachable :
    Capabilities.ofConfig sensorGrants = .ok sensorCapabilities ∧
      readHost ipv6Authority.asStr = ipv6Authority.host.written ∧
      readPort ipv6Authority.asStr = ipv6Authority.portNumber ∧
      Granted sensorGrants.outboundHttp ⟨"GET", some "http", some ipv6Authority⟩ ∧
      authorize readHost readPort sensorCapabilities.outboundHttp
        ⟨"GET", some "http", some ipv6Authority⟩ = none := by
  refine ⟨by decide +kernel, by decide +kernel, by decide +kernel, ?_, by decide +kernel⟩
  exact ⟨.http, ipv6Authority, ⟨.http, .ip (.v6 [0xfd00, 0, 0, 0, 0, 0, 0, 1]), 80⟩, rfl, rfl,
    by decide +kernel, ⟨.http, "fd00::1", none⟩, by decide, by decide +kernel⟩

end Wafer
