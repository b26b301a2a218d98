import Mathlib.Data.List.Basic

/-!
# Outbound HTTP destinations

`OutboundHttpDestination::canonicalize` with the checks of
`wafer-types/src/config/engine.rs`, and the address parser of the standard
library it calls: four decimal octets without leading zeros, or eight groups of
up to four hex digits with one `::` and a dotted tail allowed.

## Main definitions

- `IpAddr.parse`
- `permittedLiteralIp`, `permittedDnsIp`
- `OutboundHttpDestination.canonicalize`, `Capabilities.ofConfig`
-/

namespace Wafer

inductive IpAddr
  | v4 (a b c d : Nat)
  | v6 (segments : List Nat)
  deriving DecidableEq, Repr

namespace IpAddr

/-- `char::to_digit`. -/
def toDigit (radix : Nat) (c : Char) : Option Nat :=
  let value :=
    if c.isDigit then some (c.toNat - '0'.toNat)
    else if c.isLower then some (c.toNat - 'a'.toNat + 10)
    else if c.isUpper then some (c.toNat - 'A'.toNat + 10)
    else none
  value.filter (· < radix)

/-- A number of at most `maxDigits` digits below `bound`, with the rest of the text. -/
def readNumber (radix maxDigits bound : Nat) (allowZeroPrefix : Bool) (s : List Char) :
    Option (Nat × List Char) :=
  let digits := s.takeWhile fun c => (toDigit radix c).isSome
  let number := digits.foldl (fun n c => n * radix + (toDigit radix c).getD 0) 0
  if digits = [] ∨ maxDigits < digits.length then none
  else if allowZeroPrefix = false ∧ s.head? = some '0' ∧ 1 < digits.length then none
  else if number < bound then some (number, s.drop digits.length)
  else none

def readChar (c : Char) : List Char → Option (List Char)
  | d :: rest => if d = c then some rest else none
  | [] => none

def readIpv4 (s : List Char) : Option ((Nat × Nat × Nat × Nat) × List Char) := do
  let octet := readNumber 10 3 256 false
  let (a, s) ← octet s
  let (b, s) ← readChar '.' s >>= octet
  let (c, s) ← readChar '.' s >>= octet
  let (d, s) ← readChar '.' s >>= octet
  pure ((a, b, c, d), s)

/-- Up to `limit` groups, each after the first behind a colon, and whether a dotted tail ended them.
A dotted tail takes the place of two groups. -/
def readGroups : (limit : Nat) → (first : Bool) → List Char → List Nat × Bool × List Char
  | 0, _, s => ([], false, s)
  | limit + 1, first, s =>
    let group := if first then some s else readChar ':' s
    match if limit = 0 then none else group >>= readIpv4 with
    | some ((a, b, c, d), rest) => ([a * 256 + b, c * 256 + d], true, rest)
    | none =>
      match group >>= readNumber 16 4 65536 true with
      | some (n, rest) =>
        let (groups, dotted, rest) := readGroups limit false rest
        (n :: groups, dotted, rest)
      | none => ([], false, s)

def readIpv6 (s : List Char) : Option (List Nat × List Char) :=
  let (head, dotted, rest) := readGroups 8 true s
  if head.length = 8 then some (head, rest)
  else if dotted then none
  else do
    let rest ← readChar ':' rest >>= readChar ':'
    -- `::` stands for at least one group of zeros
    let (tail, _, rest) := readGroups (8 - (head.length + 1)) true rest
    pure (head ++ List.replicate (8 - head.length - tail.length) 0 ++ tail, rest)

/-- `str::parse::<IpAddr>`: the whole text is one address. -/
def parse (text : String) : Option IpAddr :=
  match readIpv4 text.toList with
  | some ((a, b, c, d), rest) => if rest = [] then some (v4 a b c d) else none
  | none =>
    match readIpv6 text.toList with
    | some (segments, rest) => if rest = [] then some (v6 segments) else none
    | none => none

example : parse "10.0.0.1" = some (v4 10 0 0 1) ∧ parse "10.0.0.01" = none ∧
    parse "fd00::1:2" = some (v6 [0xfd00, 0, 0, 0, 0, 0, 1, 2]) := by decide

end IpAddr

def globalIpv4 (a b c d : Nat) : Bool :=
  !(a == 0 || a == 10 || a == 127 || (a == 169 && b == 254) ||
    (a == 172 && 16 ≤ b && b ≤ 31) || (a == 192 && b == 168) ||
    (a == 100 && 64 ≤ b && b ≤ 127) || (a == 192 && b == 0 && c == 0) ||
    (a == 192 && b == 0 && c == 2) || (a == 198 && (b == 18 || b == 19)) ||
    (a == 198 && b == 51 && c == 100) || (a == 203 && b == 0 && c == 113) || 224 ≤ a ||
    (a == 255 && b == 255 && c == 255 && d == 255))

/-- `is_loopback() || is_private() || global_ipv4`. -/
def permittedLiteralIpv4 (a b c d : Nat) : Bool :=
  a == 127 || a == 10 || (a == 172 && 16 ≤ b && b ≤ 31) || (a == 192 && b == 168) ||
    globalIpv4 a b c d

def globalIpv6 (segments : List Nat) : Bool :=
  (segments.getD 0 0) &&& 0xe000 == 0x2000 &&
    !(segments.getD 0 0 == 0x2001 && segments.getD 1 0 == 0x0db8) &&
    -- not an IPv4-mapped address
    !(segments.take 6 == [0, 0, 0, 0, 0, 0xffff])

def permittedLiteralIpv6 (segments : List Nat) : Bool :=
  segments == [0, 0, 0, 0, 0, 0, 0, 1] || (segments.getD 0 0) &&& 0xfe00 == 0xfc00 ||
    globalIpv6 segments

def permittedLiteralIp : IpAddr → Bool
  | .v4 a b c d => permittedLiteralIpv4 a b c d
  | .v6 segments => permittedLiteralIpv6 segments

def permittedDnsIp : IpAddr → Bool
  | .v4 a b c d => globalIpv4 a b c d
  | .v6 segments => globalIpv6 segments

inductive HttpScheme
  | http
  | https
  deriving DecidableEq, Repr

def HttpScheme.defaultPort : HttpScheme → Nat
  | http => 80
  | https => 443

structure OutboundHttpDestination where
  scheme : HttpScheme
  host : String
  port : Option Nat := none
  deriving DecidableEq, Repr

inductive HttpHost
  | dns (name : String)
  | ip (ip : IpAddr)
  deriving DecidableEq, Repr

structure CanonicalHttpDestination where
  scheme : HttpScheme
  host : HttpHost
  port : Nat
  deriving DecidableEq, Repr

inductive OutboundHttpDestinationError
  | emptyHost
  | wildcardHost
  | invalidHost
  | prohibitedIp
  | zeroPort
  | duplicateDestination
  deriving DecidableEq, Repr

def OutboundHttpDestinationError.toString : OutboundHttpDestinationError → String
  | emptyHost => "host must not be empty"
  | wildcardHost => "wildcard hosts are not supported"
  | invalidHost => "host must be a canonical IP literal or ASCII DNS name"
  | prohibitedIp => "IP literal is prohibited"
  | zeroPort => "port must be greater than zero"
  | duplicateDestination => "duplicate normalized destination"

/-- A label of a DNS name: letters, digits and inner hyphens. -/
def validLabel (label : List Char) : Bool :=
  !label.isEmpty && label.length ≤ 63 && label.head? != some '-' && label.getLast? != some '-' &&
    label.all fun c => c.isAlphanum || c == '-'

def canonicalDnsName (host : String) : Except OutboundHttpDestinationError String :=
  if host.toList.any (fun c => 128 ≤ c.toNat) ∨ 253 < host.length ∨ host.toList.getLast? = some '.' then
    .error .invalidHost
  else if (host.toList.splitOn '.').all validLabel then .ok (String.ofList (host.toList.map Char.toLower))
  else .error .invalidHost

def OutboundHttpDestination.canonicalize (destination : OutboundHttpDestination) :
    Except OutboundHttpDestinationError CanonicalHttpDestination := do
  if destination.host = "" then throw .emptyHost
  if destination.host.toList.contains '*' then throw .wildcardHost
  let host ← match IpAddr.parse destination.host with
    | some ip => if permittedLiteralIp ip then pure (HttpHost.ip ip) else throw .prohibitedIp
    | none => (canonicalDnsName destination.host).map .dns
  let port := destination.port.getD destination.scheme.defaultPort
  if port = 0 then throw .zeroPort
  pure ⟨destination.scheme, host, port⟩

/-- The capabilities table of a node, as configured. -/
structure CapabilitiesConfig where
  inheritStdio : Bool := false
  inheritEnv : Bool := false
  allowInference : Bool := false
  outboundHttp : List OutboundHttpDestination := []
  deriving DecidableEq, Repr

/-- The capabilities a store runs with. -/
structure Capabilities where
  inheritStdio : Bool := false
  inheritEnv : Bool := false
  allowInference : Bool := false
  outboundHttp : List CanonicalHttpDestination := []
  deriving DecidableEq, Repr

/-- `Capabilities::try_from`: a repeated destination is refused. -/
def Capabilities.ofConfig (config : CapabilitiesConfig) :
    Except OutboundHttpDestinationError Capabilities := do
  let outboundHttp ← config.outboundHttp.foldlM (fun seen destination => do
    let destination ← destination.canonicalize
    if destination ∈ seen then throw .duplicateDestination
    pure (seen ++ [destination])) []
  pure ⟨config.inheritStdio, config.inheritEnv, config.allowInference, outboundHttp⟩

/-- The capabilities of an accepted table are its destinations in canonical form. -/
theorem Capabilities.mem_ofConfig {config : CapabilitiesConfig} {capabilities : Capabilities}
    (h : Capabilities.ofConfig config = .ok capabilities) (d : CanonicalHttpDestination) :
    d ∈ capabilities.outboundHttp ↔ ∃ grant ∈ config.outboundHttp, grant.canonicalize = .ok d := by
  have hfold : ∀ (grants : List OutboundHttpDestination) (seen out : List CanonicalHttpDestination),
      grants.foldlM (fun seen destination => do
        let destination ← destination.canonicalize
        if destination ∈ seen then throw .duplicateDestination
        pure (seen ++ [destination])) seen = Except.ok out →
      (d ∈ out ↔ d ∈ seen ∨ ∃ grant ∈ grants, grant.canonicalize = .ok d) := by
    intro grants
    induction grants with
    | nil =>
      intro seen out hout
      obtain rfl := Except.ok.inj hout
      simp
    | cons grant grants ih =>
      intro seen out hout
      rw [List.foldlM_cons] at hout
      cases hgrant : grant.canonicalize with
      | error e =>
        rw [hgrant] at hout
        cases hout
      | ok c =>
        by_cases hdup : c ∈ seen
        · simp [hgrant, hdup, bind, Except.bind, throw, throwThe, MonadExceptOf.throw] at hout
        · have hrest := ih (seen ++ [c]) out (by
            simpa [hgrant, hdup, bind, Except.bind, pure, Except.pure] using hout)
          rw [hrest, List.mem_append, List.mem_singleton, or_assoc]
          simp only [List.mem_cons, exists_eq_or_imp, hgrant, Except.ok.injEq]
          simp only [eq_comm]
  simp only [ofConfig, bind, Except.bind] at h
  split at h
  · cases h
  · next out hout =>
    obtain rfl := Except.ok.inj h
    simpa using hfold config.outboundHttp [] out hout

end Wafer
