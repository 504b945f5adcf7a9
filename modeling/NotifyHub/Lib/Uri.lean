/-
  NotifyHub.Lib.Uri — the `URI` of RFC 3986: scheme, authority, path, query and fragment,
  in ASCII, every other character as `%` and two hexadecimal digits.
-/

import NotifyHub.Lib.Text

namespace NotifyHub.Uri

def isAlpha (c : UInt16) : Bool := (65 ≤ c && c ≤ 90) || (97 ≤ c && c ≤ 122)

/-- `unreserved`: letters, digits and `-._~`. -/
def isUnreserved (c : UInt16) : Bool := isAlpha c || isDigit c || c == 45 || c == 46 || c == 95 || c == 126

/-- `sub-delims` -/
def isSubDelim (c : UInt16) : Bool := c == 33 || c == 36 || (38 ≤ c && c ≤ 44) || c == 59 || c == 61

def isRegName (c : UInt16) : Bool := isUnreserved c || isSubDelim c

/-- Of a `userinfo`: also `:`. -/
def isUserInfo (c : UInt16) : Bool := isRegName c || c == 58

/-- Of a path: `pchar` and `/`. -/
def isPath (c : UInt16) : Bool := isRegName c || c == 58 || c == 64 || c == 47

/-- Of a query or a fragment: also `?`. -/
def isQuery (c : UInt16) : Bool := isPath c || c == 63

/-- Characters that are `ok`, or percent-encoded. -/
def encoded (ok : UInt16 → Bool) : JsString → Bool
  | [] => true
  | c :: s =>
    if c = 37 then
      match s with
      | a :: b :: s => isHex a && isHex b && encoded ok s
      | _ => false
    else ok c && encoded ok s

/-- What stands before the first `c`, and what after it. -/
def splitFirst (c : UInt16) (s : JsString) : JsString × Option JsString :=
  match s.idxOf? c with
  | none => (s, none)
  | some i => (s.take i, some (s.drop (i + 1)))

def isScheme : JsString → Bool
  | [] => false
  | c :: s => isAlpha c && s.all fun c => isAlpha c || isDigit c || c == 43 || c == 45 || c == 46

/-! ## Addresses -/

/-- `dec-octet` -/
def isDecOctet (s : JsString) : Bool := (s == [48] || s.head? != some 48) && (numeral? s).any (· ≤ 255)

def isIPv4 (s : JsString) : Bool := (s.splitOn 46).length == 4 && (s.splitOn 46).all isDecOctet

def isH16 (s : JsString) : Bool := 1 ≤ s.length && s.length ≤ 4 && s.all isHex

/-- The groups of 16 bits in the parts of an address, the last part perhaps an IPv4 address. -/
def groups : List JsString → Option Nat
  | [] => some 0
  | [p] => if isH16 p then some 1 else if isIPv4 p then some 2 else none
  | p :: l => if isH16 p then (groups l).map (· + 1) else none

def colonParts (s : JsString) : List JsString := if s = [] then [] else s.splitOn 58

/-- What stands before and after the first `::`. -/
def splitDouble : JsString → Option (JsString × JsString)
  | [] => none
  | c :: s =>
    if c = 58 ∧ s.head? = some 58 then some ([], s.tail)
    else (splitDouble s).map fun p => (c :: p.1, p.2)

def isIPv6 (s : JsString) : Bool :=
  match splitDouble s with
  | none => groups (colonParts s) == some 8
  | some (l, r) => (colonParts l).all isH16 && (groups (colonParts r)).any fun n => (colonParts l).length + n ≤ 7

/-- `"v" 1*HEXDIG "." 1*( unreserved / sub-delims / ":" )` -/
def isIPvFuture : JsString → Bool
  | [] => false
  | c :: s =>
    match splitFirst 46 s with
    | (version, some address) =>
      (c == 86 || c == 118) && version != [] && version.all isHex && address != [] && address.all isUserInfo
    | _ => false

/-! ## The parts -/

def isPort (s : JsString) : Bool := s.all isDigit

/-- `host [ ":" port ]` -/
def isHostPort (s : JsString) : Bool :=
  if s.head? = some 91 then
    match splitFirst 93 s.tail with
    | (address, some []) => isIPv6 address || isIPvFuture address
    | (address, some (c :: port)) => (isIPv6 address || isIPvFuture address) && c == 58 && isPort port
    | _ => false
  else
    match splitFirst 58 s with
    | (host, port) => encoded isRegName host && port.all isPort

def isAuthority (s : JsString) : Bool :=
  match splitFirst 64 s with
  | (hostPort, none) => isHostPort hostPort
  | (userInfo, some hostPort) => encoded isUserInfo userInfo && isHostPort hostPort

/-- What follows `//` in `hier-part`: an authority, and a path that is empty or begins with `/`. -/
def isAuthorityPath (s : JsString) : Bool :=
  isAuthority (s.takeWhile (· != 47)) && encoded isPath (s.dropWhile (· != 47))

def isHierPart (s : JsString) : Bool :=
  if startsWith s [47, 47] then isAuthorityPath (s.drop 2) else encoded isPath s

/-- `scheme ":" hier-part [ "?" query ] [ "#" fragment ]` -/
def isUri (s : JsString) : Bool :=
  match splitFirst 35 s with
  | (s, fragment) =>
    match splitFirst 63 s with
    | (s, query) =>
      match splitFirst 58 s with
      | (_, none) => false
      | (scheme, some hierPart) =>
        isScheme scheme && isHierPart hierPart && query.all (encoded isQuery) && fragment.all (encoded isQuery)

example : isUri (js "https://u:p@[2001:db8::192.0.2.1]:443/a%20b?c=d/e#f?") = true := by decide +kernel

example : isUri (js "https://example.com/a|b") = false := by decide +kernel

end NotifyHub.Uri
