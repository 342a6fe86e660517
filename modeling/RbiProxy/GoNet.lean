import RbiProxy.GoString

/-!
# Network addresses

`net.SplitHostPort`, `net.JoinHostPort`, `net.ParseIP` and the sixteen-byte form
of an IP address, as the `net` package has them.
-/

namespace RbiProxy

/-! ## Host and port -/

/-- The `Err` of the `*net.AddrError` that `SplitHostPort` returns. -/
inductive AddrError where
  | missingPort
  | tooManyColons
  | missingBracket
  | unexpectedOpen
  | unexpectedClose
deriving DecidableEq

/-- The end of `SplitHostPort`: the port starts behind position `i`, and no
bracket may stand behind positions `j` and `k`. -/
def finishSplit (hostport host : GoString) (i j k : Nat) :
    Except AddrError (GoString × GoString) :=
  if (hostport.drop j).contains 91 then .error .unexpectedOpen
  else if (hostport.drop k).contains 93 then .error .unexpectedClose
  else .ok (host, hostport.drop (i + 1))

def splitHostPort (hostport : GoString) : Except AddrError (GoString × GoString) :=
  match lastIndexByte hostport 58 with
  | none => .error .missingPort
  | some i =>
    if hostport.head? = some 91 then
      match hostport.idxOf? 93 with
      | none => .error .missingBracket
      | some close =>
        if close + 1 = hostport.length then .error .missingPort
        else if close + 1 = i then
          finishSplit hostport ((hostport.take close).drop 1) i 1 (close + 1)
        else if hostport[close + 1]? = some 58 then .error .tooManyColons
        else .error .missingPort
    else if (hostport.take i).contains 58 then .error .tooManyColons
    else finishSplit hostport (hostport.take i) i 0 0

def joinHostPort (host port : GoString) : GoString :=
  if host.contains 58 then lit "[" ++ host ++ lit "]:" ++ port else host ++ lit ":" ++ port

example : splitHostPort (lit "[::1]:443") = .ok (lit "::1", lit "443") := by decide

/-! ## IP addresses -/

/-- An IP address as `net.ParseIP` returns it. -/
abbrev IP := Vector UInt8 16

/-- `To4`: the last four bytes of an IPv4 address. -/
def IP.to4 (ip : IP) : Option (Vector UInt8 4) :=
  if (ip.toList.take 10).all (· = 0) ∧ ip[10] = 0xff ∧ ip[11] = 0xff then
    some #v[ip[12], ip[13], ip[14], ip[15]]
  else none

/-- `::1`. -/
def IP.loopback6 : IP := #v[0, 0, 0, 0, 0, 0, 0, 0, 0, 0, 0, 0, 0, 0, 0, 1]

def IP.ofFour : GoString → Option IP
  | [a, b, c, d] => some #v[0, 0, 0, 0, 0, 0, 0, 0, 0, 0, 0xff, 0xff, a, b, c, d]
  | _ => none

def IP.ofBytes (bytes : GoString) : Option IP :=
  if h : bytes.toArray.size = 16 then some ⟨bytes.toArray, h⟩ else none

/-- `parseIPv4Fields`, with the octets that are read, and the value and the number of digits
of the one that is being read. -/
def parseIPv4Fields : GoString → GoString → Nat → Nat → Option GoString
  | [], fields, val, _ => if fields.length < 3 then none else some (fields ++ [UInt8.ofNat val])
  | c :: s, fields, val, digLen =>
    if 48 ≤ c ∧ c ≤ 57 then
      let next := val * 10 + (c - 48).toNat
      if digLen = 1 ∧ val = 0 then none
      else if 255 < next then none
      else parseIPv4Fields s fields next (digLen + 1)
    else if c = 46 then
      -- a dot stands neither first nor last, nor behind another one
      if digLen = 0 ∨ s = [] then none
      else if fields.length = 3 then none
      else parseIPv4Fields s (fields ++ [UInt8.ofNat val]) 0 0
    else none

def hexValue (c : UInt8) : Option Nat :=
  if 48 ≤ c ∧ c ≤ 57 then some (c - 48).toNat
  else if 97 ≤ c ∧ c ≤ 102 then some (c - 97 + 10).toNat
  else if 65 ≤ c ∧ c ≤ 70 then some (c - 65 + 10).toNat
  else none

/-- The loop of `parseIPv6`: the groups that there is room for, the text, the bytes that are
read, and where among them the ellipsis stands. -/
def parseIPv6Groups : Nat → GoString → GoString → Option Nat → Option (GoString × Option Nat)
  | 0, _, _, _ => none
  | room + 1, s, ip, ellipsis =>
    let digits := (s.takeWhile fun c => (hexValue c).isSome).filterMap hexValue
    let acc := digits.foldl (fun acc d => acc * 16 + d) 0
    if digits = [] ∨ 4 < digits.length then none
    else if (s.drop digits.length).head? = some 46 then
      if (ellipsis = none ∧ ip.length ≠ 12) ∨ 16 < ip.length + 4 then none
      else (parseIPv4Fields s [] 0 0).map fun fields => (ip ++ fields, ellipsis)
    else
      let ip := ip ++ [UInt8.ofNat (acc / 256), UInt8.ofNat (acc % 256)]
      match s.drop digits.length with
      | [] => some (ip, ellipsis)
      | [_] => none
      | c :: d :: s =>
        if c ≠ 58 then none
        else if d ≠ 58 then parseIPv6Groups room (d :: s) ip ellipsis
        else if ellipsis.isSome then none
        else if s = [] then some (ip, some ip.length)
        else parseIPv6Groups room s ip (some ip.length)

/-- `parseIPv6` without a zone. -/
def parseIPv6 (s : GoString) : Option IP :=
  let leading := hasPrefix s (lit "::")
  let read := if leading then
      if s.length = 2 then some ([], some 0) else parseIPv6Groups 8 (s.drop 2) [] (some 0)
    else parseIPv6Groups 8 s [] none
  read.bind fun (ip, ellipsis) =>
    match ellipsis with
    | none => IP.ofBytes ip
    | some k =>
      if ip.length < 16 then
        IP.ofBytes (ip.take k ++ List.replicate (16 - ip.length) 0 ++ ip.drop k)
      else none

/-- `net.ParseIP`: the first dot or colon decides, and there may be no zone. -/
def parseIP (s : GoString) : Option IP :=
  match s.find? fun c => c = 46 ∨ c = 58 ∨ c = 37 with
  | some 46 => (parseIPv4Fields s [] 0 0).bind IP.ofFour
  | some 58 => if s.contains 37 then none else parseIPv6 s
  | _ => none

example : parseIP (lit "10.0.0.7") = some #v[0, 0, 0, 0, 0, 0, 0, 0, 0, 0, 0xff, 0xff, 10, 0, 0, 7]
    ∧ (parseIP (lit "fd00::1")).map (·.to4) = some none
    ∧ (parseIP (lit "::ffff:1.2.3.4")).bind IP.to4 = some #v[1, 2, 3, 4]
    ∧ parseIP (lit "10.0.0.07") = none := by
  decide +kernel

end RbiProxy
