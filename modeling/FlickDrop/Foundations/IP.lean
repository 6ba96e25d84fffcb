import FlickDrop.Foundations.Text

/-!
# Internet addresses

The functions of Go's `net` package that read an address: `ParseIP`, `IPNet.Contains` and
`SplitHostPort`.  An address is its bytes, sixteen of them when it comes from `ParseIP`.
-/

namespace FlickDrop
namespace Foundations

/-- `net.IP`. -/
abbrev IP := List UInt8

/-- The bytes before an IPv4 address in its sixteen-byte form. -/
def v4InV6Prefix : IP := List.replicate 10 0 ++ [0xff, 0xff]

/-- The loop of `parseIPv4Fields`.  `before` is the character read last, `val` and `digLen`
describe the field being read and `fields` are the complete ones. -/
def parseIPv4FieldsFrom (before : Option Char) (val digLen : Nat) (fields : IP) :
    List Char → Option IP
  | [] => if fields.length < 3 then none else some (fields ++ [UInt8.ofNat val])
  | c :: rest =>
    if c.isDigit then
      if digLen = 1 ∧ val = 0 then none
      else if 255 < val * 10 + (c.toNat - '0'.toNat) then none
      else parseIPv4FieldsFrom (some c) (val * 10 + (c.toNat - '0'.toNat)) (digLen + 1) fields rest
    else if c = '.' then
      if before = none ∨ rest = [] ∨ before = some '.' then none
      else if fields.length = 3 then none
      else parseIPv4FieldsFrom (some c) 0 0 (fields ++ [UInt8.ofNat val]) rest
    else
      none

def parseIPv4Fields (s : List Char) : Option IP := parseIPv4FieldsFrom none 0 0 [] s

def hexDigit (c : Char) : Option Nat :=
  if '0' ≤ c ∧ c ≤ '9' then some (c.toNat - '0'.toNat)
  else if 'a' ≤ c ∧ c ≤ 'f' then some (c.toNat - 'a'.toNat + 10)
  else if 'A' ≤ c ∧ c ≤ 'F' then some (c.toNat - 'A'.toNat + 10)
  else none

/-- The two bytes of a group of hexadecimal digits. -/
def hexGroup (digits : List Char) : IP :=
  let acc := digits.foldl (fun acc c => acc * 16 + (hexDigit c).getD 0) 0
  [UInt8.ofNat (acc / 256), UInt8.ofNat acc]

/-- The loop of `parseIPv6`, with room for `room` more groups: the text that is left, the bytes
read and how many of them stand before the ellipsis. -/
def parseIPv6Groups (ip : IP) (ellipsis : Option Nat) :
    Nat → List Char → Option (List Char × IP × Option Nat)
  | 0, s => some (s, ip, ellipsis)
  | room + 1, s =>
    let digits := s.takeWhile fun c => (hexDigit c).isSome
    if 4 < digits.length ∨ digits.length = 0 then
      none
    else
      let ip' := ip ++ hexGroup digits
      match s.drop digits.length with
      | '.' :: _ =>
        -- the last four bytes may be written as an IPv4 address
        if (ellipsis = none ∧ ip.length ≠ 12) ∨ 16 < ip.length + 4 then none
        else (parseIPv4Fields s).map fun fields => ([], ip ++ fields, ellipsis)
      | [] => some ([], ip', ellipsis)
      | [':'] => none
      | ':' :: ':' :: rest =>
        if ellipsis.isSome then none
        else if rest = [] then some ([], ip', some ip'.length)
        else parseIPv6Groups ip' (some ip'.length) room rest
      | ':' :: rest => parseIPv6Groups ip' ellipsis room rest
      | _ => none

/-- The end of `parseIPv6`: an ellipsis stands for at least one group of zeros. -/
def expandEllipsis (ip : IP) : Option Nat → Option IP
  | none => if ip.length < 16 then none else some ip
  | some front =>
    if ip.length < 16 then
      some (ip.take front ++ List.replicate (16 - ip.length) 0 ++ ip.drop front)
    else
      none

/-- `parseIPv6` of a text without a zone. -/
def parseIPv6 (s : List Char) : Option IP :=
  let groups :=
    match s with
    | [':', ':'] => some ([], [], some 0)
    | ':' :: ':' :: rest => parseIPv6Groups [] (some 0) 8 rest
    | _ => parseIPv6Groups [] none 8 s
  match groups with
  | some ([], ip, ellipsis) => expandEllipsis ip ellipsis
  | _ => none

/-- `net.ParseIP`; `none` is `nil`.  No address with a zone is accepted. -/
def parseIP (s : List Char) : Option IP :=
  match s.find? fun c => c = '.' ∨ c = ':' ∨ c = '%' with
  | some '.' => (parseIPv4Fields s).map fun fields => v4InV6Prefix ++ fields
  | some ':' => if '%' ∈ s then none else parseIPv6 s
  | _ => none

/-- `IP.To4`. -/
def to4 (ip : IP) : Option IP :=
  if ip.length = 4 then some ip
  else if ip.length = 16 ∧ ip.take 12 = v4InV6Prefix then some (ip.drop 12)
  else none

/-- `net.IPNet`. -/
structure IPNet where
  ip : IP
  mask : IP
deriving DecidableEq, Repr

/-- `networkNumberAndMask`; both are empty for a malformed network. -/
def networkNumberAndMask (n : IPNet) : IP × IP :=
  match to4 n.ip with
  | some ip =>
    if n.mask.length = 4 then (ip, n.mask)
    else if n.mask.length = 16 then (ip, n.mask.drop 12)
    else ([], [])
  | none => if n.ip.length = 16 ∧ n.mask.length = 16 then (n.ip, n.mask) else ([], [])

/-- `IPNet.Contains`. -/
def IPNet.contains (n : IPNet) (ip : IP) : Bool :=
  let number := networkNumberAndMask n
  let ip := (to4 ip).getD ip
  ip.length == number.1.length &&
    (List.zipWith (· &&& ·) number.1 number.2 == List.zipWith (· &&& ·) ip number.2)

/-- `net.SplitHostPort`; `none` is an error. -/
def splitHostPort (hostport : List Char) : Option (List Char × List Char) :=
  match cutLast ':' hostport with
  | none => none
  | some (front, port) =>
    match hostport with
    | '[' :: inside =>
      -- the first `]` stands right before the last colon
      let host := inside.takeWhile (· ≠ ']')
      if front ≠ '[' :: host ++ [']'] then none
      else if '[' ∈ inside ∨ ']' ∈ port then none
      else some (host, port)
    | _ =>
      if ':' ∈ front then none
      else if '[' ∈ hostport ∨ ']' ∈ hostport then none
      else some (front, port)

end Foundations
end FlickDrop
