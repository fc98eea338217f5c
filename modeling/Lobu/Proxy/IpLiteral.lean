import Lobu.Foundation.IpText

namespace Lobu.Proxy

open Lobu.Foundation

/-! # Addresses that a request must not reach

How the egress proxy and the guard of the MCP proxy read a host literal, and which
addresses they block.  The two files have the same tables and the same text.
-/

def blockedIpv4Ranges : List (String × Nat) :=
  [("0.0.0.0", 8), ("10.0.0.0", 8), ("100.64.0.0", 10), ("127.0.0.0", 8), ("169.254.0.0", 16),
    ("172.16.0.0", 12), ("192.168.0.0", 16), ("198.18.0.0", 15), ("224.0.0.0", 4),
    ("240.0.0.0", 4)]

def blockedIpv6Ranges : List (String × Nat) :=
  [("fc00::", 7), ("fe80::", 10), ("ff00::", 8)]

/-- The leading bits that the addresses of a subnet share. -/
structure Subnet where
  address : Nat
  length : Nat
deriving DecidableEq

def Subnet.covers (width : Nat) (subnet : Subnet) (value : Nat) : Bool :=
  value >>> (width - subnet.length) == subnet.address >>> (width - subnet.length)

def ipv6Value (text : List Char) : Option Nat :=
  (parseIpv6 text).map Ipv6Text.value

def addSubnets (read : List Char → Option Nat) (ranges : List (String × Nat)) : List Subnet :=
  ranges.filterMap fun range => (read range.1.toList).map fun value => ⟨value, range.2⟩

def blockedIpv4List : List Subnet :=
  addSubnets ipv4Value blockedIpv4Ranges

def blockedIpv6List : List Subnet :=
  addSubnets ipv6Value ([("::", 128), ("::1", 128)] ++ blockedIpv6Ranges)

def blockedIpv4 (value : Nat) : Bool :=
  blockedIpv4List.any fun subnet => subnet.covers 32 value

def blockedIpv6 (value : Nat) : Bool :=
  blockedIpv6List.any fun subnet => subnet.covers 128 value

/-- `net.isIP`, for a text without a zone. -/
def isIP (text : List Char) : Nat :=
  if (parseIpv4 text).isSome then 4 else if (parseIpv6 text).isSome then 6 else 0

inductive NormalizedHost where
  | ipv4 (value : List Char)
  | ipv6 (value : List Char)
  | notIp
  | invalid

/-- Turns 16 bits and 16 bits into a dotted-quad IPv4 text. -/
def hextetsToIpv4 (high low : Nat) : List Char :=
  renderIpv4 [(high >>> 8) &&& 0xff, high &&& 0xff, (low >>> 8) &&& 0xff, low &&& 0xff]

/-- Strips the colon left in front of a dotted tail, so that the split works. -/
def stripColon (hexPart : List Char) : List Char :=
  if [':'].isSuffixOf hexPart && ! [':', ':'].isSuffixOf hexPart then hexPart.dropLast else hexPart

/-- Cuts a dotted-quad suffix off and converts its four octets to two hextets. -/
def cutIpv4Suffix (lower : List Char) : List Char × List Nat :=
  match lastIndexOf '.' lower with
  | none => (lower, [])
  | some dotIdx =>
    -- the dotted part starts after the last colon before the dot
    let start := (lastIndexOf ':' (lower.take (dotIdx + 1))).elim 0 (· + 1)
    let octets := ((lower.drop start).splitOn '.').map decimalValue
    (stripColon (lower.take start),
      [octets.getD 0 0 <<< 8 ||| octets.getD 1 0, octets.getD 2 0 <<< 8 ||| octets.getD 3 0])

/-- Expands an IPv6 address into its eight hextets. -/
def expandIpv6ToHextets (addr : List Char) : List Nat :=
  let cut := cutIpv4Suffix (addr.map Char.toLower)
  let halves := splitDouble cut.1
  let left := (splitColon (halves.getD 0 [])).map hexValue
  let right := if halves.length = 2 then (splitColon (halves.getD 1 [])).map hexValue else []
  let rightWithSuffix := right ++ cut.2
  left ++ List.replicate (8 - left.length - rightWithSuffix.length) 0 ++ rightWithSuffix

/-- `Number.parseInt(text, 16)` on characters of an address, none for `NaN`. -/
def parseHextet (text : List Char) : Option Nat :=
  let digits := text.takeWhile isHexDigit
  if digits = [] then none else some (hexValue digits)

def mappedPrefix : List Char :=
  "::ffff:".toList

/-- The host without its zone. -/
def bareHost (host : List Char) : List Char :=
  trim (host.takeWhile (· != '%'))

def normalizeMapped (mapped : List Char) : NormalizedHost :=
  if '.' ∈ mapped then
    if isIP mapped = 4 then .ipv4 mapped else .invalid
  else
    match mapped.splitOn ':' with
    | [first, second] =>
      match parseHextet first, parseHextet second with
      | some high, some low =>
        if high > 0xffff ∨ low > 0xffff then .invalid else .ipv4 (hextetsToIpv4 high low)
      | _, _ => .invalid
    | _ => .invalid

def normalizeIpLiteral (host : List Char) : NormalizedHost :=
  let bare := bareHost host
  if bare = [] then if '%' ∈ host then .invalid else .notIp
  else if isIP bare = 4 then .ipv4 bare
  else if isIP bare = 0 then if ':' ∈ bare then .invalid else .notIp
  else
    let lower := bare.map Char.toLower
    if mappedPrefix.isPrefixOf lower then normalizeMapped (lower.drop mappedPrefix.length)
    else
      let hextets := expandIpv6ToHextets bare
      if hextets.take 6 = [0x64, 0xff9b, 0, 0, 0, 0] then
        .ipv4 (hextetsToIpv4 (hextets.getD 6 0) (hextets.getD 7 0))
      else .ipv6 bare

/-- The check of both files. -/
def blocksLiteral (ip : List Char) : Bool :=
  match normalizeIpLiteral ip with
  | .ipv4 value => (ipv4Value value).any blockedIpv4
  | .ipv6 value => (ipv6Value value).any blockedIpv6
  | .invalid => true
  | .notIp => false

/-- The check of the egress proxy. -/
def isBlockedIpAddress (ip : List Char) : Bool :=
  blocksLiteral ip

/-- The check of the guard of the MCP proxy. -/
def isReservedIp (ip : List Char) : Bool :=
  blocksLiteral ip

/-- Both callers strip the brackets of a URL's IPv6 host before the check. -/
def stripIpv6Brackets (host : List Char) : List Char :=
  if host.length ≥ 2 ∧ ['['].isPrefixOf host ∧ [']'].isSuffixOf host then
    (host.drop 1).dropLast
  else host

end Lobu.Proxy
