/-!
# Network addresses

An address names a host and a port. The host is given by the four bytes or the eight groups of its
number, in the second case with the scope in which the number holds.

* `CommandLog.Address` – an address;
* `CommandLog.Address.render` – its text. Of the groups that are zero, the first of the longest
  runs is left out, and a number that stands for four bytes is written with them;
* `CommandLog.Address.Ipv4.render` and `CommandLog.Address.Ipv6.render` – the text of a host.
-/

namespace CommandLog

/-- The number of a host in four bytes. -/
structure Address.Ipv4 where
  /-- The bytes, first one first. -/
  octets : Vector UInt8 4
deriving DecidableEq, Repr

/-- The number of a host in eight groups of sixteen bits. -/
structure Address.Ipv6 where
  /-- The groups, first one first. -/
  groups : Vector UInt16 8
deriving DecidableEq, Repr

/-- A host and a port on it. -/
inductive Address where
  /-- A host with a number in four bytes. -/
  | v4 (host : Address.Ipv4) (port : UInt16)
  /-- A host with a number in eight groups, and the scope of the number or zero. -/
  | v6 (host : Address.Ipv6) (scope : UInt32) (port : UInt16)
deriving DecidableEq, Repr

namespace Address

/-- Whether the host has a number in four bytes. -/
def isV4 : Address → Bool
  | .v4 .. => true
  | .v6 .. => false

/-! ### Texts -/

/-- **The text of four bytes**: their decimal numbers with points between. -/
def Ipv4.render (h : Ipv4) : String :=
  ".".intercalate (h.octets.toList.map fun b => toString b.toNat)

/-- The four bytes that eight groups stand for, when these say that they do: five zeros and all
ones come before them. -/
def Ipv6.embedded? (h : Ipv6) : Option Ipv4 :=
  match h.groups.toList with
  | [0, 0, 0, 0, 0, 0xffff, high, low] =>
    some { octets := #v[(high >>> 8).toUInt8, high.toUInt8, (low >>> 8).toUInt8, low.toUInt8] }
  | _ => none

/-- Length of the run of zeros at the front. -/
def zerosAtFront (groups : List UInt16) : Nat :=
  (groups.takeWhile (· == 0)).length

/-- The place and the length of the longest run of zeros, the first one of those that are equally
long. -/
def longestZeros : List UInt16 → Nat × Nat
  | [] => (0, 0)
  | g :: rest =>
    let here := zerosAtFront (g :: rest)
    let (place, length) := longestZeros rest
    if length ≤ here then (0, here) else (place + 1, length)

/-- Groups in hexadecimal digits with colons between. -/
def renderGroups (groups : List UInt16) : String :=
  ":".intercalate (groups.map fun g => String.ofList (Nat.toDigits 16 g.toNat))

/-- **The text of eight groups.** -/
def Ipv6.render (h : Ipv6) : String :=
  match h.embedded? with
  | some octets => "::ffff:" ++ octets.render
  | none =>
    let groups := h.groups.toList
    let (place, length) := longestZeros groups
    if length ≤ 1 then renderGroups groups
    else renderGroups (groups.take place) ++ "::" ++ renderGroups (groups.drop (place + length))

/-- **The text of an address.** -/
def render : Address → String
  | .v4 host port => host.render ++ ":" ++ toString port.toNat
  | .v6 host scope port =>
    let scopeText := if scope = 0 then "" else "%" ++ toString scope.toNat
    "[" ++ host.render ++ scopeText ++ "]:" ++ toString port.toNat

end Address

end CommandLog
