import CommandLog.Address

/-!
# Addresses as they are written

`CommandLog.Address.ofText?` reads an address. Nothing may stand before or after it.

* A host in four bytes is four decimal numbers of at most three digits, without zeros at their
  front.
* A host in eight groups stands between brackets. A group has one to four hexadecimal digits;
  `::` stands once for one or more groups of zeros; the last two groups may be written as four
  bytes. A scope may follow after a percent sign.
* A port follows the host after a colon.

Every reader here takes something off the front of a list of characters, or leaves it alone.
-/

namespace CommandLog.Address

/-- The value of a digit in a number system of at most sixteen digits. -/
def digitValue? (radix : Nat) (c : Char) : Option Nat :=
  let value? :=
    if '0' ≤ c ∧ c ≤ '9' then some (c.toNat - '0'.toNat)
    else if 'a' ≤ c ∧ c ≤ 'f' then some (c.toNat - 'a'.toNat + 10)
    else if 'A' ≤ c ∧ c ≤ 'F' then some (c.toNat - 'A'.toNat + 10)
    else none
  value?.filter (· < radix)

/-- How a number is written. -/
structure NumberForm where
  /-- The number system. -/
  radix : Nat
  /-- The most digits that it may have, if that is limited. -/
  maxDigits : Option Nat
  /-- Whether zeros may stand in front of other digits. -/
  leadingZeros : Bool
  /-- One past the greatest number. -/
  limit : Nat

/-- One of the numbers of a host in four bytes. -/
def octetForm : NumberForm where
  radix := 10
  maxDigits := some 3
  leadingZeros := false
  limit := UInt8.size

/-- One of the groups of a host in eight groups. -/
def groupForm : NumberForm where
  radix := 16
  maxDigits := some 4
  leadingZeros := true
  limit := UInt16.size

/-- A port. -/
def portForm : NumberForm where
  radix := 10
  maxDigits := none
  leadingZeros := true
  limit := UInt16.size

/-- A scope. -/
def scopeForm : NumberForm where
  radix := 10
  maxDigits := none
  leadingZeros := true
  limit := UInt32.size

/-- **A number of a given form**, with all digits that are there. -/
def number? (form : NumberForm) (cs : List Char) : Option (Nat × List Char) :=
  let isDigit := fun c => (digitValue? form.radix c).isSome
  let digits := cs.takeWhile isDigit
  let value := digits.foldl (fun n c => n * form.radix + (digitValue? form.radix c).getD 0) 0
  let tooLong := match form.maxDigits with
    | some most => most < digits.length
    | none => false
  let zeroInFront := digits.head? == some '0' && 1 < digits.length
  if digits.isEmpty || tooLong || (zeroInFront && !form.leadingZeros) || form.limit ≤ value then
    none
  else some (value, cs.dropWhile isDigit)

/-- One given character. -/
def mark? (c : Char) : List Char → Option (List Char)
  | [] => none
  | d :: cs => if d = c then some cs else none

/-- A mark, unless this is the first of several things that it separates. -/
def separator? (c : Char) (first : Bool) (cs : List Char) : Option (List Char) :=
  if first then some cs else mark? c cs

/-- So many numbers of a host in four bytes. -/
def octets? : Nat → Bool → List Char → Option (List UInt8 × List Char)
  | 0, _, cs => some ([], cs)
  | n + 1, first, cs => do
    let (value, cs) ← number? octetForm (← separator? '.' first cs)
    let (rest, cs) ← octets? n false cs
    return (UInt8.ofNat value :: rest, cs)

/-- A host in four bytes. -/
def ipv4? (cs : List Char) : Option (Ipv4 × List Char) := do
  let (octets, cs) ← octets? 4 true cs
  return ({ octets := Vector.ofFn fun i => (octets[i.val]?).getD 0 }, cs)

/-- The two groups that four bytes make. -/
def Ipv4.groups (h : Ipv4) : List UInt16 :=
  let pair := fun (a b : UInt8) => a.toUInt16 <<< 8 ||| b.toUInt16
  [pair h.octets[0] h.octets[1], pair h.octets[2] h.octets[3]]

/-- At most so many groups, as many as there are. Four bytes make the last two of them, and the
flag says whether they do. -/
def groups : Nat → Bool → List Char → List UInt16 × Bool × List Char
  | 0, _, cs => ([], false, cs)
  | left + 1, first, cs =>
    let embedded? := if left = 0 then none else (separator? ':' first cs).bind ipv4?
    match embedded? with
    | some (host, cs) => (host.groups, true, cs)
    | none =>
      match (separator? ':' first cs).bind (number? groupForm) with
      | none => ([], false, cs)
      | some (value, cs) =>
        let (rest, embedded, cs) := groups left false cs
        (UInt16.ofNat value :: rest, embedded, cs)

/-- A host in eight groups. -/
def ipv6? (cs : List Char) : Option (Ipv6 × List Char) :=
  let (front, embedded, cs) := groups 8 true cs
  if front.length = 8 then some ({ groups := Vector.ofFn fun i => (front[i.val]?).getD 0 }, cs)
  else if embedded then none
  else do
    let cs ← mark? ':' (← mark? ':' cs)
    let (back, _, cs) := groups (7 - front.length) true cs
    let all := front ++ List.replicate (8 - front.length - back.length) 0 ++ back
    return ({ groups := Vector.ofFn fun i => (all[i.val]?).getD 0 }, cs)

/-- A scope after a percent sign, zero if there is none. -/
def scope (cs : List Char) : UInt32 × List Char :=
  match (mark? '%' cs).bind (number? scopeForm) with
  | some (value, cs) => (UInt32.ofNat value, cs)
  | none => (0, cs)

/-- A port after a colon. -/
def port? (cs : List Char) : Option (UInt16 × List Char) := do
  let (value, cs) ← number? portForm (← mark? ':' cs)
  return (UInt16.ofNat value, cs)

/-- An address whose host is in four bytes. -/
def v4? (cs : List Char) : Option (Address × List Char) := do
  let (host, cs) ← ipv4? cs
  let (port, cs) ← port? cs
  return (.v4 host port, cs)

/-- An address whose host is in eight groups. -/
def v6? (cs : List Char) : Option (Address × List Char) := do
  let (host, cs) ← ipv6? (← mark? '[' cs)
  let (scope, cs) := scope cs
  let (port, cs) ← port? (← mark? ']' cs)
  return (.v6 host scope port, cs)

/-- **The address that a text stands for.** -/
def ofText? (cs : List Char) : Option Address :=
  match (v4? cs).or (v6? cs) with
  | some (a, []) => some a
  | _ => none

end CommandLog.Address
