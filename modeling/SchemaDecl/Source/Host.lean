import SchemaDecl.Json.Display
import SchemaDecl.Text.Lines

/-!
# Hosts

The host of an address is a name, or between brackets a number of the internet protocol: eight groups of
hexadecimal digits with colons between them. One run of zero groups may be left out, and the last two
groups may be written as four decimal numbers. A bracket that begins with `v` holds a number of a later
version. In front of the host may stand a user with `@`, and behind it a gate with `:`.
-/

namespace SchemaDecl.Host

/-- A decimal number below 256 without needless zeros. -/
def isOctet (cs : List Char) : Bool :=
  !cs.isEmpty && cs.length ≤ 3 && cs.all Char.isDigit && (cs = ['0'] || cs.head? != some '0') &&
    cs.foldl (fun n c => 10 * n + (c.toNat - '0'.toNat)) 0 < 256

def isDotted (cs : List Char) : Bool :=
  let octets := Text.splitOn '.' cs
  octets.length = 4 && octets.all isOctet

def isHexDigit (c : Char) : Bool := c.isDigit || ('a' ≤ c && c ≤ 'f') || ('A' ≤ c && c ≤ 'F')

def isGroup (cs : List Char) : Bool := !cs.isEmpty && cs.length ≤ 4 && cs.all isHexDigit

/-- The groups with two zeros in place of four decimal numbers at the end; nothing if those are wrong. -/
def withoutDotted (parts : List (List Char)) : Option (List (List Char)) :=
  match parts.getLast? with
  | some last =>
    if !last.contains '.' then some parts
    else if isDotted last then some (parts.dropLast ++ [['0'], ['0']])
    else none
  | none => some parts

/-- The groups on one side of a gap; there may be none. -/
def besideGap (parts : List (List Char)) : List (List Char) := if parts = [[]] then [] else parts

/-- Eight groups, or fewer with a gap. -/
def areGroups (parts : List (List Char)) : Bool :=
  let inner := (parts.drop 1).dropLast
  match inner.countP List.isEmpty with
  | 0 => parts.length = 8 && parts.all isGroup
  | 1 =>
    let gap := inner.findIdx List.isEmpty + 1
    let groups := besideGap (parts.take gap) ++ besideGap (parts.drop (gap + 1))
    groups.length ≤ 7 && groups.all isGroup
  | _ => false

/-- What stands after a percent sign names a zone; it may not be empty. -/
def hasZone (cs : List Char) : Bool :=
  match cs.dropWhile (· ≠ '%') with
  | [] => true
  | _ :: zone => !zone.isEmpty && !zone.contains '%'

def isGrouped (cs : List Char) : Bool :=
  hasZone cs &&
    ((withoutDotted (Text.splitOn ':' (cs.takeWhile (· ≠ '%')))).any areGroups)

/-- A number of a later version: hexadecimal digits, a point and at least one more character. -/
def isLater (cs : List Char) : Bool :=
  let digits := (cs.drop 1).takeWhile isHexDigit
  match (cs.drop 1).dropWhile isHexDigit with
  | '.' :: _ :: _ => !digits.isEmpty
  | _ => false

inductive Fault
  /-- One kind of bracket only, or text beside a bracket. -/
  | unbalanced
  | malformedLater
  /-- Four decimal numbers between brackets. -/
  | dotted
  | noNumber (host : String)
  /-- A character that stands for a separator. -/
  | disguised (host : String)
  deriving DecidableEq, Repr

def Fault.message : Fault → String
  | unbalanced => "Invalid IPv6 URL"
  | malformedLater => "IPvFuture address is invalid"
  | dotted => "An IPv4 address cannot be in brackets"
  | noNumber host => Json.inspectText host ++ " does not appear to be an IPv4 or IPv6 address"
  | disguised host => "netloc '" ++ host ++ "' contains invalid characters under NFKC normalization"

/-- Checks what stands between brackets. -/
def checkBracketed (cs : List Char) : Except Fault Unit :=
  if cs.head? = some 'v' then if isLater cs then .ok () else .error .malformedLater
  else if isDotted cs then .error .dotted
  else if isGrouped cs then .ok ()
  else .error (.noNumber (String.ofList cs))

/-- The characters that are compatible with one or more others among which is a separator. -/
def isDisguised (c : Char) : Bool :=
  c.toNat ∈ [0x2047, 0x2048, 0x2049, 0x2100, 0x2101, 0x2105, 0x2106, 0x2A74, 0xFE13, 0xFE16, 0xFE55,
    0xFE56, 0xFE5F, 0xFE6B, 0xFF03, 0xFF0F, 0xFF1A, 0xFF1F, 0xFF20]

/-- What stands behind the last `@`, or all. -/
def withoutUser (cs : List Char) : List Char := (cs.reverse.takeWhile (· ≠ '@')).reverse

/-- The number at the head of a host, in brackets or up to a colon. Nothing but a colon may follow a
bracket, and nothing may stand in front of one. -/
def number (cs : List Char) : Except Fault (List Char) :=
  match cs with
  | '[' :: inner =>
    let behind := (inner.dropWhile (· ≠ ']')).drop 1
    if behind.isEmpty || behind.head? = some ':' then .ok (inner.takeWhile (· ≠ ']'))
    else .error .unbalanced
  | cs => if cs.contains '[' then .error .unbalanced else .ok (cs.takeWhile (· ≠ ':'))

def check (cs : List Char) : Except Fault Unit := do
  if cs.contains '[' != cs.contains ']' then throw .unbalanced
  if cs.contains '[' then checkBracketed (← number (withoutUser cs))
  if cs.any isDisguised then throw (.disguised (String.ofList cs))

end SchemaDecl.Host
