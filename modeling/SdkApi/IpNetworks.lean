import Mathlib.Data.List.Basic

/-!
# Addresses and networks of the Internet protocol

Addresses of both families, networks in the `address/length` form and
membership. An IPv6 address that maps an IPv4 one is taken for it. The
text form of IPv6 addresses is a parameter.
-/

namespace SdkApi.IpNetworks

inductive Addr where
  | v4 (a : BitVec 32)
  | v6 (a : BitVec 128)
  deriving DecidableEq

def Addr.to4 : Addr → Option (BitVec 32)
  | .v4 a => some a
  | .v6 a => if a>>>32 = 0xffff#128 then some (a.setWidth 32) else none

inductive Network where
  | v4 (base : BitVec 32) (ones : ℕ)
  | v6 (base : BitVec 128) (ones : ℕ)
  deriving DecidableEq

def Network.contains (n : Network) (ip : Addr) : Bool :=
  match n, ip.to4, ip with
  | .v4 base ones, some a, _ => a>>>(32-ones) == base>>>(32-ones)
  | .v6 base ones, none, .v6 a => a>>>(128-ones) == base>>>(128-ones)
  | _, _, _ => false

def splitOn (sep : Char) : List Char → List (List Char)
  | [] => [[]]
  | c::cs =>
    if c = sep then []::splitOn sep cs
    else
      match splitOn sep cs with
      | [] => [[c]]
      | part::parts => (c::part)::parts

def decimal (cs : List Char) : Option ℕ :=
  if cs ≠ [] ∧ cs.all Char.isDigit then
    some (cs.foldl (fun n c => 10*n+(c.toNat-48)) 0)
  else none

def octet (cs : List Char) : Option ℕ := do
  let n ← decimal cs
  if n < 256 ∧ (cs.length = 1 ∨ cs.head? ≠ some '0') then some n else none

def parseIPv4 (s : List Char) : Option (BitVec 32) :=
  match splitOn '.' s with
  | [a,b,c,d] => do
    let a ← octet a
    let b ← octet b
    let c ← octet c
    let d ← octet d
    some (BitVec.ofNat 32 (((a*256+b)*256+c)*256+d))
  | _ => none

section

variable (parseIPv6 : List Char → Option (BitVec 128))

def parseIP (s : List Char) : Option Addr :=
  match parseIPv4 s with
  | some a => some (.v4 a)
  | none => (parseIPv6 s).map .v6

/-- Only a text of the form `address/length` is a network. -/
def parseCIDR (s : List Char) : Option Network :=
  match splitOn '/' s with
  | [addr,mask] => do
    let ones ← decimal mask
    match ← parseIP parseIPv6 addr with
    | .v4 a => if ones ≤ 32 then some (.v4 a ones) else none
    | .v6 a => if ones ≤ 128 then some (.v6 a ones) else none
  | _ => none

end

end SdkApi.IpNetworks
