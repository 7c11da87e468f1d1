import Mathlib.Data.BitVec

/-!
# IP addresses

Addresses as Go's `net/netip` represents them: an IPv4 address, an IPv6 address
with an optional zone, or no address. Two addresses are equal only if their zones
are. The predicates that look at bits ignore the zone; the ones that compare with a
constant do not, which `isUnspecified_zone` and `isGlobalUnicast_zone` make explicit.

- `Prefix`: networks, with `contains` and `masked`;
- `parse4`, `string4`: IPv4 addresses as dotted quads, and their round trip.
-/

namespace Netip

/-- `netip.Addr`; the zone `""` is none. -/
inductive Addr where
  | invalid
  | v4 (bits : BitVec 32)
  | v6 (bits : BitVec 128) (zone : String)
  deriving DecidableEq

/-- The IPv4 address `a.b.c.d`. -/
def ipv4 (a b c d : BitVec 8) : Addr := .v4 (a ++ b ++ c ++ d)

namespace Addr

/-- Octet `i` of an IPv4 address, from the left. -/
def octet (bits : BitVec 32) (i : Nat) : Nat := (bits.toNat / 2 ^ (8 * (3 - i))) % 256

/-- The first 16 bits of an IPv6 address. -/
def head16 (bits : BitVec 128) : Nat := bits.toNat / 2 ^ 112

/-- `Is4In6`: the address lies in `::ffff:0:0/96`. -/
def is4In6 (bits : BitVec 128) : Bool := bits.toNat / 2 ^ 32 = 0xffff

/-- `Unmap`; it also drops the zone of a mapped address. -/
def unmap : Addr → Addr
  | .v6 bits zone => if is4In6 bits then .v4 (bits.setWidth 32) else .v6 bits zone
  | addr => addr

/-- `WithZone("")`. -/
def dropZone : Addr → Addr
  | .v6 bits _ => .v6 bits ""
  | addr => addr

/-- `IsValid`. -/
def isValid : Addr → Bool
  | .invalid => false
  | _ => true

/-- `Is4`. -/
def is4 : Addr → Bool
  | .v4 _ => true
  | _ => false

/-- `IsUnspecified`. -/
def isUnspecified (addr : Addr) : Bool := addr = .v4 0 || addr = .v6 0 ""

/-- `IsLoopback`. -/
def isLoopback (addr : Addr) : Bool :=
  match addr.unmap with
  | .v4 bits => octet bits 0 = 127
  | .v6 bits _ => bits = 1
  | .invalid => false

/-- `IsMulticast`. -/
def isMulticast (addr : Addr) : Bool :=
  match addr.unmap with
  | .v4 bits => octet bits 0 / 16 = 0xe
  | .v6 bits _ => head16 bits / 256 = 0xff
  | .invalid => false

/-- `IsLinkLocalUnicast`. -/
def isLinkLocalUnicast (addr : Addr) : Bool :=
  match addr.unmap with
  | .v4 bits => octet bits 0 = 169 && octet bits 1 = 254
  | .v6 bits _ => head16 bits / 64 = 0xfe80 / 64
  | .invalid => false

/-- `IsLinkLocalMulticast`. -/
def isLinkLocalMulticast (addr : Addr) : Bool :=
  match addr.unmap with
  | .v4 bits => octet bits 0 = 224 && octet bits 1 = 0 && octet bits 2 = 0
  | .v6 bits _ => head16 bits / 256 = 0xff && head16 bits % 16 = 2
  | .invalid => false

/-- `IsPrivate`. -/
def isPrivate (addr : Addr) : Bool :=
  match addr.unmap with
  | .v4 bits => octet bits 0 = 10 || (octet bits 0 = 172 && octet bits 1 / 16 = 1)
      || (octet bits 0 = 192 && octet bits 1 = 168)
  | .v6 bits _ => head16 bits / 512 = 0xfc / 2
  | .invalid => false

/-- `IsGlobalUnicast`: private addresses are global unicast ones. -/
def isGlobalUnicast (addr : Addr) : Bool :=
  let addr := addr.unmap
  addr.isValid && addr ≠ .v4 0 && addr ≠ .v4 0xffffffff && addr ≠ .v6 0 ""
    && !addr.isLoopback && !addr.isMulticast && !addr.isLinkLocalUnicast

/-! ## Zones -/

theorem unmap_v6 {bits : BitVec 128} (h : is4In6 bits = false) (zone : String) :
    unmap (.v6 bits zone) = .v6 bits zone := by
  simp [unmap, h]

theorem is4In6_zero : is4In6 0 = false := by decide

theorem unmap_unmap (addr : Addr) : addr.unmap.unmap = addr.unmap := by
  cases addr with
  | invalid | v4 bits => rfl
  | v6 bits zone =>
    cases h : is4In6 bits with
    | true => simp [unmap, h]
    | false => rw [unmap_v6 h, unmap_v6 h]

section Zone

variable {bits : BitVec 128} (zone : String)

/-- What looks at bits only is the same in every zone. -/
theorem isLoopback_zone : isLoopback (.v6 bits zone) = isLoopback (.v6 bits "") := by
  cases h : is4In6 bits <;> simp [isLoopback, unmap, h]

theorem isMulticast_zone : isMulticast (.v6 bits zone) = isMulticast (.v6 bits "") := by
  cases h : is4In6 bits <;> simp [isMulticast, unmap, h]

theorem isLinkLocalUnicast_zone :
    isLinkLocalUnicast (.v6 bits zone) = isLinkLocalUnicast (.v6 bits "") := by
  cases h : is4In6 bits <;> simp [isLinkLocalUnicast, unmap, h]

theorem isLinkLocalMulticast_zone :
    isLinkLocalMulticast (.v6 bits zone) = isLinkLocalMulticast (.v6 bits "") := by
  cases h : is4In6 bits <;> simp [isLinkLocalMulticast, unmap, h]

theorem isPrivate_zone : isPrivate (.v6 bits zone) = isPrivate (.v6 bits "") := by
  cases h : is4In6 bits <;> simp [isPrivate, unmap, h]

/-- `::` is unspecified, `::%eth0` is not. -/
theorem isUnspecified_zone :
    isUnspecified (.v6 bits zone) = (isUnspecified (.v6 bits "") && decide (zone = "")) := by
  by_cases hbits : bits = 0 <;> by_cases hzone : zone = "" <;>
    simp [isUnspecified, hbits, hzone]

/-- Only at `::` does a zone make an address global unicast. -/
theorem isGlobalUnicast_zone (h : is4In6 bits = false) (hbits : bits ≠ 0) :
    isGlobalUnicast (.v6 bits zone) = isGlobalUnicast (.v6 bits "") := by
  have hzero : decide (bits = 0#128) = false := decide_eq_false hbits
  simp [isGlobalUnicast, unmap_v6 h, isLoopback_zone zone, isMulticast_zone zone,
    isLinkLocalUnicast_zone zone, isValid, hzero]

end Zone

/-- `BitLen`. -/
def bitLen : Addr → Nat
  | .invalid => 0
  | .v4 _ => 32
  | .v6 _ _ => 128

end Addr

/-! ## Networks -/

/-- `netip.Prefix`; `PrefixFrom` drops the zone of the address. -/
structure Prefix where
  addr : Addr
  bits : Nat

namespace Prefix

/-- `PrefixFrom`. -/
def ofAddr (addr : Addr) (bits : Nat) : Prefix := ⟨addr.dropZone, bits⟩

/-- `IsValid`. -/
def isValid (p : Prefix) : Bool := p.addr.isValid && p.bits ≤ p.addr.bitLen

/-- `Masked`: the bits after the network's are cleared. -/
def masked (p : Prefix) : Prefix :=
  if p.bits ≤ p.addr.bitLen then
    match p.addr with
    | .invalid => ⟨.invalid, 0⟩
    | .v4 bits => ⟨.v4 ((bits >>> (32 - p.bits)) <<< (32 - p.bits)), p.bits⟩
    | .v6 bits _ => ⟨.v6 ((bits >>> (128 - p.bits)) <<< (128 - p.bits)) "", p.bits⟩
  else ⟨.invalid, 0⟩

/-- `Contains`: an address with a zone is in no network. -/
def contains (p : Prefix) (addr : Addr) : Bool :=
  p.isValid &&
    match p.addr, addr with
    | .v4 a, .v4 b => (a ^^^ b) >>> (32 - p.bits) = 0
    | .v6 a _, .v6 b zone => zone = "" && (a ^^^ b) >>> (128 - p.bits) = 0
    | _, _ => false

end Prefix

/-! ## Dotted quads -/

/-- A decimal octet without leading zeros. -/
def parseOctet (digits : List Char) : Option (BitVec 8) :=
  let value := digits.foldl (fun n c => n * 10 + (c.toNat - '0'.toNat)) 0
  if digits ≠ [] ∧ digits.all Char.isDigit ∧ (digits.head? = some '0' → digits.length = 1) ∧
      value ≤ 255 then some (BitVec.ofNat 8 value)
  else none

/-- The IPv4 form of `ParseAddr`. -/
def parse4 (text : String) : Option Addr :=
  match text.toList.splitOn '.' with
  | [a, b, c, d] =>
    match parseOctet a, parseOctet b, parseOctet c, parseOctet d with
    | some a, some b, some c, some d => some (ipv4 a b c d)
    | _, _, _, _ => none
  | _ => none

/-- The four octets of an IPv4 address. -/
def octets (bits : BitVec 32) : List (BitVec 8) :=
  [bits.extractLsb' 24 8, bits.extractLsb' 16 8, bits.extractLsb' 8 8, bits.extractLsb' 0 8]

/-- `String` of an IPv4 address. -/
def string4 (bits : BitVec 32) : String :=
  String.ofList (['.'].intercalate ((octets bits).map fun a => Nat.toDigits 10 a.toNat))

theorem octets_append (a b c d : BitVec 8) : octets (a ++ b ++ c ++ d) = [a, b, c, d] := by
  have hget : ∀ (start : Nat) (x : BitVec 8),
      (∀ i, i < 8 → (a ++ b ++ c ++ d).getLsbD (start + i) = x.getLsbD i) →
      (a ++ b ++ c ++ d).extractLsb' start 8 = x := by
    intro start x h
    refine BitVec.eq_of_getLsbD_eq fun i hi => ?_
    rw [BitVec.getLsbD_extractLsb', h i hi, decide_eq_true hi, Bool.true_and]
  unfold octets
  rw [hget 24 a, hget 16 b, hget 8 c, hget 0 d]
  all_goals
    intro i hi
    simp only [BitVec.getLsbD_append]
    grind

/-- An octet is read back as it was written, and its digits hold no dot. -/
theorem parseOctet_toDigits (a : BitVec 8) :
    parseOctet (Nat.toDigits 10 a.toNat) = some a ∧ '.' ∉ Nat.toDigits 10 a.toNat := by
  have hall : ∀ n < 256, parseOctet (Nat.toDigits 10 n) = some (BitVec.ofNat 8 n) ∧
      '.' ∉ Nat.toDigits 10 n := by decide +kernel
  have h := hall a.toNat a.isLt
  rwa [BitVec.ofNat_toNat, BitVec.setWidth_eq] at h

/-- A quad is read back as it was written. -/
theorem parse4_string4 {text : String} {addr : Addr} (h : parse4 text = some addr) :
    ∃ bits, addr = .v4 bits ∧ parse4 (string4 bits) = some addr := by
  unfold parse4 at h
  split at h
  · split at h
    · next a b c d _ _ _ _ =>
      cases h
      refine ⟨_, rfl, ?_⟩
      have hdots : ∀ l ∈ [a, b, c, d].map fun a => Nat.toDigits 10 a.toNat, '.' ∉ l := by
        intro l hl
        obtain ⟨x, -, rfl⟩ := List.mem_map.mp hl
        exact (parseOctet_toDigits x).2
      unfold parse4 string4
      rw [octets_append, String.toList_ofList, List.splitOn_intercalate '.' hdots (by simp)]
      simp [parseOctet_toDigits]
    · cases h
  · cases h

end Netip
