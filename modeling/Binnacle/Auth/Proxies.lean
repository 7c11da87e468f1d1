import Binnacle.Netip
import Binnacle.Text

/-!
# Trusted proxies and the prefix of a client

Model of `TrustedProxies` in `internal/auth/protection.go`: which peers are believed
when they forward a request, and under which prefix a client's requests are counted.

- `TrustedProxies`: single hosts only, as `ParseTrustedProxies` guarantees.
- `clientPrefix_iff`: for a line that a trusted chain completed, when the result is the
  prefix of the client's own address.

The address syntax of `net/netip` and `net.SplitHostPort` are parameters (`AddrText`); an
address reads back as it is written.
-/

namespace Binnacle.Auth

open Netip

structure AddrText where
  splitHostPort : String → Option (String × String)
  parseAddr : String → Option Addr
  parsePrefix : String → Option Prefix
  addrString : Addr → String
  prefixString : Prefix → String
  parse_string : ∀ {text addr}, parseAddr text = some addr → parseAddr (addrString addr) = some addr

/-- `TrustedProxies` (protection.go:20-21): networks of exactly one host. -/
structure TrustedProxies where
  prefixes : List Prefix
  host : ∀ p ∈ prefixes, p.bits = p.addr.bitLen

/-- The parts of a request that are read: the peer, and the first line of
`X-Forwarded-For`, empty if there is none. -/
structure Request where
  remoteAddr : String
  forwardedFor : String
  deriving DecidableEq

/-- `ParseTrustedProxies` (protection.go:23-40). -/
def parseTrustedProxies (lib : AddrText) : List String → Except String TrustedProxies
  | [] => .ok ⟨[], nofun⟩
  | value :: values =>
    let value := trimSpace value
    if value = "" then parseTrustedProxies lib values
    else
      match lib.parsePrefix value with
      | none => .error "netip.ParsePrefix"
      | some p =>
        if h : p.bits = p.addr.bitLen then
          (parseTrustedProxies lib values).map fun rest =>
            ⟨p :: rest.prefixes,
              fun q hq => (List.mem_cons.mp hq).elim (fun e => e ▸ h) (rest.host q)⟩
        else
          .error ("trusted proxy CIDRs must identify one exact host " ++
            "(/32 for IPv4 or /128 for IPv6)")

namespace TrustedProxies

variable (p : TrustedProxies) (lib : AddrText)

/-- `trustedAddr` (protection.go:56-63). -/
def trustedAddr (addr : Addr) : Bool := p.prefixes.any fun q => q.contains addr

/-- `trusted` (protection.go:41-51). -/
def trusted (r : Request) : Bool :=
  match lib.splitHostPort r.remoteAddr with
  | none => false
  | some (host, _) =>
    match lib.parseAddr host with
    | none => false
    | some addr => p.trustedAddr addr

/-- `strings.Split(line, ",")`. -/
def entries (line : String) : List String := (line.toList.splitOn ',').map String.ofList

/-- What one entry names: an address that is not trusted (protection.go:82-88). -/
def named (entry : String) : Option Addr :=
  match lib.parseAddr (trimSpace entry) with
  | none => none
  | some addr => if p.trustedAddr addr then none else some addr

/-- The loop of `ClientPrefix` (protection.go:81-91), from the last entry back. -/
def lastNamed (values : List String) : Option Addr := values.reverse.findSome? (p.named lib)

/-- The network an address is counted under (protection.go:98-101). -/
def network (lib : AddrText) (addr : Addr) : String :=
  if addr.is4 then lib.prefixString (Prefix.ofAddr addr 24).masked
  else lib.prefixString (Prefix.ofAddr addr 56).masked

/-- `ClientPrefix` (protection.go:73-102). -/
def clientPrefix (r : Request) : String :=
  let host :=
    match lib.splitHostPort r.remoteAddr with
    | none => r.remoteAddr
    | some (host, _) => host
  let host :=
    if p.trusted lib r then
      let values := entries r.forwardedFor
      if values.length > 0 ∧ values.length ≤ 16 then
        match p.lastNamed lib values with
        | none => host
        | some addr => lib.addrString addr
      else host
    else host
  match lib.parseAddr host with
  | none => "unknown"
  | some addr => network lib addr

end TrustedProxies

/-! ## A line completed by the trusted chain -/

/-- What a client wrote, the entry with the client's address, and the entries of the
proxies between the client and the peer. -/
structure Forwarded where
  supplied : String
  client : String
  proxies : List String

def Forwarded.line (f : Forwarded) : String :=
  f.supplied ++ "," ++ ",".intercalate (f.client :: f.proxies)

/-- The entries of the chain are single entries: the client's address, and trusted
addresses. -/
structure Chained (p : TrustedProxies) (lib : AddrText) (f : Forwarded) (client : Addr) : Prop where
  single : ∀ entry ∈ f.client :: f.proxies, ',' ∉ entry.toList
  client : lib.parseAddr (trimSpace f.client) = some client
  proxies : ∀ entry ∈ f.proxies, ∃ addr, lib.parseAddr (trimSpace entry) = some addr ∧
    p.trustedAddr addr = true

structure FromPeer (p : TrustedProxies) (lib : AddrText) (r : Request) (peer : Addr) : Prop where
  parsed : ∃ host port, lib.splitHostPort r.remoteAddr = some (host, port) ∧
    lib.parseAddr host = some peer
  trusted : p.trustedAddr peer = true

/-- When the client is counted under its own prefix. On a line of more than sixteen
entries only if the peer has the same one. Otherwise the client must not be a trusted
proxy itself; if it is, the last address that the supplied text names, or else the
peer, must have the same prefix. -/
def Attributed (p : TrustedProxies) (lib : AddrText) (f : Forwarded) (peer client : Addr) : Prop :=
  if (TrustedProxies.entries f.supplied).length + 1 + f.proxies.length ≤ 16 then
    p.trustedAddr client = false ∨
      TrustedProxies.network lib
          ((p.lastNamed lib (TrustedProxies.entries f.supplied)).getD peer) =
        TrustedProxies.network lib client
  else TrustedProxies.network lib peer = TrustedProxies.network lib client

section Scan

variable {p : TrustedProxies} {lib : AddrText}

theorem entries_line {f : Forwarded} (h : ∀ entry ∈ f.client :: f.proxies, ',' ∉ entry.toList) :
    TrustedProxies.entries f.line =
      TrustedProxies.entries f.supplied ++ f.client :: f.proxies := by
  have hchain : ∀ l ∈ (f.client :: f.proxies).map String.toList, ',' ∉ l := by
    intro l hl
    obtain ⟨entry, hentry, rfl⟩ := List.mem_map.mp hl
    exact h entry hentry
  have hline : f.line.toList = f.supplied.toList ++
      ',' :: [','].intercalate ((f.client :: f.proxies).map String.toList) := by
    unfold Forwarded.line
    rw [String.toList_append, String.toList_append, String.toList_intercalate]
    simp
  unfold TrustedProxies.entries
  rw [hline, List.splitOn, List.splitOnP_append_cons _ _ (by simp)]
  show List.map String.ofList (List.splitOn ',' _ ++ List.splitOn ',' _) = _
  rw [List.splitOn_intercalate ',' hchain (by simp), List.map_append, List.map_map]
  simp

theorem findSome?_trusted {values : List String} (h : ∀ entry ∈ values,
    ∃ addr, lib.parseAddr (trimSpace entry) = some addr ∧ p.trustedAddr addr = true) :
    values.reverse.findSome? (p.named lib) = none := by
  rw [List.findSome?_eq_none_iff]
  intro entry hentry
  obtain ⟨addr, hparse, htrusted⟩ := h entry (List.mem_reverse.mp hentry)
  simp [TrustedProxies.named, hparse, htrusted]

theorem lastNamed_line {f : Forwarded} {client : Addr} (h : Chained p lib f client) :
    p.lastNamed lib (TrustedProxies.entries f.line) =
      if p.trustedAddr client then p.lastNamed lib (TrustedProxies.entries f.supplied)
      else some client := by
  unfold TrustedProxies.lastNamed
  rw [entries_line h.single, List.reverse_append, List.reverse_cons, List.append_assoc,
    List.findSome?_append, findSome?_trusted h.proxies, Option.none_or, List.findSome?_append]
  cases ht : p.trustedAddr client <;>
    simp [TrustedProxies.named, h.client, ht]

theorem parse_of_lastNamed {values : List String} {addr : Addr}
    (h : p.lastNamed lib values = some addr) : ∃ text, lib.parseAddr text = some addr := by
  obtain ⟨entry, -, hnamed⟩ := List.exists_of_findSome?_eq_some h
  unfold TrustedProxies.named at hnamed
  split at hnamed
  · cases hnamed
  · next found hparse =>
    split_ifs at hnamed
    cases hnamed
    exact ⟨_, hparse⟩

theorem clientPrefix_eq {r : Request} {peer : Addr} (h : FromPeer p lib r peer) :
    p.clientPrefix lib r =
      TrustedProxies.network lib
        (if (TrustedProxies.entries r.forwardedFor).length ≤ 16 then
          (p.lastNamed lib (TrustedProxies.entries r.forwardedFor)).getD peer
        else peer) := by
  obtain ⟨host, port, hsplit, hparse⟩ := h.parsed
  have htrusted : p.trusted lib r = true := by
    simp [TrustedProxies.trusted, hsplit, hparse, h.trusted]
  have hpos : (TrustedProxies.entries r.forwardedFor).length > 0 := by
    refine List.length_pos_iff.mpr fun hnil => ?_
    exact List.splitOn_ne_nil ',' _ (List.map_eq_nil_iff.mp hnil)
  unfold TrustedProxies.clientPrefix
  simp only [hsplit, htrusted, if_true, hpos, true_and]
  by_cases hlen : (TrustedProxies.entries r.forwardedFor).length ≤ 16
  · rw [if_pos hlen, if_pos hlen]
    cases hnamed : p.lastNamed lib (TrustedProxies.entries r.forwardedFor) with
    | none => simp [hparse]
    | some addr =>
      obtain ⟨text, htext⟩ := parse_of_lastNamed hnamed
      simp [lib.parse_string htext]
  · rw [if_neg hlen, if_neg hlen, hparse]

end Scan

/-! ## Whose prefix it is -/

/-- The result is the prefix of the client's own address exactly if the client is
attributed; and then it does not depend on what the client supplied. -/
theorem clientPrefix_iff {p : TrustedProxies} {lib : AddrText} {r : Request} {f : Forwarded}
    {peer client : Addr} (hpeer : FromPeer p lib r peer) (hline : r.forwardedFor = f.line)
    (hchain : Chained p lib f client) :
    (p.clientPrefix lib r = TrustedProxies.network lib client ↔ Attributed p lib f peer client) ∧
    ∀ supplied,
      let f' : Forwarded := { f with supplied := supplied }
      Attributed p lib f peer client → Attributed p lib f' peer client →
      p.clientPrefix lib { r with forwardedFor := f'.line } = p.clientPrefix lib r := by
  have hiff : ∀ {r : Request} {f : Forwarded}, FromPeer p lib r peer → r.forwardedFor = f.line →
      Chained p lib f client →
      (p.clientPrefix lib r = TrustedProxies.network lib client ↔
        Attributed p lib f peer client) := by
    intro r f hpeer hline hchain
    have hlen : (TrustedProxies.entries f.line).length =
        (TrustedProxies.entries f.supplied).length + 1 + f.proxies.length := by
      rw [entries_line hchain.single, List.length_append, List.length_cons]
      omega
    rw [clientPrefix_eq hpeer, hline, hlen, lastNamed_line hchain]
    unfold Attributed
    split
    · cases ht : p.trustedAddr client with
      | true => simp
      | false => simp
    · exact Iff.rfl
  refine ⟨hiff hpeer hline hchain, ?_⟩
  intro supplied f' hattr hattr'
  have hchain' : Chained p lib f' client := ⟨hchain.single, hchain.client, hchain.proxies⟩
  have hother := hiff (r := ⟨r.remoteAddr, f'.line⟩) ⟨hpeer.parsed, hpeer.trusted⟩ rfl hchain'
  rw [hother.mpr hattr', (hiff hpeer hline hchain).mpr hattr]

/-! ## Dotted quads as address texts -/

/-- The texts of IPv4 addresses; a peer is `host:port`. -/
def quadText : AddrText where
  splitHostPort text :=
    match text.toList.splitOn ':' with
    | [host, port] => some (String.ofList host, String.ofList port)
    | _ => none
  parseAddr := parse4
  parsePrefix _ := none
  addrString
    | .v4 bits => string4 bits
    | _ => ""
  prefixString q :=
    match q.addr with
    | .v4 bits => string4 bits ++ "/" ++ String.ofList (Nat.toDigits 10 q.bits)
    | _ => ""
  parse_string h := by
    obtain ⟨bits, rfl, hback⟩ := parse4_string4 h
    exact hback

/-- The proxy `10.0.0.1`. -/
def oneProxy : TrustedProxies := ⟨[⟨ipv4 10 0 0 1, 32⟩], by simp [ipv4, Addr.bitLen]⟩

/-- Behind one proxy, a client that supplies an address of its choice is still counted
under its own. -/
theorem clientPrefix_iff_spoofed :
    let r : Request := ⟨"10.0.0.1:4711", "198.51.100.7,203.0.113.9"⟩
    oneProxy.clientPrefix quadText r = "203.0.113.0/24" := by
  have hpeer : FromPeer oneProxy quadText ⟨"10.0.0.1:4711", "198.51.100.7,203.0.113.9"⟩
      (ipv4 10 0 0 1) :=
    ⟨⟨"10.0.0.1", "4711", by decide +kernel, by decide +kernel⟩, by decide +kernel⟩
  have hchain : Chained oneProxy quadText ⟨"198.51.100.7", "203.0.113.9", []⟩
      (ipv4 203 0 113 9) :=
    ⟨by decide +kernel, by decide +kernel, nofun⟩
  have hattr : Attributed oneProxy quadText ⟨"198.51.100.7", "203.0.113.9", []⟩ (ipv4 10 0 0 1)
      (ipv4 203 0 113 9) := by
    unfold Attributed
    rw [if_pos (by decide +kernel)]
    exact .inl (by decide +kernel)
  have hown := (clientPrefix_iff hpeer (by decide +kernel) hchain).1.mpr hattr
  exact hown.trans (by decide +kernel)

/-- The same client, sixteen commas further: it is counted under the proxy's prefix. -/
theorem long_line_counts_proxy :
    let f : Forwarded := ⟨"", "203.0.113.9", []⟩
    let long : Forwarded := { f with supplied := ",,,,,,,,,,,,,,,," }
    let r : Request := ⟨"10.0.0.1:4711", f.line⟩
    FromPeer oneProxy quadText r (ipv4 10 0 0 1) ∧
      Chained oneProxy quadText f (ipv4 203 0 113 9) ∧
      oneProxy.clientPrefix quadText r = "203.0.113.0/24" ∧
      oneProxy.clientPrefix quadText { r with forwardedFor := long.line } = "10.0.0.0/24" := by
  refine ⟨⟨⟨"10.0.0.1", "4711", ?_, ?_⟩, ?_⟩, ⟨?_, ?_, nofun⟩, ?_, ?_⟩
  all_goals decide +kernel

end Binnacle.Auth
