import Binnacle.Netip

/-!
# The outbound policy (`internal/outbound/policy.go`)

`DialContext` resolves the host and dials an address of the answer, if the policy
allows all of them. The resolver and the dialer answer as they like, and
differently each time; a call leaves a trace of what it asked them.

- `allowed_safe_iff`: an address that the policy allows is safe unless its zone
  hides it from a comparison;
- `dial_contained_iff`: a call is contained exactly if the answer, when it is
  allowed, holds no such address;
- `zoned_unspecified_dialled`: `::%lo` is dialled.
-/

namespace Binnacle.Outbound

open Netip

/-- `Policy` (policy.go:25-30); resolver and dialer are part of `Network`. -/
structure Policy where
  allowPrivate : Bool

/-- `fd00:ec2::254`. -/
def metadataV6 : BitVec 128 := 0xfd000ec2000000000000000000000254

/-- `metadataAddresses` (policy.go:32-36). -/
def metadataAddresses : List Addr :=
  [ipv4 169 254 169 254, ipv4 100 100 100 200, .v6 metadataV6 ""]

/-- `Allowed` (policy.go:38-47). -/
def Policy.allowed (p : Policy) (addr : Addr) : Bool :=
  let addr := addr.unmap
  if !addr.isValid || !addr.isGlobalUnicast || addr.isUnspecified || addr.isLoopback
      || addr.isLinkLocalUnicast || addr.isLinkLocalMulticast || addr.isMulticast then false
  else if addr ∈ metadataAddresses then false
  else p.allowPrivate || !addr.isPrivate

/-! ## A call -/

inductive DialError where
  /-- `outbound target is blocked`. -/
  | blocked
  /-- `outbound target DNS lookup failed`. -/
  | dns
  /-- The address is not of the form `host:port`. -/
  | address
  | dial
  deriving DecidableEq

inductive NetEvent where
  | lookup (host : String) (answer : Option (List Addr))
  | dial (network : String) (addr : Addr) (port : String)
  deriving DecidableEq

/-- The world, with a state: functions on texts, the resolver and the dialer. `none` is an
error. -/
structure Network (σ : Type) where
  toLower : String → String
  splitHostPort : String → Option (String × String)
  lookupNetIP : σ → String → Option (List Addr) × σ
  dial : σ → String → Addr → String → Bool × σ

/-- `strings.ToLower(strings.TrimSuffix(host, "."))` (policy.go:50). -/
def Network.normalize {σ : Type} (net : Network σ) (host : String) : String :=
  net.toLower (host.dropSuffix ".").toString

/-- The names of the local host (policy.go:51). -/
def isLocalhost (host : String) : Bool := host = "localhost" || host.endsWith ".localhost"

variable {σ : Type} {p : Policy}

/-- What `Resolve` makes of an answer (policy.go:59-67). -/
def Policy.judge (p : Policy) : Option (List Addr) → Except DialError (List Addr)
  | none | some [] => .error .dns
  | some (addr :: addrs) =>
    if (addr :: addrs).all p.allowed then .ok (addr :: addrs) else .error .blocked

/-- `Resolve` (policy.go:49-68). -/
def Policy.resolve (p : Policy) (net : Network σ) (s : σ) (host : String) :
    Except DialError (List Addr) × σ × List NetEvent :=
  let host := net.normalize host
  if isLocalhost host then (.error .blocked, s, [])
  else
    let (answer, s) := net.lookupNetIP s host
    (p.judge answer, s, [.lookup host answer])

/-- The loop of `DialContext` (policy.go:108-114): the first address that connects. -/
def dialFirst (net : Network σ) (network port : String) :
    σ → List Addr → Except DialError Addr × σ × List NetEvent
  | s, [] => (.error .dial, s, [])
  | s, addr :: addrs =>
    let (connected, s) := net.dial s network addr port
    if connected then (.ok addr, s, [.dial network addr port])
    else
      let (result, s, events) := dialFirst net network port s addrs
      (result, s, .dial network addr port :: events)

/-- `DialContext` (policy.go:90-119); a connection is named by its address. -/
def Policy.dialContext (p : Policy) (net : Network σ) (s : σ) (network address : String) :
    Except DialError Addr × σ × List NetEvent :=
  match net.splitHostPort address with
  | none => (.error .address, s, [])
  | some (host, port) =>
    match p.resolve net s host with
    | (.error err, s, events) => (.error err, s, events)
    | (.ok addrs, s, events) =>
      let (result, s, dials) := dialFirst net network port s addrs
      (result, s, events ++ dials)

/-! ## Which addresses are safe -/

/-- What the policy promises of an address, whatever its form: without mapping and zone
it is a global unicast address of none of the excluded kinds. -/
def Safe (p : Policy) (addr : Addr) : Prop :=
  let addr := addr.unmap.dropZone
  addr.isGlobalUnicast = true ∧ addr.isLoopback = false ∧ addr.isLinkLocalUnicast = false ∧
    addr.isLinkLocalMulticast = false ∧ addr.isMulticast = false ∧ addr.isUnspecified = false ∧
    addr ∉ metadataAddresses ∧ (p.allowPrivate = true ∨ addr.isPrivate = false)

instance (p : Policy) (addr : Addr) : Decidable (Safe p addr) :=
  inferInstanceAs (Decidable (_ ∧ _))

/-- An address that differs from a forbidden one by its zone only: `::`, or the metadata
address where private addresses are allowed. -/
def Disguised (p : Policy) : Addr → Bool
  | .v6 bits zone => zone ≠ "" && (bits = 0 || (bits = metadataV6 && p.allowPrivate))
  | _ => false

theorem isValid_of_isGlobalUnicast {addr : Addr} (h : addr.unmap.isGlobalUnicast = true) :
    addr.unmap.isValid = true := by
  unfold Addr.isGlobalUnicast at h
  simp only [Addr.unmap_unmap, Bool.and_eq_true] at h
  exact h.1.1.1.1.1.1

/-- Without a zone the policy allows exactly the safe addresses. -/
theorem allowed_iff_of_zoneless {addr : Addr} (h : addr.unmap.dropZone = addr.unmap) :
    p.allowed addr = true ↔ Safe p addr := by
  have hvalid := @isValid_of_isGlobalUnicast addr
  unfold Policy.allowed Safe
  rw [h]
  dsimp only
  split
  · next hrefused =>
    simp only [Bool.or_eq_true, Bool.not_eq_true'] at hrefused
    refine iff_of_false (by decide) ?_
    rintro ⟨hglobal, hloop, hunicast, hlocalmulti, hmulti, hunspec, -⟩
    simp [hvalid hglobal, hglobal, hloop, hunicast, hlocalmulti, hmulti, hunspec] at hrefused
  · next hpassed =>
    simp only [Bool.or_eq_true, Bool.not_eq_true', not_or, Bool.not_eq_false,
      Bool.not_eq_true] at hpassed
    obtain ⟨⟨⟨⟨⟨⟨-, hglobal⟩, hunspec⟩, hloop⟩, hunicast⟩, hlocalmulti⟩, hmulti⟩ := hpassed
    split
    · next hmeta => exact iff_of_false (by decide) fun hsafe => hsafe.2.2.2.2.2.2.1 hmeta
    · next hmeta =>
      simp [hglobal, hunspec, hloop, hunicast, hlocalmulti, hmulti, hmeta]

theorem metadataV6_not_mapped : Addr.is4In6 metadataV6 = false := by decide

theorem metadataV6_private (zone : String) : (Addr.v6 metadataV6 zone).isPrivate = true := by
  rw [Addr.isPrivate_zone]
  decide

theorem allowed_zone {bits : BitVec 128} (hmapped : Addr.is4In6 bits = false) (hzero : bits ≠ 0)
    (hmeta : bits ≠ metadataV6) (zone : String) :
    p.allowed (.v6 bits zone) = p.allowed (.v6 bits "") := by
  have hlist : ∀ zone, Addr.v6 bits zone ∉ metadataAddresses := by
    intro zone hmem
    simp only [metadataAddresses, ipv4, List.mem_cons, reduceCtorEq, Addr.v6.injEq,
      List.not_mem_nil, false_or, or_false] at hmem
    exact hmeta hmem.1
  have hunspecified : ∀ zone, Addr.isUnspecified (.v6 bits zone) = false := by
    intro zone
    rw [Addr.isUnspecified_zone]
    simp only [Addr.isUnspecified, Bool.and_eq_false_iff, Bool.or_eq_false_iff,
      decide_eq_false_iff_not, reduceCtorEq, not_false_eq_true, true_and, Addr.v6.injEq, and_true]
    exact .inl hzero
  unfold Policy.allowed
  simp only [Addr.unmap_v6 hmapped, Addr.isGlobalUnicast_zone zone hmapped hzero,
    Addr.isLoopback_zone zone, Addr.isLinkLocalUnicast_zone zone,
    Addr.isLinkLocalMulticast_zone zone, Addr.isMulticast_zone zone, Addr.isPrivate_zone zone,
    hunspecified, hlist, if_false, Addr.isValid]

/-- An allowed address is safe unless a zone disguises it. -/
theorem allowed_safe_iff {addr : Addr} (h : p.allowed addr = true) :
    Safe p addr ↔ Disguised p addr = false := by
  cases addr with
  | invalid | v4 bits => exact iff_of_true ((allowed_iff_of_zoneless rfl).mp h) rfl
  | v6 bits zone =>
    by_cases hmapped : Addr.is4In6 bits = true
    · -- a mapped address loses its zone
      have hzoneless : (Addr.v6 bits zone).unmap.dropZone = (Addr.v6 bits zone).unmap := by
        simp [Addr.unmap, hmapped, Addr.dropZone]
      refine iff_of_true ((allowed_iff_of_zoneless hzoneless).mp h) ?_
      have hzero : bits ≠ 0 := by
        rintro rfl
        rw [Addr.is4In6_zero] at hmapped
        cases hmapped
      have hmeta : bits ≠ metadataV6 := by
        rintro rfl
        rw [metadataV6_not_mapped] at hmapped
        cases hmapped
      have hzero' : ¬ bits = 0#128 := hzero
      simp [Disguised, hzero', hmeta]
    rw [Bool.not_eq_true] at hmapped
    have hplain : (Addr.v6 bits "").unmap.dropZone = (Addr.v6 bits "").unmap := by
      rw [Addr.unmap_v6 hmapped]
      rfl
    by_cases hzone : zone = ""
    · subst hzone
      exact iff_of_true ((allowed_iff_of_zoneless hplain).mp h) (by simp [Disguised])
    have hsafe : Safe p (.v6 bits zone) ↔ p.allowed (.v6 bits "") = true := by
      rw [allowed_iff_of_zoneless hplain]
      unfold Safe
      rw [Addr.unmap_v6 hmapped, Addr.unmap_v6 hmapped]
      rfl
    rw [hsafe]
    by_cases hzero : bits = 0
    · subst hzero
      refine iff_of_false ?_ (by simp [Disguised, hzone])
      cases p with
      | mk allowPrivate => cases allowPrivate <;> decide
    by_cases hmeta : bits = metadataV6
    · subst hmeta
      -- it is allowed, though private, so private addresses are
      have hprivate : p.allowPrivate = true := by
        unfold Policy.allowed at h
        dsimp only at h
        split_ifs at h
        rwa [Addr.unmap_v6 hmapped, metadataV6_private, Bool.not_true, Bool.or_false] at h
      refine iff_of_false ?_ (by simp [Disguised, hzone, hprivate])
      cases p with
      | mk allowPrivate => cases allowPrivate <;> decide
    · have hzero' : ¬ bits = 0#128 := hzero
      rw [← allowed_zone hmapped hzero hmeta zone]
      exact iff_of_true h (by simp [Disguised, hzero', hmeta])

/-! ## What a call dials -/

def NetEvent.isLookup : NetEvent → Bool
  | .lookup _ _ => true
  | .dial _ _ _ => false

/-- A call is contained: it dials only safe addresses of the one answer it got, and none
if there is an unsafe one among them. -/
structure Contained (p : Policy) (events : List NetEvent) : Prop where
  oneLookup : events.countP NetEvent.isLookup ≤ 1
  answered : ∀ network addr port, .dial network addr port ∈ events →
    ∃ host addrs, .lookup host (some addrs) ∈ events ∧ addr ∈ addrs
  safe : ∀ network addr port, .dial network addr port ∈ events → Safe p addr
  refused : ∀ host addrs, .lookup host (some addrs) ∈ events → (∃ addr ∈ addrs, ¬ Safe p addr) →
    ∀ network addr port, .dial network addr port ∉ events

theorem contained_of_no_dial {events : List NetEvent} (hone : events.countP NetEvent.isLookup ≤ 1)
    (hnone : ∀ network addr port, .dial network addr port ∉ events) : Contained p events :=
  ⟨hone, fun network addr port h => absurd h (hnone network addr port),
    fun network addr port h => absurd h (hnone network addr port), fun _ _ _ _ => hnone⟩

theorem mem_dialFirst {net : Network σ} {network port : String} {addrs : List Addr} {s : σ}
    {event : NetEvent} (h : event ∈ (dialFirst net network port s addrs).2.2) :
    ∃ addr ∈ addrs, event = .dial network addr port := by
  induction addrs generalizing s with
  | nil => cases h
  | cons addr addrs ih =>
    unfold dialFirst at h
    dsimp only at h
    split at h
    · exact ⟨addr, List.mem_cons_self, List.mem_singleton.mp h⟩
    · rcases List.mem_cons.mp h with rfl | h
      · exact ⟨addr, List.mem_cons_self, rfl⟩
      · obtain ⟨a, ha, heq⟩ := ih h
        exact ⟨a, List.mem_cons_of_mem addr ha, heq⟩

theorem dial_head (net : Network σ) (network port : String) (addr : Addr) (addrs : List Addr)
    (s : σ) : .dial network addr port ∈ (dialFirst net network port s (addr :: addrs)).2.2 := by
  unfold dialFirst
  dsimp only
  split <;> exact List.mem_cons_self

/-- A lookup and the dials after it are contained exactly if every address is safe. -/
theorem contained_dialFirst_iff (net : Network σ) (s : σ) (network port host : String) (addr : Addr)
    (addrs : List Addr) :
    Contained p (.lookup host (some (addr :: addrs)) ::
        (dialFirst net network port s (addr :: addrs)).2.2) ↔
      ∀ a ∈ addr :: addrs, Safe p a := by
  constructor
  · intro h a ha
    by_contra hunsafe
    exact h.refused host (addr :: addrs) List.mem_cons_self ⟨a, ha, hunsafe⟩ network addr port
      (List.mem_cons_of_mem _ (dial_head net network port addr addrs s))
  · intro hsafe
    have hdials : ∀ event ∈ (dialFirst net network port s (addr :: addrs)).2.2,
        ∃ a ∈ addr :: addrs, event = .dial network a port := fun event h => mem_dialFirst h
    have hof : ∀ {network' a port'}, .dial network' a port' ∈
        NetEvent.lookup host (some (addr :: addrs)) ::
          (dialFirst net network port s (addr :: addrs)).2.2 → a ∈ addr :: addrs := by
      intro network' a port' h
      rcases List.mem_cons.mp h with h | h
      · cases h
      · obtain ⟨b, hb, heq⟩ := hdials _ h
        cases heq
        exact hb
    refine ⟨?_, fun _ a _ h => ⟨host, _, List.mem_cons_self, hof h⟩,
      fun _ a _ h => hsafe a (hof h), ?_⟩
    · rw [List.countP_cons_of_pos rfl, List.countP_eq_zero.mpr]
      intro event h
      obtain ⟨a, -, rfl⟩ := hdials event h
      exact Bool.false_ne_true
    · rintro host' addrs' hlookup ⟨a, ha, hunsafe⟩
      rcases List.mem_cons.mp hlookup with heq | h
      · cases heq
        exact absurd (hsafe a ha) hunsafe
      · obtain ⟨b, -, heq⟩ := hdials _ h
        cases heq

theorem contained_answer_iff (net : Network σ) (s : σ) (network port host : String)
    (answer : Option (List Addr)) :
    Contained p (.lookup host answer :: match p.judge answer with
      | .error _ => []
      | .ok addrs => (dialFirst net network port s addrs).2.2) ↔
      ∀ addrs, answer = some addrs → (∀ addr ∈ addrs, p.allowed addr = true) →
        ∀ addr ∈ addrs, Disguised p addr = false := by
  have hrefused : Contained p [.lookup host answer] :=
    contained_of_no_dial (Nat.le_refl 1) (by simp)
  match answer with
  | none => exact iff_of_true hrefused nofun
  | some [] =>
    refine iff_of_true hrefused ?_
    rintro addrs heq - addr haddr
    cases heq
    cases haddr
  | some (addr :: addrs) =>
    cases hall : (addr :: addrs).all p.allowed with
    | false =>
      have hjudge : p.judge (some (addr :: addrs)) = .error .blocked :=
        if_neg (Bool.eq_false_iff.mp hall)
      simp only [hjudge]
      refine iff_of_true hrefused ?_
      rintro addrs' heq hallowed
      cases heq
      rw [List.all_eq_true.mpr hallowed] at hall
      cases hall
    | true =>
      have hjudge : p.judge (some (addr :: addrs)) = .ok (addr :: addrs) := if_pos hall
      simp only [hjudge]
      rw [contained_dialFirst_iff]
      have hallowed := List.all_eq_true.mp hall
      constructor
      · rintro hsafe addrs' heq - a ha
        cases heq
        exact (allowed_safe_iff (hallowed a ha)).mp (hsafe a ha)
      · intro h a ha
        exact (allowed_safe_iff (hallowed a ha)).mpr (h _ rfl hallowed a ha)

theorem dialContext_events {net : Network σ} {s s' : σ} {network address : String}
    {host port : String} {answer : Option (List Addr)}
    (hsplit : net.splitHostPort address = some (host, port))
    (hlocal : isLocalhost (net.normalize host) = false)
    (hanswer : net.lookupNetIP s (net.normalize host) = (answer, s')) :
    (p.dialContext net s network address).2.2
      = .lookup (net.normalize host) answer :: match p.judge answer with
        | .error _ => []
        | .ok addrs => (dialFirst net network port s' addrs).2.2 := by
  unfold Policy.dialContext Policy.resolve
  simp only [hsplit, hlocal, hanswer, Bool.false_eq_true, if_false]
  cases p.judge answer <;> rfl

theorem dialContext_silent {net : Network σ} {s : σ} {network address : String}
    (h : ∀ host port, net.splitHostPort address = some (host, port) →
      isLocalhost (net.normalize host) = true) :
        (p.dialContext net s network address).2.2 = [] := by
  unfold Policy.dialContext
  split
  · rfl
  · next host port hsplit =>
    unfold Policy.resolve
    simp only [h host port hsplit, if_true]

/-- A call is contained exactly if the answer, when the policy allows all of it, holds no
disguised address. -/
theorem dial_contained_iff (p : Policy) (net : Network σ) (s : σ) (network address : String) :
    Contained p (p.dialContext net s network address).2.2 ↔
      ∀ host port addrs, net.splitHostPort address = some (host, port) →
        isLocalhost (net.normalize host) = false →
        (net.lookupNetIP s (net.normalize host)).1 = some addrs →
        (∀ addr ∈ addrs, p.allowed addr = true) → ∀ addr ∈ addrs, Disguised p addr = false := by
  by_cases hsilent : ∀ host port, net.splitHostPort address = some (host, port) →
      isLocalhost (net.normalize host) = true
  · rw [dialContext_silent hsilent]
    refine iff_of_true (contained_of_no_dial (Nat.zero_le _) (by simp)) ?_
    intro host port addrs hsplit hlocal
    rw [hsilent host port hsplit] at hlocal
    cases hlocal
  · push Not at hsilent
    obtain ⟨host, port, hsplit, hlocal⟩ := hsilent
    rw [ne_eq, Bool.not_eq_true] at hlocal
    rw [dialContext_events hsplit hlocal rfl, contained_answer_iff]
    constructor
    · rintro h host' port' addrs hsplit' -
      obtain ⟨rfl, rfl⟩ := Prod.mk.inj (Option.some.inj (hsplit.symm.trans hsplit'))
      exact h addrs
    · exact fun h addrs => h host port addrs hsplit hlocal

/-! ## An address in a zone -/

/-- A world in which every host has one address, and which connects to it. -/
def answering (addr : Addr) : Network Unit where
  toLower := String.toLower
  splitHostPort address := some (address, "80")
  lookupNetIP _ _ := (some [addr], ())
  dial _ _ _ _ := (true, ())

/-- `::%lo` is dialled, though `::` is refused, and with private addresses allowed so is
the metadata address in a zone. -/
theorem zoned_unspecified_dialled :
    ((Policy.mk false).dialContext (answering (.v6 0 "")) () "tcp" "::").1 = .error .blocked ∧
    ((Policy.mk false).dialContext (answering (.v6 0 "lo")) () "tcp" "::%lo").2.2
      = [.lookup "::%lo" (some [.v6 0 "lo"]), .dial "tcp" (.v6 0 "lo") "80"] ∧
    ¬ Safe (Policy.mk false) (.v6 0 "lo") ∧
    ((Policy.mk true).dialContext (answering (.v6 metadataV6 "eth0")) () "tcp" "meta").1
      = .ok (.v6 metadataV6 "eth0") ∧
    ¬ Safe (Policy.mk true) (.v6 metadataV6 "eth0") := by
  decide +kernel

end Binnacle.Outbound
