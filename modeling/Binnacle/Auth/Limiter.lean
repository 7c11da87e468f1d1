import Mathlib.Data.Rat.Floor
import Mathlib.Tactic.Positivity
import Binnacle.Auth.Proxies
import Binnacle.Clock
import Binnacle.Metering
import Binnacle.Relational.Table

/-!
# The limiter of login attempts

Model of `Limiter` and `AllowLogin` in `internal/auth/protection.go`: token buckets
under keys, at most `max` of them, the least recently used evicted first. Tokens are
exact rationals.

- `Limiter.allow`: one call, with the eviction and the arithmetic of the bucket.
- `Limiter.level`: what a key's bucket holds at an instant; a key without a bucket
  would get a full one.
- `Spared`: a call evicts the bucket of a key only once it is full again.
- `login_rate_bounded`: in every run of `AllowLogin` whose calls spare an account, a
  window of time holds at most five allowed calls of it and one for each minute.

The list of buckets is a table whose last row is the front of the list.
-/

namespace Binnacle.Auth

open Relational Netip

/-- `BucketPolicy` (protection.go:104-107). -/
structure BucketPolicy where
  capacity : ℚ
  refill : Duration
  deriving DecidableEq

/-- `bucket` (protection.go:108-112). -/
structure Bucket where
  tokens : ℚ
  at_ : Time
  used : Time
  deriving DecidableEq

/-- `bucketEntry` (protection.go:113-116). -/
structure BucketEntry where
  key : String
  value : Bucket
  deriving DecidableEq

/-- `Limiter` (protection.go:117-123). -/
structure Limiter where
  order : Table BucketEntry.key
  max : Nat

/-- `NewLimiter` (protection.go:164-169). -/
def newLimiter (max : Int) : Limiter := ⟨Table.empty, (if max < 1 then 4096 else max).toNat⟩

/-- `d.Seconds()`. -/
def seconds (d : Duration) : ℚ := d / second

/-- The tokens at `now` (protection.go:190-194). -/
def Bucket.refilled (policy : BucketPolicy) (now : Time) (b : Bucket) : ℚ :=
  let tokens := b.tokens + seconds (now - b.at_) * policy.capacity / seconds policy.refill
  if tokens > policy.capacity then policy.capacity else tokens

namespace Limiter

/-- The list once there is room for `key` (protection.go:179-185): without the oldest
entries if the key is new and the list is full. -/
def room (l : Limiter) (key : String) : Table BucketEntry.key :=
  if l.order.has key then l.order else l.order.dropFirst (l.order.rows.length + 1 - l.max)

/-- `Allow` (protection.go:172-205). -/
def allow (l : Limiter) (now : Time) (key : String) (policy : BucketPolicy) :
    (Bool × Duration) × Limiter :=
  if policy.capacity ≤ 0 ∨ policy.refill ≤ 0 then ((true, 0), l)
  else
    let order := l.room key
    let value :=
      match order.find? key with
      | some entry => entry.value
      | none => ⟨policy.capacity, now, now⟩
    let tokens := value.refilled policy now
    if tokens < 1 then
      ((false, ⌊(1 - tokens) * seconds policy.refill / policy.capacity⌋ * second),
        { l with order := order.insertOrReplace ⟨key, ⟨tokens, now, now⟩⟩ })
    else ((true, 0), { l with order := order.insertOrReplace ⟨key, ⟨tokens - 1, now, now⟩⟩ })

def level (l : Limiter) (policy : BucketPolicy) (key : String) (t : Time) : ℚ :=
  match l.order.find? key with
  | some entry => entry.value.refilled policy t
  | none => policy.capacity

end Limiter

/-! ## Logins -/

structure LoginText extends AddrText where
  toLower : String → String

/-- A call of `AllowLogin`, with the instants at which the two buckets are read. -/
structure LoginCall where
  request : Request
  account : String
  ipAt : Time
  accountAt : Time

/-- The two policies (protection.go:138-139). -/
def ipPolicy : BucketPolicy := ⟨10, minute⟩

@[inherit_doc ipPolicy]
def accountPolicy : BucketPolicy := ⟨5, 5 * minute⟩

/-- The key of a client (protection.go:134-138). -/
def ipKey (lib : LoginText) (proxies : TrustedProxies) (r : Request) : String :=
  "login-ip" ++ ":" ++ proxies.clientPrefix lib.toAddrText r

def accountKey (name : String) : String := "login-account" ++ ":" ++ name

/-- `strings.ToLower(strings.TrimSpace(account))` (protection.go:139). -/
def LoginText.accountName (lib : LoginText) (account : String) : String :=
  lib.toLower (trimSpace account)

/-- `AllowLogin` (protection.go:137-144). -/
def allowLogin (lib : LoginText) (proxies : TrustedProxies) (l : Limiter) (call : LoginCall) :
    (Bool × Duration) × Limiter :=
  let (a, l) := l.allow call.ipAt (ipKey lib proxies call.request) ipPolicy
  let (b, l) := l.allow call.accountAt (accountKey (lib.accountName call.account)) accountPolicy
  ((a.1 && b.1, if b.2 > a.2 then b.2 else a.2), l)

structure Gate where
  limiter : Limiter
  clock : Time

section Runs

variable (lib : LoginText) (proxies : TrustedProxies)

def Gate.step (s : Gate) (call : LoginCall) : Gate :=
  ⟨(allowLogin lib proxies s.limiter call).2, call.accountAt⟩

def Gate.allowed (name : String) (s : Gate) (call : LoginCall) : Bool :=
  lib.accountName call.account = name && (allowLogin lib proxies s.limiter call).1.1

/-- Time does not go back. -/
def Gate.InOrder (s : Gate) (call : LoginCall) : Prop :=
  s.clock ≤ call.ipAt ∧ call.ipAt ≤ call.accountAt

instance (s : Gate) (call : LoginCall) : Decidable (s.InOrder call) :=
  inferInstanceAs (Decidable (_ ∧ _))

/-- The bucket of `key` is not evicted to make room for another key, or is full when it is. -/
def Spared (l : Limiter) (policy : BucketPolicy) (now : Time) (other key : String) : Prop :=
  ∀ entry, l.order.find? key = some entry → (l.room other).find? key = none →
    policy.capacity ≤ entry.value.refilled policy now

instance (l : Limiter) (policy : BucketPolicy) (now : Time) (other key : String) :
    Decidable (Spared l policy now other key) :=
  inferInstanceAs (Decidable (∀ entry ∈ l.order.find? key, (l.room other).find? key = none → _))

def Gate.Spares (name : String) (s : Gate) (call : LoginCall) : Prop :=
  Spared s.limiter accountPolicy call.ipAt (ipKey lib proxies call.request) (accountKey name) ∧
    Spared (s.limiter.allow call.ipAt (ipKey lib proxies call.request) ipPolicy).2 accountPolicy
      call.accountAt (accountKey (lib.accountName call.account)) (accountKey name)

instance (name : String) (s : Gate) (call : LoginCall) :
    Decidable (Gate.Spares lib proxies name s call) := inferInstanceAs (Decidable (_ ∧ _))

end Runs

/-! ## The bucket of one key -/

section Bucket

variable {policy : BucketPolicy} {b : Bucket} {t t' now : Time} {l : Limiter} {key other : String}

/-- A policy that limits: `Allow` lets everything pass under any other. -/
structure BucketPolicy.Limiting (policy : BucketPolicy) : Prop where
  capacity : 0 < policy.capacity
  refill : 0 < policy.refill

/-- Tokens per nanosecond. -/
def BucketPolicy.rate (policy : BucketPolicy) : ℚ := policy.capacity / policy.refill

theorem BucketPolicy.Limiting.rate_nonneg (h : policy.Limiting) : 0 ≤ policy.rate :=
  div_nonneg h.capacity.le (by exact_mod_cast h.refill.le)

theorem refilled_eq (policy : BucketPolicy) (t : Time) (b : Bucket) :
    b.refilled policy t = min (b.tokens + policy.rate * (t - b.at_)) policy.capacity := by
  have hseconds : seconds (t - b.at_) * policy.capacity / seconds policy.refill =
      policy.rate * (t - b.at_) := by
    unfold seconds BucketPolicy.rate
    have hs : ((second : Int) : ℚ) ≠ 0 := by decide
    push_cast
    field_simp
  unfold Bucket.refilled
  rw [hseconds]
  dsimp only
  split
  · next h => exact (min_eq_right (le_of_lt h)).symm
  · next h => exact (min_eq_left (not_lt.mp h)).symm

theorem refilled_le_capacity : b.refilled policy t ≤ policy.capacity := by
  rw [refilled_eq]
  exact min_le_right _ _

theorem refilled_nonneg (h : policy.Limiting) (htokens : 0 ≤ b.tokens) (ht : b.at_ ≤ t) :
    0 ≤ b.refilled policy t := by
  have helapsed : (0 : ℚ) ≤ t - b.at_ := sub_nonneg.mpr (by exact_mod_cast ht)
  rw [refilled_eq]
  exact le_min (add_nonneg htokens (mul_nonneg h.rate_nonneg helapsed)) h.capacity.le

theorem refilled_mono (h : policy.Limiting) (ht : t ≤ t') :
    b.refilled policy t ≤ b.refilled policy t' := by
  have hle : (t : ℚ) ≤ t' := by exact_mod_cast ht
  rw [refilled_eq, refilled_eq]
  refine min_le_min_right _ (add_le_add_right (mul_le_mul_of_nonneg_left ?_ h.rate_nonneg) _)
  linarith

theorem refilled_gain (h : policy.Limiting) (ht : t ≤ t') :
    b.refilled policy t' ≤ b.refilled policy t + policy.rate * (t' - t) := by
  have hgrowth : 0 ≤ policy.rate * ((t' : ℚ) - t) :=
    mul_nonneg h.rate_nonneg (sub_nonneg.mpr (by exact_mod_cast ht))
  rw [refilled_eq, refilled_eq, ← min_add_add_right]
  refine min_le_min (le_of_eq ?_) ?_
  · ring
  · linarith

theorem refilled_self {tokens : ℚ} (h : tokens ≤ policy.capacity) :
    Bucket.refilled policy now ⟨tokens, now, now⟩ = tokens := by
  rw [refilled_eq, sub_self, mul_zero, add_zero, min_eq_left h]

theorem find?_room_self (l : Limiter) (key : String) :
    (l.room key).find? key = l.order.find? key := by
  unfold Limiter.room
  split
  · rfl
  · next hnew =>
    have hnone := Table.find?_eq_none_iff_has.mpr (Bool.not_eq_true _ ▸ hnew)
    rcases Table.find?_dropFirst l.order (l.order.rows.length + 1 - l.max) key with h | h
    · rw [h, hnone]
    · exact h

theorem find?_room (l : Limiter) (key other : String) :
    (l.room other).find? key = none ∨ (l.room other).find? key = l.order.find? key := by
  unfold Limiter.room
  split
  · exact .inr rfl
  · exact Table.find?_dropFirst _ _ _

theorem refilled_found (l : Limiter) (now : Time) (key : String) :
    (match (l.room key).find? key with
      | some entry => entry.value
      | none => ⟨policy.capacity, now, now⟩ : Bucket).refilled policy now =
      l.level policy key now := by
  unfold Limiter.level
  rw [find?_room_self]
  cases l.order.find? key with
  | some entry => rfl
  | none => exact refilled_self le_rfl

theorem allow_spec (h : policy.Limiting) (l : Limiter) (now : Time) (key : String) :
    (l.allow now key policy).1.1 = decide (1 ≤ l.level policy key now) ∧
      (l.allow now key policy).2.order = (l.room key).insertOrReplace ⟨key,
        ⟨l.level policy key now - (if 1 ≤ l.level policy key now then 1 else 0), now, now⟩⟩ := by
  have hlimits : ¬ (policy.capacity ≤ 0 ∨ policy.refill ≤ 0) :=
    not_or.mpr ⟨not_le.mpr h.capacity, not_le.mpr h.refill⟩
  unfold Limiter.allow
  rw [if_neg hlimits]
  dsimp only
  rw [refilled_found]
  by_cases hempty : l.level policy key now < 1
  · rw [if_pos hempty, if_neg (not_le.mpr hempty), sub_zero]
    exact ⟨(decide_eq_false (not_le.mpr hempty)).symm, rfl⟩
  · rw [if_neg hempty, if_pos (not_lt.mp hempty)]
    exact ⟨(decide_eq_true (not_lt.mp hempty)).symm, rfl⟩

theorem find?_allow_of_ne (h : policy.Limiting) (hne : other ≠ key) :
    (l.allow now other policy).2.order.find? key = (l.room other).find? key := by
  rw [(allow_spec h l now other).2, Table.find?_insertOrReplace, if_neg hne]

theorem level_le_capacity (l : Limiter) (policy : BucketPolicy) (key : String) (t : Time) :
    l.level policy key t ≤ policy.capacity := by
  unfold Limiter.level
  split
  · exact refilled_le_capacity
  · exact le_rfl

theorem level_allow_self (h : policy.Limiting) (l : Limiter) (now : Time) (key : String) :
    (l.allow now key policy).2.level policy key now +
      (if (l.allow now key policy).1.1 then 1 else 0) = l.level policy key now := by
  obtain ⟨hpassed, horder⟩ := allow_spec h l now key
  have hleft : l.level policy key now - (if 1 ≤ l.level policy key now then 1 else 0) ≤
      policy.capacity := by
    have := level_le_capacity l policy key now
    split <;> linarith
  have hafter : (l.allow now key policy).2.level policy key now =
      l.level policy key now - (if 1 ≤ l.level policy key now then 1 else 0) := by
    rw [Limiter.level, horder, Table.find?_insertOrReplace, if_pos rfl]
    exact refilled_self hleft
  rw [hafter, hpassed]
  simp only [decide_eq_true_eq, sub_add_cancel]

theorem level_allow_of_spared {policy' : BucketPolicy} (h : policy.Limiting)
    (h' : policy'.Limiting) (hne : other ≠ key) (hspared : Spared l policy now other key)
    (ht : now ≤ t) :
    (l.allow now other policy').2.level policy key t = l.level policy key t := by
  unfold Limiter.level
  rw [find?_allow_of_ne h' hne]
  rcases find?_room l key other with hnone | hsame
  · cases hentry : l.order.find? key with
    | none => rw [hnone]
    | some entry =>
      rw [hnone]
      -- the bucket was full at the call and is so at any later time
      have hfull := (hspared entry hentry hnone).trans (refilled_mono h ht)
      exact le_antisymm hfull refilled_le_capacity
  · rw [hsame]

end Bucket

/-! ## Runs of logins -/

theorem ipPolicy_limiting : ipPolicy.Limiting := ⟨by decide, by decide⟩

theorem accountPolicy_limiting : accountPolicy.Limiting := ⟨by decide, by decide⟩

theorem ipKey_ne_accountKey (lib : LoginText) (proxies : TrustedProxies) (r : Request)
    (name : String) : ipKey lib proxies r ≠ accountKey name := by
  intro h
  have h := congrArg String.toList h
  simp [ipKey, accountKey, String.toList_append] at h

theorem accountKey_injective : Function.Injective accountKey := by
  intro a b h
  have h := congrArg String.toList h
  simp only [accountKey, String.toList_append] at h
  exact String.toList_inj.mp (List.append_cancel_left h)

/-- The bucket of the account holds no debt and was last written before now. -/
def Gate.Sound (name : String) (s : Gate) : Prop :=
  ∀ entry, s.limiter.order.find? (accountKey name) = some entry →
    0 ≤ entry.value.tokens ∧ entry.value.at_ ≤ s.clock

section Runs

variable {lib : LoginText} {proxies : TrustedProxies} {name : String} {s : Gate} {t t' : Time}

theorem Gate.Sound.level_nonneg (h : s.Sound name) (ht : s.clock ≤ t) :
    0 ≤ s.limiter.level accountPolicy (accountKey name) t := by
  unfold Limiter.level
  split
  · next entry hentry =>
    obtain ⟨htokens, hat⟩ := h entry hentry
    exact refilled_nonneg accountPolicy_limiting htokens (hat.trans ht)
  · exact accountPolicy_limiting.capacity.le

theorem level_gain (s : Gate) (name : String) (ht : t ≤ t') :
    s.limiter.level accountPolicy (accountKey name) t' ≤
      s.limiter.level accountPolicy (accountKey name) t + accountPolicy.rate * (t' - t) := by
  unfold Limiter.level
  split
  · exact refilled_gain accountPolicy_limiting ht
  · have := mul_nonneg accountPolicy_limiting.rate_nonneg
      (sub_nonneg.mpr (by exact_mod_cast ht : (t : ℚ) ≤ t'))
    linarith

/-- A call that spares the account leaves it at its level, less the token it took for
an allowed call. -/
theorem level_step (s : Gate) {call : LoginCall} (hspares : s.Spares lib proxies name call)
    (hin : s.InOrder call) :
    (s.step lib proxies call).limiter.level accountPolicy (accountKey name) call.accountAt +
      (if s.allowed lib proxies name call then 1 else 0) ≤
    s.limiter.level accountPolicy (accountKey name) call.accountAt := by
  obtain ⟨hip, haccount⟩ := hspares
  have hfirst := level_allow_of_spared accountPolicy_limiting ipPolicy_limiting
    (ipKey_ne_accountKey lib proxies call.request name) hip hin.2
  unfold Gate.step Gate.allowed allowLogin
  dsimp only
  by_cases hname : lib.accountName call.account = name
  · have hsecond := level_allow_self accountPolicy_limiting
      (s.limiter.allow call.ipAt (ipKey lib proxies call.request) ipPolicy).2 call.accountAt
      (accountKey name)
    rw [hname, decide_eq_true (rfl : name = name), Bool.true_and, ← hfirst, ← hsecond]
    -- the call is allowed only if the account's bucket lets it pass
    refine add_le_add_right ?_ _
    cases (s.limiter.allow call.ipAt (ipKey lib proxies call.request) ipPolicy).1.1
    · simp only [Bool.false_and, Bool.false_eq_true, if_false]
      split <;> decide
    · rw [Bool.true_and]
  · have hne : accountKey (lib.accountName call.account) ≠ accountKey name :=
      fun h => hname (accountKey_injective h)
    have hsecond := level_allow_of_spared accountPolicy_limiting accountPolicy_limiting hne
      haccount le_rfl
    rw [hsecond, hfirst, decide_eq_false hname, Bool.false_and, if_neg Bool.false_ne_true, add_zero]

theorem Gate.Sound.allow_of_ne (h : s.Sound name) {policy : BucketPolicy} (hp : policy.Limiting)
    {other : String} (hne : other ≠ accountKey name) {now : Time} (hnow : s.clock ≤ now) :
    Gate.Sound name ⟨(s.limiter.allow now other policy).2, now⟩ := by
  intro entry hentry
  replace hentry :
      (s.limiter.allow now other policy).2.order.find? (accountKey name) = some entry :=
    hentry
  rw [find?_allow_of_ne hp hne] at hentry
  rcases find?_room s.limiter (accountKey name) other with hnone | hsame
  · rw [hnone] at hentry
    cases hentry
  · obtain ⟨htokens, hat⟩ := h entry (hsame ▸ hentry)
    exact ⟨htokens, hat.trans hnow⟩

theorem Gate.Sound.allow_self (h : s.Sound name) {now : Time} (hnow : s.clock ≤ now) :
    Gate.Sound name ⟨(s.limiter.allow now (accountKey name) accountPolicy).2, now⟩ := by
  intro entry hentry
  replace hentry : (s.limiter.allow now (accountKey name) accountPolicy).2.order.find?
      (accountKey name) = some entry := hentry
  rw [(allow_spec accountPolicy_limiting _ _ _).2, Table.find?_insertOrReplace,
    if_pos rfl] at hentry
  cases hentry
  refine ⟨?_, le_rfl⟩
  have hlevel := h.level_nonneg hnow
  dsimp only
  split
  · next hone => exact sub_nonneg.mpr hone
  · rwa [sub_zero]

theorem sound_step (s : Gate) (call : LoginCall) (h : s.Sound name) (hin : s.InOrder call) :
    (s.step lib proxies call).Sound name := by
  have hfirst := h.allow_of_ne ipPolicy_limiting
    (ipKey_ne_accountKey lib proxies call.request name) hin.1
  by_cases hname : lib.accountName call.account = name
  · have hsecond := hfirst.allow_self hin.2
    rw [← hname] at hsecond ⊢
    exact hsecond
  · exact hfirst.allow_of_ne accountPolicy_limiting
      (fun hkey => hname (accountKey_injective hkey)) hin.2

theorem login_metered (lib : LoginText) (proxies : TrustedProxies) (name : String) :
    Runs.Metered (Gate.step lib proxies)
      (fun s call => s.InOrder call ∧ s.Spares lib proxies name call)
      (Gate.allowed lib proxies name) LoginCall.accountAt Gate.clock (Gate.Sound name)
      (fun s t => s.limiter.level accountPolicy (accountKey name) t) accountPolicy.capacity
      accountPolicy.rate where
  keep s call h henabled := sound_step s call h henabled.1
  order _ _ henabled := henabled.1.1.trans henabled.1.2
  clock_step _ _ := rfl
  rate_nonneg := accountPolicy_limiting.rate_nonneg
  nonneg _ _ h ht := h.level_nonneg ht
  le_capacity _ _ := level_le_capacity _ _ _ _
  gain s _ _ _ _ ht := level_gain s name ht
  spend s _ _ henabled := level_step s henabled.2 henabled.1

end Runs

/-- In every run of `AllowLogin` calls in order of time that spare the account, for every
capacity of the limiter, a window of length `T` holds at most `5 + T / 60 s` allowed
calls for the account. -/
theorem login_rate_bounded (lib : LoginText) (proxies : TrustedProxies) (max : Int) (clock : Time)
    (name : String) {calls : List LoginCall}
    (horder : Runs.Along (Gate.step lib proxies) Gate.InOrder ⟨newLimiter max, clock⟩ calls)
    (hspares : Runs.Along (Gate.step lib proxies) (Gate.Spares lib proxies name)
      ⟨newLimiter max, clock⟩ calls)
    (start : Time) {T : Duration} (hT : 0 ≤ T) :
    (Runs.marks (Gate.step lib proxies) (Gate.allowed lib proxies name) LoginCall.accountAt
      start (start + T) ⟨newLimiter max, clock⟩ calls : ℚ) ≤ 5 + T / (60 * second : Duration) := by
  have hsound : Gate.Sound name ⟨newLimiter max, clock⟩ := nofun
  have hbound := (login_metered lib proxies name).marks_le (horder.and hspares) hsound
    (Int.le_add_of_nonneg_right hT : start ≤ start + T)
  refine hbound.trans (le_of_eq ?_)
  have hrate : accountPolicy.rate = 1 / (60 * second : Duration) := by decide +kernel
  rw [hrate]
  push_cast
  show (5 : ℚ) + _ = _
  ring

def quadLogin : LoginText := { quadText with toLower := fun text => text }

/-- An attempt for the account `admin`. -/
def attempt (ms : Int) : LoginCall where
  request := ⟨"198.51.100.7:4711", ""⟩
  account := "admin"
  ipAt := ofUnixMilli ms
  accountAt := ofUnixMilli ms

/-- In a limiter of two buckets the attempt for `ops` evicts the bucket of `admin`, which is full
again by then, and the window holds no more than the bound. -/
theorem login_rate_bounded_spared :
    let calls := [attempt 0, attempt 1, { attempt 600000 with account := "ops" }, attempt 600001]
    Runs.Along (Gate.step quadLogin oneProxy) Gate.InOrder ⟨newLimiter 2, 0⟩ calls ∧
      ((calls.take 3).foldl (Gate.step quadLogin oneProxy) ⟨newLimiter 2, 0⟩).limiter.order.has
        (accountKey "admin") = false ∧
      (Runs.marks (Gate.step quadLogin oneProxy) (Gate.allowed quadLogin oneProxy "admin")
        LoginCall.accountAt 0 (0 + 3600 * second) ⟨newLimiter 2, 0⟩ calls : ℚ) ≤
        5 + (3600 * second : Duration) / (60 * second : Duration) := by
  intro calls
  have horder : Runs.Along (Gate.step quadLogin oneProxy) Gate.InOrder ⟨newLimiter 2, 0⟩ calls := by
    decide +kernel
  have hspares : Runs.Along (Gate.step quadLogin oneProxy) (Gate.Spares quadLogin oneProxy "admin")
      ⟨newLimiter 2, 0⟩ calls := by decide +kernel
  exact ⟨horder, by decide +kernel,
    login_rate_bounded quadLogin oneProxy 2 0 "admin" horder hspares 0 (by decide)⟩

/-- In a limiter of one bucket the two keys of a login evict each other, and six
attempts at one instant are all allowed. -/
theorem evicted_bucket_refills :
    let calls := List.replicate 6 (attempt 0)
    Runs.Along (Gate.step quadLogin oneProxy) Gate.InOrder ⟨newLimiter 1, 0⟩ calls ∧
      ¬ (Runs.marks (Gate.step quadLogin oneProxy) (Gate.allowed quadLogin oneProxy "admin")
        LoginCall.accountAt 0 0 ⟨newLimiter 1, 0⟩ calls : ℚ) ≤
        5 + (0 : Duration) / (60 * second : Duration) := by
  intro calls
  have hmarks : Runs.marks (Gate.step quadLogin oneProxy) (Gate.allowed quadLogin oneProxy "admin")
      LoginCall.accountAt 0 0 ⟨newLimiter 1, 0⟩ calls = 6 := by decide +kernel
  refine ⟨by decide +kernel, ?_⟩
  rw [hmarks]
  decide +kernel

end Binnacle.Auth
