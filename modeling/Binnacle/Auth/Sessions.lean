import Binnacle.Clock
import Binnacle.Relational.Table
import Binnacle.Runs

/-!
# Browser sessions

Model of `internal/auth/sessions.go`: the `sessions` table (004_telemetry.sql), and
the operations that issue, authenticate, revoke and clean up its rows. A row keeps
two deadlines in whole milliseconds, a sliding one and an absolute one.

- `Grant`: what the operations did to one token, as a history: when it was issued,
  every use with the idle timeout in force then, whether it was revoked.
- `session_validity`: in every run a token is accepted exactly if its history is
  good, where each deadline is cut to the millisecond that the row stores.

The token hash is a parameter; the columns `csrf_hash`, `user_agent_hash` and
`ip_prefix_hash` are not read by these operations.
-/

namespace Binnacle.Auth

open Relational

/-! ## The model of the source -/

/-- `SessionConfig` (sessions.go:20-23). -/
structure SessionConfig where
  idleTimeout : Duration
  absoluteLifetime : Duration

/-- `valid` (sessions.go:25). -/
def SessionConfig.valid (c : SessionConfig) : Bool :=
  c.idleTimeout > 0 && c.absoluteLifetime ≥ c.idleTimeout

/-- `Session` (sessions.go:27-35). -/
structure Session where
  userID : String
  createdAt : Time
  lastSeenAt : Time
  expiresAt : Time
  absoluteExpires : Time
  authMethod : String
  authSubject : String

/-- A row of `sessions`; instants are `UnixMilli`. -/
structure SessionRow where
  idHash : String
  userID : String
  createdAt : Int
  lastSeenAt : Int
  expiresAt : Int
  absoluteExpiresAt : Int
  revokedAt : Option Int
  authMethod : String
  authSubject : Option String

/-- `Sessions` (sessions.go:37-43): the table and the configuration in force. -/
structure Sessions where
  table : Table SessionRow.idHash
  cfg : SessionConfig

/-- `minTime` (sessions.go:255-260). -/
def minTime (a b : Time) : Time := if a < b then a else b

/-- `nullFingerprint` (sessions.go:268-273). -/
def nullFingerprint (value : String) : Option String := if value = "" then none else some value

/-- `SET revoked_at=COALESCE(revoked_at,?)`. -/
def SessionRow.revoke (ms : Int) (r : SessionRow) : SessionRow :=
  { r with revokedAt := some (r.revokedAt.getD ms) }

/-- `SET last_seen_at=?,expires_at=?`. -/
def SessionRow.touch (seen expires : Int) (r : SessionRow) : SessionRow :=
  { r with lastSeenAt := seen, expiresAt := expires }

@[simp] theorem SessionRow.idHash_revoke (ms : Int) (r : SessionRow) :
    (r.revoke ms).idHash = r.idHash := rfl

@[simp] theorem SessionRow.idHash_touch (seen expires : Int) (r : SessionRow) :
    (r.touch seen expires).idHash = r.idHash := rfl

/-- The rows `Cleanup` selects (sessions.go:194). -/
def SessionRow.stale (cutoff : Int) (r : SessionRow) : Bool :=
  r.expiresAt < cutoff || r.absoluteExpiresAt < cutoff || r.revokedAt.any (· < cutoff)

namespace Sessions

/-- `SetConfig` (sessions.go:50-56): a configuration that is not valid is ignored. -/
def setConfig (s : Sessions) (cfg : SessionConfig) : Sessions :=
  if cfg.valid then { s with cfg := cfg } else s

variable (tokenHash : String → String)

/-- `issue` (sessions.go:74-100) with the token drawn; `none` is an error. -/
def issue (s : Sessions) (now : Time) (token userID authMethod authSubject : String) :
    Option (Session × Sessions) :=
  if userID = "" then none
  else if !s.cfg.valid then none
  else
    let absolute := now + s.cfg.absoluteLifetime
    if authMethod ≠ "local" ∧ authMethod ≠ "proxy" then none
    else
      let session : Session :=
        { userID, createdAt := now, lastSeenAt := now
          expiresAt := minTime (now + s.cfg.idleTimeout) absolute
          absoluteExpires := absolute, authMethod, authSubject }
      (s.table.insert
        { idHash := tokenHash token, userID, createdAt := unixMilli now
          lastSeenAt := unixMilli now, expiresAt := unixMilli session.expiresAt
          absoluteExpiresAt := unixMilli absolute, revokedAt := none, authMethod
          authSubject := nullFingerprint authSubject }).map
        fun table => (session, { s with table })

/-- The session a row holds, as `Authenticate` scans it (sessions.go:145-156). -/
def scan (r : SessionRow) : Session where
  userID := r.userID
  createdAt := ofUnixMilli r.createdAt
  lastSeenAt := ofUnixMilli r.lastSeenAt
  expiresAt := ofUnixMilli r.expiresAt
  absoluteExpires := ofUnixMilli r.absoluteExpiresAt
  authMethod := r.authMethod
  authSubject := r.authSubject.getD ""

/-- `Authenticate` (sessions.go:135-168): the session, or `none` for
`ErrSessionInvalid`, and what it leaves. A session found expired is revoked. -/
def authenticate (s : Sessions) (now : Time) (token : String) : Option Session × Sessions :=
  if token = "" then (none, s)
  else if !s.cfg.valid then (none, s)
  else
    match s.table.find? (tokenHash token) with
    | none => (none, s)
    | some r =>
      if r.revokedAt.isSome then (none, s)
      else
        let session := scan r
        if ¬ now < session.expiresAt ∨ ¬ now < session.absoluteExpires then
          (none, { s with
            table := s.table.update (fun r => r.idHash = tokenHash token)
              (SessionRow.revoke (unixMilli now)) (SessionRow.idHash_revoke _) })
        else
          let session :=
            { session with
              lastSeenAt := now
              expiresAt := minTime (now + s.cfg.idleTimeout) session.absoluteExpires }
          (some session, { s with
            table := s.table.update
              (fun r => decide (r.idHash = tokenHash token) && r.revokedAt.isNone)
              (SessionRow.touch (unixMilli now) (unixMilli session.expiresAt))
              (SessionRow.idHash_touch _ _) })

/-- `Revoke` (sessions.go:170-176). -/
def revoke (s : Sessions) (now : Time) (token : String) : Sessions :=
  if token = "" then s
  else
    { s with
      table := s.table.update (fun r => r.idHash = tokenHash token)
        (SessionRow.revoke (unixMilli now)) (SessionRow.idHash_revoke _) }

/-- `RevokeAll` (sessions.go:178-184). -/
def revokeAll (s : Sessions) (now : Time) (userID : String) : Sessions :=
  if userID = "" then s
  else
    { s with
      table := s.table.update (fun r => r.userID = userID)
        (SessionRow.revoke (unixMilli now)) (SessionRow.idHash_revoke _) }

/-- `Cleanup` (sessions.go:186-199); the engine picks which stale rows fill the limit. -/
def cleanup (s : Sessions) (now : Time) (order : RowOrder) (limit : Int) : Sessions :=
  let limit := if limit < 1 ∨ limit > 1000 then 500 else limit
  { s with table := s.table.deleteSome order limit.toNat (SessionRow.stale (unixMilli now)) }

end Sessions

/-! ## Histories of tokens -/

structure Use where
  at_ : Time
  idle : Duration
  deriving DecidableEq

structure Grant where
  user : String
  issued : Time
  lifetime : Duration
  last : Use
  earlier : List Use
  revoked : Bool
  deriving DecidableEq

/-- `Spaced round t uses`: going back from `t`, each use comes before the deadline
of the use before it. -/
def Spaced (round : Time → Time) : Time → List Use → Prop
  | _, [] => True
  | t, u :: uses => t < round (u.at_ + u.idle) ∧ Spaced round u.at_ uses

/-- The token is good at `t`: it was not revoked, its lifetime has not passed and no
gap between uses reached the idle timeout. Deadlines are read through `round`. -/
def Grant.Good (round : Time → Time) (g : Grant) (t : Time) : Prop :=
  g.revoked = false ∧ t < round (g.issued + g.lifetime) ∧ Spaced round t (g.last :: g.earlier)

def stored (t : Time) : Time := ofUnixMilli (unixMilli t)

/-- The token is not good at `t` or at any later time. -/
def Grant.Ended (g : Grant) (t : Time) : Prop :=
  g.revoked = true ∨ stored (g.issued + g.lifetime) ≤ t ∨ stored (g.last.at_ + g.last.idle) ≤ t

def Grant.use (u : Use) (g : Grant) : Grant := { g with last := u, earlier := g.last :: g.earlier }

def Grant.revoke (g : Grant) : Grant := { g with revoked := true }

theorem Grant.Ended.later {g : Grant} {t t' : Time} (h : g.Ended t) (ht : t ≤ t') : g.Ended t' :=
  h.imp_right (Or.imp (fun h => h.trans ht) fun h => h.trans ht)

theorem Grant.Ended.not_good {g : Grant} {t : Time} (h : g.Ended t) : ¬ g.Good stored t := by
  rintro ⟨hlive, hlife, hidle, -⟩
  rcases h with h | h | h
  · rw [hlive] at h
    cases h
  · exact absurd hlife (not_lt.mpr h)
  · exact absurd hidle (not_lt.mpr h)

/-! ## Runs -/

/-- One call. The drawn token is part of `issue`, the chosen rows of `cleanup`. -/
inductive SessionMove where
  | issue (token userID authMethod authSubject : String)
  | authenticate (token : String)
  | revoke (token : String)
  | revokeAll (userID : String)
  | cleanup (order : RowOrder) (limit : Int)
  | setConfig (cfg : SessionConfig)

structure Audited where
  sessions : Sessions
  clock : Time
  grants : String → Option Grant

section Runs

variable (tokenHash : String → String)

def SessionMove.perform (s : Sessions) (now : Time) : SessionMove → Sessions
  | issue token userID authMethod authSubject =>
    ((s.issue tokenHash now token userID authMethod authSubject).map Prod.snd).getD s
  | authenticate token => (s.authenticate tokenHash now token).2
  | revoke token => s.revoke tokenHash now token
  | revokeAll userID => s.revokeAll now userID
  | cleanup order limit => s.cleanup now order limit
  | setConfig cfg => s.setConfig cfg

/-- What a call adds to the histories. -/
def SessionMove.note (s : Sessions) (now : Time) (grants : String → Option Grant) :
    SessionMove → String → Option Grant
  | issue token userID authMethod authSubject =>
    if (s.issue tokenHash now token userID authMethod authSubject).isSome then
      Function.update grants token (some
        { user := userID, issued := now, lifetime := s.cfg.absoluteLifetime
          last := ⟨now, s.cfg.idleTimeout⟩, earlier := [], revoked := false })
    else grants
  | authenticate token =>
    if (s.authenticate tokenHash now token).1.isSome then
      Function.update grants token ((grants token).map (Grant.use ⟨now, s.cfg.idleTimeout⟩))
    else grants
  | revoke token => Function.update grants token ((grants token).map Grant.revoke)
  | revokeAll userID => fun token =>
    (grants token).map fun g => if g.user = userID then g.revoke else g
  | cleanup _ _ => grants
  | setConfig _ => grants

def Audited.step (s : Audited) (call : Time × SessionMove) : Audited where
  sessions := call.2.perform tokenHash s.sessions call.1
  clock := call.1
  grants := call.2.note tokenHash s.sessions call.1 s.grants

/-- No call comes before the one it follows, and a drawn token is a new one. -/
def Audited.Enabled (s : Audited) : Time × SessionMove → Prop
  | (now, .issue token _ _ _) => s.clock ≤ now ∧ token ≠ "" ∧ s.grants token = none
  | (now, _) => s.clock ≤ now

def Audited.init (cfg : SessionConfig) (clock : Time) : Audited :=
  ⟨⟨Table.empty, cfg⟩, clock, fun _ => none⟩

end Runs

/-! ## The row of a token follows its history -/

/-- The row lets a use at `now` pass. -/
def SessionRow.Live (now : Time) (r : SessionRow) : Prop :=
  r.revokedAt = none ∧ now < ofUnixMilli r.expiresAt ∧ now < ofUnixMilli r.absoluteExpiresAt

instance (now : Time) (r : SessionRow) : Decidable (r.Live now) :=
  inferInstanceAs (Decidable (_ ∧ _ ∧ _))

/-- What `Authenticate` leaves of the row it finds. -/
def SessionRow.met (now : Time) (idle : Duration) (r : SessionRow) : SessionRow :=
  if r.revokedAt.isSome then r
  else if r.Live now then
    r.touch (unixMilli now)
      (unixMilli (minTime (now + idle) (ofUnixMilli r.absoluteExpiresAt)))
  else r.revoke (unixMilli now)

/-- The row holds the two deadlines of the history, and a row is only revoked once
the history has ended. -/
structure Held (t : Time) (r : SessionRow) (g : Grant) : Prop where
  user : r.userID = g.user
  absolute : r.absoluteExpiresAt = unixMilli (g.issued + g.lifetime)
  expires : r.expiresAt = min (unixMilli (g.last.at_ + g.last.idle)) r.absoluteExpiresAt
  revoked : g.revoked = true → r.revokedAt.isSome = true
  ended : r.revokedAt.isSome = true → g.Ended t

/-- A token was issued to a named user, and no use of it came too late. -/
def Grant.Sound (g : Grant) : Prop := g.user ≠ "" ∧ Spaced stored g.last.at_ g.earlier

/-- The row of a token after calls up to `t`, if it has one, against its history. -/
def Followed (t : Time) (row : Option SessionRow) : Option Grant → Prop
  | none => row = none
  | some g =>
    g.Sound ∧
      match row with
      | none => g.Ended t
      | some r => Held t r g

theorem minTime_eq (a b : Time) : minTime a b = min a b := by
  unfold minTime
  split
  · next h => exact (Int.min_eq_left h.le).symm
  · next h => exact (Int.min_eq_right (not_lt.mp h)).symm

section Row

variable {t now : Time} {r : SessionRow} {g : Grant}

theorem Held.later (h : Held t r g) (ht : t ≤ now) : Held now r g :=
  { h with ended := fun hr => (h.ended hr).later ht }

theorem Held.live_iff (h : Held t r g) (ht : t ≤ now) (hpast : Spaced stored g.last.at_ g.earlier) :
    r.Live now ↔ g.Good stored now := by
  constructor
  · rintro ⟨hlive, hexpires, habsolute⟩
    refine ⟨?_, ?_, ?_, hpast⟩
    · refine Bool.eq_false_iff.mpr fun hrev => ?_
      have := h.revoked hrev
      rw [hlive] at this
      cases this
    · show now < ofUnixMilli _
      rw [← h.absolute]
      exact habsolute
    · rw [h.expires] at hexpires
      exact hexpires.trans_le (ofUnixMilli_le.mpr (Int.min_le_left _ _))
  · intro hgood
    have hlife : now < ofUnixMilli r.absoluteExpiresAt := by
      rw [h.absolute]
      exact hgood.2.1
    refine ⟨?_, ?_, hlife⟩
    · cases hrev : r.revokedAt with
      | none => rfl
      | some ms =>
        have hended := (h.ended (by rw [hrev]; rfl)).later ht
        exact absurd hgood hended.not_good
    · rw [h.expires]
      rcases Int.le_total (unixMilli (g.last.at_ + g.last.idle)) r.absoluteExpiresAt with hle | hle
      · rw [Int.min_eq_left hle]
        exact hgood.2.2.1
      · rw [Int.min_eq_right hle]
        exact hlife

theorem Held.revoke (h : Held t r g) (ms : Int) : Held t (r.revoke ms) g.revoke where
  user := h.user
  absolute := h.absolute
  expires := h.expires
  revoked _ := rfl
  ended _ := .inl rfl

theorem Held.touch (h : Held t r g) (hlive : r.Live now) (idle : Duration) :
    Held now (r.met now idle) (g.use ⟨now, idle⟩) := by
  have hmet : r.met now idle = r.touch (unixMilli now)
      (unixMilli (minTime (now + idle) (ofUnixMilli r.absoluteExpiresAt))) := by
    unfold SessionRow.met
    rw [if_neg (by rw [hlive.1]; exact Bool.false_ne_true), if_pos hlive]
  rw [hmet]
  refine ⟨h.user, h.absolute, ?_, fun hrev => ?_, fun hrev => ?_⟩
  · show unixMilli _ = min (unixMilli (now + idle)) r.absoluteExpiresAt
    rw [minTime_eq, unixMilli_min, unixMilli_ofUnixMilli]
  · exact h.revoked hrev
  · have hrev : r.revokedAt.isSome = true := hrev
    rw [hlive.1] at hrev
    cases hrev

theorem Held.refuse (h : Held t r g) (ht : t ≤ now) (hdead : ¬ r.Live now) (idle : Duration)
    (hpast : Spaced stored g.last.at_ g.earlier) : Held now (r.met now idle) g := by
  unfold SessionRow.met
  split
  · exact h.later ht
  · refine { h with revoked := fun _ => rfl, ended := fun _ => ?_ }
    rw [h.live_iff ht hpast] at hdead
    by_contra hended
    unfold Grant.Ended at hended
    push Not at hended
    exact hdead ⟨Bool.not_eq_true _ ▸ hended.1, hended.2.1, hended.2.2, hpast⟩

theorem Held.ended_of_stale (h : Held t r g) (ht : t ≤ now)
    (hstale : r.stale (unixMilli now) = true) : g.Ended now := by
  have hbefore : ∀ {ms : Int}, ms < unixMilli now → ofUnixMilli ms ≤ now := fun hms =>
    (ofUnixMilli_le.mpr hms.le).trans (ofUnixMilli_unixMilli_le now)
  have hlife : r.absoluteExpiresAt < unixMilli now → g.Ended now := fun hms =>
    .inr (.inl (by have := hbefore hms; rwa [h.absolute] at this))
  simp only [SessionRow.stale, Bool.or_eq_true, decide_eq_true_eq] at hstale
  rcases hstale with (hstale | hstale) | hstale
  · rw [h.expires] at hstale
    rcases min_lt_iff.mp hstale with hidle | hidle
    · exact .inr (.inr (hbefore hidle))
    · exact hlife hidle
  · exact hlife hstale
  · cases hrev : r.revokedAt with
    | none =>
      rw [hrev] at hstale
      cases hstale
    | some ms => exact (h.ended (by rw [hrev]; rfl)).later ht

variable {row : Option SessionRow} {grant : Option Grant}

theorem Followed.later (h : Followed t row grant) (ht : t ≤ now) : Followed now row grant := by
  cases grant with
  | none => exact h
  | some g =>
    cases row with
    | none | some r => exact ⟨h.1, h.2.later ht⟩

theorem Followed.live_iff (h : Followed t row grant) (ht : t ≤ now) :
    (∃ r, row = some r ∧ r.Live now) ↔ ∃ g, grant = some g ∧ g.Good stored now := by
  cases grant with
  | none =>
    cases (h : row = none)
    simp
  | some g =>
    obtain ⟨hsound, h⟩ := h
    cases row with
    | none => simpa using Grant.Ended.not_good (h.later ht)
    | some r => simpa using h.live_iff ht hsound.2

theorem Followed.revoke (h : Followed t row grant) (ms : Int) :
    Followed t (row.map (SessionRow.revoke ms)) (grant.map Grant.revoke) := by
  cases grant with
  | none =>
    cases (h : row = none)
    rfl
  | some g =>
    cases row with
    | none => exact ⟨h.1, .inl rfl⟩
    | some r => exact ⟨h.1, h.2.revoke ms⟩

theorem Followed.revokeAll (h : Followed t row grant) (ms : Int) (userID : String) :
    Followed t (row.map fun r => if decide (r.userID = userID) then r.revoke ms else r)
      (grant.map fun g => if g.user = userID then g.revoke else g) := by
  cases grant with
  | none =>
    cases (h : row = none)
    rfl
  | some g =>
    obtain ⟨hsound, h⟩ := h
    cases row with
    | none =>
      by_cases hu : g.user = userID
      · rw [Option.map_some, if_pos hu]
        exact ⟨hsound, .inl rfl⟩
      · rw [Option.map_some, if_neg hu]
        exact ⟨hsound, h⟩
    | some r =>
      -- the row carries the user the token was issued to
      have hr : r.userID = g.user := h.user
      by_cases hu : g.user = userID
      · simp only [Option.map_some, hr, hu, decide_true, if_true]
        exact ⟨hsound, h.revoke ms⟩
      · simp only [Option.map_some, hr, hu, decide_false, if_false]
        exact ⟨hsound, h⟩

theorem Followed.authenticate (h : Followed t row grant) (ht : t ≤ now) (idle : Duration)
    {accepted : Prop} [Decidable accepted] (hacc : accepted ↔ ∃ r, row = some r ∧ r.Live now) :
    Followed now (row.map (SessionRow.met now idle))
      (if accepted then grant.map (Grant.use ⟨now, idle⟩) else grant) := by
  cases grant with
  | none =>
    cases (h : row = none)
    split <;> rfl
  | some g =>
    cases row with
    | none =>
      rw [if_neg (by rw [hacc]; simp)]
      exact ⟨h.1, Grant.Ended.later h.2 ht⟩
    | some r =>
      obtain ⟨hsound, h⟩ := h
      by_cases hlive : r.Live now
      · rw [if_pos (hacc.mpr ⟨r, rfl, hlive⟩)]
        have hgood := (h.live_iff ht hsound.2).mp hlive
        exact ⟨⟨hsound.1, hgood.2.2⟩, h.touch hlive idle⟩
      · rw [if_neg (by rw [hacc]; simpa using hlive)]
        exact ⟨hsound, h.refuse ht hlive idle hsound.2⟩

theorem Followed.delete (h : Followed t row grant) (ht : t ≤ now) {p : SessionRow → Bool}
    (hp : ∀ r, row = some r → p r = true → r.stale (unixMilli now) = true) :
    Followed now (row.filter fun r => !p r) grant := by
  cases row with
  | none => exact h.later ht
  | some r =>
    cases hr : p r with
    | false => simpa [Option.filter, hr] using h.later ht
    | true =>
      rw [Option.filter_some_neg (by simp [hr])]
      cases grant with
      | none => cases (h : some r = none)
      | some g => exact ⟨h.1, h.2.ended_of_stale ht (hp r rfl hr)⟩

end Row

/-! ## What each operation does to the row of a token -/

section Operations

variable {tokenHash : String → String} {s : Sessions} {now : Time} {token : String}

theorem authenticate_empty : s.authenticate tokenHash now "" = (none, s) := if_pos rfl

theorem authenticate_isSome_iff : (s.authenticate tokenHash now token).1.isSome = true ↔
    token ≠ "" ∧ s.cfg.valid = true ∧
      ∃ r, s.table.find? (tokenHash token) = some r ∧ r.Live now := by
  by_cases htoken : token = ""
  · simp [htoken, authenticate_empty]
  · unfold Sessions.authenticate
    rw [if_neg htoken]
    cases s.cfg.valid with
    | false => simp
    | true =>
      cases s.table.find? (tokenHash token) with
      | none => simp
      | some r =>
        cases hrev : r.revokedAt with
        | some ms => simp [hrev, SessionRow.Live]
        | none =>
          by_cases hexp : now < ofUnixMilli r.expiresAt <;>
            by_cases habs : now < ofUnixMilli r.absoluteExpiresAt <;>
            simp [htoken, hrev, hexp, habs, SessionRow.Live, Sessions.scan]

/-- `Authenticate` leaves the rows, revokes the one it finds or moves its deadline. -/
theorem authenticate_cases : (s.authenticate tokenHash now token).2 = s ∨
    (s.authenticate tokenHash now token).2 = s.revoke tokenHash now token ∨
    ∃ expires, (s.authenticate tokenHash now token).2 =
      { s with
        table := s.table.update (fun r => decide (r.idHash = tokenHash token) && r.revokedAt.isNone)
          (SessionRow.touch (unixMilli now) expires) (SessionRow.idHash_touch _ _) } := by
  unfold Sessions.authenticate Sessions.revoke
  split
  · exact .inl rfl
  · split
    · exact .inl rfl
    · split
      · exact .inl rfl
      · split
        · exact .inl rfl
        · dsimp only
          split
          · exact .inr (.inl rfl)
          · exact .inr (.inr ⟨_, rfl⟩)

theorem cfg_revoke : (s.revoke tokenHash now token).cfg = s.cfg := by
  unfold Sessions.revoke
  split <;> rfl

theorem find?_revoke_of_ne {k : String} (hk : k ≠ tokenHash token) :
    (s.revoke tokenHash now token).table.find? k = s.table.find? k := by
  unfold Sessions.revoke
  split
  · rfl
  · exact Table.find?_update_of_ne (SessionRow.idHash_revoke _)
      (fun r hr => of_decide_eq_true hr) hk

theorem cfg_authenticate : (s.authenticate tokenHash now token).2.cfg = s.cfg := by
  rcases authenticate_cases with h | h | ⟨expires, h⟩
  · rw [h]
  · rw [h, cfg_revoke]
  · rw [h]

theorem find?_authenticate_of_ne {k : String} (hk : k ≠ tokenHash token) :
    (s.authenticate tokenHash now token).2.table.find? k = s.table.find? k := by
  rcases authenticate_cases with h | h | ⟨expires, h⟩
  · rw [h]
  · rw [h, find?_revoke_of_ne hk]
  · rw [h]
    exact Table.find?_update_of_ne (SessionRow.idHash_touch _ _)
      (fun r hr => of_decide_eq_true (Bool.and_eq_true_iff.mp hr).1) hk

/-- The row that `Authenticate` finds; the empty token has none. -/
theorem find?_authenticate (hempty : s.table.find? (tokenHash "") = none)
    (hcfg : s.cfg.valid = true) :
    (s.authenticate tokenHash now token).2.table.find? (tokenHash token) =
      (s.table.find? (tokenHash token)).map (SessionRow.met now s.cfg.idleTimeout) := by
  by_cases htoken : token = ""
  · rw [htoken, authenticate_empty, hempty, Option.map_none]
  · unfold Sessions.authenticate
    rw [if_neg htoken, hcfg]
    cases h : s.table.find? (tokenHash token) with
    | none => simp [h]
    | some r =>
      have hkey : r.idHash = tokenHash token := (Table.find?_eq_some_iff.mp h).2
      cases hrev : r.revokedAt with
      | some ms => simp [h, hrev, SessionRow.met]
      | none =>
        by_cases hexp : now < ofUnixMilli r.expiresAt <;>
          by_cases habs : now < ofUnixMilli r.absoluteExpiresAt <;>
          simp [h, hkey, hrev, hexp, habs, SessionRow.met, SessionRow.Live, Sessions.scan,
            Table.find?_update]

theorem find?_revoke (hempty : s.table.find? (tokenHash "") = none) :
    (s.revoke tokenHash now token).table.find? (tokenHash token) =
      (s.table.find? (tokenHash token)).map (SessionRow.revoke (unixMilli now)) := by
  unfold Sessions.revoke
  split
  · next htoken => rw [htoken, hempty, Option.map_none]
  · rw [Table.find?_update]
    cases h : s.table.find? (tokenHash token) with
    | none => rfl
    | some r => simp [(Table.find?_eq_some_iff.mp h).2]

def Grant.begun (cfg : SessionConfig) (now : Time) (userID : String) : Grant where
  user := userID
  issued := now
  lifetime := cfg.absoluteLifetime
  last := ⟨now, cfg.idleTimeout⟩
  earlier := []
  revoked := false

theorem issue_inv {userID authMethod authSubject : String} {session : Session} {s' : Sessions}
    (h : s.issue tokenHash now token userID authMethod authSubject = some (session, s')) :
    s'.cfg = s.cfg ∧ userID ≠ "" ∧ ∃ r : SessionRow, Held now r (Grant.begun s.cfg now userID) ∧
      ∀ k, s'.table.find? k = if tokenHash token = k then some r else s.table.find? k := by
  unfold Sessions.issue at h
  split at h
  · cases h
  · next huser =>
    split at h
    · cases h
    · dsimp only at h
      split_ifs at h
      obtain ⟨table, htable, heq⟩ := Option.map_eq_some_iff.mp h
      cases heq
      obtain ⟨hfree, -⟩ := Table.insert_eq_some htable
      rw [Table.insert_of_free hfree] at htable
      cases htable
      have hmin : unixMilli (minTime (now + s.cfg.idleTimeout) (now + s.cfg.absoluteLifetime)) =
          min (unixMilli (now + s.cfg.idleTimeout))
            (unixMilli (now + s.cfg.absoluteLifetime)) := by
        rw [minTime_eq, unixMilli_min]
      refine ⟨rfl, huser, _, ⟨rfl, rfl, hmin, ?_, ?_⟩, Table.find?_push hfree⟩
      · exact nofun
      · exact nofun

theorem cfg_perform (move : SessionMove) : (move.perform tokenHash s now).cfg = s.cfg ∨
    ∃ cfg, move = .setConfig cfg ∧ cfg.valid = true ∧
      (move.perform tokenHash s now).cfg = cfg := by
  cases move with
  | issue token userID authMethod authSubject =>
    left
    simp only [SessionMove.perform]
    cases hissue : s.issue tokenHash now token userID authMethod authSubject with
    | none => rfl
    | some p => exact (issue_inv hissue).1
  | authenticate token => exact .inl cfg_authenticate
  | revoke token => exact .inl cfg_revoke
  | revokeAll userID =>
    left
    simp only [SessionMove.perform, Sessions.revokeAll]
    split <;> rfl
  | cleanup order limit => exact .inl rfl
  | setConfig cfg =>
    simp only [SessionMove.perform, Sessions.setConfig]
    split
    · next hcfg => exact .inr ⟨cfg, rfl, hcfg, rfl⟩
    · exact .inl rfl

theorem note_cases {grants : String → Option Grant} {move : SessionMove} {g : Grant}
    (h : move.note tokenHash s now grants token = some g) :
    (∃ userID authMethod authSubject, move = .issue token userID authMethod authSubject ∧
      g = Grant.begun s.cfg now userID) ∨
    ∃ g', grants token = some g' ∧
      (g = g' ∨ g = g'.use ⟨now, s.cfg.idleTimeout⟩ ∨ g = g'.revoke) := by
  -- a history that is written at one token
  have hat : ∀ {token' : String} {new : Option Grant},
      Function.update grants token' new token = some g →
      (token = token' ∧ new = some g) ∨ grants token = some g := by
    intro token' new hg
    by_cases ht : token = token'
    · subst ht
      exact .inl ⟨rfl, by rwa [Function.update_self] at hg⟩
    · exact .inr (by rwa [Function.update_of_ne ht] at hg)
  unfold SessionMove.note at h
  split at h
  · split at h
    · rcases hat h with ⟨rfl, hg⟩ | hg
      · exact .inl ⟨_, _, _, rfl, (Option.some.inj hg).symm⟩
      · exact .inr ⟨g, hg, .inl rfl⟩
    · exact .inr ⟨g, h, .inl rfl⟩
  · split at h
    · rcases hat h with ⟨rfl, hg⟩ | hg
      · obtain ⟨g', hg', rfl⟩ := Option.map_eq_some_iff.mp hg
        exact .inr ⟨g', hg', .inr (.inl rfl)⟩
      · exact .inr ⟨g, hg, .inl rfl⟩
    · exact .inr ⟨g, h, .inl rfl⟩
  · rcases hat h with ⟨rfl, hg⟩ | hg
    · obtain ⟨g', hg', rfl⟩ := Option.map_eq_some_iff.mp hg
      exact .inr ⟨g', hg', .inr (.inr rfl)⟩
    · exact .inr ⟨g, hg, .inl rfl⟩
  · obtain ⟨g', hg', rfl⟩ := Option.map_eq_some_iff.mp h
    refine .inr ⟨g', hg', ?_⟩
    split
    · exact .inr (.inr rfl)
    · exact .inl rfl
  · exact .inr ⟨g, h, .inl rfl⟩
  · exact .inr ⟨g, h, .inl rfl⟩

end Operations

/-! ## Runs keep rows and histories together -/

def Capped (s : Sessions) : Prop := ∀ r ∈ s.table.rows, r.expiresAt ≤ r.absoluteExpiresAt

/-- What every call keeps. -/
structure Traced (tokenHash : String → String) (s : Audited) : Prop where
  valid : s.sessions.cfg.valid = true
  empty : s.grants "" = none
  followed : ∀ token,
    Followed s.clock (s.sessions.table.find? (tokenHash token)) (s.grants token)

section Invariants

variable {tokenHash : String → String} {s : Audited} {now : Time}

theorem traced_init {cfg : SessionConfig} (hcfg : cfg.valid = true) (clock : Time) :
    Traced tokenHash (Audited.init cfg clock) := ⟨hcfg, rfl, fun _ => rfl⟩

def Tracks (tokenHash : String → String) (now : Time) (s : Audited) : Prop :=
  ∀ token, Followed now (s.sessions.table.find? (tokenHash token)) (s.grants token)

section Kept

variable (h : Traced tokenHash s)

include h

theorem Traced.find?_empty : s.sessions.table.find? (tokenHash "") = none := by
  have hrow := h.followed ""
  rw [h.empty] at hrow
  exact hrow

variable (hnow : s.clock ≤ now)

include hnow

theorem Traced.revokeAll (userID : String) :
    Tracks tokenHash now (s.step tokenHash (now, .revokeAll userID)) := by
  intro token
  have hrow := (h.followed token).later hnow
  simp only [Audited.step, SessionMove.perform, SessionMove.note, Sessions.revokeAll]
  split
  · next huser =>
    -- no token was ever issued to the empty user
    cases hg : s.grants token with
    | none =>
      rw [hg] at hrow
      exact hrow
    | some g =>
      rw [hg] at hrow
      rw [Option.map_some, huser, if_neg hrow.1.1]
      exact hrow
  · rw [Table.find?_update]
    exact hrow.revokeAll _ _

theorem Traced.cleanup (order : RowOrder) (limit : Int) :
    Tracks tokenHash now (s.step tokenHash (now, .cleanup order limit)) := by
  intro token
  show Followed now ((s.sessions.table.delete _).find? (tokenHash token)) (s.grants token)
  rw [Table.find?_delete]
  exact (h.followed token).delete hnow fun r hr hvictim =>
    Table.selected_of_victim (Table.find?_eq_some_iff.mp hr).1 hvictim

variable (hinj : Function.Injective tokenHash)

include hinj

theorem Traced.followed_at {token : String} {table : Table SessionRow.idHash}
    {new : Option Grant} (hself : Followed now (table.find? (tokenHash token)) new)
    (hother : ∀ {k}, k ≠ tokenHash token → table.find? k = s.sessions.table.find? k)
    (token' : String) :
    Followed now (table.find? (tokenHash token')) (Function.update s.grants token new token') := by
  by_cases ht : token' = token
  · subst ht
    rw [Function.update_self]
    exact hself
  · rw [hother fun he => ht (hinj he), Function.update_of_ne ht]
    exact (h.followed token').later hnow

theorem Traced.issue (token userID authMethod authSubject : String) :
    Tracks tokenHash now (s.step tokenHash (now, .issue token userID authMethod authSubject)) := by
  intro token'
  simp only [Audited.step, SessionMove.perform, SessionMove.note]
  cases hissue : s.sessions.issue tokenHash now token userID authMethod authSubject with
  | none => exact (h.followed token').later hnow
  | some p =>
    obtain ⟨-, huser, r, hheld, hfind⟩ := issue_inv hissue
    refine h.followed_at hnow hinj ?_ (fun hk => ?_) token'
    · rw [Option.map_some, Option.getD_some, hfind, if_pos rfl]
      exact ⟨⟨huser, trivial⟩, hheld⟩
    · rw [Option.map_some, Option.getD_some, hfind, if_neg hk.symm]

theorem Traced.authenticate (token : String) :
    Tracks tokenHash now (s.step tokenHash (now, .authenticate token)) := by
  intro token'
  have hacc : (s.sessions.authenticate tokenHash now token).1.isSome = true ↔
      ∃ r, s.sessions.table.find? (tokenHash token) = some r ∧ r.Live now := by
    rw [authenticate_isSome_iff, and_iff_right h.valid, and_iff_right_iff_imp]
    rintro ⟨r, hr, -⟩ rfl
    rw [h.find?_empty] at hr
    cases hr
  have hself := (h.followed token).authenticate hnow s.sessions.cfg.idleTimeout hacc
  rw [← find?_authenticate h.find?_empty h.valid] at hself
  have hrow := h.followed_at hnow hinj hself (fun hk => find?_authenticate_of_ne hk) token'
  simp only [Audited.step, SessionMove.perform, SessionMove.note]
  split
  · next hok => rwa [if_pos hok] at hrow
  · next hok => rwa [if_neg hok, Function.update_eq_self] at hrow

theorem Traced.revoke (token : String) :
    Tracks tokenHash now (s.step tokenHash (now, .revoke token)) := by
  intro token'
  have hself := ((h.followed token).later hnow).revoke (unixMilli now)
  rw [← find?_revoke h.find?_empty] at hself
  exact h.followed_at hnow hinj hself (fun hk => find?_revoke_of_ne hk) token'

end Kept

theorem table_setConfig (s : Sessions) (cfg : SessionConfig) :
    (s.setConfig cfg).table = s.table := by
  unfold Sessions.setConfig
  split <;> rfl

theorem Traced.step (hinj : Function.Injective tokenHash) (s : Audited)
    (call : Time × SessionMove) (h : Traced tokenHash s) (hen : s.Enabled call) :
    Traced tokenHash (s.step tokenHash call) := by
  obtain ⟨now, move⟩ := call
  refine ⟨?_, ?_, ?_⟩
  · show (move.perform tokenHash s.sessions now).cfg.valid = true
    rcases cfg_perform move with hcfg | ⟨cfg, -, hvalid, hcfg⟩
    · rw [hcfg]
      exact h.valid
    · rw [hcfg]
      exact hvalid
  · refine Option.eq_none_iff_forall_ne_some.mpr fun g hg => ?_
    rcases note_cases hg with ⟨userID, authMethod, authSubject, rfl, -⟩ | ⟨g', hg', -⟩
    · exact hen.2.1 rfl
    · rw [h.empty] at hg'
      cases hg'
  · cases move with
    | issue token userID authMethod authSubject =>
      exact h.issue hen.1 hinj token userID authMethod authSubject
    | authenticate token => exact h.authenticate hen hinj token
    | revoke token => exact h.revoke hen hinj token
    | revokeAll userID => exact h.revokeAll hen userID
    | cleanup order limit => exact h.cleanup hen order limit
    | setConfig cfg =>
      intro token'
      show Followed now ((s.sessions.setConfig cfg).table.find? _) (s.grants token')
      rw [table_setConfig]
      exact (h.followed token').later hen

theorem find?_step_of_unknown {k : String} (hk : ∀ token, k ≠ tokenHash token)
    (call : Time × SessionMove) (h : s.sessions.table.find? k = none) :
    (s.step tokenHash call).sessions.table.find? k = none := by
  obtain ⟨now, move⟩ := call
  simp only [Audited.step]
  cases move with
  | issue token userID authMethod authSubject =>
    simp only [SessionMove.perform]
    cases hissue : s.sessions.issue tokenHash now token userID authMethod authSubject with
    | none => exact h
    | some p =>
      obtain ⟨-, -, r, -, hfind⟩ := issue_inv hissue
      rw [Option.map_some, Option.getD_some, hfind, if_neg (hk token).symm]
      exact h
  | authenticate token => exact (find?_authenticate_of_ne (hk token)).trans h
  | revoke token => exact (find?_revoke_of_ne (hk token)).trans h
  | revokeAll userID =>
    simp only [SessionMove.perform, Sessions.revokeAll]
    split
    · exact h
    · rw [Table.find?_update, h]
      rfl
  | cleanup order limit =>
    show (s.sessions.table.delete _).find? k = none
    rw [Table.find?_delete, h]
    rfl
  | setConfig cfg =>
    simp only [SessionMove.perform]
    rw [table_setConfig]
    exact h

theorem Traced.capped (h : Traced tokenHash s)
    (hunknown : ∀ k, (∀ token, k ≠ tokenHash token) → s.sessions.table.find? k = none) :
    Capped s.sessions := by
  intro r hr
  have hfind := Table.find?_eq_some_iff.mpr ⟨hr, rfl⟩
  by_cases htoken : ∃ token, r.idHash = tokenHash token
  · obtain ⟨token, hkey⟩ := htoken
    have hrow := h.followed token
    rw [← hkey, hfind] at hrow
    cases hg : s.grants token with
    | none =>
      rw [hg] at hrow
      cases hrow
    | some g =>
      rw [hg] at hrow
      exact hrow.2.expires.trans_le (Int.min_le_right _ _)
  · rw [hunknown _ (not_exists.mp htoken)] at hfind
    cases hfind

theorem mem_cleanup_of_live {s : Sessions} {r : SessionRow} (hr : r ∈ s.table.rows)
    (hlive : r.Live now) (order : RowOrder) (limit : Int) :
    r ∈ (s.cleanup now order limit).table.rows := by
  refine Table.mem_deleteSome_of_not order _ hr ?_
  have hafter : ∀ {ms : Int}, now < ofUnixMilli ms → ¬ ms < unixMilli now := fun hms hlt =>
    absurd (hms.trans_le ((ofUnixMilli_le.mpr hlt.le).trans (ofUnixMilli_unixMilli_le now)))
      (lt_irrefl _)
  simp [SessionRow.stale, hlive.1, not_lt.mp (hafter hlive.2.1), not_lt.mp (hafter hlive.2.2)]

/-- `Cleanup` takes no token that would pass then or later. -/
theorem authenticate_cleanup {s : Sessions} {later : Time} (hlater : now ≤ later) {token : String}
    (h : (s.authenticate tokenHash later token).1.isSome = true) (order : RowOrder) (limit : Int) :
    ((s.cleanup now order limit).authenticate tokenHash later token).1.isSome = true := by
  obtain ⟨htoken, hcfg, r, hr, hlive⟩ := authenticate_isSome_iff.mp h
  refine authenticate_isSome_iff.mpr ⟨htoken, hcfg, r, ?_, hlive⟩
  obtain ⟨hmem, hkey⟩ := Table.find?_eq_some_iff.mp hr
  have hnow : r.Live now :=
    ⟨hlive.1, hlater.trans_lt hlive.2.1, hlater.trans_lt hlive.2.2⟩
  exact Table.find?_eq_some_iff.mpr ⟨mem_cleanup_of_live hmem hnow order limit, hkey⟩

end Invariants

/-! ## Timeouts of whole milliseconds -/

def Whole (t : Time) : Prop := millisecond ∣ t

def SessionConfig.Whole (c : SessionConfig) : Prop :=
  Auth.Whole c.idleTimeout ∧ Auth.Whole c.absoluteLifetime

def WholeCall : Time × SessionMove → Prop
  | (now, .setConfig cfg) => Whole now ∧ cfg.Whole
  | (now, _) => Whole now

def Grant.Whole (g : Grant) : Prop :=
  Auth.Whole (g.issued + g.lifetime) ∧ ∀ u ∈ g.last :: g.earlier, Auth.Whole (u.at_ + u.idle)

/-- The configuration and every history. -/
structure Audited.Whole (s : Audited) : Prop where
  cfg : s.sessions.cfg.Whole
  grants : ∀ token g, s.grants token = some g → g.Whole

theorem stored_of_whole {t : Time} (h : Whole t) : stored t = t := Int.ediv_mul_cancel h

theorem spaced_stored_iff {uses : List Use} (h : ∀ u ∈ uses, Whole (u.at_ + u.idle)) (t : Time) :
    Spaced stored t uses ↔ Spaced id t uses := by
  induction uses generalizing t with
  | nil => exact Iff.rfl
  | cons u uses ih =>
    have hu := stored_of_whole (h u List.mem_cons_self)
    exact and_congr (by rw [hu]; exact Iff.rfl)
      (ih (fun v hv => h v (List.mem_cons_of_mem u hv)) u.at_)

theorem Grant.Whole.good_iff {g : Grant} (h : g.Whole) (t : Time) :
    g.Good stored t ↔ g.Good id t := by
  unfold Grant.Good
  rw [stored_of_whole h.1, spaced_stored_iff h.2]
  exact Iff.rfl

theorem whole_step {tokenHash : String → String} (s : Audited) (call : Time × SessionMove)
    (h : s.Whole) (hcall : WholeCall call) : (s.step tokenHash call).Whole := by
  obtain ⟨now, move⟩ := call
  have hnow : Whole now := by
    cases move with
    | setConfig cfg => exact hcall.1
    | _ => exact hcall
  have hidle : Whole (now + s.sessions.cfg.idleTimeout) := Int.dvd_add hnow h.cfg.1
  refine ⟨?_, fun token g hg => ?_⟩
  · show (move.perform tokenHash s.sessions now).cfg.Whole
    rcases cfg_perform move with hcfg | ⟨cfg, rfl, -, hcfg⟩
    · rw [hcfg]
      exact h.cfg
    · rw [hcfg]
      exact hcall.2
  · rcases note_cases hg with ⟨userID, -, -, -, rfl⟩ | ⟨g', hg', hcase⟩
    · refine ⟨Int.dvd_add hnow h.cfg.2, fun u hu => ?_⟩
      rw [List.mem_singleton.mp hu]
      exact hidle
    · have hold := h.grants token g' hg'
      rcases hcase with rfl | rfl | rfl
      · exact hold
      · refine ⟨hold.1, fun u hu => ?_⟩
        rcases List.mem_cons.mp hu with rfl | hu
        · exact hidle
        · exact hold.2 u hu
      · exact hold

/-! ## When a token is accepted -/

/-- In every run, `Authenticate` accepts a token exactly if its history is good with
each deadline as stored, `Cleanup` takes no token that would pass, and no stored
expiry passes the absolute one. Where times and timeouts are whole milliseconds,
the deadlines are those of the history itself. -/
theorem session_validity {tokenHash : String → String} (hinj : Function.Injective tokenHash)
    {cfg : SessionConfig} (hcfg : cfg.valid = true) (clock : Time)
    {calls : List (Time × SessionMove)}
    (hrun : Runs.Along (Audited.step tokenHash) Audited.Enabled (Audited.init cfg clock) calls) :
    let s := calls.foldl (Audited.step tokenHash) (Audited.init cfg clock)
    (∀ now token, s.clock ≤ now →
      ((s.sessions.authenticate tokenHash now token).1.isSome = true ↔
        ∃ g, s.grants token = some g ∧ g.Good stored now)) ∧
    (cfg.Whole → (∀ call ∈ calls, WholeCall call) → ∀ now token, s.clock ≤ now →
      ((s.sessions.authenticate tokenHash now token).1.isSome = true ↔
        ∃ g, s.grants token = some g ∧ g.Good id now)) ∧
    (∀ now later token order limit, now ≤ later →
      (s.sessions.authenticate tokenHash later token).1.isSome = true →
      ((s.sessions.cleanup now order limit).authenticate tokenHash later token).1.isSome = true) ∧
    Capped s.sessions := by
  intro s
  have htraced : Traced tokenHash s :=
    hrun.invariant (Traced.step hinj) (traced_init hcfg clock)
  have hstored : ∀ now token, s.clock ≤ now →
      ((s.sessions.authenticate tokenHash now token).1.isSome = true ↔
        ∃ g, s.grants token = some g ∧ g.Good stored now) := by
    intro now token hnow
    rw [authenticate_isSome_iff, and_iff_right htraced.valid,
      (htraced.followed token).live_iff hnow, and_iff_right_iff_imp]
    rintro ⟨g, hg, -⟩ rfl
    rw [htraced.empty] at hg
    cases hg
  refine ⟨hstored, fun hcfg hcalls now token hnow => ?_, ?_, ?_⟩
  · have halong : Runs.Along (Audited.step tokenHash) (fun _ => WholeCall)
        (Audited.init cfg clock) calls := .of_mem (fun call hcall _ => hcalls call hcall) _
    have hwhole : s.Whole := halong.invariant whole_step ⟨hcfg, nofun⟩
    rw [hstored now token hnow]
    exact exists_congr fun g =>
      and_congr_right fun hg => (hwhole.grants token g hg).good_iff now
  · exact fun now later token order limit hlater h => authenticate_cleanup hlater h order limit
  · refine htraced.capped fun k hk => ?_
    exact hrun.invariant (I := fun s => s.sessions.table.find? k = none)
      (fun _ call h _ => find?_step_of_unknown hk call h) rfl

/-- A session used after ten minutes of an idle timeout of half an hour is still
good twenty minutes later, and gone after the half hour. -/
theorem session_validity_used :
    let cfg : SessionConfig := ⟨30 * minute, 12 * hour⟩
    let calls : List (Time × SessionMove) :=
      [(0, .issue "token" "admin" "local" ""), (10 * minute, .authenticate "token")]
    let s := calls.foldl (Audited.step id) (Audited.init cfg 0)
    Runs.Along (Audited.step id) Audited.Enabled (Audited.init cfg 0) calls ∧
      (s.sessions.authenticate id (30 * minute) "token").1.isSome = true ∧
      (s.sessions.authenticate id (40 * minute) "token").1.isSome = false := by
  intro cfg calls s
  have hrun : Runs.Along (Audited.step id) Audited.Enabled (Audited.init cfg 0) calls :=
    ⟨⟨by decide, by decide, rfl⟩, show (0 : Int) ≤ 10 * minute by decide, trivial⟩
  obtain ⟨haccepted, -⟩ := session_validity Function.injective_id (by decide) 0 hrun
  have hgrant : s.grants "token" = some
      { user := "admin", issued := 0, lifetime := 12 * hour, last := ⟨10 * minute, 30 * minute⟩
        earlier := [⟨0, 30 * minute⟩], revoked := false } := by decide +kernel
  refine ⟨hrun, ?_, ?_⟩
  · refine (haccepted (30 * minute) "token" (by decide +kernel)).mpr ⟨_, hgrant, ?_⟩
    exact ⟨rfl, by decide +kernel, by decide +kernel, by decide +kernel, trivial⟩
  · refine Bool.eq_false_iff.mpr fun h => ?_
    obtain ⟨g, hg, -, -, hidle, -⟩ :=
      (haccepted (40 * minute) "token" (by decide +kernel)).mp h
    cases hgrant.symm.trans hg
    exact absurd hidle (by decide +kernel)

/-- An idle timeout of a millisecond and a half ends after one: the use comes
before the timeout has passed and is refused. -/
theorem half_millisecond_lost :
    let cfg : SessionConfig := ⟨1500000, hour⟩
    let calls : List (Time × SessionMove) := [(0, .issue "token" "admin" "local" "")]
    let s := calls.foldl (Audited.step id) (Audited.init cfg 0)
    cfg.valid = true ∧
      Runs.Along (Audited.step id) Audited.Enabled (Audited.init cfg 0) calls ∧
      (∃ g, s.grants "token" = some g ∧ g.Good id millisecond) ∧
      (s.sessions.authenticate id millisecond "token").1.isSome = false := by
  refine ⟨by decide, ⟨⟨by decide, by decide, rfl⟩, trivial⟩, ⟨_, rfl, ?_⟩, by decide +kernel⟩
  exact ⟨rfl, by decide, by decide, trivial⟩

end Binnacle.Auth
