import Binnacle.Clock
import Binnacle.Relational.Table
import Binnacle.Text

/-!
# Personal API tokens

Model of `internal/auth/api_tokens.go` over the table `api_tokens`
(020_api_tokens.sql): creation, revocation and the check of a token against a scope.
The table is kept under its unique column `token_hash`, which every lookup uses.

The token hash, the drawn bytes and `strings.TrimSpace` are parameters.
-/

namespace Binnacle.Auth

open Relational

/-- `strings.HasPrefix`. -/
def hasPrefix (text start : String) : Bool := start.toList.isPrefixOf text.toList

/-- `APIScope` (api_tokens.go:19-27). -/
inductive APIScope where
  | serverRead
  | resourcesRead
  | metricsRead
  | eventsRead
  | incidentsRead
  deriving DecidableEq

/-- The text of a scope, by which scopes are sorted. -/
def APIScope.text : APIScope → String
  | serverRead => "server:read"
  | resourcesRead => "resources:read"
  | metricsRead => "metrics:read"
  | eventsRead => "events:read"
  | incidentsRead => "incidents:read"

inductive APITokenError where
  /-- `ErrAPITokenInvalid`. -/
  | invalid
  /-- `ErrAPIScopeInsufficient`. -/
  | scopeInsufficient
  /-- A formatted error. -/
  | message (text : String)
  | constraint
  /-- `sql.ErrNoRows`. -/
  | noRows

/-- A row of `api_tokens`; `scopes` is `none` where `scopes_json` is not a list of scopes. -/
structure APITokenRow where
  id : String
  userID : String
  name : String
  start : String
  tokenHash : String
  scopes : Option (List APIScope)
  createdAt : Int
  expiresAt : Option Int
  lastUsedAt : Option Int
  revokedAt : Option Int

/-- `APITokenRepository`. -/
abbrev APITokens := Table APITokenRow.tokenHash

/-- What `Create` draws, as it is encoded: eight bytes in hexadecimal and 32 bytes in
unpadded base64. -/
structure TokenDraw where
  idHex : String
  secret : String
  idSize : idHex.utf8ByteSize = 16
  secretSize : secret.utf8ByteSize = 43

/-- The plaintext of a token (api_tokens.go:91). -/
def TokenDraw.plaintext (d : TokenDraw) : String := "bnk_" ++ d.idHex ++ "_" ++ d.secret

def Personal (token : String) : Prop := ∃ d : TokenDraw, token = d.plaintext

/-- `normalizeScopes` (api_tokens.go:172-186); every `APIScope` is a valid one. -/
def normalizeScopes (scopes : List APIScope) : Except APITokenError (List APIScope) :=
  if scopes.length < 1 ∨ scopes.length > 5 then
    .error (.message "one to five scopes are required")
  else if ¬ scopes.Nodup then .error (.message "invalid API token scope")
  else .ok (scopes.mergeSort fun a b => a.text ≤ b.text)

/-- The row counts towards the limit of active tokens (api_tokens.go:77). -/
def APITokenRow.active (userID : String) (ms : Int) (r : APITokenRow) : Bool :=
  r.userID = userID && r.revokedAt.isNone && r.expiresAt.all fun e => ms < e

/-- `Create` (api_tokens.go:54-107), one transaction. The stored prefix is the first
twelve bytes of the plaintext. -/
def APITokens.create (hash : String → String) (draw : TokenDraw) (now : Time)
    (userID name : String) (scopes : List APIScope) (expiresAt : Option Time) (t : APITokens) :
    Except APITokenError (String × APITokens) :=
  let name := trimSpace name
  if name.utf8ByteSize < 1 ∨ name.utf8ByteSize > 64 then
    .error (.message "token name must be 1 to 64 characters")
  else
    match normalizeScopes scopes with
    | .error e => .error e
    | .ok scopes =>
      if expiresAt.any fun e => decide (e < now + hour) || decide (e > now + 365 * 24 * hour) then
        .error (.message "token expiry must be between one hour and one year")
      else if t.rows.countP (APITokenRow.active userID (unixMilli now)) ≥ 32 then
        .error (.message "active API token limit reached")
      else
        let plaintext := draw.plaintext
        let id := "tok_" ++ draw.idHex
        let start := String.ofList (plaintext.toList.take 12)
        if t.rows.any fun r => r.id = id || r.start = start then .error .constraint
        else
          match t.insert
            { id, userID, name, start, tokenHash := hash plaintext, scopes := some scopes
              createdAt := unixMilli now, expiresAt := expiresAt.map unixMilli
              lastUsedAt := none, revokedAt := none } with
          | none => .error .constraint
          | some t => .ok (plaintext, t)

/-- `Revoke` (api_tokens.go:134-144). -/
def APITokens.revoke (now : Time) (userID id : String) (t : APITokens) :
    Except APITokenError Unit × APITokens :=
  let selected (r : APITokenRow) : Bool := r.id = id && r.userID = userID
  let t' := t.update selected
    (fun r => { r with revokedAt := some (r.revokedAt.getD (unixMilli now)) }) fun _ => rfl
  if t.rows.countP selected = 1 then (.ok (), t') else (.error .noRows, t')

/-- `Authenticate` (api_tokens.go:145-171): the clock is read for the expiry and again
for the time of the last use. -/
def APITokens.authenticate (hash : String → String) (now usedAt : Time) (plaintext : String)
    (required : APIScope) (t : APITokens) : Except APITokenError Unit × APITokens :=
  if !hasPrefix plaintext "bnk_" || plaintext.utf8ByteSize > 128 then (.error .invalid, t)
  else
    match t.find? (hash plaintext) with
    | none => (.error .invalid, t)
    | some r =>
      if r.revokedAt.isSome || r.expiresAt.any fun e => e ≤ unixMilli now then (.error .invalid, t)
      else
        match r.scopes with
        | none => (.error .invalid, t)
        | some scopes =>
          if !scopes.contains required then (.error .scopeInsufficient, t)
          else
            let unused (r : APITokenRow) : Bool :=
              r.lastUsedAt.all fun last => last < unixMilli (usedAt - hour)
            if unused r then
              (.ok (), t.update (fun r => decide (r.tokenHash = hash plaintext) && unused r)
                (fun r => { r with lastUsedAt := some (unixMilli usedAt) }) fun _ => rfl)
            else (.ok (), t)

def Qualifies (hash : String → String) (t : APITokens) (now : Time) (token : String)
    (scope : APIScope) : Prop :=
  ∃ r, t.find? (hash token) = some r ∧ r.revokedAt = none ∧
    (∀ e ∈ r.expiresAt, unixMilli now < e) ∧ ∃ scopes, r.scopes = some scopes ∧ scope ∈ scopes

theorem Personal.wellFormed {token : String} (h : Personal token) :
    hasPrefix token "bnk_" = true ∧ token.utf8ByteSize ≤ 128 := by
  obtain ⟨d, rfl⟩ := h
  constructor
  · simp [hasPrefix, TokenDraw.plaintext, String.toList_append]
  · have hid := d.idSize
    have hsecret := d.secretSize
    have hstart : "bnk_".utf8ByteSize = 4 := by decide
    have hline : "_".utf8ByteSize = 1 := by decide
    simp only [TokenDraw.plaintext, String.utf8ByteSize_append]
    omega

/-- `Authenticate` accepts a personal token exactly if it qualifies. -/
theorem authenticate_isOk_iff {hash : String → String} {t : APITokens} {now usedAt : Time}
    {token : String} {scope : APIScope} (h : Personal token) :
    (t.authenticate hash now usedAt token scope).1.isOk = true ↔
      Qualifies hash t now token scope := by
  obtain ⟨hstart, hsize⟩ := h.wellFormed
  unfold APITokens.authenticate Qualifies
  rw [hstart, decide_eq_false (not_lt.mpr hsize), Bool.not_true, Bool.false_or,
    if_neg Bool.false_ne_true]
  cases t.find? (hash token) with
  | none => exact ⟨nofun, fun ⟨_, h, _⟩ => (by cases h)⟩
  | some r =>
    have hexpiry : (r.expiresAt.any fun e => e ≤ unixMilli now) = false ↔
        ∀ e ∈ r.expiresAt, unixMilli now < e := by
      cases r.expiresAt with
      | none => simp
      | some e => simp
    dsimp only
    cases hdead : r.revokedAt.isSome || r.expiresAt.any fun e => decide (e ≤ unixMilli now) with
    | true =>
      refine iff_of_false Bool.false_ne_true ?_
      rintro ⟨r', hr', hlive, hfresh, -⟩
      cases hr'
      rw [hlive, hexpiry.mpr hfresh] at hdead
      cases hdead
    | false =>
      obtain ⟨hlive, hfresh⟩ := Bool.or_eq_false_iff.mp hdead
      rw [if_neg Bool.false_ne_true]
      cases hscopes : r.scopes with
      | none =>
        refine iff_of_false Bool.false_ne_true ?_
        rintro ⟨r', hr', -, -, scopes, hgrant, -⟩
        cases hr'
        rw [hscopes] at hgrant
        cases hgrant
      | some scopes =>
        have hgrants : scopes.contains scope = true ↔ scope ∈ scopes := List.contains_iff_mem
        dsimp only
        by_cases hin : scope ∈ scopes
        · rw [hgrants.mpr hin, Bool.not_true, if_neg Bool.false_ne_true]
          refine iff_of_true ?_ ⟨r, rfl, by simpa using hlive, hexpiry.mp hfresh, scopes,
            hscopes, hin⟩
          split <;> rfl
        · rw [Bool.eq_false_iff.mpr fun h => hin (hgrants.mp h), Bool.not_false, if_pos rfl]
          refine iff_of_false Bool.false_ne_true ?_
          rintro ⟨r', hr', -, -, scopes', hgrant, hmem⟩
          cases hr'
          cases hscopes.symm.trans hgrant
          exact hin hmem

end Binnacle.Auth
