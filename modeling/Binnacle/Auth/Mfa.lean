import Binnacle.Clock
import Binnacle.Text

/-!
# The second factor (`internal/auth/totp.go`)

A user enrols by `Begin` and `Confirm`: the seed of the time-based codes goes to the secret
store, ten recovery codes and the flag that MFA is on go to the database in one transaction.

- `recoveryHash`: a code is hashed in a normal form;
- `failed_confirm_keeps_iff`: what a failed call leaves as it was, and when.

The check of a time-based code, SHA-256 and base32 decoding are parameters. Sessions, which a
confirmation ends, are left out. A statement or a commit that reports an error took no effect.
-/

namespace Binnacle.Auth

abbrev Seed := List UInt8

/-- `pendingEnrollment` (totp.go:37-40). -/
structure Pending where
  seed : Seed
  expires : Time
  deriving DecidableEq

/-- What the code calls and this model leaves open. -/
structure MfaLibrary where
  verifyTOTP : Seed → String → Time → Bool
  /-- `unicode.ToUpper`. -/
  toUpper : Char → Char
  decodes : String → Bool
  /-- A SHA-256 sum in hexadecimal digits. -/
  digest : String → String

/-! ## Recovery codes -/

/-- Ten random bytes in base32 (totp.go:263-267). -/
structure Draw where
  text : List Char
  length : text.length = 16

/-- The code that the user gets (totp.go:268). -/
def Draw.code (d : Draw) : String :=
  String.ofList (d.text.take 4 ++ '-' :: (d.text.drop 4).take 4 ++ '-' :: (d.text.drop 8).take 4 ++
    '-' :: d.text.drop 12)

/-- A code without blanks and hyphens, in capitals (totp.go:274). -/
def normalized (lib : MfaLibrary) (code : String) : List Char :=
  ((trimSpace code).toList.filter fun c => c ≠ '-' && c ≠ ' ').map lib.toUpper

/-- `recoveryHash` (totp.go:273-283). -/
def recoveryHash (lib : MfaLibrary) (code : String) : String :=
  let text := String.ofList (normalized lib code)
  if text.utf8ByteSize ≠ 16 then ""
  else if lib.decodes text then lib.digest text
  else ""

/-! ## A confirmation -/

/-- A row of `recovery_codes`: its primary key and whether `used_at` is set. -/
structure CodeRow where
  hash : String
  used : Bool
  deriving DecidableEq

/-- What is stored about a user: `totp_enabled`, whether `totp_secret_key` is set, the secret under
that key, and the recovery codes. -/
structure Account where
  enabled : Bool
  secretKey : Bool
  secret : Option Seed
  codes : List CodeRow
  deriving DecidableEq

/-- A user and the enrolment that waits for a confirmation. -/
structure Mfa where
  account : Account
  pending : Option Pending

/-- The transaction of `Confirm` (totp.go:141-154): the primary key refuses a repeated hash. -/
def Account.enrol (a : Account) (hashes : List String) : Option Account :=
  if hashes.Nodup then
    some { a with enabled := true, secretKey := true, codes := hashes.map (⟨·, false⟩) }
  else none

/-- The first look at the enrolment (totp.go:106-112). -/
def Mfa.look (m : Mfa) (now : Time) : Option Pending × Mfa :=
  match m.pending with
  | some p => if now < p.expires then (some p, m) else (none, { m with pending := none })
  | none => (none, m)

/-- The check of the code and the second look, which takes the enrolment (totp.go:116-127). -/
def Mfa.claim (lib : MfaLibrary) (m : Mfa) (p : Pending) (code : String) (at_ now : Time) :
    Option Mfa :=
  match m.pending with
  | some current =>
    if lib.verifyTOTP p.seed code at_ ∧ current.seed = p.seed ∧ now < current.expires then
      some { m with pending := none }
    else none
  | none => none

/-- `SecretStore.Put` and `Delete` under the user's key. -/
def Mfa.setSecret (m : Mfa) (secret : Option Seed) : Mfa :=
  { m with account := { m.account with secret } }

/-- Where the storage, or the source of random bytes, fails. -/
inductive ConfirmFault where
  | draw
  | put
  | begin_
  | clear
  | insert (row : Nat)
  | update
  | commit
  deriving DecidableEq

inductive MfaError where
  | invalid
  | storage
  deriving DecidableEq

/-- A call of `Confirm`: the code, the three readings of the clock, the bytes drawn, the failure if
there is one, and whether the secret can be removed after it. -/
structure Confirmation where
  code : String
  lookAt : Time
  checkAt : Time
  claimAt : Time
  draws : List Draw
  fault : Option ConfirmFault
  removes : Bool

/-- `Confirm` (totp.go:105-161). -/
def confirm (lib : MfaLibrary) (m : Mfa) (c : Confirmation) :
    Except MfaError (List String) × Mfa :=
  match m.look c.lookAt with
  | (none, m) => (.error .invalid, m)
  | (some p, m) =>
    match m.claim lib p c.code c.checkAt c.claimAt with
    | none => (.error .invalid, m)
    | some m =>
      if c.fault = some .draw ∨ c.fault = some .put then (.error .storage, m)
      else
        let m := m.setSecret (some p.seed)
        match if c.fault = none then
            m.account.enrol (c.draws.map fun d => recoveryHash lib d.code) else none with
        | some account => (.ok (c.draws.map Draw.code), { m with account })
        | none => (.error .storage, if c.removes then m.setSecret none else m)

def Account.Kept (a a' : Account) : Prop :=
  a'.enabled = a.enabled ∧ a'.secret = a.secret ∧
    ∀ hash, ⟨hash, false⟩ ∈ a'.codes ↔ ⟨hash, false⟩ ∈ a.codes

def Confirmation.Stores (lib : MfaLibrary) (m : Mfa) (c : Confirmation) (p : Pending) : Prop :=
  m.pending = some p ∧ c.lookAt < p.expires ∧ lib.verifyTOTP p.seed c.code c.checkAt ∧
    c.claimAt < p.expires ∧ c.fault ≠ some .draw ∧ c.fault ≠ some .put

section Confirm

variable {lib : MfaLibrary} {m : Mfa} {c : Confirmation} {p : Pending}

theorem confirm_of_not_stores (h : ∀ p, ¬ c.Stores lib m p) :
    (confirm lib m c).2.account = m.account := by
  unfold confirm Mfa.look
  cases hpending : m.pending with
  | none => rfl
  | some p =>
    have hp := h p
    unfold Confirmation.Stores at hp
    unfold Mfa.claim
    grind

theorem confirm_of_stores (h : c.Stores lib m p) (herror : (confirm lib m c).1.isOk = false) :
    (confirm lib m c).2.account =
      { m.account with secret := if c.removes then none else some p.seed } := by
  obtain ⟨hpending, hlook, hcode, hclaim, hdraw, hput⟩ := h
  have hlook' : m.look c.lookAt = (some p, m) := by
    unfold Mfa.look
    rw [hpending]
    exact if_pos hlook
  have hclaim' : m.claim lib p c.code c.checkAt c.claimAt = some { m with pending := none } := by
    unfold Mfa.claim
    rw [hpending]
    exact if_pos ⟨hcode, rfl, hclaim⟩
  unfold confirm at herror ⊢
  rw [hlook'] at herror ⊢
  dsimp only at herror ⊢
  rw [hclaim'] at herror ⊢
  dsimp only at herror ⊢
  rw [if_neg (not_or.mpr ⟨hdraw, hput⟩)] at herror ⊢
  split at herror
  · cases herror
  · cases c.removes <;> rfl

end Confirm

/-- A failed confirmation keeps the second factor as it was exactly if it fails before it stores
the seed, or if what it does about the stored secret comes to nothing: there was none and the new
one is removed, or the seed was stored already and stays. -/
theorem failed_confirm_keeps_iff (lib : MfaLibrary) (m : Mfa) (c : Confirmation)
    (herror : (confirm lib m c).1.isOk = false) :
    m.account.Kept (confirm lib m c).2.account ↔
      ∀ p, c.Stores lib m p →
        m.account.secret = if c.removes then none else some p.seed := by
  by_cases h : ∃ p, c.Stores lib m p
  · obtain ⟨p, hp⟩ := h
    rw [confirm_of_stores hp herror]
    unfold Account.Kept
    refine ⟨fun ⟨_, hsecret, _⟩ p' hp' => ?_, fun hall => ⟨rfl, (hall p hp).symm, fun _ => Iff.rfl⟩⟩
    rw [← Option.some_inj.mp (hp.1.symm.trans hp'.1)]
    exact hsecret.symm
  · have hnone := not_exists.mp h
    rw [confirm_of_not_stores hnone]
    exact iff_of_true ⟨rfl, rfl, fun _ => Iff.rfl⟩ fun p hp => absurd hp (hnone p)

def openLibrary : MfaLibrary := ⟨fun _ _ _ => true, id, fun _ => true, id⟩

/-- A first enrolment whose transaction cannot be committed. -/
theorem failed_confirm_keeps_first :
    (⟨false, false, none, []⟩ : Account).Kept (confirm openLibrary
      ⟨⟨false, false, none, []⟩, some ⟨[1], 600⟩⟩
        ⟨"123456", 1, 1, 1, [], some .commit, true⟩).2.account
      :=
  (failed_confirm_keeps_iff openLibrary ⟨⟨false, false, none, []⟩, some ⟨[1], 600⟩⟩
    ⟨"123456", 1, 1, 1, [], some .commit, true⟩ (by decide)).mpr fun _ _ => rfl

/-- A second enrolment whose transaction cannot be committed: MFA stays on, without a secret. -/
theorem failed_confirm_loses_secret :
    (confirm openLibrary ⟨⟨true, true, some [7], [⟨"h", false⟩]⟩, some ⟨[1], 600⟩⟩
        ⟨"123456", 1, 1, 1, [], some .commit, true⟩).1 = .error .storage ∧
      ¬ (⟨true, true, some [7], [⟨"h", false⟩]⟩ : Account).Kept (confirm openLibrary
        ⟨⟨true, true, some [7], [⟨"h", false⟩]⟩, some ⟨[1], 600⟩⟩
        ⟨"123456", 1, 1, 1, [], some .commit, true⟩).2.account := by
  refine ⟨by decide, ?_⟩
  rintro ⟨-, hsecret, -⟩
  revert hsecret
  decide

end Binnacle.Auth
