import Binnacle.Clock
import Binnacle.Netip
import Binnacle.Relational.Table
import Binnacle.Text

/-!
# First-run setup

Model of `internal/auth/setup.go` and of `CreateAdmin` in `internal/auth/users.go`:
two ways to create the administrator, and an operation that closes setup, on the
tables `users` (004_telemetry.sql) and `setup_state` (008_setup_state.sql).

- `Claim` and `CreateAdmin` are transactions, so one step each; `Disable` and
  `Verify` are one statement. `Initialize` takes no transaction: its three
  statements are separate steps, of any number of calls at once.
- `Bootstrap.step`: any of these at any time of any clock.
- `setup_admits_one`: what holds in every interleaving from an empty database;
- `configured_token_admitted_iff`: when the operator's token is the one that passes.

The hashes, the drawn values and the library's text functions are parameters. A
password is a text here, so the source's check that its bytes are UTF-8 always
passes.
-/

namespace Binnacle.Auth

open Relational

/-! ## Rows and library functions -/

/-- A row of `users`. -/
structure UserRow where
  id : String
  username : String
  passwordHash : String
  createdAt : Int
  updatedAt : Int

/-- The row of `setup_state`. -/
structure SetupRow where
  tokenHash : Option String
  expiresAt : Option Int
  claimedAt : Option Int
  createdAt : Int

/-- The two tables. The check `id = 1` leaves `setup_state` at most one row. -/
structure SetupDb where
  users : Table UserRow.id
  setup : Option SetupRow

/-- `User` (users.go:19-23). -/
structure User where
  id : String
  username : String
  createdAt : Time

inductive SetupError where
  /-- `ErrSetupUnavailable`. -/
  | unavailable
  /-- `ErrSetupToken`. -/
  | token
  /-- `ErrAdminExists`. -/
  | adminExists
  /-- A formatted error. -/
  | message (text : String)
  | constraint
  deriving DecidableEq

/-- What the code calls and this model leaves open. -/
structure SetupLibrary where
  toLower : String → String
  setupHash : String → String
  passwordHash : String → String → String
  splitHostPort : String → Option (String × String)
  parseIP : String → Option Netip.Addr

structure Draws where
  id : String
  salt : String
  deriving DecidableEq

/-! ## Names and passwords -/

/-- The loop of `ValidateUsername` (password.go:29-37); `first` at the first rune. -/
def checkRunes (first : Bool) : List Char → Except SetupError Unit
  | [] => .ok ()
  | r :: rs =>
    if ('a' ≤ r ∧ r ≤ 'z') ∨ ('0' ≤ r ∧ r ≤ '9') ∨ r = '.' ∨ r = '_' ∨ r = '-' then
      if first ∧ ¬ ('a' ≤ r ∧ r ≤ 'z') then .error (.message "username must start with a letter")
      else checkRunes false rs
    else .error (.message "username contains unsupported characters")

/-- `ValidateUsername` (password.go:24-39). -/
def validateUsername (lib : SetupLibrary) (username : String) : Except SetupError String :=
  let username := lib.toLower (trimSpace username)
  if username.utf8ByteSize < 3 ∨ username.utf8ByteSize > 32 then
    .error (.message "username must be 3 to 32 characters")
  else (checkRunes true username.toList).map fun _ => username

/-- `ValidatePassword` (password.go:41-49). -/
def validatePassword (password : String) : Except SetupError Unit :=
  if password.utf8ByteSize > 1024 then .error (.message "password is invalid")
  else if password.length < 12 ∨ password.length > 128 then
    .error (.message "password must be 12 to 128 characters")
  else .ok ()

/-- `HashPassword` (password.go:63-75). -/
def hashPassword (lib : SetupLibrary) (salt password : String) : Except SetupError String :=
  (validatePassword password).map fun _ => lib.passwordHash salt password

/-! ## The operations -/

/-- `BeginTx`, the body on a copy, and `Commit`; on an error the copy is dropped. -/
def transaction {α : Type} (body : SetupDb → Except SetupError (α × SetupDb)) (db : SetupDb) :
    Except SetupError α × SetupDb :=
  match body db with
  | .ok (a, db') => (.ok a, db')
  | .error e => (.error e, db)

/-- `INSERT INTO users`: refused when the id or the username is taken. -/
def insertUser (db : SetupDb) (row : UserRow) : Option SetupDb :=
  if db.users.rows.any fun r => r.username = row.username then none
  else (db.users.insert row).map fun users => { db with users }

def userRow (id username hash : String) (now : Time) : UserRow where
  id := id
  username := username
  passwordHash := hash
  createdAt := unixMilli now
  updatedAt := unixMilli now

/-- The token check of `Verify` and `Claim` (setup.go:121, 151) on
`COALESCE(token_hash,'')`, `COALESCE(expires_at,0)`, `claimed_at`. -/
def SetupRow.admits (lib : SetupLibrary) (now : Time) (token : String) (row : SetupRow) : Bool :=
  let expected := row.tokenHash.getD ""
  !(expected = "" || row.claimedAt.isSome || unixMilli now ≥ row.expiresAt.getD 0 ||
    expected ≠ lib.setupHash token)

/-- `Verify` (setup.go:111-125). -/
def verify (lib : SetupLibrary) (now : Time) (token : String) (db : SetupDb) :
    Except SetupError Unit :=
  match db.setup with
  | none => .error .unavailable
  | some row => if row.admits lib now token then .ok () else .error .token

/-- The transaction of `Claim` (setup.go:144-175). -/
def claimBody (lib : SetupLibrary) (now : Time) (id token username hash : String) (db : SetupDb) :
    Except SetupError (User × SetupDb) :=
  match db.setup with
  | none => .error .unavailable
  | some row =>
    if !row.admits lib now token then .error .token
    else if db.users.rows.length ≠ 0 then .error .adminExists
    else
      match insertUser db (userRow id username hash now) with
      | none => .error .constraint
      | some db =>
        -- `UPDATE … WHERE id=1 AND claimed_at IS NULL`, which has to affect the row
        match db.setup with
        | none => .error .unavailable
        | some row =>
          if row.claimedAt.isSome then .error .unavailable
          else
            .ok (⟨id, username, now⟩,
              { db with
                setup := some { row with claimedAt := some (unixMilli now), tokenHash := none } })

/-- `Claim` (setup.go:127-180). -/
def claim (lib : SetupLibrary) (now : Time) (draws : Draws) (token username password : String)
    (db : SetupDb) : Except SetupError User × SetupDb :=
  match validateUsername lib username with
  | .error e => (.error e, db)
  | .ok username =>
    match validatePassword password with
    | .error e => (.error e, db)
    | .ok () =>
      match hashPassword lib draws.salt password with
      | .error e => (.error e, db)
      | .ok hash => transaction (claimBody lib now draws.id token username hash) db

/-- The transaction of `CreateAdmin` (users.go:47-64). -/
def createAdminBody (now : Time) (id username hash : String) (db : SetupDb) :
    Except SetupError (User × SetupDb) :=
  if db.users.rows.length ≠ 0 then .error .adminExists
  else
    match insertUser db (userRow id username hash now) with
    | none => .error .adminExists
    | some db => .ok (⟨id, username, now⟩, db)

/-- `CreateAdmin` (users.go:30-69). -/
def createAdmin (lib : SetupLibrary) (now : Time) (draws : Draws) (username password : String)
    (db : SetupDb) : Except SetupError User × SetupDb :=
  match validateUsername lib username with
  | .error e => (.error e, db)
  | .ok username =>
    match hashPassword lib draws.salt password with
    | .error e => (.error e, db)
    | .ok hash => transaction (createAdminBody now draws.id username hash) db

/-- `Disable` (setup.go:43-51): one upsert. -/
def disable (now : Time) (db : SetupDb) : SetupDb :=
  let ms := unixMilli now
  { db with
    setup := some
      (match db.setup with
      | none => { tokenHash := none, expiresAt := none, claimedAt := some ms, createdAt := ms }
      | some row => { row with tokenHash := none, claimedAt := some (row.claimedAt.getD ms) }) }

/-- `tokenTTL` (setup.go:30). -/
def tokenTTL : Duration := 24 * hour

/-- A call of `Initialize` (setup.go:55-96) between its statements. The result is
the generated token and the error. -/
inductive Initialization where
  /-- Before `SELECT COUNT(*) FROM users`. -/
  | counting (listenAddress configuredToken : String)
  /-- Before `SELECT claimed_at FROM setup_state`. -/
  | looking (listenAddress configuredToken : String)
  /-- Before `INSERT INTO setup_state`. -/
  | inserting (token generated : String)
  | returned (generated : String) (error : Option SetupError)
  deriving DecidableEq

/-- `publicListener` (setup.go:182-193). -/
def publicListener (lib : SetupLibrary) (address : String) : Bool :=
  match lib.splitHostPort address with
  | none => true
  | some (host, _) =>
    let host := String.ofList (trim (fun c => c = '[' || c = ']') host.toList)
    if host = "localhost" then false
    else
      match lib.parseIP host with
      | none => true
      | some ip => !ip.isLoopback

/-- The choice of the token (setup.go:77-92); `drawn` is what `randomSetupToken` would
return. -/
def chooseToken (lib : SetupLibrary) (drawn listenAddress configuredToken : String) :
    Initialization :=
  let token := trimSpace configuredToken
  let settle (token generated : String) : Initialization :=
    if token.utf8ByteSize < 32 then
      .returned "" (some (.message "setup token must be at least 32 characters"))
    else .inserting token generated
  if token = "" then
    if publicListener lib listenAddress then
      .returned "" (some (.message "public setup requires BINNACLE_SETUP_TOKEN"))
    else settle drawn drawn
  else settle token ""

/-- The next statement of a call of `Initialize`. -/
def Initialization.advance (lib : SetupLibrary) (now : Time) (drawn : String) (db : SetupDb) :
    Initialization → Initialization × SetupDb
  | counting listenAddress configuredToken =>
    if db.users.rows.length > 0 then (.returned "" none, db)
    else (.looking listenAddress configuredToken, db)
  | looking listenAddress configuredToken =>
    match db.setup with
    | some _ => (.returned "" none, db)
    | none => (chooseToken lib drawn listenAddress configuredToken, db)
  | inserting token generated =>
    match db.setup with
    | some _ => (.returned generated (some .constraint), db)
    | none =>
      (.returned generated none,
        { db with
          setup := some
            { tokenHash := some (lib.setupHash token)
              expiresAt := some (unixMilli (now + tokenTTL))
              claimedAt := none
              createdAt := unixMilli now } })
  | returned generated error => (.returned generated error, db)

/-! ## Interleavings -/

/-- The tables and the calls of `Initialize` that were made. -/
structure Bootstrap where
  db : SetupDb
  calls : List Initialization

inductive SetupMove where
  /-- A call of `Initialize` begins. -/
  | begin_ (listenAddress configuredToken : String)
  /-- The next statement of the `i`-th call of `Initialize`. -/
  | advance (i : Nat) (now : Time) (drawn : String)
  | disable (now : Time)
  | verify (now : Time) (token : String)
  | claim (now : Time) (draws : Draws) (token username password : String)
  | createAdmin (now : Time) (draws : Draws) (username password : String)

def Bootstrap.step (lib : SetupLibrary) (s : Bootstrap) : SetupMove → Bootstrap
  | .begin_ listenAddress configuredToken =>
    { s with calls := s.calls ++ [.counting listenAddress configuredToken] }
  | .advance i now drawn =>
    match s.calls[i]? with
    | none => s
    | some call =>
      let (call, db) := call.advance lib now drawn s.db
      ⟨db, s.calls.set i call⟩
  | .disable now => { s with db := Auth.disable now s.db }
  | .verify _ _ => s
  | .claim now draws token username password =>
    { s with db := (Auth.claim lib now draws token username password s.db).2 }
  | .createAdmin now draws username password =>
    { s with db := (Auth.createAdmin lib now draws username password s.db).2 }

def Bootstrap.init : Bootstrap := ⟨⟨Table.empty, none⟩, []⟩

/-- The move is a `Disable`, or a `Claim` that succeeds. -/
def SetupMove.Closes (lib : SetupLibrary) (db : SetupDb) : SetupMove → Prop
  | .disable _ => True
  | .claim now draws token username password =>
    (Auth.claim lib now draws token username password db).1.isOk = true
  | _ => False

/-! ## What a statement or transaction can do -/

def SetupDb.Shut (db : SetupDb) : Prop :=
  ∃ row, db.setup = some row ∧ row.tokenHash = none ∧ row.claimedAt.isSome = true

/-- How the tables change: a user is only added to an empty table, and the row of
`setup_state` is written where there was none, or to close setup. -/
structure SetupDb.Evolves (db db' : SetupDb) : Prop where
  users : db'.users = db.users ∨ db.users.rows = [] ∧ db'.users.rows.length = 1
  setup : db'.setup = db.setup ∨ db.setup = none ∨ db'.Shut

theorem SetupDb.Evolves.refl (db : SetupDb) : db.Evolves db := ⟨.inl rfl, .inl rfl⟩

section Operations

variable {lib : SetupLibrary} {now : Time} {db db' : SetupDb}

theorem insertUser_eq_some {row : UserRow} (h : insertUser db row = some db') :
    db'.users.rows = db.users.rows ++ [row] ∧ db'.setup = db.setup := by
  unfold insertUser at h
  split_ifs at h
  obtain ⟨users, husers, rfl⟩ := Option.map_eq_some_iff.mp h
  exact ⟨(Table.insert_eq_some husers).2, rfl⟩

theorem SetupRow.admits_iff {row : SetupRow} {token : String} :
    row.admits lib now token = true ↔
      row.tokenHash = some (lib.setupHash token) ∧ lib.setupHash token ≠ "" ∧
        row.claimedAt = none ∧ unixMilli now < row.expiresAt.getD 0 := by
  unfold SetupRow.admits
  cases htoken : row.tokenHash with
  | none => simp
  | some expected =>
    simp only [Option.getD_some, Bool.not_eq_true', Bool.or_eq_false_iff, decide_eq_false_iff_not,
      Option.isSome_eq_false_iff, Option.isNone_iff_eq_none, not_le, not_not, Option.some.injEq,
      ge_iff_le]
    constructor
    · rintro ⟨⟨⟨hne, hunclaimed⟩, hexpires⟩, rfl⟩
      exact ⟨rfl, hne, hunclaimed, hexpires⟩
    · rintro ⟨rfl, hne, hunclaimed, hexpires⟩
      exact ⟨⟨⟨hne, hunclaimed⟩, hexpires⟩, rfl⟩

/-- What a `Claim` that commits found, and what it leaves. -/
theorem claimBody_eq_ok {id token username hash : String} {user : User}
    (h : claimBody lib now id token username hash db = .ok (user, db')) :
    ∃ row, db.setup = some row ∧ row.admits lib now token = true ∧ db.users.rows = [] ∧
      db'.users.rows.length = 1 ∧ db'.Shut := by
  unfold claimBody at h
  split at h
  · cases h
  · next row hrow =>
    split at h
    · cases h
    · next hadmits =>
      split at h
      · cases h
      · next hnone =>
        split at h
        · cases h
        · next db₁ hinsert =>
          obtain ⟨husers, hsetup⟩ := insertUser_eq_some hinsert
          have hempty : db.users.rows = [] := List.eq_nil_of_length_eq_zero (not_not.mp hnone)
          rw [hsetup, hrow] at h
          dsimp only at h
          split_ifs at h
          cases h
          refine ⟨row, hrow, by simpa using hadmits, hempty, ?_, _, rfl, rfl, rfl⟩
          rw [husers, hempty]
          rfl

/-- `Claim` fails and leaves the tables, or its transaction commits. -/
theorem claim_cases (lib : SetupLibrary) (now : Time) (draws : Draws)
    (token username password : String) (db : SetupDb) :
    (∃ e, claim lib now draws token username password db = (.error e, db)) ∨
      ∃ user db' row, claim lib now draws token username password db = (.ok user, db') ∧
        db.setup = some row ∧ row.admits lib now token = true ∧ db.users.rows = [] ∧
        db'.users.rows.length = 1 ∧ db'.Shut := by
  unfold claim
  split
  · next e _ => exact .inl ⟨e, rfl⟩
  · next name _ =>
    split
    · next e _ => exact .inl ⟨e, rfl⟩
    · split
      · next e _ => exact .inl ⟨e, rfl⟩
      · next hash _ =>
        unfold transaction
        cases hbody : claimBody lib now draws.id token name hash db with
        | error e => exact .inl ⟨e, rfl⟩
        | ok p =>
          obtain ⟨row, hcommits⟩ := claimBody_eq_ok hbody
          exact .inr ⟨p.1, p.2, row, rfl, hcommits⟩

theorem claim_evolves (lib : SetupLibrary) (now : Time) (draws : Draws)
    (token username password : String) (db : SetupDb) :
    db.Evolves (claim lib now draws token username password db).2 := by
  rcases claim_cases lib now draws token username password db with
    ⟨e, he⟩ | ⟨user, db', row, hclaim, -, -, hempty, hone, hshut⟩
  · rw [he]
    exact .refl db
  · rw [hclaim]
    exact ⟨.inr ⟨hempty, hone⟩, .inr (.inr hshut)⟩

theorem createAdmin_evolves (lib : SetupLibrary) (now : Time) (draws : Draws)
    (username password : String) (db : SetupDb) :
    db.Evolves (createAdmin lib now draws username password db).2 := by
  unfold createAdmin
  split
  · exact .refl db
  · split
    · exact .refl db
    · unfold transaction createAdminBody
      by_cases hnone : db.users.rows.length = 0
      · rw [if_neg (not_not.mpr hnone)]
        split
        · next p db' heq =>
          split at heq
          · cases heq
          · next db₁ hinsert =>
            cases heq
            obtain ⟨husers, hsetup⟩ := insertUser_eq_some hinsert
            have hempty := List.eq_nil_of_length_eq_zero hnone
            refine ⟨.inr ⟨hempty, ?_⟩, .inl hsetup⟩
            rw [husers, hempty]
            rfl
        · exact .refl db
      · rw [if_pos hnone]
        exact .refl db

theorem disable_shut (now : Time) (db : SetupDb) : (disable now db).Shut := by
  unfold disable
  cases db.setup with
  | none | some row => exact ⟨_, rfl, rfl, rfl⟩

theorem advance_evolves (drawn : String) (call : Initialization) :
    db.Evolves (call.advance lib now drawn db).2 := by
  cases call with
  | counting listenAddress configuredToken | looking listenAddress configuredToken =>
    dsimp only [Initialization.advance]
    split
    · exact .refl db
    · exact .refl db
  | inserting token generated =>
    dsimp only [Initialization.advance]
    split
    · exact .refl db
    · next hnone => exact ⟨.inl rfl, .inr (.inl hnone)⟩
  | returned generated error => exact .refl db

theorem step_evolves (s : Bootstrap) (move : SetupMove) :
    s.db.Evolves (s.step lib move).db := by
  cases move with
  | begin_ listenAddress configuredToken => exact .refl s.db
  | advance i now drawn =>
    unfold Bootstrap.step
    dsimp only
    split
    · exact .refl s.db
    · next call _ => exact advance_evolves drawn call
  | disable now => exact ⟨.inl rfl, .inr (.inr (disable_shut now s.db))⟩
  | verify now token => exact .refl s.db
  | claim now draws token username password => exact claim_evolves ..
  | createAdmin now draws username password => exact createAdmin_evolves ..

theorem SetupDb.Evolves.shut (h : db.Evolves db') (hshut : db.Shut) : db'.Shut := by
  obtain ⟨row, hrow, hclosed⟩ := hshut
  rcases h.setup with hsame | hnone | hshut
  · exact ⟨row, hsame.trans hrow, hclosed⟩
  · rw [hrow] at hnone
    cases hnone
  · exact hshut

theorem SetupDb.Evolves.length_le_one (h : db.Evolves db') (hone : db.users.rows.length ≤ 1) :
    db'.users.rows.length ≤ 1 := by
  rcases h.users with hsame | ⟨-, hadded⟩
  · rw [hsame]
    exact hone
  · exact hadded.le

theorem SetupDb.Shut.not_admits (h : db.Shut) {row : SetupRow} (hrow : db.setup = some row)
    (now : Time) (token : String) : row.admits lib now token = false := by
  obtain ⟨row', hrow', -, hclaimed⟩ := h
  cases hrow.symm.trans hrow'
  refine Bool.eq_false_iff.mpr fun hadmits => ?_
  rw [(SetupRow.admits_iff.mp hadmits).2.2.1] at hclaimed
  cases hclaimed

theorem SetupDb.Shut.verify (h : db.Shut) (now : Time) (token : String) :
    (Auth.verify lib now token db).isOk = false := by
  unfold Auth.verify
  split
  · rfl
  · next row hrow =>
    rw [h.not_admits hrow, if_neg Bool.false_ne_true]
    rfl

theorem SetupDb.Shut.claim (h : db.Shut) (now : Time) (draws : Draws)
    (token username password : String) :
    (Auth.claim lib now draws token username password db).1.isOk = false := by
  rcases claim_cases lib now draws token username password db with
    ⟨e, he⟩ | ⟨user, db', row, -, hrow, hadmits, -⟩
  · rw [he]
    rfl
  · rw [h.not_admits hrow] at hadmits
    cases hadmits

/-- After a `Disable` or a successful `Claim` setup is closed. -/
theorem SetupMove.Closes.shut {s : Bootstrap} {move : SetupMove} (h : move.Closes lib s.db) :
    (s.step lib move).db.Shut := by
  cases move with
  | disable now => exact disable_shut now s.db
  | claim now draws token username password =>
    rcases claim_cases lib now draws token username password s.db with
      ⟨e, he⟩ | ⟨user, db', row, hclaim, -, -, -, -, hshut⟩
    · have hok : (Auth.claim lib now draws token username password s.db).1.isOk = true := h
      rw [he] at hok
      cases hok
    · show (Auth.claim lib now draws token username password s.db).2.Shut
      rw [hclaim]
      exact hshut
  | begin_ listenAddress configuredToken => exact h.elim
  | advance i now drawn => exact h.elim
  | verify now token => exact h.elim
  | createAdmin now draws username password => exact h.elim

end Operations

/-! ## Every interleaving -/

/-- In every interleaving from an empty database there is at most one user; a `Claim`
adds one only if its token's hash is stored, unclaimed and unexpired; a `Claim` that
fails leaves the tables; and after a `Disable` or a successful `Claim`, whatever comes
next, every `Verify` and every `Claim` fails. -/
theorem setup_admits_one (lib : SetupLibrary) (moves : List SetupMove) :
    let s := moves.foldl (Bootstrap.step lib) Bootstrap.init
    s.db.users.rows.length ≤ 1 ∧
    (∀ now draws token username password,
      (claim lib now draws token username password s.db).2.users.rows ≠ s.db.users.rows →
      ∃ row, s.db.setup = some row ∧ row.tokenHash = some (lib.setupHash token) ∧
        row.claimedAt = none ∧ unixMilli now < row.expiresAt.getD 0) ∧
    (∀ now draws token username password e,
      (claim lib now draws token username password s.db).1 = .error e →
      (claim lib now draws token username password s.db).2 = s.db) ∧
    ∀ move, move.Closes lib s.db → ∀ later : List SetupMove,
      let s' := later.foldl (Bootstrap.step lib) (s.step lib move)
      (∀ now token, (verify lib now token s'.db).isOk = false) ∧
      ∀ now draws token username password,
        (claim lib now draws token username password s'.db).1.isOk = false := by
  intro s
  refine ⟨?_, ?_, ?_, ?_⟩
  · exact List.foldlRecOn (motive := fun s : Bootstrap => s.db.users.rows.length ≤ 1) moves _
      (Nat.zero_le 1) fun s h move _ => (step_evolves s move).length_le_one h
  · intro now draws token username password hadded
    rcases claim_cases lib now draws token username password s.db with
      ⟨e, he⟩ | ⟨user, db', row, -, hrow, hadmits, -⟩
    · rw [he] at hadded
      exact absurd rfl hadded
    · obtain ⟨hhash, -, hunclaimed, hexpires⟩ := SetupRow.admits_iff.mp hadmits
      exact ⟨row, hrow, hhash, hunclaimed, hexpires⟩
  · intro now draws token username password e herror
    rcases claim_cases lib now draws token username password s.db with
      ⟨e, he⟩ | ⟨user, db', row, hclaim, -⟩
    · rw [he]
    · rw [hclaim] at herror
      cases herror
  · intro move hcloses later
    have hshut : (later.foldl (Bootstrap.step lib) (s.step lib move)).db.Shut :=
      List.foldlRecOn (motive := fun s : Bootstrap => s.db.Shut) later _ hcloses.shut
        fun s h move _ => (step_evolves s move).shut h
    exact ⟨hshut.verify, hshut.claim⟩

/-! ## The operator's token -/

/-- The three statements of a call of `Initialize`, one after the other. -/
def Initialization.run (lib : SetupLibrary) (now : Time) (drawn : String) (db : SetupDb)
    (call : Initialization) : Initialization × SetupDb :=
  let (call, db) := call.advance lib now drawn db
  let (call, db) := call.advance lib now drawn db
  call.advance lib now drawn db

/-- For the lifetime of a token from `now` on, exactly this one passes. -/
def Admitted (lib : SetupLibrary) (now : Time) (token : String) (db : SetupDb) : Prop :=
  ∀ t, now ≤ t → unixMilli t < unixMilli (now + tokenTTL) →
    ∀ text, (verify lib t text db).isOk = true ↔ text = token

section Token

variable {lib : SetupLibrary} {now : Time} {db : SetupDb} {token : String}

theorem verify_isOk_iff {t : Time} {text : String} {row : SetupRow} (hrow : db.setup = some row) :
    (verify lib t text db).isOk = true ↔ row.admits lib t text = true := by
  unfold verify
  rw [hrow]
  dsimp only
  split
  · next h => exact iff_of_true rfl h
  · next h => exact iff_of_false Bool.false_ne_true h

theorem admitted_iff (hhash : Function.Injective lib.setupHash) (hsome : ∀ t, lib.setupHash t ≠ "")
    {row : SetupRow} (hrow : db.setup = some row) (hopen : row.claimedAt = none) :
    Admitted lib now token db ↔ row.tokenHash = some (lib.setupHash token) ∧
      unixMilli (now + tokenTTL) ≤ row.expiresAt.getD 0 := by
  have hlast : now ≤ ofUnixMilli (unixMilli (now + tokenTTL) - 1) := by
    have hms : ∀ n : Int, n ≤ ((n + 86400000000000) / 1000000 - 1) * 1000000 := by
      intro n
      omega
    exact hms now
  constructor
  · intro h
    have hpasses := (verify_isOk_iff hrow).mp ((h _ hlast ?_ token).mpr rfl)
    · obtain ⟨htoken, -, -, hexpires⟩ := SetupRow.admits_iff.mp hpasses
      rw [unixMilli_ofUnixMilli] at hexpires
      exact ⟨htoken, by omega⟩
    · rw [unixMilli_ofUnixMilli]
      omega
  · rintro ⟨htoken, hexpires⟩ t _ hlife text
    rw [verify_isOk_iff hrow, SetupRow.admits_iff, htoken, Option.some.injEq]
    constructor
    · rintro ⟨hsame, -⟩
      exact hhash hsame.symm
    · rintro rfl
      exact ⟨rfl, hsome _, hopen, hlife.trans_le hexpires⟩

/-- With no user, an open setup and a token that is not blank, an `Initialize` that returns
without error leaves the row it finds, or writes one for the token without its blanks. -/
theorem initialization_run (husers : db.users.rows = []) (htoken : trimSpace token ≠ "")
    {listenAddress drawn generated : String}
    (hrun : ((Initialization.counting listenAddress token).run lib now drawn db).1 =
      .returned generated none) :
    ((Initialization.counting listenAddress token).run lib now drawn db).2.setup =
      some (db.setup.getD ⟨some (lib.setupHash (trimSpace token)),
        some (unixMilli (now + tokenTTL)), none, unixMilli now⟩) := by
  unfold Initialization.run at hrun ⊢
  simp only [Initialization.advance, husers, List.length_nil, gt_iff_lt, Nat.lt_irrefl,
    if_false] at hrun ⊢
  cases hsetup : db.setup with
  | some row =>
    simp only [hsetup]
    rfl
  | none =>
    simp only [hsetup, chooseToken, if_neg htoken] at hrun ⊢
    by_cases hshort : (trimSpace token).utf8ByteSize < 32
    · simp only [if_pos hshort] at hrun
      cases hrun
    · simp only [if_neg hshort]
      rfl

/-- Once `Initialize` returned without error for a configured token, exactly that token passes
for its lifetime if and only if nothing was set up before and the token has no blanks around
it, or the row of an earlier call holds its hash and expires no sooner. -/
theorem configured_token_admitted_iff (hhash : Function.Injective lib.setupHash)
    (hsome : ∀ t, lib.setupHash t ≠ "") (husers : db.users.rows = [])
    (hopen : ∀ row, db.setup = some row → row.claimedAt = none)
    (htoken : trimSpace token ≠ "") {listenAddress drawn generated : String}
    (hrun : ((Initialization.counting listenAddress token).run lib now drawn db).1 =
      .returned generated none) :
    Admitted lib now token ((Initialization.counting listenAddress token).run lib now drawn db).2 ↔
      match db.setup with
      | none => trimSpace token = token
      | some row => row.tokenHash = some (lib.setupHash token) ∧
          unixMilli (now + tokenTTL) ≤ row.expiresAt.getD 0 := by
  have hrow := initialization_run husers htoken hrun
  cases hsetup : db.setup with
  | none =>
    rw [hsetup, Option.getD_none] at hrow
    rw [admitted_iff hhash hsome hrow rfl, Option.some.injEq, hhash.eq_iff]
    exact and_iff_left le_rfl
  | some row =>
    rw [hsetup, Option.getD_some] at hrow
    exact admitted_iff hhash hsome hrow (hopen row hsetup)

end Token

def plainLibrary : SetupLibrary where
  toLower text := text
  setupHash token := token
  passwordHash _ password := password
  splitHostPort _ := none
  parseIP _ := none

/-- `plainLibrary` with a hash that is never empty. -/
def hexLibrary : SetupLibrary := { plainLibrary with setupHash := ("#" ++ ·) }

/-- A token is set up, verified and claimed, and then does not pass again. -/
theorem setup_admits_one_claimed :
    let token := "0123456789abcdef0123456789abcdef"
    let moves : List SetupMove :=
      [.begin_ "0.0.0.0:8080" token, .advance 0 0 "", .advance 0 0 "", .advance 0 0 ""]
    let s := moves.foldl (Bootstrap.step plainLibrary) Bootstrap.init
    let claiming : SetupMove := .claim 0 ⟨"usr_1", "salt"⟩ token "admin" "correct horse battery"
    (verify plainLibrary 0 token s.db).isOk = true ∧ claiming.Closes plainLibrary s.db ∧
      (verify plainLibrary 0 token (s.step plainLibrary claiming).db).isOk = false := by
  intro token moves s claiming
  have hcloses : claiming.Closes plainLibrary s.db :=
    show (claim plainLibrary 0 ⟨"usr_1", "salt"⟩ token "admin" "correct horse battery"
      s.db).1.isOk = true by decide +kernel
  obtain ⟨-, -, -, hshut⟩ := setup_admits_one plainLibrary moves
  exact ⟨by decide +kernel, hcloses, (hshut claiming hcloses []).1 0 token⟩

/-- The token of a first call passes for its lifetime. -/
theorem configured_token_admitted_first :
    let token := "0123456789abcdef0123456789abcdef"
    Admitted hexLibrary 0 token
      ((Initialization.counting "0.0.0.0:8080" token).run hexLibrary 0 "" ⟨.empty, none⟩).2 :=
  (configured_token_admitted_iff (fun a b h => (String.append_right_inj "#").mp h)
    (fun t h => by simp [hexLibrary] at h) rfl (fun row h => by cases h) (by decide) rfl).mpr rfl

/-- A token is set up and expires unused. The operator configures another one: `Initialize`
returns without error, and the new token does not pass. -/
theorem second_token_rejected :
    let first := "0123456789abcdef0123456789abcdef"
    let second := "fedcba9876543210fedcba9876543210"
    let later := 30 * tokenTTL
    let db := ((Initialization.counting "0.0.0.0:8080" first).run hexLibrary 0 "" ⟨.empty, none⟩).2
    let (call, db) := (Initialization.counting "0.0.0.0:8080" second).run hexLibrary later "" db
    call = .returned "" none ∧ db.users.rows = [] ∧
      (verify hexLibrary later second db).isOk = false := by
  decide +kernel

end Binnacle.Auth
