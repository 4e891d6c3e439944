/- PredictionMarket/Gateway/Users
   digest: The users table, registration, login and refresh, and the check in front of an endpoint. -/

import PredictionMarket.Gateway.Tokens
import PredictionMarket.Library.Run
import PredictionMarket.Store.Rows

set_option autoImplicit false
set_option relaxedAutoImplicit false

namespace PredictionMarket

open Library

structure UserModel where
  id : Uuid
  username : String
  email : String
  passwordHash : String
  isActive : Bool
  deriving DecidableEq

/-- The CHECK of the table, and the lengths of its columns. -/
def UserModel.Check (u : UserModel) : Prop :=
  3 ≤ u.username.length ∧ u.username.length ≤ 64 ∧ u.email.length ≤ 255 ∧
    u.passwordHash.length ≤ 255

instance : DecidablePred UserModel.Check := fun u =>
  inferInstanceAs (Decidable (3 ≤ u.username.length ∧ u.username.length ≤ 64 ∧
    u.email.length ≤ 255 ∧ u.passwordHash.length ≤ 255))

def UserModel.setActive (u : UserModel) (isActive : Bool) : UserModel :=
  { u with isActive := isActive }

/-- The users with the constraints of their table: a primary key and two UNIQUE columns. -/
structure UsersTable where
  rows : List UserModel
  ids : (rows.map UserModel.id).Nodup
  usernames : (rows.map UserModel.username).Nodup
  emails : (rows.map UserModel.email).Nodup
  valid : ∀ u ∈ rows, u.Check

namespace UsersTable

def empty : UsersTable := ⟨[], by simp, by simp, by simp, by simp⟩

def byId (t : UsersTable) (id : Uuid) : Option UserModel := t.rows.find? (fun u => u.id = id)

def byUsername (t : UsersTable) (username : String) : Option UserModel :=
  t.rows.find? (fun u => u.username = username)

def byEmail (t : UsersTable) (email : String) : Option UserModel :=
  t.rows.find? (fun u => u.email = email)

def Admits (t : UsersTable) (u : UserModel) : Prop :=
  u.id ∉ t.rows.map UserModel.id ∧ u.username ∉ t.rows.map UserModel.username ∧
    u.email ∉ t.rows.map UserModel.email ∧ u.Check

instance (t : UsersTable) (u : UserModel) : Decidable (t.Admits u) :=
  inferInstanceAs (Decidable (u.id ∉ t.rows.map UserModel.id ∧
    u.username ∉ t.rows.map UserModel.username ∧ u.email ∉ t.rows.map UserModel.email ∧ u.Check))

def add (t : UsersTable) (u : UserModel) (admits : t.Admits u) : UsersTable where
  rows := t.rows ++ [u]
  ids := by simpa [List.nodup_append] using ⟨t.ids, fun v stored equal =>
    admits.1 (equal ▸ List.mem_map_of_mem stored)⟩
  usernames := by simpa [List.nodup_append] using ⟨t.usernames, fun v stored equal =>
    admits.2.1 (equal ▸ List.mem_map_of_mem stored)⟩
  emails := by simpa [List.nodup_append] using ⟨t.emails, fun v stored equal =>
    admits.2.2.1 (equal ▸ List.mem_map_of_mem stored)⟩
  valid := by
    intro v member
    rcases List.mem_append.mp member with old | new
    · exact t.valid v old
    · rw [List.mem_singleton.mp new]
      exact admits.2.2.2

def insert? (t : UsersTable) (u : UserModel) : Option UsersTable :=
  if admits : t.Admits u then some (t.add u admits) else none

private theorem map_setActive {β : Type} {g : UserModel → β}
    (keeps : ∀ u b, g (u.setActive b) = g u)
    (rows : List UserModel) (id : Uuid) (isActive : Bool) :
    (rows.map (fun u => if u.id = id then u.setActive isActive else u)).map g = rows.map g := by
  rw [List.map_map]
  apply List.map_congr_left
  intro u _
  by_cases here : u.id = id <;> simp [here, keeps]

def setActive (t : UsersTable) (id : Uuid) (isActive : Bool) : UsersTable where
  rows := t.rows.map (fun u => if u.id = id then u.setActive isActive else u)
  ids := by
    rw [map_setActive (fun _ _ => rfl)]
    exact t.ids
  usernames := by
    rw [map_setActive (fun _ _ => rfl)]
    exact t.usernames
  emails := by
    rw [map_setActive (fun _ _ => rfl)]
    exact t.emails
  valid := by
    intro v member
    obtain ⟨u, stored, rfl⟩ := List.mem_map.mp member
    have kept : (u.setActive isActive).Check := t.valid u stored
    by_cases here : u.id = id
    · simpa [here] using kept
    · simpa [here] using t.valid u stored

end UsersTable

structure AuthDb where
  users : UsersTable
  accounts : Table UserId AccountRow AccountRow.Check

def orConstraint {α : Type} : Option α → Except AuthErr α
  | some a => .ok a
  | none => .error .integrity

section Service

variable {Token : Type} (lib : AuthLibrary Token) (settings : Settings)

/-- Register a new user and create their account row. The database draws the id,
`bcrypt` the salt. -/
def UserService.register (username email password : String) (id : Uuid) (salt : String)
    (db : AuthDb) : Except AuthErr (UserModel × AuthDb) := do
  if (db.users.byUsername username).isSome then
    throw (.app usernameExistsError)
  if (db.users.byEmail email).isSome then
    throw (.app emailExistsError)
  let passwordHash ← hashPassword lib password salt
  let user : UserModel := ⟨id, username, email, passwordHash, true⟩
  let users ← orConstraint (db.users.insert? user)
  let accounts ← orConstraint (db.accounts.insert? (Uuid.str user.id) ⟨0, 0, true⟩)
  return (user, ⟨users, accounts⟩)

/-- Authenticate a user. The two tokens are stamped one after the other. -/
def UserService.login (username password : String) (accessAt refreshAt : Timestamp)
    (db : AuthDb) : Except AuthErr (UserModel × Token × Token) := do
  match db.users.byUsername username with
  | none => throw (.app invalidCredentialsError)
  | some user =>
    let verified ← verifyPassword lib password user.passwordHash
    if ¬ verified then
      throw (.app invalidCredentialsError)
    if ¬ user.isActive then
      throw (.app accountDisabledError)
    return (user, createAccessToken lib settings (Uuid.str user.id) accessAt,
      createRefreshToken lib settings (Uuid.str user.id) refreshAt)

def UserService.refresh (refreshToken : Token) (decodedAt issuedAt : Timestamp) :
    Except AuthErr Token := do
  let payload ← decodeToken lib refreshToken .refresh decodedAt
  match payload.sub with
  | none => throw (.py .keyError)
  | some userId => return createAccessToken lib settings userId issuedAt

def credentialsException : AuthErr := .http 401 "Invalid or expired token"

def getCurrentUser (token : Token) (now : Timestamp) (db : AuthDb) : Except AuthErr UserModel :=
  match decodeToken lib token .access now with
  | .error (.app e) =>
    if e = invalidCredentialsError then throw credentialsException else throw (.app e)
  | .error e => throw e
  | .ok payload =>
    match payload.sub with
    | none => throw credentialsException
    | some userId =>
      if userId = "" then throw credentialsException
      else
        match lib.uuid userId with
        | none => throw credentialsException
        | some userUuid =>
          match db.users.byId userUuid with
          | none => throw credentialsException
          | some user =>
            if user.isActive then pure user else throw (.app accountDisabledError)

def requireAmmUser (currentUser : UserModel) : Except AuthErr UserModel :=
  if Uuid.str currentUser.id ≠ AMM_USER_ID then throw (.http 403 "AMM system account required")
  else pure currentUser

end Service

/-- What reaches the gateway. The operator of the database switches users off and on,
for which the repository has no endpoint. -/
inductive AuthOp (Token : Type)
  | register (username email password : String) (id : Uuid) (salt : String)
  | login (username password : String) (accessAt refreshAt : Timestamp)
  | refresh (refreshToken : Token) (decodedAt issuedAt : Timestamp)
  | request (token : Token) (now : Timestamp)
  | ammRequest (token : Token) (now : Timestamp)
  | setActive (id : Uuid) (isActive : Bool)

inductive AuthResult (Token : Type)
  | registered (user : UserModel)
  | loggedIn (user : UserModel) (accessToken refreshToken : Token)
  | refreshed (accessToken : Token)
  | served (user : UserModel)
  | done

abbrev AuthEvent (Token : Type) := AuthOp Token × Except AuthErr (AuthResult Token)

variable {Token : Type}

/-- The answer to a request, and what it leaves; a registration that raises is rolled back. -/
def AuthOp.execute (lib : AuthLibrary Token) (settings : Settings) (db : AuthDb) :
    AuthOp Token → Except AuthErr (AuthResult Token) × AuthDb
  | .register username email password id salt =>
    match UserService.register lib username email password id salt db with
    | .ok (user, db') => (.ok (.registered user), db')
    | .error e => (.error e, db)
  | .login username password accessAt refreshAt =>
    ((UserService.login lib settings username password accessAt refreshAt db).map
      (fun r => .loggedIn r.1 r.2.1 r.2.2), db)
  | .refresh refreshToken decodedAt issuedAt =>
    ((UserService.refresh lib settings refreshToken decodedAt issuedAt).map .refreshed, db)
  | .request token now => ((getCurrentUser lib token now db).map .served, db)
  | .ammRequest token now =>
    ((getCurrentUser lib token now db >>= requireAmmUser).map .served, db)
  | .setActive id isActive =>
    (.ok .done, { db with users := db.users.setActive id isActive })

def authSteps (lib : AuthLibrary Token) (settings : Settings) : Steps AuthDb (AuthEvent Token) :=
  fun db e db' => e.1.execute lib settings db = (e.2, db')

end PredictionMarket
