/- PredictionMarket/Gateway/Access
   digest: Which tokens open an endpoint after any run of requests, and where they come from. -/

import PredictionMarket.Gateway.Inversion
import Mathlib.Data.List.Induction

set_option autoImplicit false
set_option relaxedAutoImplicit false

namespace PredictionMarket

open Library

def Settings.expire (settings : Settings) : TokenType → Int
  | .access => settings.accessExpire
  | .refresh => settings.refreshExpire

section Sample

def openLibrary : AuthLibrary TokenPayload where
  encode := id
  decode now token := if timegm now ≤ timegm token.exp then some token.claims else none
  hashpw plain _ := some ("$2b$12$" ++ plain ++ "#")
  checkpw plain hashed := some (hashed = "$2b$12$" ++ plain ++ "#")
  uuid := parseUuid

private theorem openLibrary_documented : openLibrary.Documented := by
  refine ⟨fun _ _ => rfl, ?_, ?_⟩
  · intro plain salt hashed same
    obtain rfl := Option.some.inj same
    simp only [openLibrary, decide_true]
  · simp only [openLibrary, parseUuid_str, implies_true]

def alice : UserModel :=
  ⟨7, "alice", "alice@example.com", "$2b$12$Pass1word#", true⟩

def aliceToken (type : TokenType) : TokenPayload :=
  ⟨Uuid.str 7, type, 0, Settings.expire {} type⟩

def aliceEvents : List (AuthEvent TokenPayload) :=
  [(.register "alice" "alice@example.com" "Pass1word" 7 "salt", .ok (.registered alice)),
    (.login "alice" "Pass1word" 0 0,
      .ok (.loggedIn alice (aliceToken .access) (aliceToken .refresh))),
    (.request (aliceToken .access) 60000000, .ok (.served alice)),
    (.ammRequest (aliceToken .access) 60000000,
      .error (.http 403 "AMM system account required"))]

/-- The account that the migrations seed, with a hash that no password has. -/
def ammUser : UserModel :=
  ⟨0x0000000000004000a000000000000001, "amm_market_maker", "amm@system.internal",
    "$2b$12$AMM.SYSTEM.ACCOUNT.NO.LOGIN.PLACEHOLDER.HASH", true⟩

def seededUsers : AuthDb := ⟨(UsersTable.empty.insert? ammUser).getD .empty, .empty⟩

private theorem aliceEvents_run :
    ∃ db, Run (authSteps openLibrary {}) seededUsers aliceEvents db := by
  refine ⟨_, .cons rfl (.cons rfl (.cons rfl (.cons rfl (.nil _))))⟩

end Sample

section Runs

variable {Token : Type} {lib : AuthLibrary Token} {settings : Settings} {start db db' : AuthDb}
  {events : List (AuthEvent Token)} {user : UserModel}

/-- After a login, whatever else was requested: the password goes on to log in, the
access token opens the endpoints and the refresh token is renewed, each until it expires
and never one for the other; a user who is switched off is refused, but not the renewal. -/
theorem granted_tokens_exact (docs : lib.Documented) {before after : List (AuthEvent Token)}
    {username password : String} {accessAt refreshAt : Timestamp} {accessToken refreshToken : Token}
    (run : Run (authSteps lib settings) start (before ++
      (.login username password accessAt refreshAt,
        .ok (.loggedIn user accessToken refreshToken)) :: after) db) :
    ∃ row isActive, row = user.setActive isActive ∧ db.users.byId user.id = some row ∧
      (∀ accessAt' refreshAt',
        UserService.login lib settings username password accessAt' refreshAt' db =
          if isActive then .ok (row, createAccessToken lib settings (Uuid.str user.id) accessAt',
            createRefreshToken lib settings (Uuid.str user.id) refreshAt')
          else .error (.app accountDisabledError)) ∧
      (∀ now, getCurrentUser lib accessToken now db =
        if timegm now ≤ timegm (accessAt + settings.accessExpire) then
          if isActive then .ok row else .error (.app accountDisabledError)
        else .error credentialsException) ∧
      (∀ decodedAt issuedAt, UserService.refresh lib settings refreshToken decodedAt issuedAt =
        if timegm decodedAt ≤ timegm (refreshAt + settings.refreshExpire) then
          .ok (createAccessToken lib settings (Uuid.str user.id) issuedAt)
        else .error (.app invalidRefreshTokenError)) ∧
      (∀ issuedAt now,
        getCurrentUser lib (createAccessToken lib settings (Uuid.str user.id) issuedAt) now db =
          if timegm now ≤ timegm (issuedAt + settings.accessExpire) then
            if isActive then .ok row else .error (.app accountDisabledError)
          else .error credentialsException) ∧
      (∀ now, getCurrentUser lib refreshToken now db = .error credentialsException) ∧
      ∀ decodedAt issuedAt, UserService.refresh lib settings accessToken decodedAt issuedAt =
        .error (.app invalidRefreshTokenError) := by
  obtain ⟨middle, _, rest⟩ := run.split
  obtain _ | ⟨step, rest⟩ := rest
  obtain ⟨answer, rfl⟩ := Prod.mk.inj step
  obtain ⟨⟨found, access, refresh⟩, done, same⟩ := map_eq_ok.mp answer
  obtain ⟨rfl, rfl, rfl⟩ := AuthResult.loggedIn.inj same
  obtain ⟨named, verified, _, rfl, rfl⟩ := UserService.login_ok done
  obtain ⟨stored, rfl⟩ := UsersTable.byUsername_eq_some.mp named
  obtain ⟨isActive, kept⟩ := keeps_of_run rest _ stored
  have byId : db.users.byId (found.setActive isActive).id = some (found.setActive isActive) :=
    UsersTable.byId_eq_some.mpr ⟨kept, rfl⟩
  have byName : db.users.byUsername found.username = some (found.setActive isActive) :=
    UsersTable.byUsername_eq_some.mpr ⟨kept, rfl⟩
  refine ⟨_, isActive, rfl, byId, ?_, ?_, ?_, ?_, ?_, ?_⟩
  · exact UserService.login_verified byName verified
  · exact getCurrentUser_access docs byId accessAt
  · exact UserService.refresh_refresh docs _ _
  · exact getCurrentUser_access docs byId
  · exact getCurrentUser_refresh docs _ _
  · exact UserService.refresh_access docs _ _

/-- The refresh token of Alice opens no endpoint. -/
theorem alice_refresh_token_refused : ∃ db,
    Run (authSteps openLibrary {}) seededUsers aliceEvents db ∧
      ∀ now, getCurrentUser openLibrary (aliceToken .refresh) now db =
        .error credentialsException := by
  obtain ⟨db, run⟩ := aliceEvents_run
  have login : Run (authSteps openLibrary {}) seededUsers (aliceEvents.take 1 ++
      (.login "alice" "Pass1word" 0 0,
        .ok (.loggedIn alice (aliceToken .access) (aliceToken .refresh))) ::
          aliceEvents.drop 2) db := run
  obtain ⟨_, _, _, _, _, _, _, _, refused, _⟩ := granted_tokens_exact openLibrary_documented login
  exact ⟨db, run, refused⟩

/-- A token of a user, of a type and with a time, that was issued for a password: by a
login that verified one, or for such a refresh token that had not expired. -/
inductive Granted (lib : AuthLibrary Token) (settings : Settings) (user : UserModel) :
    List (AuthEvent Token) → Token → TokenType → Timestamp → Prop
  | access {before after : List (AuthEvent Token)} {username password : String}
      {accessAt refreshAt : Timestamp} {accessToken refreshToken : Token}
      (verified : lib.checkpw password user.passwordHash = some true)
      (active : user.isActive = true) :
      Granted lib settings user (before ++ (.login username password accessAt refreshAt,
        .ok (.loggedIn user accessToken refreshToken)) :: after) accessToken .access accessAt
  | refresh {before after : List (AuthEvent Token)} {username password : String}
      {accessAt refreshAt : Timestamp} {accessToken refreshToken : Token}
      (verified : lib.checkpw password user.passwordHash = some true)
      (active : user.isActive = true) :
      Granted lib settings user (before ++ (.login username password accessAt refreshAt,
        .ok (.loggedIn user accessToken refreshToken)) :: after) refreshToken .refresh refreshAt
  | renewed {before after : List (AuthEvent Token)} {refreshToken accessToken : Token}
      {refreshAt decodedAt issuedAt : Timestamp}
      (granted : Granted lib settings user before refreshToken .refresh refreshAt)
      (inTime : timegm decodedAt ≤ timegm (refreshAt + settings.refreshExpire)) :
      Granted lib settings user (before ++ (.refresh refreshToken decodedAt issuedAt,
        .ok (.refreshed accessToken)) :: after) accessToken .access issuedAt

private theorem Granted.extend {token : Token} {type : TokenType} {at_ : Timestamp}
    (granted : Granted lib settings user events token type at_) (more : List (AuthEvent Token)) :
    Granted lib settings user (events ++ more) token type at_ := by
  cases granted with
  | access verified active =>
    rw [List.append_assoc, List.cons_append]
    exact .access verified active
  | refresh verified active =>
    rw [List.append_assoc, List.cons_append]
    exact .refresh verified active
  | renewed granted inTime =>
    rw [List.append_assoc, List.cons_append]
    exact .renewed granted inTime

private theorem Granted.active {token : Token} {type : TokenType} {at_ : Timestamp}
    (granted : Granted lib settings user events token type at_) : user.isActive = true := by
  induction granted with
  | access _ active | refresh _ active => exact active
  | renewed _ _ active => exact active

def AuthOp.presented : AuthOp Token → Option Token
  | .refresh token _ _ | .request token _ | .ammRequest token _ => some token
  | _ => none

def issuedBy : AuthEvent Token → List Token
  | (_, .ok (.loggedIn _ accessToken refreshToken)) => [accessToken, refreshToken]
  | (_, .ok (.refreshed accessToken)) => [accessToken]
  | _ => []

/-- Nobody else signs with the secret: a token that decodes at any time has been issued
before it is presented. -/
def Unforged (lib : AuthLibrary Token) (events : List (AuthEvent Token)) : Prop :=
  ∀ before e after, events = before ++ e :: after → ∀ token, e.1.presented = some token →
    ∀ now payload, lib.decode now token = some payload → ∃ e' ∈ before, token ∈ issuedBy e'

private theorem Unforged.front {more : List (AuthEvent Token)}
    (unforged : Unforged lib (events ++ more)) :
    Unforged lib events := by
  rintro before e after rfl
  exact unforged before e (after ++ more) (by simp)

private theorem aliceEvents_unforged : Unforged openLibrary aliceEvents := by
  intro before e after split token presented _ _ _
  rcases before with _ | ⟨first, _ | ⟨second, rest⟩⟩
  · obtain ⟨rfl, _⟩ := List.cons.inj split
    cases presented
  · obtain ⟨_, next⟩ := List.cons.inj split
    obtain ⟨rfl, _⟩ := List.cons.inj next
    cases presented
  · obtain ⟨_, next⟩ := List.cons.inj split
    obtain ⟨rfl, later⟩ := List.cons.inj next
    refine ⟨_, List.mem_cons_of_mem _ List.mem_cons_self, ?_⟩
    have either : e = aliceEvents[2] ∨ e = aliceEvents[3] := by
      rcases rest with _ | ⟨third, rest⟩
      · exact Or.inl (List.cons.inj later).1.symm
      · obtain ⟨_, last⟩ := List.cons.inj later
        rcases rest with _ | ⟨_, rest⟩
        · exact Or.inr (List.cons.inj last).1.symm
        · obtain ⟨_, none_⟩ := List.cons.inj last
          simp at none_
    obtain rfl | rfl := either <;> (obtain rfl := Option.some.inj presented; exact List.mem_cons_self)

def Vouched (lib : AuthLibrary Token) (settings : Settings) (events : List (AuthEvent Token))
    (db : AuthDb) (token : Token) : Prop :=
  ∃ user type at_, Granted lib settings user events token type at_ ∧
    token = lib.encode ⟨Uuid.str user.id, type, at_, at_ + settings.expire type⟩ ∧
    ∃ isActive, user.setActive isActive ∈ db.users.rows

private theorem Vouched.step {e : AuthEvent Token} {token : Token}
    (vouched : Vouched lib settings events db token) (step : authSteps lib settings db e db') :
    Vouched lib settings (events ++ [e]) db' token := by
  obtain ⟨user, type, at_, granted, encoded, isActive, stored⟩ := vouched
  obtain ⟨isActive', kept⟩ := keeps_of_step step _ stored
  exact ⟨user, type, at_, granted.extend [e], encoded, isActive', kept⟩

private theorem Vouched.accepted (docs : lib.Documented) {token : Token} {expectedType : TokenType}
    {now : Timestamp} {payload : TokenClaims} (vouched : Vouched lib settings events db token)
    (decoded : decodeToken lib token expectedType now = .ok payload) :
    ∃ user at_, Granted lib settings user events token expectedType at_ ∧
      payload.sub = some (Uuid.str user.id) ∧
      timegm now ≤ timegm (at_ + settings.expire expectedType) ∧
      ∃ isActive, user.setActive isActive ∈ db.users.rows := by
  obtain ⟨user, type, at_, granted, rfl, stored⟩ := vouched
  rw [decodeToken_encode docs] at decoded
  split at decoded
  · next accepted =>
    obtain ⟨rfl, inTime⟩ := accepted
    obtain rfl := Except.ok.inj decoded
    exact ⟨user, at_, granted, rfl, inTime, stored⟩
  · cases decoded

private theorem vouched_of_login {username password : String} {accessAt refreshAt : Timestamp}
    {accessToken refreshToken token : Token}
    (done : UserService.login lib settings username password accessAt refreshAt db =
      .ok (user, accessToken, refreshToken)) (issued : token ∈ [accessToken, refreshToken]) :
    Vouched lib settings (events ++ [(.login username password accessAt refreshAt,
      .ok (.loggedIn user accessToken refreshToken))]) db token := by
  obtain ⟨named, verified, active, access, refresh⟩ := UserService.login_ok done
  obtain ⟨stored, _⟩ := UsersTable.byUsername_eq_some.mp named
  simp only [List.mem_cons, List.not_mem_nil, or_false] at issued
  obtain rfl | rfl := issued
  · exact ⟨user, .access, accessAt, .access verified active, access, user.isActive, stored⟩
  · exact ⟨user, .refresh, refreshAt, .refresh verified active, refresh, user.isActive, stored⟩

private theorem vouched_of_refresh (docs : lib.Documented) {refreshToken accessToken : Token}
    {decodedAt issuedAt : Timestamp}
    (vouched : ∀ payload, decodeToken lib refreshToken .refresh decodedAt = .ok payload →
      Vouched lib settings events db refreshToken)
    (done : UserService.refresh lib settings refreshToken decodedAt issuedAt = .ok accessToken) :
    Vouched lib settings (events ++ [(.refresh refreshToken decodedAt issuedAt,
      .ok (.refreshed accessToken))]) db accessToken := by
  obtain ⟨payload, userId, decoded, named, rfl⟩ := UserService.refresh_ok done
  obtain ⟨user, refreshAt, granted, sub, inTime, stored⟩ :=
    (vouched payload decoded).accepted docs decoded
  obtain rfl : userId = Uuid.str user.id := Option.some.inj (named.symm.trans sub)
  exact ⟨user, .access, issuedAt, .renewed granted inTime, rfl, stored⟩

private theorem vouched_of_step (docs : lib.Documented) {e : AuthEvent Token} {token : Token}
    (step : authSteps lib settings db e db') (issued : token ∈ issuedBy e)
    (vouched : ∀ t, e.1.presented = some t → ∀ now payload, lib.decode now t = some payload →
      Vouched lib settings events db t) : Vouched lib settings (events ++ [e]) db' token := by
  obtain ⟨op, result⟩ := e
  cases op with
  | login username password accessAt refreshAt =>
    obtain ⟨rfl, rfl⟩ := Prod.mk.inj step
    cases done : UserService.login lib settings username password accessAt refreshAt db with
    | error e =>
      rw [done] at issued
      cases issued
    | ok r =>
      rw [done] at issued
      exact vouched_of_login done issued
  | refresh refreshToken decodedAt issuedAt =>
    obtain ⟨rfl, rfl⟩ := Prod.mk.inj step
    cases done : UserService.refresh lib settings refreshToken decodedAt issuedAt with
    | error e =>
      rw [done] at issued
      cases issued
    | ok accessToken =>
      rw [done] at issued
      obtain rfl := List.mem_singleton.mp issued
      apply vouched_of_refresh docs _ done
      intro payload decoded
      exact vouched refreshToken rfl decodedAt payload (decodeToken_ok decoded).1
  | register username email password id salt =>
    simp only [authSteps, AuthOp.execute] at step
    split at step <;> (obtain ⟨rfl, _⟩ := Prod.mk.inj step; cases issued)
  | request token' now =>
    obtain ⟨rfl, _⟩ := Prod.mk.inj step
    cases done : getCurrentUser lib token' now db <;> (rw [done] at issued; cases issued)
  | ammRequest token' now =>
    obtain ⟨rfl, _⟩ := Prod.mk.inj step
    cases done : getCurrentUser lib token' now db >>= requireAmmUser <;>
      (rw [done] at issued; cases issued)
  | setActive id isActive =>
    obtain ⟨rfl, _⟩ := Prod.mk.inj step
    cases issued

/-- Every token that was issued goes back to a login. -/
private theorem vouched_of_run (docs : lib.Documented)
    (run : Run (authSteps lib settings) start events db) (unforged : Unforged lib events) :
    ∀ e ∈ events, ∀ token ∈ issuedBy e, Vouched lib settings events db token := by
  induction events using List.reverseRecOn generalizing db with
  | nil =>
    intro e listed
    cases listed
  | append_singleton events last ih =>
    obtain ⟨middle, first, step⟩ := run.split
    rw [Run.single_iff] at step
    have earlier := ih first unforged.front
    intro e listed token issued
    obtain before | here := List.mem_append.mp listed
    · exact (earlier e before token issued).step step
    · obtain rfl := List.mem_singleton.mp here
      apply vouched_of_step docs step issued
      intro t presented now payload decoded
      obtain ⟨e', before, source⟩ := unforged events e [] rfl t presented now payload decoded
      exact earlier e' before t source

private theorem served_ok {e : AuthEvent Token} {token : Token} {now : Timestamp}
    (step : authSteps lib settings db e db')
    (bearer : e.1 = .request token now ∨ e.1 = .ammRequest token now)
    (served : e.2 = .ok (.served user)) :
    getCurrentUser lib token now db = .ok user ∧
      (e.1 = .ammRequest token now → Uuid.str user.id = AMM_USER_ID) := by
  obtain ⟨op, result⟩ := e
  obtain rfl | rfl := bearer
  · obtain ⟨answer, _⟩ := Prod.mk.inj step
    obtain ⟨found, done, same⟩ := map_eq_ok.mp (answer.trans served)
    obtain rfl := AuthResult.served.inj same
    exact ⟨done, fun other => by cases other⟩
  · obtain ⟨answer, _⟩ := Prod.mk.inj step
    obtain ⟨found, done, same⟩ := map_eq_ok.mp (answer.trans served)
    obtain rfl := AuthResult.served.inj same
    obtain ⟨current, authenticated, required⟩ := bind_eq_ok.mp done
    unfold requireAmmUser at required
    split at required
    · cases required
    · next named =>
      obtain rfl := Except.ok.inj required
      exact ⟨authenticated, fun _ => not_not.mp named⟩

private theorem bearer_of_served {e : AuthEvent Token} (step : authSteps lib settings db e db')
    (served : e.2 = .ok (.served user)) :
    ∃ token now, e.1 = .request token now ∨ e.1 = .ammRequest token now := by
  obtain ⟨op, result⟩ := e
  simp only at served
  subst served
  cases op with
  | request token now => exact ⟨token, now, Or.inl rfl⟩
  | ammRequest token now => exact ⟨token, now, Or.inr rfl⟩
  | register username email password id salt =>
    simp only [authSteps, AuthOp.execute] at step
    split at step <;> cases (Prod.mk.inj step).1
  | login username password accessAt refreshAt =>
    obtain ⟨_, _, same⟩ := map_eq_ok.mp (Prod.mk.inj step).1
    cases same
  | refresh refreshToken decodedAt issuedAt =>
    obtain ⟨_, _, same⟩ := map_eq_ok.mp (Prod.mk.inj step).1
    cases same
  | setActive id isActive => cases (Prod.mk.inj step).1

private theorem granted_of_served (docs : lib.Documented) {before after : List (AuthEvent Token)}
    {e : AuthEvent Token} {token : Token} {now : Timestamp}
    (run : Run (authSteps lib settings) start (before ++ e :: after) db)
    (unforged : Unforged lib (before ++ e :: after))
    (bearer : e.1 = .request token now ∨ e.1 = .ammRequest token now)
    (served : e.2 = .ok (.served user)) :
    ∃ issuedAt, Granted lib settings user before token .access issuedAt ∧
      timegm now ≤ timegm (issuedAt + settings.accessExpire) ∧
      ((∃ first ∈ start.users.rows, user = first.setActive true) ∨
        ∃ e ∈ before, Registers lib user e) := by
  obtain ⟨middle, first, rest⟩ := run.split
  obtain _ | ⟨step, _⟩ := rest
  obtain ⟨payload, userId, userUuid, decoded, named, parsed, found, active⟩ :=
    getCurrentUser_ok (served_ok step bearer served).1
  have presented : e.1.presented = some token := by
    obtain request | ammRequest := bearer
    · rw [request]
      rfl
    · rw [ammRequest]
      rfl
  obtain ⟨e', listed, issued⟩ :=
    unforged before e after rfl token presented now payload (decodeToken_ok decoded).1
  have vouched := vouched_of_run docs first (unforged.front) e' listed token issued
  obtain ⟨holder, issuedAt, granted, sub, inTime, isActive, stored⟩ :=
    vouched.accepted docs decoded
  obtain ⟨kept, id⟩ := UsersTable.byId_eq_some.mp found
  -- the id in the token leads to the row of the holder, who was active
  have same : user = holder.setActive isActive := by
    have parsed' : lib.uuid (Uuid.str holder.id) = some userUuid := by
      rw [← Option.some.inj (named.symm.trans sub), parsed]
    rw [docs.uuid_str] at parsed'
    have key : (holder.setActive isActive).id = userUuid := Option.some.inj parsed'
    have holder_row := UsersTable.byId_eq_some.mpr ⟨stored, key⟩
    exact Option.some.inj (found.symm.trans holder_row)
  have itself : user = holder := by
    have on : isActive = true := by
      rw [same] at active
      exact active
    rw [same, on, ← granted.active]
    rfl
  refine ⟨issuedAt, itself ▸ granted, inTime, ?_⟩
  obtain ⟨origin, flag, rfl, seeded | ⟨e₀, before₀, registers⟩⟩ := origin_of_run first kept
  · have on : flag = true := active
    exact Or.inl ⟨origin, seeded, by rw [on]⟩
  · have on : flag = true := active
    have plain : origin.setActive flag = origin := by
      rw [on, ← registers.active]
      rfl
    exact Or.inr ⟨e₀, before₀, plain.symm ▸ registers⟩

/-- A request that is served presents an access token that has not expired and was granted
for the password of its user, who was there from the start or has registered. -/
theorem served_traces_to_password (docs : lib.Documented) {before after : List (AuthEvent Token)}
    {e : AuthEvent Token} {token : Token} {now : Timestamp}
    (run : Run (authSteps lib settings) start (before ++ e :: after) db)
    (unforged : Unforged lib (before ++ e :: after))
    (bearer : e.1 = .request token now ∨ e.1 = .ammRequest token now)
    (served : e.2 = .ok (.served user)) :
    ∃ issuedAt, Granted lib settings user before token .access issuedAt ∧
      timegm now ≤ timegm (issuedAt + settings.accessExpire) ∧
      ((∃ first ∈ start.users.rows, user = first.setActive true) ∨
        ∃ e ∈ before, Registers lib user e) :=
  granted_of_served docs run unforged bearer served

/-- The token that Alice is served with was granted at her login. -/
theorem alice_traces_to_password : ∃ issuedAt,
    Granted openLibrary {} alice (aliceEvents.take 2) (aliceToken .access) .access issuedAt := by
  obtain ⟨db, run⟩ := aliceEvents_run
  have split : Run (authSteps openLibrary {}) seededUsers (aliceEvents.take 2 ++
      aliceEvents[2] :: aliceEvents.drop 3) db := run
  have unforged : Unforged openLibrary (aliceEvents.take 2 ++
      aliceEvents[2] :: aliceEvents.drop 3) := aliceEvents_unforged
  obtain ⟨issuedAt, granted, _⟩ := served_traces_to_password openLibrary_documented split unforged
    (Or.inl rfl) rfl
  exact ⟨issuedAt, granted⟩

private theorem Granted.password {token : Token} {type : TokenType} {at_ : Timestamp}
    (granted : Granted lib settings user events token type at_) :
    ∃ password, lib.checkpw password user.passwordHash = some true := by
  induction granted with
  | access verified _ | refresh verified _ => exact ⟨_, verified⟩
  | renewed _ _ verified => exact verified

/-- No password opens the AMM account, so no endpoint is ever served to it and the endpoints
that ask for it refuse everybody, whatever was registered, renewed and presented. -/
theorem amm_endpoints_closed (docs : lib.Documented) {amm : UserModel}
    (run : Run (authSteps lib settings) start events db) (unforged : Unforged lib events)
    (seeded : amm ∈ start.users.rows) (id : Uuid.str amm.id = AMM_USER_ID)
    (locked : ∀ password, lib.checkpw password amm.passwordHash ≠ some true) :
    ∀ e ∈ events, (∀ user, e.2 = .ok (.served user) → Uuid.str user.id ≠ AMM_USER_ID) ∧
      ∀ token now, e.1 = .ammRequest token now → ∃ error, e.2 = .error error := by
  intro e listed
  obtain ⟨before, after, rfl⟩ := List.append_of_mem listed
  obtain ⟨middle, first, rest⟩ := run.split
  obtain _ | ⟨step, _⟩ := rest
  have closed : ∀ user, e.2 = .ok (.served user) → Uuid.str user.id ≠ AMM_USER_ID := by
    intro user served named
    obtain ⟨token, now, bearer⟩ := bearer_of_served step served
    obtain ⟨issuedAt, granted, _⟩ := granted_of_served docs run unforged bearer served
    obtain ⟨password, verified⟩ := granted.password
    obtain ⟨_, _, userUuid, _, _, _, found, _⟩ := getCurrentUser_ok (served_ok step bearer served).1
    obtain ⟨stored, rfl⟩ := UsersTable.byId_eq_some.mp found
    obtain ⟨isActive, kept⟩ := keeps_of_run first amm seeded
    have key : (amm.setActive isActive).id = user.id :=
      Uuid.str_injective (id.trans named.symm)
    have amm_row := UsersTable.byId_eq_some.mpr ⟨kept, key⟩
    obtain rfl := Option.some.inj (amm_row.symm.trans found)
    exact locked password verified
  refine ⟨closed, ?_⟩
  intro token now ammRequest
  obtain ⟨op, result⟩ := e
  simp only at ammRequest
  subst ammRequest
  cases result with
  | error error => exact ⟨error, rfl⟩
  | ok r =>
    obtain ⟨user, _, rfl⟩ := map_eq_ok.mp (Prod.mk.inj step).1
    have named := (served_ok step (Or.inr rfl) rfl).2 rfl
    exact absurd named (closed user rfl)

/-- Alice is refused where the AMM account is required. -/
theorem alice_is_not_the_amm : ∃ error, aliceEvents[3].2 = .error error := by
  obtain ⟨db, run⟩ := aliceEvents_run
  have locked : ∀ password, openLibrary.checkpw password ammUser.passwordHash ≠ some true := by
    intro password verified
    have same : ammUser.passwordHash = "$2b$12$" ++ password ++ "#" := by
      simpa [openLibrary] using verified
    have last := congrArg (fun s => s.toList.getLast?) same
    simp [ammUser, List.getLast?_cons] at last
  have closed := amm_endpoints_closed openLibrary_documented run aliceEvents_unforged
    (List.mem_singleton.mpr rfl) rfl locked aliceEvents[3] (List.getElem_mem _)
  exact closed.2 (aliceToken .access) 60000000 rfl

end Runs

end PredictionMarket
