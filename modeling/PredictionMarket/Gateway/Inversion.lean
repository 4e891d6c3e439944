/- PredictionMarket/Gateway/Inversion
   digest: What a registration, a login, a refresh and a served request have found, and which users a run leaves. -/

import PredictionMarket.Gateway.Users

set_option autoImplicit false
set_option relaxedAutoImplicit false

namespace PredictionMarket

open Library

section Table

variable {t t' : UsersTable} {u : UserModel}

private theorem find?_column {α : Type} [DecidableEq α] {g : UserModel → α} {rows : List UserModel}
    (nodup : (rows.map g).Nodup) {a : α} :
    rows.find? (fun v => g v = a) = some u ↔ u ∈ rows ∧ g u = a := by
  constructor
  · intro found
    exact ⟨List.mem_of_find?_eq_some found, by simpa using List.find?_some found⟩
  · rintro ⟨stored, rfl⟩
    cases found : rows.find? (fun v => g v = g u) with
    | none =>
      have absent := List.find?_eq_none.mp found u stored
      simp at absent
    | some v =>
      have same : g v = g u := by simpa using List.find?_some found
      rw [List.inj_on_of_nodup_map nodup (List.mem_of_find?_eq_some found) stored same]

theorem UsersTable.byId_eq_some {id : Uuid} : t.byId id = some u ↔ u ∈ t.rows ∧ u.id = id :=
  find?_column t.ids

theorem UsersTable.byUsername_eq_some {username : String} :
    t.byUsername username = some u ↔ u ∈ t.rows ∧ u.username = username :=
  find?_column t.usernames

def UsersTable.Keeps (t t' : UsersTable) : Prop :=
  ∀ u ∈ t.rows, ∃ isActive, u.setActive isActive ∈ t'.rows

private theorem UsersTable.Keeps.refl (t : UsersTable) :
    t.Keeps t := fun u stored => ⟨u.isActive, stored⟩

private theorem UsersTable.Keeps.trans {t'' : UsersTable} (first : t.Keeps t')
    (second : t'.Keeps t'') :
    t.Keeps t'' := by
  intro u stored
  obtain ⟨b, between⟩ := first u stored
  obtain ⟨b', after⟩ := second _ between
  exact ⟨b', after⟩

end Table

section Service

variable {Token : Type} {lib : AuthLibrary Token} {settings : Settings} {db db' : AuthDb}

private theorem orConstraint_ok {α : Type} {o : Option α} {a : α} :
    orConstraint o = .ok a ↔ o = some a := by
  cases o <;> simp [orConstraint]

private theorem UserService.register_ok {username email password salt : String} {id : Uuid}
    {user : UserModel}
    (done : UserService.register lib username email password id salt db = .ok (user, db')) :
    lib.hashpw password salt = some user.passwordHash ∧ user.isActive = true ∧
      db'.users.rows = db.users.rows ++ [user] := by
  unfold UserService.register at done
  by_cases named : (db.users.byUsername username).isSome = true
  · rw [if_pos named] at done
    cases done
  rw [if_neg named] at done
  by_cases mailed : (db.users.byEmail email).isSome = true
  · rw [if_pos mailed] at done
    cases done
  rw [if_neg mailed] at done
  simp only [bind_eq_ok, orConstraint_ok, pure_eq_ok, Prod.mk.injEq] at done
  obtain ⟨hashed, hash, users, inserted, accounts, _, rfl, rfl⟩ := done
  unfold UsersTable.insert? at inserted
  split at inserted
  · next admits =>
    obtain rfl := Option.some.inj inserted
    refine ⟨?_, rfl, rfl⟩
    unfold hashPassword at hash
    split at hash
    · cases hash
    · next same => rw [same, Except.ok.inj hash]
  · cases inserted

theorem UserService.login_ok {username password : String} {accessAt refreshAt : Timestamp}
    {user : UserModel} {accessToken refreshToken : Token}
    (done : UserService.login lib settings username password accessAt refreshAt db =
      .ok (user, accessToken, refreshToken)) :
    db.users.byUsername username = some user ∧
      lib.checkpw password user.passwordHash = some true ∧ user.isActive = true ∧
      accessToken = createAccessToken lib settings (Uuid.str user.id) accessAt ∧
      refreshToken = createRefreshToken lib settings (Uuid.str user.id) refreshAt := by
  unfold UserService.login at done
  cases found : db.users.byUsername username with
  | none =>
    rw [found] at done
    cases done
  | some row =>
    simp only [found, bind_eq_ok] at done
    obtain ⟨verified, checked, done⟩ := done
    split at done
    · cases done
    · next right =>
      split at done
      · cases done
      · next active =>
        simp only [pure_eq_ok, Prod.mk.injEq] at done
        obtain ⟨rfl, rfl, rfl⟩ := done
        obtain rfl : verified = true := by simpa using right
        exact ⟨rfl, verifyPassword_ok checked, by simpa using active, rfl, rfl⟩

theorem UserService.login_verified {username password : String} {user : UserModel}
    (found : db.users.byUsername username = some user)
    (verified : lib.checkpw password user.passwordHash = some true)
    (accessAt refreshAt : Timestamp) :
    UserService.login lib settings username password accessAt refreshAt db =
      if user.isActive then .ok (user, createAccessToken lib settings (Uuid.str user.id) accessAt,
        createRefreshToken lib settings (Uuid.str user.id) refreshAt)
      else .error (.app accountDisabledError) := by
  unfold UserService.login verifyPassword
  simp only [found, verified]
  cases user.isActive <;> rfl

theorem UserService.refresh_ok {refreshToken accessToken : Token} {decodedAt issuedAt : Timestamp}
    (done : UserService.refresh lib settings refreshToken decodedAt issuedAt = .ok accessToken) :
    ∃ payload userId, decodeToken lib refreshToken .refresh decodedAt = .ok payload ∧
      payload.sub = some userId ∧
      accessToken = createAccessToken lib settings userId issuedAt := by
  unfold UserService.refresh at done
  rw [bind_eq_ok] at done
  obtain ⟨payload, decoded, done⟩ := done
  cases named : payload.sub with
  | none =>
    simp only [named] at done
    cases done
  | some userId =>
    simp only [named, pure_eq_ok] at done
    exact ⟨payload, userId, decoded, named, done.symm⟩

theorem getCurrentUser_ok {token : Token} {now : Timestamp} {user : UserModel}
    (done : getCurrentUser lib token now db = .ok user) :
    ∃ payload userId userUuid, decodeToken lib token .access now = .ok payload ∧
      payload.sub = some userId ∧ lib.uuid userId = some userUuid ∧
      db.users.byId userUuid = some user ∧ user.isActive = true := by
  unfold getCurrentUser at done
  split at done
  · split at done <;> cases done
  · cases done
  · next payload decoded =>
    split at done
    · cases done
    · next userId named =>
      split at done
      · cases done
      · split at done
        · cases done
        · next userUuid parsed =>
          split at done
          · cases done
          · next row found =>
            split at done
            · next active =>
              obtain rfl := Except.ok.inj done
              exact ⟨payload, userId, userUuid, decoded, named, parsed, found, active⟩
            · cases done

theorem getCurrentUser_access (docs : lib.Documented) {user : UserModel}
    (stored : db.users.byId user.id = some user) (issuedAt now : Timestamp) :
    getCurrentUser lib (createAccessToken lib settings (Uuid.str user.id) issuedAt) now db =
      if timegm now ≤ timegm (issuedAt + settings.accessExpire) then
        if user.isActive then .ok user else .error (.app accountDisabledError)
      else .error credentialsException := by
  unfold getCurrentUser createAccessToken
  rw [decodeToken_encode docs]
  by_cases inTime : timegm now ≤ timegm (issuedAt + settings.accessExpire)
  · simp only [inTime, and_self, if_true, TokenPayload.claims, Uuid.str_ne_empty, if_false,
      docs.uuid_str, stored]
    rfl
  · simp only [inTime, and_false, if_false, raiseAuthError, if_true]
    rfl

theorem getCurrentUser_refresh (docs : lib.Documented) (userId : String)
    (issuedAt now : Timestamp) :
    getCurrentUser lib (createRefreshToken lib settings userId issuedAt) now db =
      .error credentialsException := by
  unfold getCurrentUser createRefreshToken
  rw [decodeToken_encode docs, if_neg (by simp)]
  rfl

theorem UserService.refresh_refresh (docs : lib.Documented) (userId : String)
    (grantedAt decodedAt issuedAt : Timestamp) :
    UserService.refresh lib settings (createRefreshToken lib settings userId grantedAt)
        decodedAt issuedAt =
      if timegm decodedAt ≤ timegm (grantedAt + settings.refreshExpire) then
        .ok (createAccessToken lib settings userId issuedAt)
      else .error (.app invalidRefreshTokenError) := by
  unfold UserService.refresh createRefreshToken
  rw [decodeToken_encode docs]
  by_cases inTime : timegm decodedAt ≤ timegm (grantedAt + settings.refreshExpire)
  · rw [if_pos ⟨rfl, inTime⟩, if_pos inTime]
    rfl
  · rw [if_neg (fun both => inTime both.2), if_neg inTime]
    rfl

theorem UserService.refresh_access (docs : lib.Documented) (userId : String)
    (grantedAt decodedAt issuedAt : Timestamp) :
    UserService.refresh lib settings (createAccessToken lib settings userId grantedAt)
        decodedAt issuedAt = .error (.app invalidRefreshTokenError) := by
  unfold UserService.refresh createAccessToken
  rw [decodeToken_encode docs, if_neg (by simp)]
  rfl

end Service

section Runs

variable {Token : Type} {lib : AuthLibrary Token} {settings : Settings} {start db db' : AuthDb}
  {events : List (AuthEvent Token)} {user : UserModel}

def Registers (lib : AuthLibrary Token) (user : UserModel) : AuthEvent Token → Prop
  | (.register _ _ password _ salt, .ok (.registered registered)) =>
    registered = user ∧ user.isActive = true ∧
      lib.hashpw password salt = some user.passwordHash
  | _ => False

theorem Registers.active {e : AuthEvent Token} (registers : Registers lib user e) :
    user.isActive = true := by
  unfold Registers at registers
  split at registers
  · exact registers.2.1
  · cases registers

private theorem users_of_step {e : AuthEvent Token} (step : authSteps lib settings db e db') :
    db' = db ∨ (∃ user, Registers lib user e ∧ db'.users.rows = db.users.rows ++ [user]) ∨
      ∃ id isActive, db'.users = db.users.setActive id isActive := by
  obtain ⟨op, result⟩ := e
  unfold authSteps at step
  simp only at step
  cases op with
  | register username email password id salt =>
    simp only [AuthOp.execute] at step
    cases done : UserService.register lib username email password id salt db with
    | error e =>
      rw [done] at step
      exact Or.inl (Prod.mk.inj step).2.symm
    | ok r =>
      obtain ⟨user, after⟩ := r
      rw [done] at step
      obtain ⟨rfl, rfl⟩ := Prod.mk.inj step
      obtain ⟨hash, active, rows⟩ := UserService.register_ok done
      exact Or.inr (Or.inl ⟨user, ⟨rfl, active, hash⟩, rows⟩)
  | setActive id isActive =>
    obtain ⟨_, rfl⟩ := Prod.mk.inj step
    exact Or.inr (Or.inr ⟨id, isActive, rfl⟩)
  | login | refresh | request | ammRequest => exact Or.inl (Prod.mk.inj step).2.symm

theorem keeps_of_step {e : AuthEvent Token} (step : authSteps lib settings db e db') :
    db.users.Keeps db'.users := by
  intro u stored
  obtain rfl | ⟨user, _, rows⟩ | ⟨id, isActive, switched⟩ := users_of_step step
  · exact UsersTable.Keeps.refl _ u stored
  · refine ⟨u.isActive, ?_⟩
    rw [rows]
    exact List.mem_append_left _ stored
  · rw [switched]
    by_cases here : u.id = id
    · exact ⟨isActive, List.mem_map.mpr ⟨u, stored, if_pos here⟩⟩
    · exact ⟨u.isActive, List.mem_map.mpr ⟨u, stored, if_neg here⟩⟩

theorem keeps_of_run (run : Run (authSteps lib settings) start events db) :
    start.users.Keeps db.users :=
  run.preserves (P := fun d => start.users.Keeps d.users)
    (fun _ _ _ step kept => kept.trans (keeps_of_step step)) (.refl _)

theorem origin_of_run (run : Run (authSteps lib settings) start events db)
    (stored : user ∈ db.users.rows) : ∃ first isActive, user = UserModel.setActive first isActive ∧
      (first ∈ start.users.rows ∨ ∃ e ∈ events, Registers lib first e) := by
  induction run with
  | nil => exact ⟨user, user.isActive, rfl, Or.inl stored⟩
  | @cons db _ _ e events step rest ih =>
    obtain ⟨first, isActive, rfl, there | ⟨e', listed, registers⟩⟩ := ih stored
    · obtain rfl | ⟨registered, registers, rows⟩ | ⟨id, isActive', switched⟩ := users_of_step step
      · exact ⟨first, isActive, rfl, Or.inl there⟩
      · rw [rows] at there
        refine ⟨first, isActive, rfl, (List.mem_append.mp there).imp_right fun new => ?_⟩
        rw [List.mem_singleton.mp new]
        exact ⟨e, List.mem_cons_self, registers⟩
      · rw [switched] at there
        obtain ⟨u, before, rfl⟩ := List.mem_map.mp there
        by_cases here : u.id = id
        · exact ⟨u, isActive, by simp only [here, if_true]; rfl, Or.inl before⟩
        · exact ⟨u, isActive, by simp only [here, if_false], Or.inl before⟩
    · exact ⟨first, isActive, rfl, Or.inr ⟨e', List.mem_cons_of_mem _ listed, registers⟩⟩

end Runs

end PredictionMarket
