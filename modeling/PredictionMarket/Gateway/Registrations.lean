/- PredictionMarket/Gateway/Registrations
   digest: Registrations at the same time: which of them come through, and what refuses the others. -/

import PredictionMarket.Gateway.Access
import PredictionMarket.Library.UniqueInsert

set_option autoImplicit false
set_option relaxedAutoImplicit false

namespace PredictionMarket

open Library ReadCommitted

/-- The keys that a registration takes: the three of the users table, one index after the
other, and the one of its account. -/
inductive RegKey
  | user (id : Uuid)
  | username (username : String)
  | email (email : String)
  | account (userId : UserId)
  deriving DecidableEq

@[reducible] def RegKey.Row : RegKey → Type
  | .user _ | .username _ | .email _ => UserModel
  | .account _ => AccountRow

def RegKey.rank : RegKey → Nat
  | .user _ => 0
  | .username _ => 1
  | .email _ => 2
  | .account _ => 3

def AuthDb.rows (db : AuthDb) : Rows RegKey RegKey.Row
  | .user id => db.users.byId id
  | .username username => db.users.byUsername username
  | .email email => db.users.byEmail email
  | .account userId => db.accounts.get? userId

/-- A request to `/auth/register`, with the id and the salt that it will draw. -/
structure Registration where
  username : String
  email : String
  password : String
  id : Uuid
  salt : String

section Program

variable {Token : Type} (lib : AuthLibrary Token)

def Registration.execute (r : Registration) (db : AuthDb) : Except AuthErr (UserModel × AuthDb) :=
  UserService.register lib r.username r.email r.password r.id r.salt db

/-- The user row, once the password is hashed and the columns are long enough for it. -/
def Registration.userRow (r : Registration) : Except AuthErr UserModel := do
  let passwordHash ← hashPassword lib r.password r.salt
  let user : UserModel := ⟨r.id, r.username, r.email, passwordHash, true⟩
  if user.Check then return user else throw .integrity

def UserModel.entries (u : UserModel) : List (Sigma RegKey.Row) :=
  [⟨.user u.id, u⟩, ⟨.username u.username, u⟩, ⟨.email u.email, u⟩,
    ⟨.account (Uuid.str u.id), ⟨0, 0, true⟩⟩]

private theorem Registration.userRow_ok {r : Registration} {user : UserModel}
    (done : r.userRow lib = .ok user) :
    user.id = r.id ∧ user.username = r.username ∧ user.email = r.email ∧ user.Check := by
  simp only [userRow, bind_eq_ok] at done
  obtain ⟨hashed, _, done⟩ := done
  split at done
  · next ok =>
    obtain rfl := Except.ok.inj done
    exact ⟨rfl, rfl, rfl, ok⟩
  · cases done

/-- `UserService.register`, statement by statement. -/
def Registration.insertion (r : Registration) :
    UniqueInsert RegKey RegKey.Row AuthErr UserModel where
  checks := [(.username r.username, .app usernameExistsError),
    (.email r.email, .app emailExistsError)]
  made := (r.userRow lib).map (fun user => (user.entries, user))
  taken := .integrity
  distinct := by
    intro rows result made
    obtain ⟨user, _, same⟩ := map_eq_ok.mp made
    obtain ⟨rfl, rfl⟩ := Prod.mk.inj same
    simp [UserModel.entries]
  covers := by
    intro rows result made
    obtain ⟨user, done, same⟩ := map_eq_ok.mp made
    obtain ⟨rfl, rfl⟩ := Prod.mk.inj same
    obtain ⟨_, username, email, _⟩ := Registration.userRow_ok lib done
    simp [UserModel.entries, username, email]

end Program

section Alone

variable {Token : Type} {lib : AuthLibrary Token} {db : AuthDb} {r : Registration}

private theorem find?_append_column {α : Type} [DecidableEq α] {g : UserModel → α}
    {rows : List UserModel} {u : UserModel} (fresh : g u ∉ rows.map g) (a : α) :
    (rows ++ [u]).find? (fun v => g v = a) =
      if a = g u then some u else rows.find? (fun v => g v = a) := by
  by_cases same : a = g u
  · subst same
    have absent : rows.find? (fun v => g v = g u) = none := by
      rw [List.find?_eq_none]
      intro v stored equal
      have column : g v = g u := by simpa using equal
      exact fresh (column ▸ List.mem_map_of_mem stored)
    simp [List.find?_append, absent]
  · simp [List.find?_append, same, Ne.symm same]

private theorem AuthDb.rows_add {u : UserModel} (admits : db.users.Admits u)
    (fresh : db.accounts.get? (Uuid.str u.id) = none) :
    AuthDb.rows ⟨db.users.add u admits,
        db.accounts.add (Uuid.str u.id) ⟨0, 0, true⟩ fresh AccountRow.check_empty⟩ =
      inserted db.rows u.entries := by
  funext k
  cases k with
  | user id =>
    have found : (db.users.add u admits).byId id = if id = u.id then some u else db.users.byId id :=
      find?_append_column admits.1 id
    by_cases same : id = u.id
    · subst same
      simpa [AuthDb.rows, inserted, UserModel.entries] using found
    · simpa [AuthDb.rows, inserted, UserModel.entries, same] using found
  | username username =>
    have found : (db.users.add u admits).byUsername username =
        if username = u.username then some u else db.users.byUsername username :=
      find?_append_column admits.2.1 username
    by_cases same : username = u.username
    · subst same
      simpa [AuthDb.rows, inserted, UserModel.entries] using found
    · simpa [AuthDb.rows, inserted, UserModel.entries, same] using found
  | email email =>
    have found : (db.users.add u admits).byEmail email =
        if email = u.email then some u else db.users.byEmail email :=
      find?_append_column admits.2.2.1 email
    by_cases same : email = u.email
    · subst same
      simpa [AuthDb.rows, inserted, UserModel.entries] using found
    · simpa [AuthDb.rows, inserted, UserModel.entries, same] using found
  | account userId =>
    have found := db.accounts.get?_add (Uuid.str u.id) userId ⟨0, 0, true⟩ fresh
      AccountRow.check_empty
    by_cases same : userId = Uuid.str u.id
    · subst same
      simpa [AuthDb.rows, inserted, UserModel.entries] using found
    · simpa [AuthDb.rows, inserted, UserModel.entries, same] using found

private theorem UsersTable.byId_eq_none {t : UsersTable} {id : Uuid} :
    t.byId id = none ↔ id ∉ t.rows.map UserModel.id := by
  simp [byId, List.find?_eq_none]

private theorem UsersTable.byUsername_eq_none {t : UsersTable} {username : String} :
    t.byUsername username = none ↔ username ∉ t.rows.map UserModel.username := by
  simp [byUsername, List.find?_eq_none]

private theorem UsersTable.byEmail_eq_none {t : UsersTable} {email : String} :
    t.byEmail email = none ↔ email ∉ t.rows.map UserModel.email := by
  simp [byEmail, List.find?_eq_none]

private theorem Registration.execute_fresh (named : db.users.byUsername r.username = none)
    (mailed : db.users.byEmail r.email = none) :
    r.execute lib db = (do
      let user ← r.userRow lib
      let users ← orConstraint (db.users.insert? user)
      let accounts ← orConstraint (db.accounts.insert? (Uuid.str user.id) ⟨0, 0, true⟩)
      return (user, ⟨users, accounts⟩)) := by
  unfold execute UserService.register userRow
  rw [if_neg (by simp [named]), if_neg (by simp [mailed])]
  cases hashPassword lib r.password r.salt with
  | error e => rfl
  | ok hashed =>
    simp only [bind, Except.bind]
    by_cases ok : UserModel.Check ⟨r.id, r.username, r.email, hashed, true⟩
    · rw [if_pos ok]
      rfl
    · have refused : db.users.insert? ⟨r.id, r.username, r.email, hashed, true⟩ = none :=
        dif_neg (fun admits => ok admits.2.2.2)
      rw [if_neg ok, refused]
      rfl

private theorem Registration.insertion_alone :
    (r.insertion lib).program.alone db.rows ([] : List Empty) =
      (r.execute lib db).map (fun done => (done.1, done.2.rows, [])) := by
  have checks : (r.insertion lib).checks = [(.username r.username, .app usernameExistsError),
      (.email r.email, .app emailExistsError)] := rfl
  rw [UniqueInsert.program, checks, checkAll_alone_cons, checkAll_alone_cons]
  by_cases named : (db.users.byUsername r.username).isSome = true
  · have used : (db.rows (.username r.username)).isSome = true := named
    rw [if_pos used]
    unfold execute UserService.register
    rw [if_pos named]
    rfl
  by_cases mailed : (db.users.byEmail r.email).isSome = true
  · have free : ¬ (db.rows (.username r.username)).isSome = true := named
    have used : (db.rows (.email r.email)).isSome = true := mailed
    rw [if_neg free, if_pos used]
    unfold execute UserService.register
    rw [if_neg named, if_pos mailed]
    rfl
  have free : ¬ (db.rows (.username r.username)).isSome = true := named
  have free' : ¬ (db.rows (.email r.email)).isSome = true := mailed
  rw [Option.not_isSome_iff_eq_none] at named mailed
  rw [if_neg free, if_neg free', checkAll, execute_fresh named mailed, UniqueInsert.prepared]
  cases made : r.userRow lib with
  | error e =>
    have unmade : (r.insertion lib).made = .error e := by simp only [insertion, made]; rfl
    rw [unmade]
    rfl
  | ok user =>
    obtain ⟨id, username, email, ok⟩ := userRow_ok lib made
    have rows : (r.insertion lib).made = .ok (user.entries, user) := by
      simp only [insertion, made]
      rfl
    rw [rows]
    simp only
    by_cases idle : db.users.byId user.id = none ∧ db.accounts.get? (Uuid.str user.id) = none
    · have admits : db.users.Admits user := ⟨UsersTable.byId_eq_none.mp idle.1,
        UsersTable.byUsername_eq_none.mp (username ▸ named),
        UsersTable.byEmail_eq_none.mp (email ▸ mailed), ok⟩
      have done : db.users.insert? user = some (db.users.add user admits) := dif_pos admits
      have opened : db.accounts.insert? (Uuid.str user.id) ⟨0, 0, true⟩ = some
          (db.accounts.add (Uuid.str user.id) ⟨0, 0, true⟩ idle.2 AccountRow.check_empty) := by
        rw [Table.insert?, dif_pos AccountRow.check_empty, dif_pos idle.2]
      have unused : ∀ e ∈ user.entries, db.rows e.1 = none := by
        intro e listed
        simp only [UserModel.entries, List.mem_cons, List.not_mem_nil, or_false] at listed
        obtain rfl | rfl | rfl | rfl := listed
        · exact idle.1
        · exact username ▸ named
        · exact email ▸ mailed
        · exact idle.2
      rw [putAll_alone ((r.insertion lib).distinct _ _ rows) unused,
        ← AuthDb.rows_add admits idle.2]
      simp only [bind, Except.bind, done, opened]
      rfl
    · have used : ∃ e ∈ user.entries, (db.rows e.1).isSome = true := by
        rw [not_and_or] at idle
        obtain known | open_ := idle
        · exact ⟨⟨.user user.id, user⟩, by simp [UserModel.entries],
            Option.isSome_iff_ne_none.mpr known⟩
        · exact ⟨⟨.account (Uuid.str user.id), ⟨0, 0, true⟩⟩, by simp [UserModel.entries],
            Option.isSome_iff_ne_none.mpr open_⟩
      rw [putAll_alone_taken used]
      simp only [bind, Except.bind]
      by_cases admits : db.users.Admits user
      · have done : db.users.insert? user = some (db.users.add user admits) := dif_pos admits
        have taken : db.accounts.get? (Uuid.str user.id) ≠ none :=
          fun fresh => idle ⟨UsersTable.byId_eq_none.mpr admits.1, fresh⟩
        have refused : db.accounts.insert? (Uuid.str user.id) ⟨0, 0, true⟩ = none := by
          rw [Table.insert?, dif_pos AccountRow.check_empty, dif_neg taken]
        simp only [done, refused]
        rfl
      · have refused : db.users.insert? user = none := dif_neg admits
        rw [refused]
        rfl

end Alone

section Runs

variable {τ Token : Type} {lib : AuthLibrary Token} {calls : τ → Registration} {db : AuthDb}

abbrev RegistrationSystem (τ : Type) := System τ RegKey RegKey.Row Empty AuthErr UserModel

def startRegistrations (lib : AuthLibrary Token) (calls : τ → Registration) (db : AuthDb) :
    RegistrationSystem τ :=
  .start db.rows [] (fun t => ((calls t).insertion lib).program)

def registrationStep (lib : AuthLibrary Token) (calls : τ → Registration) :
    Steps AuthDb (τ × UserModel) :=
  fun db x db' => (calls x.1).execute lib db = .ok (x.2, db')

private theorem registrationRun_of_alone {order : List (τ × UserModel)}
    {d : Rows RegKey RegKey.Row × List Empty}
    (run : Run (aloneSteps (fun t => ((calls t).insertion lib).program)) (db.rows, []) order d) :
    ∃ db', Run (registrationStep lib calls) db order db' ∧ d = (db'.rows, []) := by
  generalize from_ : (db.rows, ([] : List Empty)) = d₀ at run
  induction run generalizing db with
  | nil => exact ⟨db, .nil db, from_.symm⟩
  | @cons _ d₁ _ x _ head _ ih =>
    subst from_
    have alone : ((calls x.1).insertion lib).program.alone db.rows [] = .ok (x.2, d₁) := head
    rw [Registration.insertion_alone] at alone
    obtain ⟨⟨user, db₁⟩, done, same⟩ := map_eq_ok.mp alone
    obtain ⟨rfl, rfl⟩ := Prod.mk.inj same
    obtain ⟨db', run, last⟩ := ih rfl
    exact ⟨db', .cons done run, last⟩

private theorem Registration.uses_iff {r : Registration} {k : RegKey} :
    (r.insertion lib).Uses k ↔
      ∃ user, r.userRow lib = .ok user ∧ k ∈ user.entries.map Sigma.fst := by
  constructor
  · rintro ⟨rows, result, made, member⟩
    obtain ⟨user, done, same⟩ := map_eq_ok.mp made
    obtain ⟨rfl, rfl⟩ := Prod.mk.inj same
    exact ⟨user, done, member⟩
  · rintro ⟨user, done, member⟩
    exact ⟨user.entries, user, by simp only [insertion, done]; rfl, member⟩

variable [DecidableEq τ] {steps : List (τ × Op AuthErr)} {s : RegistrationSystem τ}

/-- Registrations, however their statements interleave and whichever of them are given up,
leave what the ones that came through leave one after the other, each once; and no two of
these have the same name, email or id. -/
theorem registrations_serial
    (run : Run (stepsOf System.exec) (startRegistrations lib calls db) steps s) :
    ∃ order db', (order.map Prod.fst).Nodup ∧
      (∀ t user, (t, user) ∈ order ↔ s.process t = .ended (.ok user)) ∧
      Run (registrationStep lib calls) db order db' ∧ s.committed = db'.rows ∧
      ∀ t u user user', t ≠ u → s.process t = .ended (.ok user) →
        s.process u = .ended (.ok user') →
        user.username ≠ user'.username ∧ user.email ≠ user'.email ∧ user.id ≠ user'.id := by
  obtain ⟨order, serial, filled⟩ := insertion_serial run
  obtain ⟨db', registered, same⟩ := registrationRun_of_alone serial.run
  refine ⟨order, db', serial.distinct, serial.exactly, registered, congrArg Prod.fst same, ?_⟩
  intro t u user user' other first second
  have listed := (serial.exactly t user).mpr first
  have listed' := (serial.exactly u user').mpr second
  have uses : ∀ {x : τ × UserModel}, x ∈ order → ∀ k ∈ x.2.entries.map Sigma.fst,
      ((calls x.1).insertion lib).Uses k := by
    intro x member k key
    obtain ⟨rows, made, _⟩ := filled.made x member
    obtain ⟨row, _, equal⟩ := map_eq_ok.mp made
    obtain ⟨rfl, result⟩ := Prod.mk.inj equal
    exact ⟨row.entries, x.2, made, result ▸ key⟩
  have apart : ∀ k ∈ user.entries.map Sigma.fst, k ∉ user'.entries.map Sigma.fst := by
    intro k mine theirs
    exact filled.disjoint listed listed' (fun equal => other (congrArg Prod.fst equal))
      (uses listed k mine) (uses listed' k theirs)
  refine ⟨fun equal => ?_, fun equal => ?_, fun equal => ?_⟩
  · exact apart (.username user.username) (by simp [UserModel.entries])
      (by simp [UserModel.entries, equal])
  · exact apart (.email user.email) (by simp [UserModel.entries])
      (by simp [UserModel.entries, equal])
  · exact apart (.user user.id) (by simp [UserModel.entries])
      (by simp [UserModel.entries, equal])

/-- Some user has the property, who was there from the start or whose registration has come
through. -/
def Taken (db : AuthDb) (s : RegistrationSystem τ) (P : UserModel → Prop) : Prop :=
  (∃ user ∈ db.users.rows, P user) ∨ ∃ t user, s.process t = .ended (.ok user) ∧ P user

private theorem userRow_of_ended
    (run : Run (stepsOf System.exec) (startRegistrations lib calls db) steps s) {t : τ}
    {user : UserModel} (ended : s.process t = .ended (.ok user)) :
    (calls t).userRow lib = .ok user := by
  obtain ⟨order, serial, filled⟩ := insertion_serial run
  obtain ⟨rows, made, _⟩ := filled.made (t, user) ((serial.exactly t user).mpr ended)
  obtain ⟨row, done, equal⟩ := map_eq_ok.mp made
  rw [done, (Prod.mk.inj equal).2]

private theorem Registration.refused_key {r : Registration} {k : RegKey} {error : AuthErr}
    (key : (k, error) ∈ (r.insertion lib).checks ∨
      error = (r.insertion lib).taken ∧ (r.insertion lib).Uses k) :
    k = .username r.username ∧ (error = .app usernameExistsError ∨ error = .integrity) ∨
      k = .email r.email ∧ (error = .app emailExistsError ∨ error = .integrity) ∨
      error = .integrity ∧ (k = .user r.id ∨ k = .account (Uuid.str r.id)) := by
  obtain checked | ⟨same, uses⟩ := key
  · simp only [insertion, List.mem_cons, List.not_mem_nil, or_false, Prod.mk.injEq] at checked
    obtain ⟨rfl, rfl⟩ | ⟨rfl, rfl⟩ := checked
    · exact Or.inl ⟨rfl, Or.inl rfl⟩
    · exact Or.inr (Or.inl ⟨rfl, Or.inl rfl⟩)
  · obtain rfl : error = .integrity := same
    obtain ⟨user, done, member⟩ := Registration.uses_iff.mp uses
    obtain ⟨id, username, email, _⟩ := userRow_ok lib done
    simp only [UserModel.entries, List.map_cons, List.map_nil, List.mem_cons, List.not_mem_nil,
      or_false, id, username, email] at member
    obtain rfl | rfl | rfl | rfl := member
    · exact Or.inr (Or.inr ⟨rfl, Or.inl rfl⟩)
    · exact Or.inl ⟨rfl, Or.inr rfl⟩
    · exact Or.inr (Or.inl ⟨rfl, Or.inr rfl⟩)
    · exact Or.inr (Or.inr ⟨rfl, Or.inr rfl⟩)

omit [DecidableEq τ] in
private theorem taken_of_used {P : UserModel → Prop} {k : RegKey}
    (stored : (db.rows k).isSome → ∃ user ∈ db.users.rows, P user)
    (fresh : ∀ user : UserModel, k ∈ user.entries.map Sigma.fst → P user)
    (results : ∀ t user, s.process t = .ended (.ok user) → (calls t).userRow lib = .ok user)
    (used : (db.rows k).isSome ∨ ∃ u result, s.process u = .ended (.ok result) ∧
      ((calls u).insertion lib).Uses k) : Taken db s P := by
  obtain before | ⟨u, user, ended, uses⟩ := used
  · exact Or.inl (stored before)
  · obtain ⟨row, done, member⟩ := Registration.uses_iff.mp uses
    obtain rfl := Except.ok.inj (done.symm.trans (results u user ended))
    exact Or.inr ⟨u, row, ended, fresh row member⟩

/-- A registration that is refused could not make its row, or its name, its email or its id
belongs to somebody who was there or came through; the name and the email are missed by the
SELECTs, and refused as a constraint, when their owner was not committed yet. And none waits
for ever: as long as one has not ended, one can go on. -/
theorem registrations_refused {aborts : τ → AuthErr → Prop}
    (run : Run (Guarded (fun _ a => ∀ error, a.2 = .abort error → aborts a.1 error)
      (stepsOf System.exec)) (startRegistrations lib calls db) steps s) :
    (∀ t error, s.process t = .ended (.error error) →
      aborts t error ∨ (calls t).userRow lib = .error error ∨
        (error = .app usernameExistsError ∨ error = .integrity) ∧
          Taken db s (fun u => u.username = (calls t).username) ∨
        (error = .app emailExistsError ∨ error = .integrity) ∧
          Taken db s (fun u => u.email = (calls t).email) ∨
        error = .integrity ∧ (Taken db s (fun u => u.id = (calls t).id) ∨
          (db.accounts.get? (Uuid.str (calls t).id)).isSome)) ∧
      ∀ t, (s.process t).outcome = none → ∃ u, (s.exec (u, .run)).isSome = true := by
  have results : ∀ t user, s.process t = .ended (.ok user) → (calls t).userRow lib = .ok user :=
    fun _ _ ended => userRow_of_ended run.ofGuarded ended
  refine ⟨fun t error ended => ?_, fun t open_ => ?_⟩
  · obtain abort | unmade | ⟨k, key, used⟩ := refused_by_winner run ended
    · exact Or.inl abort
    · right; left
      cases made : (calls t).userRow lib with
      | error e =>
        simp only [Registration.insertion, made] at unmade
        exact congrArg Except.error (Except.error.inj unmade)
      | ok user =>
        simp only [Registration.insertion, made] at unmade
        cases unmade
    · right; right
      obtain ⟨rfl, named⟩ | ⟨rfl, mailed⟩ | ⟨same, rfl | rfl⟩ := Registration.refused_key key
      · refine Or.inl ⟨named, taken_of_used (fun some_ => ?_) (fun user member => ?_) results used⟩
        · obtain ⟨user, found⟩ := Option.isSome_iff_exists.mp some_
          exact ⟨user, UsersTable.byUsername_eq_some.mp found⟩
        · simpa [UserModel.entries, eq_comm] using member
      · refine Or.inr (Or.inl ⟨mailed, taken_of_used (fun some_ => ?_) (fun user member => ?_)
          results used⟩)
        · obtain ⟨user, found⟩ := Option.isSome_iff_exists.mp some_
          exact ⟨user, List.mem_of_find?_eq_some found, by simpa using List.find?_some found⟩
        · simpa [UserModel.entries, eq_comm] using member
      · refine Or.inr (Or.inr ⟨same, Or.inl (taken_of_used (fun some_ => ?_)
          (fun user member => ?_) results used)⟩)
        · obtain ⟨user, found⟩ := Option.isSome_iff_exists.mp some_
          exact ⟨user, UsersTable.byId_eq_some.mp found⟩
        · simpa [UserModel.entries, eq_comm] using member
      · refine Or.inr (Or.inr ⟨same, ?_⟩)
        obtain opened | ⟨u, user, came, uses⟩ := used
        · exact Or.inr opened
        · obtain ⟨row, done, member⟩ := Registration.uses_iff.mp uses
          obtain rfl := Except.ok.inj (done.symm.trans (results u user came))
          have id : Uuid.str (calls t).id = Uuid.str row.id := by
            simpa [UserModel.entries] using member
          exact Or.inl (Or.inr ⟨u, row, came, (Uuid.str_injective id).symm⟩)
  · cases here : s.process t with
    | ended outcome =>
      rw [here] at open_
      cases open_
    | running n rest =>
      have low : ∀ k : RegKey, k.rank < 4 := by
        intro k
        cases k <;> simp [RegKey.rank]
      refine insertion_progress low ?_ (inserting_of_run run) here
      intro u rows result made
      obtain ⟨user, _, equal⟩ := map_eq_ok.mp made
      obtain ⟨rfl, rfl⟩ := Prod.mk.inj equal
      simp [UserModel.entries, RegKey.rank]

end Runs

section Example

private def namesakes : Bool → Registration
  | false => ⟨"alice", "alice@example.com", "Pass1word", 7, "salt"⟩
  | true => ⟨"alice", "other@example.com", "Pass2word", 8, "salt"⟩

private def bothLook : List (Bool × Op AuthErr) :=
  [(false, .run), (true, .run), (false, .run), (true, .run)] ++ List.replicate 5 (false, .run) ++
    [(true, .run), (true, .run)]

private def isStatement : Bool × Op AuthErr → Bool
  | (_, .run) => true
  | (_, .abort _) => false

private def givesUp (_ : Bool) (_ : AuthErr) : Prop := False

end Example

/-- The second Alice has found the name free, and fails on the constraint. -/
theorem namesake_fails_on_constraint : ∃ s : RegistrationSystem (Bool),
    s.process false = .ended (.ok alice) ∧ s.process true = .ended (.error .integrity) ∧
    ∃ order db', Run (registrationStep openLibrary namesakes) seededUsers order db' ∧
      s.committed = db'.rows ∧ ∀ user, (true, user) ∉ order := by
  have seen : (bothLook.foldlM System.exec (startRegistrations openLibrary namesakes
      seededUsers)).map (fun s => ((s.process false).outcome, (s.process true).outcome)) =
      some (some (.ok alice), some (.error .integrity)) := by
    decide +kernel
  obtain ⟨s, ran, same⟩ := Option.map_eq_some_iff.mp seen
  obtain ⟨first, second⟩ := Prod.mk.inj same
  have refused := Process.ended_of_outcome second
  obtain ⟨order, db', _, exactly, registered, rows, _⟩ := registrations_serial (Run.ofExec ran)
  refine ⟨s, Process.ended_of_outcome first, refused, order, db', registered, rows, ?_⟩
  intro user member
  rw [exactly, refused] at member
  cases member

/-- It is the other Alice who has the name. -/
theorem namesake_loses_to_alice : ∃ s : RegistrationSystem (Bool),
    s.process true = .ended (.error .integrity) ∧
      (Taken seededUsers s (fun u => u.username = "alice") ∨
        Taken seededUsers s (fun u => u.email = "other@example.com") ∨
        Taken seededUsers s (fun u => u.id = 8) ∨
        (seededUsers.accounts.get? (Uuid.str 8)).isSome) := by
  have seen : (bothLook.foldlM (fun s a => if isStatement a then System.exec s a else none)
      (startRegistrations openLibrary namesakes seededUsers)).map
        (fun s => (s.process true).outcome) = some (some (.error .integrity)) := by
    decide +kernel
  obtain ⟨s, ran, same⟩ := Option.map_eq_some_iff.mp seen
  have refused := Process.ended_of_outcome same
  have run : Run (Guarded (fun _ a => ∀ error, a.2 = .abort error → givesUp a.1 error)
      (stepsOf System.exec)) (startRegistrations openLibrary namesakes seededUsers) bothLook s := by
    refine (Run.ofGuardedExec ran).mono ?_
    rintro s ⟨t, op⟩ s' ⟨statement, done⟩
    refine ⟨fun error same => ?_, done⟩
    obtain rfl : op = .abort error := same
    cases statement
  refine ⟨s, refused, ?_⟩
  obtain gone | unmade | named | mailed | drawn := (registrations_refused run).1 true _ refused
  · exact gone.elim
  · cases unmade
  · exact Or.inl named.2
  · exact Or.inr (Or.inl mailed.2)
  · exact Or.inr (Or.inr drawn.2)

end PredictionMarket
