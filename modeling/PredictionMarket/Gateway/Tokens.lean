/- PredictionMarket/Gateway/Tokens
   digest: Access and refresh tokens, passwords, and the ids that tokens carry. -/

import PredictionMarket.Domain.Types
import PredictionMarket.Library.Result
import PredictionMarket.Market.Cursor
import PredictionMarket.Store.Query
import Mathlib.Tactic.IntervalCases
import Mathlib.Tactic.Ring

set_option autoImplicit false
set_option relaxedAutoImplicit false

namespace PredictionMarket

open Library

def usernameExistsError : AppError := ⟨1001, "Username already exists", 409⟩

def emailExistsError : AppError := ⟨1002, "Email already exists", 409⟩

def invalidCredentialsError : AppError := ⟨1003, "Invalid username or password", 401⟩

def accountDisabledError : AppError := ⟨1004, "Account is disabled", 422⟩

def invalidRefreshTokenError : AppError := ⟨1005, "Refresh token is invalid or expired", 401⟩

/-- What the gateway raises: an error of its own, an `HTTPException`, an exception of
the Python library that nothing catches, or a constraint of the schema. -/
inductive AuthErr
  | app (e : AppError)
  | http (statusCode : Int) (detail : String)
  | py (e : PyErr)
  | integrity
  deriving DecidableEq

abbrev Uuid := BitVec 128

/-- The `n` lowest hexadecimal digits of a number. -/
def hexDigits (n value : Nat) : List Char :=
  (List.range n).reverse.map (fun i => Nat.digitChar (value / 16 ^ i % 16))

/-- `str(uuid)`. -/
def Uuid.str (id : Uuid) : UserId :=
  let hex := hexDigits 32 id.toNat
  String.ofList (hex.take 8 ++ '-' :: (hex.drop 8).take 4 ++ '-' :: (hex.drop 12).take 4 ++
    '-' :: (hex.drop 16).take 4 ++ '-' :: hex.drop 20)

example : Uuid.str 0x0000000000004000a000000000000001 = AMM_USER_ID := by decide

inductive TokenType
  | access | refresh
  deriving DecidableEq

def TokenType.name : TokenType → String
  | .access => "access"
  | .refresh => "refresh"

structure TokenPayload where
  sub : String
  type : TokenType
  iat : Timestamp
  exp : Timestamp
  deriving DecidableEq

/-- The claims of a decoded token that are read. The decoder refuses a `sub` that is
no text. -/
structure TokenClaims where
  sub : Option String
  type : Option Json

def TokenPayload.claims (p : TokenPayload) : TokenClaims := ⟨some p.sub, some (.str p.type.name)⟩

/-- `timegm(t.utctimetuple())`, which drops the microseconds. -/
def timegm (t : Timestamp) : Int := t / 1000000

/-- The packages that the gateway goes through: `jwt` with the secret and the algorithm
of the settings, where `none` is a `JWTError`, `bcrypt`, where `none` is a `ValueError`,
and the parser of `UUID`. -/
structure AuthLibrary (Token : Type) where
  encode : TokenPayload → Token
  decode : Timestamp → Token → Option TokenClaims
  hashpw : String → String → Option String
  checkpw : String → String → Option Bool
  uuid : String → Option Uuid

structure AuthLibrary.Documented {Token : Type} (lib : AuthLibrary Token) : Prop where
  decode_encode : ∀ now p, lib.decode now (lib.encode p) =
    if timegm now ≤ timegm p.exp then some p.claims else none
  checkpw_hashpw : ∀ plain salt hashed, lib.hashpw plain salt = some hashed →
    lib.checkpw plain hashed = some true
  uuid_str : ∀ id, lib.uuid (Uuid.str id) = some id

structure Settings where
  JWT_EXPIRE_MINUTES : Int := 30
  JWT_REFRESH_EXPIRE_DAYS : Int := 7

/-- `timedelta(minutes=...)`, in microseconds. -/
def Settings.accessExpire (settings : Settings) : Int :=
  settings.JWT_EXPIRE_MINUTES * 60 * 1000000

/-- `timedelta(days=...)`. -/
def Settings.refreshExpire (settings : Settings) : Int :=
  settings.JWT_REFRESH_EXPIRE_DAYS * 24 * 60 * 60 * 1000000

variable {Token : Type} (lib : AuthLibrary Token) (settings : Settings)

def createAccessToken (userId : String) (now : Timestamp) : Token :=
  lib.encode ⟨userId, .access, now, now + settings.accessExpire⟩

def createRefreshToken (userId : String) (now : Timestamp) : Token :=
  lib.encode ⟨userId, .refresh, now, now + settings.refreshExpire⟩

def raiseAuthError : TokenType → AuthErr
  | .access => .app invalidCredentialsError
  | .refresh => .app invalidRefreshTokenError

/-- Whether `payload.get("type")` is the text that was expected. -/
def TokenClaims.hasType (claims : TokenClaims) (expectedType : TokenType) : Bool :=
  match claims.type with
  | some (.str text) => text = expectedType.name
  | _ => false

def decodeToken (token : Token) (expectedType : TokenType) (now : Timestamp) :
    Except AuthErr TokenClaims :=
  match lib.decode now token with
  | none => throw (raiseAuthError expectedType)
  | some payload =>
    if payload.hasType expectedType then pure payload else throw (raiseAuthError expectedType)

def hashPassword (plain salt : String) : Except AuthErr String :=
  match lib.hashpw plain salt with
  | none => throw (.py .valueError)
  | some hashed => pure hashed

def verifyPassword (plain hashed : String) : Except AuthErr Bool :=
  match lib.checkpw plain hashed with
  | none => throw (.py .valueError)
  | some verified => pure verified

@[simp] theorem TokenPayload.claims_hasType (p : TokenPayload) (expectedType : TokenType) :
    p.claims.hasType expectedType = decide (p.type = expectedType) := by
  cases h : p.type <;> cases expectedType <;>
    simp [claims, TokenClaims.hasType, TokenType.name, h]

theorem Uuid.str_ne_empty (id : Uuid) : Uuid.str id ≠ "" := by
  intro empty
  have dashes := congrArg (fun s => '-' ∈ s.toList) empty
  simp [Uuid.str] at dashes

variable {lib settings} {now : Timestamp} {expectedType : TokenType}

theorem decodeToken_encode (docs : lib.Documented) (p : TokenPayload) :
    decodeToken lib (lib.encode p) expectedType now =
      if p.type = expectedType ∧ timegm now ≤ timegm p.exp then .ok p.claims
      else .error (raiseAuthError expectedType) := by
  unfold decodeToken
  rw [docs.decode_encode]
  by_cases inTime : timegm now ≤ timegm p.exp
  · by_cases same : p.type = expectedType
    · simp only [inTime, if_true, TokenPayload.claims_hasType, same, decide_true, and_self]
      rfl
    · simp only [inTime, if_true, TokenPayload.claims_hasType, same, decide_false, false_and,
        if_false, Bool.false_eq_true, throw_eq_error]
  · simp only [inTime, if_false, and_false, throw_eq_error]

theorem decodeToken_ok {token : Token} {payload : TokenClaims}
    (done : decodeToken lib token expectedType now = .ok payload) :
    lib.decode now token = some payload ∧ payload.hasType expectedType = true := by
  unfold decodeToken at done
  cases decoded : lib.decode now token with
  | none =>
    rw [decoded] at done
    cases done
  | some claims =>
    rw [decoded] at done
    by_cases same : claims.hasType expectedType = true
    · simp only [same, if_true] at done
      obtain rfl := Except.ok.inj done
      exact ⟨rfl, same⟩
    · simp only [same] at done
      cases done

theorem verifyPassword_ok {plain hashed : String} {verified : Bool}
    (done : verifyPassword lib plain hashed = .ok verified) :
    lib.checkpw plain hashed = some verified := by
  unfold verifyPassword at done
  cases checked : lib.checkpw plain hashed with
  | none =>
    rw [checked] at done
    cases done
  | some verified' =>
    rw [checked] at done
    rw [Except.ok.inj done]

section Uuid

private theorem hexDigits_succ (n value : Nat) :
    hexDigits (n + 1) value = Nat.digitChar (value / 16 ^ n % 16) :: hexDigits n value := by
  simp [hexDigits, List.range_succ]

@[simp] theorem length_hexDigits (n value : Nat) : (hexDigits n value).length = n := by
  simp [hexDigits]

def hexValue (c : Char) : Nat := if c.toNat < 58 then c.toNat - 48 else c.toNat - 87

private theorem hexValue_digitChar {d : Nat} (digit : d < 16) :
    hexValue (Nat.digitChar d) = d ∧ Nat.digitChar d ≠ '-' := by
  interval_cases d <;> decide

private theorem foldl_hexDigits (n value : Nat) : ∀ front,
    (hexDigits n value).foldl (fun total c => total * 16 + hexValue c) front =
      front * 16 ^ n + value % 16 ^ n := by
  induction n with
  | zero =>
    intro front
    simp [hexDigits, Nat.mod_one]
  | succ n ih =>
    intro front
    have digit := (hexValue_digitChar (Nat.mod_lt (value / 16 ^ n) (by decide : 0 < 16))).1
    rw [hexDigits_succ, List.foldl_cons, ih, digit, Nat.mod_pow_succ]
    ring

/-- `UUID(text)` on a text of digits and dashes. -/
def parseUuid (text : String) : Option Uuid :=
  let hex := text.toList.filter (· ≠ '-')
  if hex.length = 32 then some (BitVec.ofNat 128 (hex.foldl (fun n c => n * 16 + hexValue c) 0))
  else none

private theorem groups_append {α : Type} (l : List α) :
    l.take 8 ++ ((l.drop 8).take 4 ++ ((l.drop 12).take 4 ++
      ((l.drop 16).take 4 ++ l.drop 20))) = l := by
  have last : (l.drop 16).take 4 ++ l.drop 20 = l.drop 16 := by
    simpa using List.take_append_drop 4 (l.drop 16)
  have third : (l.drop 12).take 4 ++ l.drop 16 = l.drop 12 := by
    simpa using List.take_append_drop 4 (l.drop 12)
  have second : (l.drop 8).take 4 ++ l.drop 12 = l.drop 8 := by
    simpa using List.take_append_drop 4 (l.drop 8)
  rw [last, third, second, List.take_append_drop]

theorem parseUuid_str (id : Uuid) : parseUuid (Uuid.str id) = some id := by
  have digits : ∀ c ∈ hexDigits 32 id.toNat, c ≠ '-' := by
    intro c member
    obtain ⟨i, _, rfl⟩ := List.mem_map.mp member
    exact (hexValue_digitChar (Nat.mod_lt _ (by decide))).2
  have dashless : (hexDigits 32 id.toNat).filter (· ≠ '-') = hexDigits 32 id.toNat := by
    rw [List.filter_eq_self]
    simpa using digits
  have hex : (Uuid.str id).toList.filter (· ≠ '-') = hexDigits 32 id.toNat := by
    conv_rhs => rw [← dashless, ← groups_append (hexDigits 32 id.toNat)]
    simp [Uuid.str, List.append_assoc]
  have small : id.toNat % 16 ^ 32 = id.toNat := Nat.mod_eq_of_lt id.isLt
  simp only [parseUuid, hex, length_hexDigits, if_true, foldl_hexDigits, small, Nat.zero_mul,
    Nat.zero_add, BitVec.ofNat_toNat, BitVec.setWidth_eq]

theorem Uuid.str_injective : Function.Injective Uuid.str := by
  intro a b same
  have parsed := parseUuid_str a
  rw [same, parseUuid_str] at parsed
  exact (Option.some.inj parsed).symm

end Uuid

end PredictionMarket
