import Mathlib.Data.Int.Notation
import Mathlib.Data.List.Nodup
import Mathlib.Data.List.Perm.Basic
import Mathlib.Tactic.SplitIfs
import Nalang.Library.ExpiringStore
import Nalang.Python.Calendar

/-!
# Users, tokens and the libraries the accounts rest on

The `users` table keeps its keys unique. Token signing (LiveKit's too), password
hashing and the check of e-mail addresses are the work of libraries, and stand here
as parameters.
-/

namespace Nalang.Accounts

/-- What a request is answered with instead of a result. No handler catches a `serverError`. -/
inductive HttpError
  | httpException (status : ℕ) (detail : String)
  | serverError
  deriving DecidableEq

/-- PostgreSQL takes no text with the character U+0000. -/
def fitsText (text : String) : Bool := !text.toList.contains (Char.ofNat 0)

structure EmailStr where
  val : String
  hasAt : '@' ∈ val.toList
  fits : fitsText val = true
  deriving DecidableEq

theorem EmailStr.ne_empty (e : EmailStr) : e.val ≠ "" := by
  intro h
  have hat := e.hasAt
  rw [h] at hat
  cases hat

def kimsEmail : EmailStr := ⟨"kim@mail.com", by decide, by decide⟩

def leesEmail : EmailStr := ⟨"lee@mail.com", by decide, by decide⟩

/-! ### The table -/

structure User where
  id : ℕ
  email : EmailStr
  hashedPassword : Option String
  name : String
  profileImage : Option String
  provider : Option String
  birthDate : Option Python.DateTime
  deriving DecidableEq

structure Users where
  rows : List User
  nextId : ℕ
  ids : (rows.map User.id).Nodup
  emails : (rows.map fun u => u.email.val).Nodup
  fresh : ∀ u ∈ rows, u.id < nextId

namespace Users

def empty : Users := ⟨[], 1, List.nodup_nil, List.nodup_nil, fun _ h => absurd h List.not_mem_nil⟩

def getUserByEmail (t : Users) (email : String) : Option User :=
  t.rows.find? fun u => u.email.val = email

def getUserById (t : Users) (id : ℤ) : Option User :=
  t.rows.find? fun u => (u.id : ℤ) = id

theorem getUserByEmail_eq_some {t : Users} {email : String} {u : User}
    (h : t.getUserByEmail email = some u) : u ∈ t.rows ∧ u.email.val = email :=
  ⟨List.mem_of_find?_eq_some h, by simpa using List.find?_some h⟩

theorem fits_of_getUserByEmail {t : Users} {email : String} {u : User}
    (h : t.getUserByEmail email = some u) : fitsText email = true := by
  rw [← (getUserByEmail_eq_some h).2]
  exact u.email.fits

theorem getUserByEmail_eq_none {t : Users} {email : String} :
    t.getUserByEmail email = none ↔ ∀ u ∈ t.rows, u.email.val ≠ email := by
  simp [getUserByEmail, List.find?_eq_none]

theorem getUserById_eq_some {t : Users} {id : ℤ} {u : User} (h : t.getUserById id = some u) :
    u ∈ t.rows ∧ (u.id : ℤ) = id :=
  ⟨List.mem_of_find?_eq_some h, by simpa using List.find?_some h⟩

theorem getUserById_of_mem {t : Users} {u : User} (h : u ∈ t.rows) :
    t.getUserById u.id = some u := by
  obtain ⟨before, after, heq⟩ := List.append_of_mem h
  have hids := t.ids
  unfold getUserById
  rw [heq, List.map_append, List.map_cons, List.nodup_append] at hids
  rw [heq, List.find?_append, List.find?_eq_none.mpr]
  · simp
  · intro v hv hid
    have hsame : v.id = u.id := Int.ofNat.inj (of_decide_eq_true hid)
    exact hids.2.2 v.id (List.mem_map_of_mem hv) u.id (List.mem_cons_self ..) hsame

/-- The unique index on `email` refuses a second row. The sequence has moved on by then. -/
def insert (t : Users) (u : User) : Option User × Users :=
  if h : t.getUserByEmail u.email.val = none then
    let row := { u with id := t.nextId }
    (some row, {
      rows := t.rows ++ [row]
      nextId := t.nextId + 1
      ids := by
        rw [List.map_append, List.nodup_append]
        refine ⟨t.ids, List.nodup_singleton _, ?_⟩
        rintro _ hx _ hy rfl
        obtain ⟨v, hv, he⟩ := List.mem_map.mp hx
        rw [List.mem_singleton.mp hy] at he
        exact absurd he (Nat.ne_of_lt (t.fresh v hv))
      emails := by
        rw [List.map_append, List.nodup_append]
        refine ⟨t.emails, List.nodup_singleton _, ?_⟩
        rintro _ hx _ hy rfl
        obtain ⟨v, hv, he⟩ := List.mem_map.mp hx
        rw [List.mem_singleton.mp hy] at he
        exact getUserByEmail_eq_none.mp h v hv he
      fresh := by
        intro v hv
        rcases List.mem_append.mp hv with hv | hv
        · exact Nat.lt_succ_of_lt (t.fresh v hv)
        · rw [List.mem_singleton.mp hv]
          exact Nat.lt_succ_self _ })
  else
    (none, { t with
      nextId := t.nextId + 1
      fresh := fun v hv => Nat.lt_succ_of_lt (t.fresh v hv) })

theorem insert_eq_some {t : Users} {u row : User} (h : (t.insert u).1 = some row) :
    t.getUserByEmail u.email.val = none ∧ row = { u with id := t.nextId } ∧
      (t.insert u).2.rows = t.rows ++ [row] := by
  unfold insert at h ⊢
  split at h
  · rename_i hn
    cases h
    rw [dif_pos hn]
    exact ⟨hn, rfl, rfl⟩
  · cases h

theorem insert_eq_none {t : Users} {u : User} (h : (t.insert u).1 = none) :
    (t.insert u).2.rows = t.rows := by
  unfold insert at h ⊢
  split at h
  · cases h
  · rename_i hn
    rw [dif_neg hn]

end Users

/-! ### Libraries and settings -/

structure Claims where
  sub : Option String
  exp : ℤ
  deriving DecidableEq

/-- A `JWTError`, or what `int` raises on a claim such as `exp` that is no number: a `TypeError` or
an `OverflowError`, which `jose` does not catch. -/
inductive DecodeError
  | jwtError
  | other
  deriving DecidableEq

/-- `jose.jwt`. Its `decode` is called with `algorithms=["HS256"]`, at a time in seconds. -/
structure Jose where
  encode : (algorithm key : String) → Claims → Option String
  decode : (key : String) → (now : ℕ) → (token : String) → Except DecodeError Claims

/-- What the handlers rely on: a token is read back by the key it was signed with until it expires,
under `HS256` only, and what is read from it is what was signed. -/
structure Jose.Lawful (jose : Jose) : Prop where
  encodes : ∀ key claims, jose.encode "HS256" key claims ≠ none
  decodes : ∀ key claims token, jose.encode "HS256" key claims = some token →
    ∀ now : ℕ, jose.decode key now token =
      if (now : ℤ) ≤ claims.exp then .ok claims else .error .jwtError
  refuses : ∀ algorithm key claims token, algorithm ≠ "HS256" →
    jose.encode algorithm key claims = some token →
      ∀ key' now, jose.decode key' now token = .error .jwtError
  faithful : ∀ algorithm key claims token, jose.encode algorithm key claims = some token →
    ∀ key' now claims', jose.decode key' now token = .ok claims' → claims' = claims

/-- `passlib`'s `CryptContext`; an exception is `none`. -/
structure Crypt where
  hash : (salt password : String) → Option String
  verify : (plain hashed : String) → Option Bool

structure Settings where
  jwtSecretKey : String
  jwtRefreshSecretKey : String
  algorithm : String
  accessTokenExpireMinutes : ℤ
  refreshTokenExpireDays : ℤ
  /-- of the server's clock, at an instant in UTC -/
  utcOffset : ℕ → ℤ

/-- `datetime.now()`, in seconds. It repeats an hour when summer time ends. -/
def Settings.localNow (s : Settings) (now : ℕ) : ℤ := now + s.utcOffset now

structure VideoGrants where
  roomJoin : Bool
  room : String
  canSubscribe : Bool
  canPublish : Bool
  canPublishData : Bool
  deriving DecidableEq

structure JoinToken where
  identity : String
  name : String
  grants : VideoGrants
  deriving DecidableEq

/-- `livekit-api`: `to_jwt()` signs the token or raises. -/
structure LiveKit where
  refuses : JoinToken → Bool

/-- A token for joining has to name an identity and a room. -/
def LiveKit.Strict (livekit : LiveKit) : Prop :=
  ∀ token, livekit.refuses token = true ↔
    token.grants.roomJoin = true ∧ (token.identity = "" ∨ token.grants.room = "")

structure Env where
  jose : Jose
  crypt : Crypt
  livekit : LiveKit
  emailStr : String → Option EmailStr
  settings : Settings

/-! ### Tokens that only name their key -/

def untilMark (cs : List Char) : List Char := cs.takeWhile (· ≠ '_')

def afterMark (cs : List Char) : List Char := (cs.dropWhile (· ≠ '_')).tail

theorem untilMark_digits (n : ℕ) (cs : List Char) :
    untilMark (Nat.toDigits 10 n ++ '_' :: cs) = Nat.toDigits 10 n := by
  unfold untilMark
  rw [List.takeWhile_append_of_pos]
  · simp
  · intro c hc
    exact decide_eq_true fun h => Nat.underscore_not_in_toDigits (h ▸ hc)

theorem afterMark_digits (n : ℕ) (cs : List Char) :
    afterMark (Nat.toDigits 10 n ++ '_' :: cs) = cs := by
  unfold afterMark
  rw [List.dropWhile_append_of_pos]
  · simp
  · intro c hc
    exact decide_eq_true fun h => Nat.underscore_not_in_toDigits (h ▸ hc)

def plainText (key : String) (claims : Claims) : List Char :=
  (if claims.exp < 0 then '-' else '+') :: Nat.toDigits 10 claims.exp.natAbs ++ '_' ::
    (Nat.toDigits 10 key.toList.length ++ '_' :: (key.toList ++
      match claims.sub with
      | none => []
      | some sub => '=' :: sub.toList))

def plainExp (sign : Char) (cs : List Char) : ℤ :=
  let n : ℤ := Nat.ofDigitChars 10 (untilMark cs) 0
  if sign = '-' then -n else n

def plainSub : List Char → Option String
  | [] => none
  | _ :: sub => some (String.ofList sub)

def plainDecode (key : String) (now : ℕ) (token : String) : Except DecodeError Claims :=
  match token.toList with
  | [] => .error .jwtError
  | sign :: cs =>
    let length := Nat.ofDigitChars 10 (untilMark (afterMark cs)) 0
    let rest := afterMark (afterMark cs)
    if rest.take length = key.toList ∧ (now : ℤ) ≤ plainExp sign cs then
      .ok ⟨plainSub (rest.drop length), plainExp sign cs⟩
    else .error .jwtError

def plainJose : Jose where
  encode algorithm key claims :=
    if algorithm = "HS256" then some (String.ofList (plainText key claims)) else none
  decode := plainDecode

theorem plainDecode_text (key key' : String) (now : ℕ) (claims : Claims) :
    plainDecode key' now (String.ofList (plainText key claims)) =
      if key.toList = key'.toList ∧ (now : ℤ) ≤ claims.exp then .ok claims
      else .error .jwtError := by
  have hexp : plainExp (if claims.exp < 0 then '-' else '+') (Nat.toDigits 10 claims.exp.natAbs ++
      '_' :: (Nat.toDigits 10 key.toList.length ++ '_' :: (key.toList ++
        match claims.sub with
        | none => []
        | some sub => '=' :: sub.toList))) = claims.exp := by
    unfold plainExp
    rw [untilMark_digits, Nat.ofDigitChars_ten_toDigits]
    by_cases hneg : claims.exp < 0
    · simp only [hneg, if_true]
      omega
    · simp only [hneg, if_false, show ¬ '+' = '-' by decide]
      omega
  unfold plainDecode plainText
  simp only [String.toList_ofList, List.cons_append]
  rw [hexp, afterMark_digits, untilMark_digits, afterMark_digits, Nat.ofDigitChars_ten_toDigits,
    List.take_left, List.drop_left]
  cases claims with
  | mk sub exp =>
    cases sub with
    | none => rfl
    | some sub => simp only [plainSub, String.ofList_toList]

theorem plainJose_lawful : plainJose.Lawful where
  encodes key claims := by simp [plainJose]
  decodes key claims token h now := by
    cases h
    change plainDecode key now _ = _
    rw [plainDecode_text]
    simp
  refuses algorithm key claims token halg h := by
    change (if algorithm = "HS256" then _ else none) = _ at h
    rw [if_neg halg] at h
    cases h
  faithful algorithm key claims token h key' now claims' hdec := by
    change (if algorithm = "HS256" then _ else none) = _ at h
    split_ifs at h
    cases h
    change plainDecode key' now _ = _ at hdec
    rw [plainDecode_text] at hdec
    split_ifs at hdec
    exact (Except.ok.inj hdec).symm

def plainEnv : Env where
  jose := plainJose
  crypt := ⟨fun _ password => some password, fun plain hashed => some (plain = hashed)⟩
  livekit := ⟨fun token =>
    token.grants.roomJoin && (decide (token.identity = "") || decide (token.grants.room = ""))⟩
  emailStr email :=
    if h : '@' ∈ email.toList ∧ fitsText email = true then some ⟨email, h.1, h.2⟩ else none
  settings := ⟨"access", "refresh", "HS256", 30, 7, fun _ => 0⟩

def Env.Normalises (env : Env) : Prop :=
  ∀ s email, env.emailStr s = some email → env.emailStr email.val = some email

theorem plainEnv_strict : plainEnv.livekit.Strict := by
  intro token
  simp [plainEnv]

theorem plainEnv_normalises : plainEnv.Normalises := by
  intro _ email _
  exact dif_pos ⟨email.hasAt, email.fits⟩

end Nalang.Accounts
