import Nalang.Python.Calendar

/-!
# Data of the matchmaking service

The `User` row as far as the matchmaking reads it, the record kept in Redis for
a connected user, the JSON a client may send and the events the server sends.
-/

namespace Nalang.Matchmaking
open Python

structure UserId where
  val : ℕ
  pos : 0 < val
  deriving DecidableEq

/-- The identity of an accepted `WebSocket` object. -/
structure Socket where
  id : ℕ
  deriving DecidableEq

structure User where
  id : UserId
  genderLinks : List ℤ
  languageLinks : List ℤ
  birthDate : Option DateTime

structure UserData where
  id : UserId
  genderId : Option ℤ
  languages : List ℤ
  birthDate : Option String
  deriving DecidableEq

structure Filters where
  genderId : Option String
  languageId : Option String
  minAge : Option String
  maxAge : Option String
  deriving DecidableEq

/-- The value of `call:user:{id}`. Its `json.dumps` and `json.loads` lose nothing. -/
structure CallRecord where
  user : UserData
  filters : Filters
  deriving DecidableEq

inductive PyError
  | attributeError
  | indexError
  | keyError
  | runtimeError
  | typeError
  | unicodeEncodeError
  | valueError
  | webSocketDisconnect
  deriving DecidableEq

structure QueryParams where
  items : List (String × String)

/-- Of several values for one name the last one is returned. -/
def QueryParams.get (q : QueryParams) (name : String) : Option String :=
  (q.items.reverse.find? (fun item => item.1 = name)).map Prod.snd

def User.userData (user : User) : UserData where
  id := user.id
  genderId := user.genderLinks.head?
  languages := user.languageLinks
  birthDate := user.birthDate.map DateTime.str

def QueryParams.filters (q : QueryParams) : Filters where
  genderId := q.get "filter_gender_id"
  languageId := q.get "filter_language_id"
  minAge := q.get "filter_min_age"
  maxAge := q.get "filter_max_age"

/-- What a client may send. A text with a lone surrogate, as an escape may give it, is no
`String`. -/
inductive Json where
  | null
  | bool (b : Bool)
  | int (n : ℤ)
  | float (text : String)
  | str (s : String)
  | surrogates (codePoints : List ℕ)
  | array (items : List Json)
  | object (fields : List (String × Json))

/-- `msg.get(key)`: only a `dict` has the method, and the last of equal keys was kept. -/
def Json.get (msg : Json) (key : String) : Except PyError Json :=
  match msg with
  | .object fields => .ok (((fields.reverse.find? fun f => f.1 = key).map Prod.snd).getD .null)
  | _ => .error .attributeError

/-- Whether `print` succeeds. It encodes a text in UTF-8, which has no surrogates, and escapes them
in the items of a list or a dict. -/
def Json.printable : Json → Bool
  | .surrogates _ => false
  | _ => true

@[simp] theorem Json.printable_str (s : String) : (Json.str s).printable := rfl

/-- The value as a key of `matching_candidates`: lists and dicts cannot be hashed, and a hashable
value that is not a string equals no key. -/
def Json.asRoomKey : Json → Except PyError (Option String)
  | .str s => .ok (some s)
  | .array _ => .error .typeError
  | .object _ => .error .typeError
  | _ => .ok none

inductive ServerEvent
  | matchProposal (room : String) (partnerId : UserId)
  | matched (room : String)
  | rejected
  | disconnected
  deriving DecidableEq

/-- `f"room_{user1_id}_{user2_id}_{uuid.uuid4().hex[:6]}"`; `hex` stands for the random part. -/
def roomName (user1 user2 : UserId) (hex : String) : String :=
  "room_" ++ toString user1.val ++ "_" ++ toString user2.val ++ "_" ++ hex

theorem append_separator_inj {α : Type*} {a : α} {xs ys us vs : List α} (hx : a ∉ xs) (hy : a ∉ ys)
    (h : xs ++ a :: us = ys ++ a :: vs) : xs = ys ∧ us = vs := by
  induction xs generalizing ys with
  | nil =>
    cases ys with
    | nil => simpa using h
    | cons y ys =>
      simp only [List.nil_append, List.cons_append, List.cons.injEq] at h
      exact absurd (h.1 ▸ List.mem_cons_self) hy
  | cons x xs ih =>
    cases ys with
    | nil =>
      simp only [List.nil_append, List.cons_append, List.cons.injEq] at h
      exact absurd (h.1 ▸ List.mem_cons_self) hx
    | cons y ys =>
      simp only [List.cons_append, List.cons.injEq, List.mem_cons, not_or] at h hx hy
      obtain ⟨hxs, hus⟩ := ih hx.2 hy.2 h.2
      exact ⟨by rw [h.1, hxs], hus⟩

theorem UserId.ext_val {u v : UserId} (h : u.val = v.val) : u = v := by
  cases u
  cases v
  simpa using h

theorem roomName_inj {u₁ u₂ v₁ v₂ : UserId} {g h : String}
    (e : roomName u₁ u₂ g = roomName v₁ v₂ h) : u₁ = v₁ ∧ u₂ = v₂ := by
  have hu := fun n => Nat.underscore_not_in_toDigits (n := n)
  have hl := congrArg String.toList e
  simp only [roomName, String.toList_append, Nat.toString_eq_repr, Nat.toList_repr,
    show "_".toList = ['_'] from rfl, List.append_assoc, List.cons_append, List.nil_append] at hl
  obtain ⟨h₁, hl⟩ := append_separator_inj (hu _) (hu _) (List.append_cancel_left hl)
  obtain ⟨h₂, _⟩ := append_separator_inj (hu _) (hu _) hl
  have hdigits : ∀ a b : ℕ, Nat.toDigits 10 a = Nat.toDigits 10 b → a = b := by
    intro a b hd
    have hn := congrArg (fun ds => Nat.ofDigitChars 10 ds 0) hd
    simpa only [Nat.ofDigitChars_ten_toDigits] using hn
  exact ⟨UserId.ext_val (hdigits _ _ h₁), UserId.ext_val (hdigits _ _ h₂)⟩

end Nalang.Matchmaking
