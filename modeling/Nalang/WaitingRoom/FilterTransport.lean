import Nalang.Library.QueryString
import Nalang.Matchmaking.Coroutines
import Nalang.Session.Client

/-!
# From the button to the matchmaking

The chosen filters travel in the address of the waiting page, become numbers there, 0 for
what is missing, and go on in the address of the socket under other names.
-/

namespace Nalang.WaitingRoom
open Matchmaking

/-- An integer below 2^53, or any other number by the text it is printed as. -/
inductive JsNumber
  | int (n : Fin (2 ^ 53))
  | other (text : String)
  deriving DecidableEq

namespace JsNumber

/-- `String(n)`, and a number in a template string. -/
def toText : JsNumber → String
  | .int n => toString n.val
  | .other text => text

def truthy : JsNumber → Bool
  | .int n => n.val ≠ 0
  | .other text => text ≠ "NaN"

/-- `Number(text)` for a text or `null`. The texts that are not all digits are read by `readOther`,
and so are the integers from 2^53 on. -/
def ofText (readOther : String → JsNumber) : Option String → JsNumber
  | none => .int 0
  | some text =>
    if text = "" then .int 0
    else if text.toList.all Char.isDigit then
      if h : Nat.ofDigitChars 10 text.toList 0 < 2 ^ 53 then .int ⟨_, h⟩ else readOther text
    else readOther text

theorem ofText_toText (readOther : String → JsNumber) (n : Fin (2 ^ 53)) :
    ofText readOther (some (JsNumber.int n).toText) = .int n := by
  have hdecimal := Python.decimal_toString n.val
  have htext : (toString n.val).toList = Nat.toDigits 10 n.val := by
    rw [Nat.toString_eq_ofList_toDigits, String.toList_ofList]
  have hne : toString n.val ≠ "" := by
    intro hempty
    rw [hempty] at htext
    exact hdecimal.nonempty htext.symm
  have hvalue : Nat.ofDigitChars 10 (toString n.val).toList 0 = n.val := by
    rw [htext, Nat.ofDigitChars_ten_toDigits]
  have hdigits : (toString n.val).toList.all Char.isDigit := by
    rw [htext, List.all_eq_true]
    exact hdecimal.isDigit
  simp only [ofText, toText, if_neg hne, if_pos hdigits, hvalue, n.isLt, dite_true]

end JsNumber

/-! ### The pages -/

structure FilterValues where
  genderId : Option JsNumber
  languageId : Option JsNumber
  minAge : Option JsNumber
  maxAge : Option JsNumber

/-- `if (value) query.append(name, String(value))`. -/
def appended (name : String) (value : Option JsNumber) : List (String × String) :=
  ((value.filter JsNumber.truthy).map fun n => (name, n.toText)).toList

def FilterValues.items (filters : FilterValues) : List (String × String) :=
  appended "genderId" filters.genderId ++ appended "languageId" filters.languageId ++
    appended "minAge" filters.minAge ++ appended "maxAge" filters.maxAge

/-- The address the click leads to. Without a token it only alerts. -/
def handleClick (accessToken : Option String) (filters : Option FilterValues) : Option String :=
  (Session.truthy accessToken).map fun _ =>
    "/waiting?" ++ QueryString.serialize (filters.elim [] FilterValues.items)

/-- `location.search`: from the first `?` up to a `#`, and nothing for a `?` alone. -/
def locationSearch (path : String) : String :=
  let search := (path.toList.takeWhile (· ≠ '#')).dropWhile (· ≠ '?')
  if search = ['?'] then "" else String.ofList search

/-- `new URLSearchParams(search)`: a leading `?` does not count. -/
def searchParams (search : String) : List (String × String) :=
  match search.toList with
  | '?' :: cs => QueryString.parse (String.ofList cs)
  | _ => QueryString.parse search

/-- `searchParams.get(name)`: the first of several values, `null` without one. -/
def paramValue (params : List (String × String)) (name : String) : Option String :=
  (params.find? fun item => item.1 = name).map Prod.snd

structure ServerUrl where
  text : String
  pathOnly : ∀ c ∈ text.toList, c ≠ '?' ∧ c ≠ '#'

/-- `if (value !== undefined && value !== 0) url += ...`. -/
def addFilter (url name : String) (value : Option JsNumber) : String :=
  match value with
  | none => url
  | some n => if n = .int 0 then url else url ++ "&" ++ name ++ "=" ++ n.toText

def connectUrl (server : ServerUrl) (token : String) (filters : Option FilterValues) : String :=
  let url := server.text ++ "/ws/waiting?token=" ++ token
  match filters with
  | none => url
  | some filters =>
    let url := addFilter url "filter_gender_id" filters.genderId
    let url := addFilter url "filter_min_age" filters.minAge
    let url := addFilter url "filter_max_age" filters.maxAge
    addFilter url "filter_language_id" filters.languageId

/-- What the effect of the waiting page opens a socket to. Without a token it does nothing. -/
def waitingEffect (readOther : String → JsNumber) (server : ServerUrl) (accessToken : Option String)
    (search : String) : Option String :=
  (Session.truthy accessToken).map fun token =>
    let params := searchParams search
    let number := fun name => JsNumber.ofText readOther (paramValue params name)
    connectUrl server token (some {
      genderId := some (number "genderId")
      languageId := some (number "languageId")
      minAge := some (number "minAge")
      maxAge := some (number "maxAge") })

def socketParams (url : String) : QueryParams := ⟨QueryString.parse (QueryString.query url)⟩

def transport (readOther : String → JsNumber) (server : ServerUrl) (accessToken : Option String)
    (filters : Option FilterValues) : Option QueryParams :=
  ((handleClick accessToken filters).bind fun path =>
    waitingEffect readOther server accessToken (locationSearch path)).map socketParams

structure Jwt where
  header : String
  payload : String
  signature : String
  base64url : ∀ c ∈ header.toList ++ payload.toList ++ signature.toList,
    c.isAlphanum ∨ c = '-' ∨ c = '_'

def Jwt.text (token : Jwt) : String :=
  token.header ++ "." ++ token.payload ++ "." ++ token.signature

abbrev Selected := {n : ℕ // 0 < n ∧ n < 2 ^ 53}

structure Selection where
  genderId : Option Selected
  languageId : Option Selected
  minAge : Option Selected
  maxAge : Option Selected

def Selected.toJs (n : Selected) : JsNumber := .int ⟨n.val, n.property.2⟩

def Selection.values (s : Selection) : FilterValues where
  genderId := s.genderId.map Selected.toJs
  languageId := s.languageId.map Selected.toJs
  minAge := s.minAge.map Selected.toJs
  maxAge := s.maxAge.map Selected.toJs

inductive Conveys : Option Selected → Option String → Prop
  | undefined : Conveys none none
  | number {n : Selected} {text : String} {digits : List Char}
      (hdecimal : Python.Decimal text digits) (hint : Python.int text = some (n.val : ℤ)) :
      Conveys (some n) (some text)

/-! ### One filter -/

section Filter
variable {name name' : String} {v : Option Selected} {items items' : List (String × String)}

def carried (name : String) (v : Option Selected) : List (String × String) :=
  (v.map fun n => (name, toString n.val)).toList

theorem appended_selected : appended name (v.map Selected.toJs) = carried name v := by
  cases v with
  | none => rfl
  | some n =>
    have htruthy : n.toJs.truthy = true := by
      simpa [Selected.toJs, JsNumber.truthy] using n.property.1.ne'
    simp only [appended, Option.map_some, Option.filter_some, htruthy, if_true, Option.toList_some]
    rfl

theorem paramValue_append :
    paramValue (items ++ items') name = (paramValue items name).or (paramValue items' name) := by
  unfold paramValue
  rw [List.find?_append, Option.map_or]

theorem paramValue_singleton {value : String} :
    paramValue [(name', value)] name = if name' = name then some value else none := by
  by_cases h : name' = name
  · simp [paramValue, h]
  · simp [paramValue, h]

theorem paramValue_carried : paramValue (carried name' v) name =
    if name' = name then v.map fun n => toString n.val else none := by
  cases v with
  | none => simp [paramValue, carried]
  | some n => exact paramValue_singleton

theorem carried_reverse : (carried name v).reverse = carried name v := by
  cases v <;> rfl

def conveyed (v : Option Selected) : JsNumber := v.elim (.int 0) Selected.toJs

theorem ofText_carried (readOther : String → JsNumber) :
    JsNumber.ofText readOther (v.map fun n => toString n.val) = conveyed v := by
  cases v with
  | none => rfl
  | some n => exact JsNumber.ofText_toText readOther ⟨n.val, n.property.2⟩

theorem unreserved_toString (n : ℕ) : ∀ c ∈ (toString n).toList, QueryString.unreserved c := by
  rw [Nat.toString_eq_ofList_toDigits, String.toList_ofList]
  intro c hc
  have hdigit := (Python.decimal_toString n).isDigit c hc
  simp [QueryString.unreserved, Char.isAlphanum, hdigit]

theorem addFilter_carried {base : String} (hne : items ≠ [])
    (hname : ∀ c ∈ name.toList, QueryString.unreserved c) :
    addFilter (base ++ QueryString.serialize items) name (some (conveyed v)) =
      base ++ QueryString.serialize (items ++ carried name v) := by
  cases v with
  | none => simp [addFilter, conveyed, carried]
  | some n =>
    have hpos : conveyed (some n) ≠ .int 0 := by
      intro hzero
      have hval : n.val = 0 := congrArg Fin.val (JsNumber.int.inj hzero)
      exact n.property.1.ne' hval
    have hcarried : carried name (some n) = [(name, toString n.val)] := rfl
    simp only [addFilter, if_neg hpos]
    rw [hcarried, QueryString.serialize_concat hne hname (unreserved_toString n.val)]
    simp only [String.append_assoc]
    rfl

theorem conveys_carried : Conveys v (v.map fun n => toString n.val) := by
  cases v with
  | none => exact .undefined
  | some n =>
    have hlen : (Nat.toDigits 10 n.val).length ≤ 16 :=
      (Nat.length_toDigits_le_iff (by decide) (by decide)).mpr (n.property.2.trans (by decide))
    exact .number (Python.decimal_toString n.val) (Python.int_toString (hlen.trans (by decide)))

end Filter

/-! ### The two addresses -/

theorem searchParams_waiting (items : List (String × String)) :
    searchParams (locationSearch ("/waiting?" ++ QueryString.serialize items)) = items := by
  have hpath : ("/waiting?" ++ QueryString.serialize items).toList =
      "/waiting".toList ++ '?' :: (QueryString.serialize items).toList := by
    rw [String.toList_append]
    rfl
  have hbase : ∀ c ∈ "/waiting".toList, c ≠ '?' ∧ c ≠ '#' := by simp
  have hsearch : ((("/waiting?" ++ QueryString.serialize items).toList.takeWhile
      (· ≠ '#')).dropWhile (· ≠ '?')) = '?' :: (QueryString.serialize items).toList := by
    rw [hpath]
    exact QueryString.search_of_plain hbase (QueryString.plain_serialize items)
  unfold locationSearch
  rw [hsearch]
  dsimp only
  split_ifs with halone
  · have hempty : QueryString.serialize items = "" := String.toList_inj.mp (List.cons.inj halone).2
    have hparse := QueryString.parse_serialize items
    rw [hempty] at hparse
    exact hparse
  · unfold searchParams
    rw [String.toList_ofList]
    simp only [String.ofList_toList]
    exact QueryString.parse_serialize items

theorem socketParams_waiting (server : ServerUrl) (items : List (String × String)) :
    socketParams (server.text ++ "/ws/waiting?" ++ QueryString.serialize items) = ⟨items⟩ := by
  have hbase : ∀ c ∈ (server.text ++ "/ws/waiting").toList, c ≠ '?' ∧ c ≠ '#' := by
    intro c hc
    rw [String.toList_append, List.mem_append] at hc
    rcases hc with hc | hc
    · exact server.pathOnly c hc
    · revert c
      simp
  have hurl : server.text ++ "/ws/waiting?" ++ QueryString.serialize items =
      server.text ++ "/ws/waiting" ++ "?" ++ QueryString.serialize items := by
    have hsplit : "/ws/waiting?" = "/ws/waiting" ++ "?" := rfl
    rw [hsplit]
    simp only [String.append_assoc]
  rw [socketParams, hurl, QueryString.query_of_plain hbase (QueryString.plain_serialize items),
    QueryString.parse_serialize]

theorem unreserved_jwt (token : Jwt) : ∀ c ∈ token.text.toList, QueryString.unreserved c := by
  intro c hc
  have hpart : c ∈ token.header.toList ++ token.payload.toList ++ token.signature.toList ∨
      c = '.' := by
    have hdot : ".".toList = ['.'] := rfl
    simp only [Jwt.text, String.toList_append, List.mem_append, hdot, List.mem_singleton] at hc ⊢
    rcases hc with (((hheader | hc) | hpayload) | hc) | hsignature
    · exact .inl (.inl (.inl hheader))
    · exact .inr hc
    · exact .inl (.inl (.inr hpayload))
    · exact .inr hc
    · exact .inl (.inr hsignature)
  rcases hpart with hpart | rfl
  · rcases token.base64url c hpart with h | rfl | rfl
    · simp [QueryString.unreserved, h]
    · decide
    · decide
  · decide

theorem truthy_jwt (token : Jwt) : Session.truthy (some token.text) = some token.text := by
  have hne : token.text ≠ "" := by
    intro hempty
    have hlist := congrArg String.toList hempty
    simp [Jwt.text] at hlist
  simp [Session.truthy, hne]

/-! ### The whole way -/

def Selection.items (s : Selection) : List (String × String) :=
  carried "genderId" s.genderId ++ carried "languageId" s.languageId ++ carried "minAge" s.minAge ++
    carried "maxAge" s.maxAge

theorem values_items (s : Selection) : s.values.items = s.items := by
  simp only [FilterValues.items, Selection.values, appended_selected, Selection.items]

theorem paramValue_items (s : Selection) (name : String) :
    paramValue s.items name =
      (((paramValue (carried "genderId" s.genderId) name).or
        (paramValue (carried "languageId" s.languageId) name)).or
          (paramValue (carried "minAge" s.minAge) name)).or
            (paramValue (carried "maxAge" s.maxAge) name) := by
  simp only [Selection.items, paramValue_append]

def Selection.params (s : Selection) (token : String) : List (String × String) :=
  [("token", token)] ++ carried "filter_gender_id" s.genderId ++
    carried "filter_min_age" s.minAge ++ carried "filter_max_age" s.maxAge ++
      carried "filter_language_id" s.languageId

def Selection.conveyed (s : Selection) : FilterValues where
  genderId := some (WaitingRoom.conveyed s.genderId)
  languageId := some (WaitingRoom.conveyed s.languageId)
  minAge := some (WaitingRoom.conveyed s.minAge)
  maxAge := some (WaitingRoom.conveyed s.maxAge)

theorem connectUrl_conveyed (server : ServerUrl) (token : Jwt) (s : Selection) :
    connectUrl server token.text (some s.conveyed) =
      server.text ++ "/ws/waiting?" ++ QueryString.serialize (s.params token.text) := by
  have htoken : server.text ++ "/ws/waiting?token=" ++ token.text =
      server.text ++ "/ws/waiting?" ++ QueryString.serialize [("token", token.text)] := by
    have hsplit : "/ws/waiting?token=" = "/ws/waiting?" ++ "token" ++ "=" := rfl
    rw [QueryString.serialize_singleton (by simp [QueryString.unreserved]) (unreserved_jwt token),
      hsplit]
    simp only [String.append_assoc]
  simp only [connectUrl, Selection.conveyed, htoken]
  rw [addFilter_carried (by simp) (by simp [QueryString.unreserved]),
    addFilter_carried (by simp) (by simp [QueryString.unreserved]),
    addFilter_carried (by simp) (by simp [QueryString.unreserved]),
    addFilter_carried (by simp) (by simp [QueryString.unreserved])]
  rfl

theorem waitingEffect_items (readOther : String → JsNumber) (server : ServerUrl) (token : Jwt)
    (s : Selection) : waitingEffect readOther server (some token.text)
      (locationSearch ("/waiting?" ++ QueryString.serialize s.items)) =
        some (server.text ++ "/ws/waiting?" ++ QueryString.serialize (s.params token.text)) := by
  have hget : ∀ name v, paramValue s.items name = v.map (fun n : Selected => toString n.val) →
      JsNumber.ofText readOther (paramValue s.items name) = conveyed v := by
    intro name v h
    rw [h, ofText_carried]
  have hgender := hget "genderId" s.genderId (by simp [paramValue_items, paramValue_carried])
  have hlanguage := hget "languageId" s.languageId (by simp [paramValue_items, paramValue_carried])
  have hmin := hget "minAge" s.minAge (by simp [paramValue_items, paramValue_carried])
  have hmax := hget "maxAge" s.maxAge (by simp [paramValue_items, paramValue_carried])
  simp only [waitingEffect, truthy_jwt, Option.map_some, searchParams_waiting]
  rw [hgender, hlanguage, hmin, hmax]
  exact congrArg some (connectUrl_conveyed server token s)

def Selection.empty : Selection := ⟨none, none, none, none⟩

theorem handleClick_items (token : Jwt) (selection : Option Selection) :
    handleClick (some token.text) (selection.map Selection.values) =
      some ("/waiting?" ++ QueryString.serialize (selection.getD .empty).items) := by
  simp only [handleClick, truthy_jwt, Option.map_some]
  cases selection with
  | none => rfl
  | some s =>
    rw [Option.map_some, Option.elim_some, values_items]
    rfl

theorem transport_params (readOther : String → JsNumber) (server : ServerUrl) (token : Jwt)
    (selection : Option Selection) :
    transport readOther server (some token.text) (selection.map Selection.values) =
      some ⟨(selection.getD .empty).params token.text⟩ := by
  rw [transport, handleClick_items, Option.bind_some, waitingEffect_items, Option.map_some,
    socketParams_waiting]

theorem get_params (token name : String) (s : Selection) :
    (⟨s.params token⟩ : QueryParams).get name =
      (paramValue (carried "filter_language_id" s.languageId) name).or
        ((paramValue (carried "filter_max_age" s.maxAge) name).or
          ((paramValue (carried "filter_min_age" s.minAge) name).or
            ((paramValue (carried "filter_gender_id" s.genderId) name).or
              (paramValue [("token", token)] name)))) := by
  change paramValue (s.params token).reverse name = _
  simp only [Selection.params, List.reverse_append, carried_reverse, paramValue_append,
    List.reverse_singleton]

theorem filters_params (token : String) (s : Selection) :
    (⟨s.params token⟩ : QueryParams).filters = {
      genderId := s.genderId.map fun n => toString n.val
      languageId := s.languageId.map fun n => toString n.val
      minAge := s.minAge.map fun n => toString n.val
      maxAge := s.maxAge.map fun n => toString n.val } := by
  simp only [QueryParams.filters, get_params, paramValue_carried, paramValue_singleton]
  simp

theorem token_params (token : String) (s : Selection) :
    (⟨s.params token⟩ : QueryParams).get "token" = some token := by
  simp only [get_params, paramValue_carried, paramValue_singleton]
  simp

/-- The filters stored for the request of the waiting page say what was selected. -/
theorem filters_arrive (readOther : String → JsNumber) (server : ServerUrl) (token : Jwt)
    (selection : Option Selection) (user : User) (st : State) :
    ∃ query filters,
      transport readOther server (some token.text) (selection.map Selection.values) = some query ∧
      query.get "token" = some token.text ∧
      (connectStart user query st).next =
        .awaits (.redisSet user.id ⟨user.userData, filters⟩) .storing ∧
      Conveys (selection.bind Selection.genderId) filters.genderId ∧
      Conveys (selection.bind Selection.languageId) filters.languageId ∧
      Conveys (selection.bind Selection.minAge) filters.minAge ∧
      Conveys (selection.bind Selection.maxAge) filters.maxAge := by
  have hconveys : ∀ field : Selection → Option Selected, field .empty = none →
      Conveys (selection.bind field)
        ((field (selection.getD .empty)).map fun n => toString n.val) := by
    intro field hempty
    cases selection with
    | none =>
      rw [Option.getD_none, hempty]
      exact .undefined
    | some s => exact conveys_carried
  refine ⟨_, _, transport_params readOther server token selection, token_params .., rfl, ?_⟩
  rw [filters_params]
  exact ⟨hconveys _ rfl, hconveys _ rfl, hconveys _ rfl, hconveys _ rfl⟩

end Nalang.WaitingRoom
