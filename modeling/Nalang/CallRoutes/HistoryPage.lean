import Nalang.CallRoutes.History
import Nalang.Library.Transition

/-!
# The page of the call history

The store keeps the last list that has arrived, and a visit asks for a new one. Lists may
overtake each other on their way, and calls are posted while they travel.
-/

namespace Nalang.CallRoutes
open Accounts Transition

/-! ### `callSlice.ts` -/

structure CallState where
  histories : List CallHistoryList
  loading : Bool
  error : Option String

namespace CallState

def initialState : CallState := ⟨[], false, none⟩

def pending (s : CallState) : CallState := { s with loading := true, error := none }

def fulfilled (s : CallState) (payload : List CallHistoryList) : CallState :=
  { s with histories := payload, loading := false }

def rejected (s : CallState) (message : Option String) : CallState :=
  { s with loading := false, error := some (message.getD "Failed to load history") }

def clearHistories (s : CallState) : CallState :=
  { s with histories := [], error := none, loading := false }

end CallState

/-! ### `callHistoryPage.tsx` -/

structure HistoryCard where
  name : String
  profileImage : Option String
  minutes : ℤ
  seconds : ℤ

def CallHistoryList.card (history : CallHistoryList) : HistoryCard where
  name := history.partner.name
  profileImage := history.partner.profileImage
  minutes := history.durationSec.fdiv 60
  seconds := history.durationSec.tmod 60

inductive HistoryView
  | loading
  | error (message : String)
  | empty
  | cards (histories : List HistoryCard)

/-- An empty message counts as no error. -/
def CallState.view (s : CallState) : HistoryView :=
  if s.loading then .loading
  else
    match s.error.filter (· ≠ "") with
    | some message => .error message
    | none => if s.histories = [] then .empty else .cards (s.histories.map CallHistoryList.card)

/-! ### One tab and the server -/

/-- A `GET /history` under way: it has not been handled, or its answer has not arrived. `retry` says
that the interceptor has sent it again. -/
inductive Fetch
  | sent (bearer : Option String) (retry : Bool)
  | answered (retry : Bool) (answer : Except HttpError (List CallHistoryList))

structure HistoryTab where
  server : State
  call : CallState
  fetches : List Fetch

/-- `accounts` is what the other routes do to the users; `cleared` and `reload` empty the store. -/
inductive TabEvent
  | request (req : Request)
  | accounts (users : Users)
  | visit (bearer : Option String)
  | handled (index now : ℕ)
  | arrived (index : ℕ)
  | again (index : ℕ) (bearer : Option String)
  | failed (index : ℕ) (message : Option String)
  | cleared
  | reload

def historyList (env : Env) (st : State) (now : ℕ) (bearer : Option String) :
    Except HttpError (List CallHistoryList) :=
  (getCurrentUser env st.users now bearer).map fun user => getHistoryList user st

namespace HistoryTab

def start (server : State) : HistoryTab := ⟨server, .initialState, []⟩

def step (env : Env) (s : HistoryTab) : TabEvent → Option HistoryTab
  | .request req => some { s with server := (handle env s.server req).2 }
  | .accounts users =>
    if ∀ p ∈ s.server.users.rows, p.id ∈ users.rows.map User.id then
      some { s with server := { s.server with users := users } }
    else none
  | .visit bearer =>
    some { s with call := s.call.pending, fetches := s.fetches ++ [.sent bearer false] }
  | .handled index now =>
    match s.fetches[index]? with
    | some (.sent bearer retry) => some { s with
        fetches := s.fetches.set index (.answered retry (historyList env s.server now bearer)) }
    | _ => none
  | .arrived index =>
    match s.fetches[index]? with
    | some (.answered _ (.ok items)) =>
      some { s with call := s.call.fulfilled items, fetches := s.fetches.eraseIdx index }
    | _ => none
  | .again index bearer =>
    match s.fetches[index]? with
    | some (.answered false (.error (.httpException status _))) =>
      if status = 401 then some { s with fetches := s.fetches.set index (.sent bearer true) }
      else none
    | _ => none
  | .failed index message =>
    if index < s.fetches.length then
      some { s with call := s.call.rejected message, fetches := s.fetches.eraseIdx index }
    else none
  | .cleared => some { s with call := s.call.clearHistories }
  | .reload => some { s with call := .initialState, fetches := [] }

end HistoryTab

def historyTab (env : Env) : Lts HistoryTab TabEvent := .ofStep (HistoryTab.step env)

def requests (es : List TabEvent) : List Request :=
  es.filterMap fun
    | .request req => some req
    | _ => none

def Bears (env : Env) (id : ℕ) (bearer : Option String) : Prop :=
  ∀ users now user, getCurrentUser env users now bearer = .ok user → user.id = id

def TabEvent.SentBy (env : Env) (id : ℕ) : TabEvent → Prop
  | .visit bearer | .again _ bearer => Bears env id bearer
  | _ => True

def TabEvent.Keeps : TabEvent → Prop
  | .cleared | .reload => False
  | _ => True

section Steps
variable {env : Env} {id index now : ℕ} {s s' : HistoryTab} {e : TabEvent} {es : List TabEvent}

@[simp] theorem requests_append (es es' : List TabEvent) :
    requests (es ++ es') = requests es ++ requests es' := List.filterMap_append

theorem handled_eq (hs : s.step env (.handled index now) = some s') :
    ∃ bearer retry, .sent bearer retry ∈ s.fetches ∧ s' = { s with
      fetches := s.fetches.set index (.answered retry (historyList env s.server now bearer)) } := by
  unfold HistoryTab.step at hs
  dsimp only at hs
  split at hs
  · rename_i bearer retry hget
    exact ⟨bearer, retry, List.mem_of_getElem? hget, (Option.some.inj hs).symm⟩
  · cases hs

theorem arrived_eq (hs : s.step env (.arrived index) = some s') :
    ∃ retry items, .answered retry (.ok items) ∈ s.fetches ∧
      s' = { s with call := s.call.fulfilled items, fetches := s.fetches.eraseIdx index } := by
  unfold HistoryTab.step at hs
  dsimp only at hs
  split at hs
  · rename_i retry items hget
    exact ⟨retry, items, List.mem_of_getElem? hget, (Option.some.inj hs).symm⟩
  · cases hs

theorem again_eq {bearer : Option String} (hs : s.step env (.again index bearer) = some s') :
    index < s.fetches.length ∧
      s' = { s with fetches := s.fetches.set index (.sent bearer true) } := by
  unfold HistoryTab.step at hs
  dsimp only at hs
  split at hs
  · rename_i hget
    obtain ⟨-, hs⟩ := Option.ite_none_right_eq_some.mp hs
    exact ⟨(List.getElem?_eq_some_iff.mp hget).1, (Option.some.inj hs).symm⟩
  · cases hs

theorem failed_eq {message : Option String} (hs : s.step env (.failed index message) = some s') :
    s' = { s with call := s.call.rejected message, fetches := s.fetches.eraseIdx index } := by
  obtain ⟨-, hs⟩ := Option.ite_none_right_eq_some.mp hs
  exact (Option.some.inj hs).symm

theorem historyList_ok {st : State} {bearer : Option String} {items : List CallHistoryList}
    (h : historyList env st now bearer = .ok items) :
    ∃ user, getCurrentUser env st.users now bearer = .ok user ∧ getHistoryList user st = items := by
  unfold historyList at h
  cases hauth : getCurrentUser env st.users now bearer with
  | error e =>
    rw [hauth] at h
    cases h
  | ok user =>
    rw [hauth] at h
    exact ⟨user, rfl, Except.ok.inj h⟩

/-! ### The server under the tab -/

inductive Serves (env : Env) (st : State) : TabEvent → State → Prop
  | request (req : Request) : Serves env st (.request req) (handle env st req).2
  | accounts (users : Users) (hkept : ∀ p ∈ st.users.rows, p.id ∈ users.rows.map User.id) :
      Serves env st (.accounts users) { st with users := users }
  | idle (e : TabEvent) (hnone : requests [e] = []) : Serves env st e st

theorem serves_of_step (hs : s.step env e = some s') : Serves env s.server e s'.server := by
  cases e with
  | request req =>
    cases hs
    exact .request req
  | accounts users =>
    obtain ⟨hkept, hs⟩ := Option.ite_none_right_eq_some.mp hs
    cases hs
    exact .accounts users hkept
  | handled index now =>
    obtain ⟨-, -, -, rfl⟩ := handled_eq hs
    exact .idle _ rfl
  | arrived index =>
    obtain ⟨-, -, -, rfl⟩ := arrived_eq hs
    exact .idle _ rfl
  | again index bearer =>
    obtain ⟨-, rfl⟩ := again_eq hs
    exact .idle _ rfl
  | failed index message =>
    cases failed_eq hs
    exact .idle _ rfl
  | visit bearer =>
    cases hs
    exact .idle _ rfl
  | cleared =>
    cases hs
    exact .idle _ rfl
  | reload =>
    cases hs
    exact .idle _ rfl

variable {st st' : State}

theorem Serves.clocked (hs : Serves env st e st') (h : st.Clocked (requests ([e] ++ es))) :
    st'.Clocked (requests es) := by
  cases hs with
  | request req => exact State.Clocked.handle h
  | accounts users hkept => exact h
  | idle e hnone =>
    rw [requests_append, hnone] at h
    exact h

theorem Serves.referential (hs : Serves env st e st') (h : Referential st) : Referential st' := by
  cases hs with
  | request req => exact referential_handle h
  | idle e hnone => exact h
  | accounts users hkept =>
    intro ch hch
    obtain ⟨p, hp, hid⟩ := h ch hch
    obtain ⟨p', hp', hsame⟩ := List.mem_map.mp (hkept p hp)
    refine ⟨p', hp', ?_⟩
    rw [hsame]
    exact hid

theorem Serves.facts_grow (hs : Serves env st e st') (id : ℕ) :
    (st.facts id).reverse <:+ (st'.facts id).reverse := by
  rw [List.reverse_suffix]
  cases hs with
  | request req =>
    rw [facts_handle]
    exact List.prefix_append _ _
  | accounts users hkept => exact List.prefix_rfl
  | idle e hnone => exact List.prefix_rfl

/-! ### Lists on their way -/

def callsOf (items : List CallHistoryList) : List Facts := items.map CallHistoryList.facts

structure Listed (env : Env) (id : ℕ) (s : HistoryTab) : Prop where
  referential : Referential s.server
  bearers : ∀ bearer retry, .sent bearer retry ∈ s.fetches → Bears env id bearer
  answered : ∀ retry items, .answered retry (.ok items) ∈ s.fetches →
    callsOf items <:+ (s.server.facts id).reverse
  shown : callsOf s.call.histories <:+ (s.server.facts id).reverse
  loading : s.call.loading = true → s.fetches ≠ []

theorem callsOf_historyList {bearer : Option String} {items : List CallHistoryList}
    (hclock : st.Clocked []) (href : Referential st) (hbears : Bears env id bearer)
    (h : historyList env st now bearer = .ok items) : callsOf items = (st.facts id).reverse := by
  obtain ⟨user, hauth, rfl⟩ := historyList_ok h
  rw [← hbears _ _ _ hauth]
  exact history_facts hclock href user

theorem Listed.serve (h : Listed env id s) (hs : Serves env s.server e st') :
    Listed env id { s with server := st' } where
  referential := hs.referential h.referential
  bearers := h.bearers
  answered retry items hmem := (h.answered retry items hmem).trans (hs.facts_grow id)
  shown := h.shown.trans (hs.facts_grow id)
  loading := h.loading

theorem listed_step (h : Listed env id s) (hclock : s.server.Clocked []) (he : e.SentBy env id)
    (hs : s.step env e = some s') : Listed env id s' := by
  have hserves := serves_of_step hs
  cases e with
  | request req =>
    cases hs
    exact h.serve hserves
  | accounts users =>
    obtain ⟨-, hs⟩ := Option.ite_none_right_eq_some.mp hs
    cases hs
    exact h.serve hserves
  | visit bearer =>
    cases hs
    refine ⟨h.referential, fun bearer' retry hmem => ?_, fun retry items hmem => ?_, h.shown, ?_⟩
    · rcases List.mem_append.mp hmem with hmem | hmem
      · exact h.bearers bearer' retry hmem
      · cases List.mem_singleton.mp hmem
        exact he
    · rcases List.mem_append.mp hmem with hmem | hmem
      · exact h.answered retry items hmem
      · cases List.mem_singleton.mp hmem
    · intro _
      simp
  | handled index now =>
    obtain ⟨bearer, retry, hsent, rfl⟩ := handled_eq hs
    refine ⟨h.referential, fun bearer' retry' hmem => ?_, fun retry' items hmem => ?_, h.shown, ?_⟩
    · rcases List.mem_or_eq_of_mem_set hmem with hmem | hmem
      · exact h.bearers bearer' retry' hmem
      · cases hmem
    · rcases List.mem_or_eq_of_mem_set hmem with hmem | hmem
      · exact h.answered retry' items hmem
      · obtain ⟨-, hok⟩ := Fetch.answered.inj hmem
        have hbears := h.bearers bearer retry hsent
        exact callsOf_historyList hclock h.referential hbears hok.symm ▸ List.suffix_rfl
    · intro hloading hnil
      exact h.loading hloading ((List.set_eq_nil_iff _ _).mp hnil)
  | arrived index =>
    obtain ⟨retry, items, hmem, rfl⟩ := arrived_eq hs
    refine ⟨h.referential, fun bearer' retry' hmem => ?_, fun retry' items' hmem => ?_,
      h.answered retry items hmem, ?_⟩
    · exact h.bearers bearer' retry' (List.mem_of_mem_eraseIdx hmem)
    · exact h.answered retry' items' (List.mem_of_mem_eraseIdx hmem)
    · intro hloading
      cases hloading
  | again index bearer =>
    obtain ⟨-, rfl⟩ := again_eq hs
    refine ⟨h.referential, fun bearer' retry' hmem => ?_, fun retry' items hmem => ?_, h.shown, ?_⟩
    · rcases List.mem_or_eq_of_mem_set hmem with hmem | hmem
      · exact h.bearers bearer' retry' hmem
      · cases hmem
        exact he
    · rcases List.mem_or_eq_of_mem_set hmem with hmem | hmem
      · exact h.answered retry' items hmem
      · cases hmem
    · intro hloading hnil
      exact h.loading hloading ((List.set_eq_nil_iff _ _).mp hnil)
  | failed index message =>
    cases failed_eq hs
    refine ⟨h.referential, fun bearer' retry' hmem => ?_, fun retry' items hmem => ?_, h.shown, ?_⟩
    · exact h.bearers bearer' retry' (List.mem_of_mem_eraseIdx hmem)
    · exact h.answered retry' items (List.mem_of_mem_eraseIdx hmem)
    · intro hloading
      cases hloading
  | cleared =>
    cases hs
    refine ⟨h.referential, h.bearers, h.answered, List.nil_suffix, ?_⟩
    intro hloading
    cases hloading
  | reload =>
    cases hs
    refine ⟨h.referential, ?_, ?_, List.nil_suffix, ?_⟩
    · intro _ _ hmem
      cases hmem
    · intro _ _ hmem
      cases hmem
    · intro hloading
      cases hloading

theorem clocked_run {s₀ : HistoryTab} (hr : (historyTab env).Run s₀ es s) :
    ∀ rest, s₀.server.Clocked (requests (es ++ rest)) → s.server.Clocked (requests rest) := by
  refine hr.history (fun es s => ∀ rest, s₀.server.Clocked (requests (es ++ rest)) →
    s.server.Clocked (requests rest)) (fun _ h => h) ?_
  intro es s e s' ih hs rest hclock
  rw [List.append_assoc] at hclock
  exact (serves_of_step hs).clocked (ih _ hclock)

theorem State.Clocked.left {reqs reqs' : List Request} (h : st.Clocked (reqs ++ reqs')) :
    st.Clocked reqs := by
  unfold State.Clocked at h ⊢
  rw [List.filterMap_append, ← List.append_assoc] at h
  exact List.Pairwise.sublist (List.sublist_append_left _ _) h

theorem listed_run {s₀ : HistoryTab} (hr : (historyTab env).Run s₀ es s)
    (h₀ : Listed env id s₀) (hclock : s₀.server.Clocked (requests es))
    (hsent : ∀ e ∈ es, e.SentBy env id) : Listed env id s := by
  induction hr with
  | nil => exact h₀
  | @snoc es s s' e hr hs ih =>
    rw [requests_append] at hclock
    have hbefore : s.server.Clocked [] := by
      apply clocked_run hr []
      rw [List.append_nil]
      exact hclock.left
    have hlisted := ih hclock.left fun e he => hsent e (List.mem_append_left _ he)
    exact listed_step hlisted hbefore (hsent e (List.mem_append_right _ (.head _))) hs

structure Since (calls : List Facts) (id : ℕ) (s : HistoryTab) : Prop where
  kept : calls <:+ (s.server.facts id).reverse
  answered : ∀ retry items, .answered retry (.ok items) ∈ s.fetches → calls <:+ callsOf items
  settled : calls <:+ callsOf s.call.histories ∨ s.call.error ≠ none ∨ s.fetches ≠ []

variable {calls : List Facts}

theorem since_step (h : Since calls id s) (hlisted : Listed env id s) (hclock : s.server.Clocked [])
    (he : e.Keeps) (hs : s.step env e = some s') : Since calls id s' := by
  have hkept := h.kept.trans ((serves_of_step hs).facts_grow id)
  cases e with
  | cleared => cases he
  | reload => cases he
  | request req =>
    cases hs
    exact ⟨hkept, h.answered, h.settled⟩
  | accounts users =>
    obtain ⟨-, hs⟩ := Option.ite_none_right_eq_some.mp hs
    cases hs
    exact ⟨hkept, h.answered, h.settled⟩
  | visit bearer =>
    cases hs
    refine ⟨hkept, fun retry items hmem => ?_, .inr (.inr (by simp))⟩
    rcases List.mem_append.mp hmem with hmem | hmem
    · exact h.answered retry items hmem
    · cases List.mem_singleton.mp hmem
  | handled index now =>
    obtain ⟨bearer, retry, hsent, rfl⟩ := handled_eq hs
    refine ⟨hkept, fun retry' items hmem => ?_, ?_⟩
    · rcases List.mem_or_eq_of_mem_set hmem with hmem | hmem
      · exact h.answered retry' items hmem
      · obtain ⟨-, hok⟩ := Fetch.answered.inj hmem
        have hbearer := hlisted.bearers bearer retry hsent
        rw [callsOf_historyList hclock hlisted.referential hbearer hok.symm]
        exact h.kept
    · exact h.settled.imp_right (Or.imp_right fun hne hnil =>
        hne ((List.set_eq_nil_iff _ _).mp hnil))
  | arrived index =>
    obtain ⟨retry, items, hmem, rfl⟩ := arrived_eq hs
    exact ⟨hkept, fun retry' items' hmem' => h.answered retry' items'
      (List.mem_of_mem_eraseIdx hmem'), .inl (h.answered retry items hmem)⟩
  | again index bearer =>
    obtain ⟨-, rfl⟩ := again_eq hs
    refine ⟨hkept, fun retry items hmem => ?_, ?_⟩
    · rcases List.mem_or_eq_of_mem_set hmem with hmem | hmem
      · exact h.answered retry items hmem
      · cases hmem
    · exact h.settled.imp_right (Or.imp_right fun hne hnil =>
        hne ((List.set_eq_nil_iff _ _).mp hnil))
  | failed index message =>
    cases failed_eq hs
    exact ⟨hkept, fun retry items hmem => h.answered retry items (List.mem_of_mem_eraseIdx hmem),
      .inr (.inl (Option.some_ne_none _))⟩

theorem since_run {s₀ : HistoryTab} (hr : (historyTab env).Run s₀ es s) (h₀ : Since calls id s₀)
    (hlisted : Listed env id s₀) (hclock : s₀.server.Clocked (requests es))
    (hsent : ∀ e ∈ es, e.SentBy env id) (hkeeps : ∀ e ∈ es, e.Keeps) : Since calls id s := by
  induction hr with
  | nil => exact h₀
  | @snoc es s s' e hr hs ih =>
    rw [requests_append] at hclock
    have hbefore : s.server.Clocked [] := by
      apply clocked_run hr []
      rw [List.append_nil]
      exact hclock.left
    have hsince := ih hclock.left (fun e he => hsent e (List.mem_append_left _ he))
      fun e he => hkeeps e (List.mem_append_left _ he)
    have hnow := listed_run hr hlisted hclock.left fun e he => hsent e (List.mem_append_left _ he)
    exact since_step hsince hnow hbefore (hkeeps e (List.mem_append_right _ (.head _))) hs

theorem listed_start (href : Referential st) : Listed env id (.start st) where
  referential := href
  bearers _ _ hmem := absurd hmem List.not_mem_nil
  answered _ _ hmem := absurd hmem List.not_mem_nil
  shown := List.nil_suffix
  loading hloading := absurd hloading Bool.false_ne_true

theorem view_ne_loading {call : CallState} (h : call.loading ≠ true) : call.view ≠ .loading := by
  unfold CallState.view
  rw [if_neg h]
  intro h
  split at h
  · cases h
  · split_ifs at h

end Steps

theorem bears_issued {env : Env} {id issued : ℕ} {access : String} (hj : env.jose.Lawful)
    (hid : id < 2147483648)
    (ha : Accounts.createAccessToken env issued (some (toString id)) = some access) :
    Bears env id (some access) := by
  intro users now user hok
  have hlen : (Nat.toDigits 10 id).length ≤ 10 :=
    (Nat.length_toDigits_le_iff (by decide) (by decide)).mpr (by omega)
  have hint : Python.int (toString id) = some (id : ℤ) :=
    Python.int_toString (hlen.trans (by decide))
  obtain ⟨_, claims, sub, id', htext, hdec, hsub, hint', hfound⟩ := getCurrentUser_ok hok
  cases htext
  rw [hj.faithful _ _ _ _ ha _ _ _ hdec] at hsub
  cases hsub
  rw [hint] at hint'
  cases hint'
  exact Int.ofNat.inj (Users.getUserById_eq_some hfound).2

/-- However the lists overtake each other, the page shows a tail of what the user would be told now:
what it leaves out are the latest calls. -/
theorem page_lists_tail {env : Env} {st : State} {es : List TabEvent} {s : HistoryTab} {id : ℕ}
    (hr : (historyTab env).Run (.start st) es s) (hclock : st.Clocked (requests es))
    (href : Referential st) (hsent : ∀ e ∈ es, e.SentBy env id) :
    (∀ user : User, user.id = id →
      callsOf s.call.histories <:+ callsOf (getHistoryList user s.server)) ∧
      (s.fetches = [] → s.call.view ≠ .loading) := by
  have hlisted := listed_run hr (listed_start href) hclock hsent
  have hnow : s.server.Clocked [] := by
    apply clocked_run hr []
    rwa [List.append_nil]
  refine ⟨?_, fun hnil => view_ne_loading fun hloading => hlisted.loading hloading hnil⟩
  rintro user rfl
  unfold callsOf
  rw [history_facts hnow hlisted.referential user]
  exact hlisted.shown

/-! ### A call is posted while the list travels -/

def afterCall : State := (handle plainEnv beforeCalls (postAt 100 "room_1_2_a")).2

theorem historyList_afterCall {user : User} {access : String} (hmem : user ∈ twoUsers.rows)
    (hid : user.id < 2147483648)
    (ha : Accounts.createAccessToken plainEnv 0 (some (toString user.id)) = some access) :
    historyList plainEnv afterCall 0 (some access) = .ok (getHistoryList user afterCall) := by
  have hauth : getCurrentUser plainEnv twoUsers 0 (some access) = .ok user :=
    (getCurrentUser_issued plainJose_lawful rfl hmem hid ha user).mpr ⟨rfl, by decide⟩
  change (getCurrentUser plainEnv twoUsers 0 (some access)).map _ = _
  rw [hauth]
  rfl

theorem callsOf_afterCall :
    callsOf (getHistoryList kim afterCall) = [("room_1_2_a", 2, 40, 100, 60)] := by
  have hclock : afterCall.Clocked [] := by
    unfold State.Clocked
    decide
  rw [callsOf, history_facts hclock (referential_handle referential_beforeCalls)]
  decide

theorem handled_afterCall {user : User} {access : String} (hmem : user ∈ twoUsers.rows)
    (hid : user.id < 2147483648)
    (ha : Accounts.createAccessToken plainEnv 0 (some (toString user.id)) = some access)
    (call : CallState) (fetches : List Fetch) :
    HistoryTab.step plainEnv ⟨afterCall, call, fetches ++ [.sent (some access) false]⟩
        (.handled fetches.length 0) =
      some ⟨afterCall, call,
        fetches ++ [.answered false (.ok (getHistoryList user afterCall))]⟩ := by
  rw [← historyList_afterCall hmem hid ha]
  simp [HistoryTab.step]

theorem kims_fetch : ∃ access, Bears plainEnv kim.id (some access) ∧ ∀ call,
    HistoryTab.step plainEnv ⟨afterCall, call, [.sent (some access) false]⟩ (.handled 0 0) =
      some ⟨afterCall, call, [.answered false (.ok (getHistoryList kim afterCall))]⟩ := by
  obtain ⟨access, ha⟩ : ∃ access,
      Accounts.createAccessToken plainEnv 0 (some (toString kim.id)) = some access := ⟨_, rfl⟩
  exact ⟨access, bears_issued plainJose_lawful (by decide) ha,
    fun call => handled_afterCall (by decide) (by decide) ha call []⟩

theorem page_lists_tail_applied : ∃ access s,
    (historyTab plainEnv).Run (.start beforeCalls) [.request (postAt 100 "room_1_2_a"),
      .visit (some access), .handled 0 0, .request (postAt 200 "room_1_2_b"), .arrived 0] s ∧
      callsOf s.call.histories = [("room_1_2_a", 2, 40, 100, 60)] ∧
      callsOf s.call.histories <:+ callsOf (getHistoryList kim s.server) := by
  obtain ⟨access, hbears, hhandled⟩ := kims_fetch
  have hr : (historyTab plainEnv).Run (.start beforeCalls) [.request (postAt 100 "room_1_2_a"),
      .visit (some access), .handled 0 0, .request (postAt 200 "room_1_2_b"), .arrived 0] _ :=
    .cons rfl (.cons rfl (.cons (hhandled _) (.cons rfl (.cons rfl .nil))))
  refine ⟨access, _, hr, callsOf_afterCall, ?_⟩
  refine (page_lists_tail hr ?_ referential_beforeCalls ?_).1 kim rfl
  · change beforeCalls.Clocked [postAt 100 "room_1_2_a", postAt 200 "room_1_2_b"]
    unfold State.Clocked
    decide
  · intro e he
    simp only [List.mem_cons, List.not_mem_nil, or_false] at he
    rcases he with rfl | rfl | rfl | rfl | rfl
    · trivial
    · exact hbears
    · trivial
    · trivial
    · trivial

/-- A visit of an idle page ends with every call that was there when it began. -/
theorem visit_lists_calls {env : Env} {st : State} {es es' : List TabEvent} {s s' : HistoryTab}
    {id : ℕ} {bearer : Option String} (hr : (historyTab env).Run (.start st) es s)
    (hidle : s.fetches = []) (hr' : (historyTab env).Run s (.visit bearer :: es') s')
    (hclock : st.Clocked (requests (es ++ es'))) (href : Referential st)
    (hsent : ∀ e ∈ es ++ .visit bearer :: es', e.SentBy env id) (hkeeps : ∀ e ∈ es', e.Keeps)
    (hdone : s'.fetches = []) (herror : s'.call.error = none) :
    (∀ user : User, user.id = id →
      callsOf (getHistoryList user s.server) <:+ callsOf s'.call.histories) ∧
      s'.call.view = if s'.call.histories = [] then .empty
        else .cards (s'.call.histories.map CallHistoryList.card) := by
  obtain ⟨s₁, hvisit, hrun⟩ := hr'.uncons
  cases hvisit
  rw [requests_append] at hclock
  have hlisted := listed_run hr (listed_start href) hclock.left
    fun e he => hsent e (List.mem_append_left _ he)
  have hclocked : s.server.Clocked (requests es') := by
    apply clocked_run hr
    rw [requests_append]
    exact hclock
  have hbearer := hsent _ (List.mem_append_right _ (.head _))
  have hnow : s.server.Clocked ([] ++ requests es') := hclocked
  have hvisited := listed_step hlisted hnow.left hbearer rfl
  have hrest : ∀ e ∈ es', e.SentBy env id :=
    fun e he => hsent e (List.mem_append_right _ (List.mem_cons_of_mem _ he))
  have hstart : Since (s.server.facts id).reverse id
      { s with call := s.call.pending, fetches := s.fetches ++ [.sent bearer false] } := by
    refine ⟨List.suffix_rfl, fun retry items hmem => ?_, .inr (.inr (by simp))⟩
    rw [hidle] at hmem
    cases List.mem_singleton.mp hmem
  have hsince := since_run hrun hstart hvisited hclocked hrest hkeeps
  have hended := listed_run hrun hvisited hclocked hrest
  constructor
  · rintro user rfl
    rw [callsOf, history_facts hnow.left hlisted.referential user]
    rcases hsince.settled with hshown | hfailed | hwaiting
    · exact hshown
    · exact absurd herror hfailed
    · exact absurd hdone hwaiting
  · unfold CallState.view
    rw [if_neg fun hloading => hended.loading hloading hdone, herror]
    rfl

theorem visit_lists_calls_applied : ∃ access s,
    (historyTab plainEnv).Run ⟨afterCall, .initialState, []⟩
      [.visit (some access), .handled 0 0, .arrived 0] s ∧
      callsOf (getHistoryList kim afterCall) <:+ callsOf s.call.histories := by
  obtain ⟨access, hbears, hhandled⟩ := kims_fetch
  have hposted : (historyTab plainEnv).Run (.start beforeCalls)
      [.request (postAt 100 "room_1_2_a")] ⟨afterCall, .initialState, []⟩ := .single rfl
  have hr : (historyTab plainEnv).Run ⟨afterCall, .initialState, []⟩
      [.visit (some access), .handled 0 0, .arrived 0] _ :=
    .cons rfl (.cons (hhandled _) (.cons rfl .nil))
  refine ⟨access, _, hr, ?_⟩
  refine (visit_lists_calls hposted rfl hr ?_ referential_beforeCalls ?_ ?_ rfl rfl).1 kim rfl
  · unfold State.Clocked
    decide
  · intro e he
    simp only [List.cons_append, List.nil_append, List.mem_cons, List.not_mem_nil, or_false] at he
    rcases he with rfl | rfl | rfl | rfl
    · trivial
    · exact hbears
    · trivial
    · trivial
  · intro e he
    simp only [List.mem_cons, List.not_mem_nil, or_false] at he
    rcases he with rfl | rfl
    · trivial
    · trivial

def lee : User := { caller leesEmail "Lee" with id := 2 }

/-- Logging out leaves the store as it is. The list of one user can arrive after the list of the
next one, and then stays on the page. -/
theorem late_list_of_another : ∃ kims lees s,
    (historyTab plainEnv).Run (.start beforeCalls) [.request (postAt 100 "room_1_2_a"),
      .visit (some kims), .handled 0 0, .visit (some lees), .handled 1 0, .arrived 1,
      .arrived 0] s ∧
      Bears plainEnv kim.id (some kims) ∧ Bears plainEnv lee.id (some lees) ∧ s.fetches = [] ∧
      ¬ callsOf s.call.histories <:+ callsOf (getHistoryList lee s.server) := by
  obtain ⟨kims, hkims⟩ : ∃ access,
      Accounts.createAccessToken plainEnv 0 (some (toString kim.id)) = some access := ⟨_, rfl⟩
  obtain ⟨lees, hlees⟩ : ∃ access,
      Accounts.createAccessToken plainEnv 0 (some (toString lee.id)) = some access := ⟨_, rfl⟩
  have hfirst := fun call =>
    handled_afterCall (by decide : kim ∈ twoUsers.rows) (by decide) hkims call []
  have hsecond := fun call first =>
    handled_afterCall (by decide : lee ∈ twoUsers.rows) (by decide) hlees call [first]
  refine ⟨kims, lees, _, .cons rfl (.cons rfl (.cons (hfirst _) (.cons rfl
    (.cons (hsecond _ _) (.cons rfl (.cons rfl .nil)))))),
    bears_issued plainJose_lawful (by decide) hkims,
    bears_issued plainJose_lawful (by decide) hlees, rfl, ?_⟩
  change ¬ callsOf (getHistoryList kim afterCall) <:+ callsOf (getHistoryList lee afterCall)
  have hclock : afterCall.Clocked [] := by
    unfold State.Clocked
    decide
  have hlee : callsOf (getHistoryList lee afterCall) = [] := by
    rw [callsOf, history_facts hclock (referential_handle referential_beforeCalls)]
    decide
  rw [callsOf_afterCall, hlee]
  decide

end Nalang.CallRoutes
