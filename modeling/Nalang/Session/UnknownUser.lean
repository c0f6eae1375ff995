import Nalang.Session.Application
import Nalang.VoiceCall.CallRecord

/-!
# Who has logged in by the form

The answer to a login carries no user, and `App` has looked for a token before. So
the store holds no user until the page is loaded again, a profile is saved or another
account is registered. A call that ends before that is not recorded.
-/

namespace Nalang.Session
open Transition VoiceCall

section
variable {υ : Type*}

def Task.Nameless : Task → Prop
  | .registerUser => False
  | .request .fetchMe _ | .refresh _ .fetchMe _ => False
  | _ => True

structure Client.Unknown (client : Client υ) : Prop where
  user : client.auth.user = none
  pending : ∀ task ∈ client.pending, task.Nameless

namespace Client
variable {client client' : Client υ} {task : Task} {pending : List Task} {answer : Answer υ}

theorem Unknown.push (h : client.Unknown) (htask : task.Nameless) {client' : Client υ}
    (huser : client'.auth.user = client.auth.user)
    (hpending : client'.pending = client.pending ++ [task]) : client'.Unknown := by
  refine ⟨huser.trans h.user, fun t ht => ?_⟩
  rw [hpending] at ht
  rcases List.mem_append.mp ht with ht | ht
  · exact h.pending t ht
  · rw [List.mem_singleton.mp ht]
    exact htask

theorem Unknown.same (h : client.Unknown) (huser : client'.auth.user = client.auth.user)
    (hpending : client'.pending = client.pending) : client'.Unknown :=
  ⟨huser.trans h.user, hpending ▸ h.pending⟩

theorem reject_pending (client : Client υ) (caller : Caller) :
    (client.reject caller).pending = client.pending := by
  cases caller <;> rfl

theorem nameless_caller {caller : Caller} {config config' : Config}
    (h : (Task.request caller config).Nameless) (refreshToken : String) :
    (Task.refresh refreshToken caller config').Nameless := by
  cases caller with
  | fetchMe => exact h.elim
  | _ => trivial

theorem Unknown.interceptError (h : client.Unknown) {caller : Caller} {config : Config}
    {status : Option ℕ} (htask : (Task.request caller config).Nameless) :
    (client.interceptError caller config status).Unknown := by
  unfold Client.interceptError
  split_ifs with hstatus
  · cases truthy client.storage.refreshToken with
    | some refreshToken => exact h.push (nameless_caller htask refreshToken) rfl rfl
    | none => exact h.same (reject_user ..) (reject_pending ..)
  · exact h.same (reject_user ..) (reject_pending ..)

theorem Unknown.settle (h : client.Unknown) (htask : task.Nameless)
    (hs : client.settle task answer = some client') : client'.Unknown := by
  cases task with
  | registerUser => exact htask.elim
  | logoutUser refreshToken =>
    cases answer with
    | ok body =>
      cases body <;> cases hs
      exact ⟨rfl, h.pending⟩
    | failed status =>
      cases hs
      exact h
  | request caller config =>
    cases answer with
    | ok body =>
      cases caller with
      | fetchMe => exact htask.elim
      | login =>
        cases body <;> cases hs
        exact h.same rfl rfl
      | other =>
        cases body <;> cases hs
        exact h
    | failed status =>
      cases hs
      exact h.interceptError htask
  | refresh refreshToken caller config =>
    cases answer with
    | ok body =>
      have hnameless : ∀ config', Task.Nameless (.request caller config') := by
        cases caller with
        | fetchMe => exact htask.elim
        | _ => exact fun _ => trivial
      cases body <;> cases hs
      exact h.push (hnameless _) rfl rfl
    | failed status =>
      cases hs
      exact h.same (reject_user ..) (reject_pending ..)

theorem Unknown.answered (h : client.Unknown) {index : ℕ}
    (hs : client.step (.answer index answer) = some client') : client'.Unknown := by
  unfold Client.step at hs
  cases htask : client.pending[index]? with
  | none => simp [htask] at hs
  | some task =>
    simp only [htask] at hs
    have herased : Client.Unknown { client with pending := client.pending.eraseIdx index } :=
      ⟨h.user, fun t ht => h.pending t (List.mem_of_mem_eraseIdx ht)⟩
    exact herased.settle (h.pending task (List.mem_of_getElem? htask)) hs

theorem Unknown.logoutThunk (h : client.Unknown) : client.logoutThunk.Unknown := by
  unfold Client.logoutThunk
  cases truthy client.storage.refreshToken with
  | some refreshToken =>
    exact h.push (show Task.Nameless (.logoutUser refreshToken) from trivial) rfl rfl
  | none => exact ⟨rfl, h.pending⟩

theorem Unknown.socialCallback (h : client.Unknown) (accessToken refreshToken : Option String) :
    (client.socialCallback accessToken refreshToken).Unknown := by
  unfold Client.socialCallback
  cases truthy accessToken with
  | none => exact h
  | some access =>
    cases truthy refreshToken with
    | none => exact h
    | some refresh => exact h.same rfl rfl

end Client

/-! ### The pages -/

namespace Application
variable {s s' : Application υ} {location : Location} {e : AppEvent υ}

theorem unknown_redirectRegistered (h : s.client.Unknown) :
    s.redirectRegistered.client.Unknown := by
  unfold redirectRegistered
  split_ifs <;> exact h

theorem unknown_arrive (h : s.client.Unknown) : (s.arrive location).client.Unknown := by
  unfold arrive
  dsimp only
  split_ifs with hcallback
  · unfold readCallback
    dsimp only
    split_ifs <;> exact h.socialCallback ..
  · exact unknown_redirectRegistered h

theorem unknown_visit (h : s.client.Unknown) : (s.visit location).client.Unknown := by
  unfold visit
  split_ifs
  · exact h
  · exact h
  · exact h
  · exact unknown_arrive h

theorem unknown_afterAnswer {client : Client υ} (h : client.Unknown) :
    (s.afterAnswer client).client.Unknown := by
  unfold afterAnswer
  dsimp only
  split_ifs
  · exact unknown_redirectRegistered (unknown_visit h)
  · exact unknown_redirectRegistered h

end Application

def AppEvent.namesUser : AppEvent υ → Bool
  | .load _ | .register | .saved => true
  | _ => false

namespace Application
variable {s s' : Application υ} {location : Location} {e : AppEvent υ}

theorem unknown_load {storage : Storage} (htoken : truthy storage.accessToken = none)
    (hloc : location.signsIn = false) : (load storage location : Application υ).client.Unknown := by
  have hblank : (Client.load storage : Client υ).Unknown :=
    ⟨rfl, fun _ h => absurd h List.not_mem_nil⟩
  have hout : (⟨.load storage, (truthy storage.accessToken).isSome, .other, 0⟩ :
      Application υ).signedIn = false := by
    unfold signedIn
    rw [show (Client.load storage : Client υ).storage = storage from rfl, htoken]
    rfl
  unfold load
  simp only [arrive_of_signedOut hout hloc]
  rw [if_neg]
  · exact hblank
  · exact fun h => absurd (hout.symm.trans h) Bool.false_ne_true

theorem unknown_step (h : s.client.Unknown) (he : e.namesUser = false)
    (hs : application.step s e s') : s'.client.Unknown := by
  change s.step e = some s' at hs
  cases e with
  | load location => cases he
  | register => cases he
  | saved => cases he
  | visit location =>
    cases hs
    exact unknown_visit h
  | login =>
    obtain ⟨-, hs⟩ := Option.ite_none_right_eq_some.mp hs
    cases hs
    exact h.push (show Task.Nameless (.request .login _) from trivial) rfl rfl
  | logout =>
    obtain ⟨-, hs⟩ := Option.ite_none_right_eq_some.mp hs
    cases hs
    exact unknown_visit h.logoutThunk
  | saveProfile =>
    obtain ⟨-, hs⟩ := Option.ite_none_right_eq_some.mp hs
    cases hs
    exact h.push (show Task.Nameless (.request .other _) from trivial) rfl rfl
  | call =>
    cases hs
    exact h.push (show Task.Nameless (.request .other _) from trivial) rfl rfl
  | answer index answer =>
    obtain ⟨client, hclient, rfl⟩ := Option.map_eq_some_iff.mp hs
    exact unknown_afterAnswer (h.answered hclient)

end Application

/-! ### The calls -/

/-- The application with every `CustomRoomUI` that it has mounted since it was loaded. -/
structure Calling (υ : Type*) where
  app : Application υ
  pages : List CallPage

inductive CallingEvent (υ : Type*)
  | app (e : AppEvent υ)
  | connected (partnerData : Option ℤ) (startedAt : ℤ)
  | call (index : ℕ) (e : CallEvent)

def CallingEvent.namesUser : CallingEvent υ → Bool
  | .app e => e.namesUser
  | _ => false

def AppEvent.loads : AppEvent υ → Bool
  | .load _ => true
  | _ => false

def fromStore : CallEvent → Bool
  | .load _ => true
  | _ => false

namespace Calling

def load (storage : Storage) (location : Location) : Calling υ := ⟨.load storage location, []⟩

def storedUser (idOf : υ → ℤ) (app : Application υ) : Option ℤ := app.client.auth.user.map idOf

def step (idOf : υ → ℤ) (s : Calling υ) : CallingEvent υ → Option (Calling υ)
  | .app e => (s.app.step e).map fun app =>
    ⟨app, (if e.loads then [] else s.pages).map fun page =>
      { page with stored := storedUser idOf app }⟩
  | .connected partnerData startedAt =>
    match s.app.route with
    | .voiceRoom roomName =>
      some { s with pages :=
        s.pages ++ [.mount partnerData roomName startedAt (storedUser idOf s.app)] }
    | _ => none
  | .call index e =>
    if fromStore e then none
    else s.pages[index]?.bind fun page =>
      (page.step e).map fun page' => { s with pages := s.pages.set index page' }

end Calling

def calling (idOf : υ → ℤ) : Lts (Calling υ) (CallingEvent υ) := Lts.ofStep (Calling.step idOf)

structure Unrecorded (page : CallPage) : Prop where
  stored : page.stored = none
  user : page.user = none
  subscribed : page.subscribed = none
  deleting : ∀ user ∈ page.deleting, user = none
  recorded : page.recorded = []

section Pages
variable {page page' : CallPage}

theorem unrecorded_mount (partnerData : Option ℤ) (roomName : String) (startedAt : ℤ) :
    Unrecorded (.mount partnerData roomName startedAt none) :=
  ⟨rfl, rfl, rfl, fun _ h => absurd h List.not_mem_nil, rfl⟩

theorem Unrecorded.delete (h : Unrecorded page) :
    Unrecorded { page with deleting := page.deleting ++ [page.user] } := by
  refine ⟨h.stored, h.user, h.subscribed, fun user huser => ?_, h.recorded⟩
  rcases List.mem_append.mp huser with huser | huser
  · exact h.deleting user huser
  · rw [List.mem_singleton.mp huser]
    exact h.user

theorem Unrecorded.leave (h : Unrecorded page) {user : Option ℤ} (huser : user = none)
    (endedAt : ℤ) : Unrecorded (page.leave user endedAt) := by
  refine ⟨h.stored, h.user, h.subscribed, h.deleting, ?_⟩
  rw [huser]
  exact List.append_eq_nil_iff.mpr ⟨h.recorded, rfl⟩

theorem Unrecorded.step (h : Unrecorded page) {e : CallEvent} (he : fromStore e = false)
    (hs : page.step e = some page') : Unrecorded page' := by
  cases e with
  | load user => cases he
  | render =>
    obtain ⟨-, hs⟩ := Option.ite_none_right_eq_some.mp hs
    cases hs
    exact ⟨h.stored, h.stored, h.subscribed, h.deleting, h.recorded⟩
  | clickLeave =>
    obtain ⟨-, hs⟩ := Option.ite_none_right_eq_some.mp hs
    cases hs
    exact h.delete
  | timeout =>
    obtain ⟨-, hs⟩ := Option.ite_none_right_eq_some.mp hs
    cases hs
    exact h.delete
  | participantDisconnected now =>
    obtain ⟨-, hs⟩ := Option.ite_none_right_eq_some.mp hs
    cases hs
    exact h.leave h.subscribed now
  | roomDeleted index ok now =>
    unfold CallPage.step at hs
    cases huser : page.deleting[index]? with
    | none => simp [huser] at hs
    | some user =>
      simp only [huser, Option.some.injEq] at hs
      cases hs
      have herased : Unrecorded { page with deleting := page.deleting.eraseIdx index } :=
        ⟨h.stored, h.user, h.subscribed, fun u hu => h.deleting u (List.mem_of_mem_eraseIdx hu),
          h.recorded⟩
      exact herased.leave (h.deleting user (List.mem_of_getElem? huser)) now
  | unmount =>
    obtain ⟨-, hs⟩ := Option.ite_none_right_eq_some.mp hs
    cases hs
    exact ⟨h.stored, h.user, h.subscribed, h.deleting, h.recorded⟩

end Pages

namespace Calling
variable {idOf : υ → ℤ} {s s' : Calling υ} {e : CallingEvent υ} {storage : Storage}
  {location : Location}

structure Unknown (s : Calling υ) : Prop where
  client : s.app.client.Unknown
  pages : ∀ page ∈ s.pages, Unrecorded page

theorem storedUser_of_unknown {app : Application υ} (h : app.client.Unknown) :
    storedUser idOf app = none := by
  unfold storedUser
  rw [h.user]
  rfl

theorem unknown_app (h : s.Unknown) {app : Application υ} (happ : app.client.Unknown)
    {pages : List CallPage} (hpages : ∀ page ∈ pages, page ∈ s.pages) :
    Unknown ⟨app, pages.map fun page => { page with stored := storedUser idOf app }⟩ := by
  refine ⟨happ, fun page' hpage' => ?_⟩
  obtain ⟨page, hpage, rfl⟩ := List.mem_map.mp hpage'
  have hold := h.pages page (hpages page hpage)
  exact ⟨storedUser_of_unknown happ, hold.user, hold.subscribed, hold.deleting, hold.recorded⟩

theorem unknown_step (h : s.Unknown) (he : e.namesUser = false) (hs : (calling idOf).step s e s') :
    s'.Unknown := by
  change s.step idOf e = some s' at hs
  cases e with
  | app e =>
    obtain ⟨app, happ, rfl⟩ := Option.map_eq_some_iff.mp hs
    refine unknown_app h (Application.unknown_step h.client he happ) fun page hpage => ?_
    split_ifs at hpage
    · exact absurd hpage List.not_mem_nil
    · exact hpage
  | connected partnerData startedAt =>
    simp only [step] at hs
    split at hs
    · next roomName hroute =>
      cases hs
      refine ⟨h.client, fun page hpage => ?_⟩
      rcases List.mem_append.mp hpage with hpage | hpage
      · exact h.pages page hpage
      · rw [List.mem_singleton.mp hpage, storedUser_of_unknown h.client]
        exact unrecorded_mount ..
    · cases hs
  | call index e =>
    unfold step at hs
    obtain ⟨hload, hs⟩ := Option.ite_none_left_eq_some.mp hs
    obtain ⟨page, hpage, hs⟩ := Option.bind_eq_some_iff.mp hs
    obtain ⟨page', hstep, rfl⟩ := Option.map_eq_some_iff.mp hs
    refine ⟨h.client, fun p hp => ?_⟩
    rcases List.mem_or_eq_of_mem_set hp with hp | rfl
    · exact h.pages p hp
    · exact (h.pages page (List.mem_of_getElem? hpage)).step (eq_false_of_ne_true hload) hstep

/-- However somebody signs in on a page that was loaded without an access token, the store holds
no user, and no call is recorded, until the page is loaded again, an account is registered or a
profile is saved. -/
theorem calls_unrecorded {es : List (CallingEvent υ)} (htoken : truthy storage.accessToken = none)
    (hloc : location.signsIn = false)
    (hr : ((calling idOf).guard fun _ e => e.namesUser = false).Run (.load storage location) es s) :
    s.app.client.auth.user = none ∧ ∀ page ∈ s.pages, page.recorded = [] := by
  have h : s.Unknown := by
    refine hr.invariant Unknown ?_ ?_
    · exact ⟨Application.unknown_load htoken hloc, fun _ h => absurd h List.not_mem_nil⟩
    · intro s e s' h hs
      exact unknown_step h hs.1 hs.2
  exact ⟨h.client.user, fun page hpage => (h.pages page hpage).recorded⟩

end Calling

end

def firstCall : List (CallingEvent String) :=
  [.app .login, .app (.answer 0 (.ok (.tokenResponse "access" "refresh"))),
    .app (.visit Route.waiting.location), .app (.visit (Route.voiceRoom "room").location),
    .connected (some 2) 0, .call 0 .render, .call 0 (.participantDisconnected 60000)]

theorem calls_unrecorded_applied : ∃ s,
    (calling fun name : String => name.length).Run (.load .empty Route.index.location) firstCall s ∧
      s.app.signedIn = true ∧ s.pages.map CallPage.home = [true] ∧
      ∀ page ∈ s.pages, page.recorded = [] := by
  obtain ⟨s, hexec, hin, hhome⟩ : ∃ s,
      Lts.exec (Lts.checked (Calling.step fun name : String => name.length)
        fun _ e => !e.namesUser) (.load .empty Route.index.location) firstCall = some s ∧
      s.app.signedIn = true ∧ s.pages.map CallPage.home = [true] := ⟨_, rfl, rfl, rfl⟩
  have hr := Lts.guard_run_of_checked (P := fun _ e => e.namesUser = false)
    (fun _ _ h => by simpa using h) hexec
  exact ⟨s, hr.of_guard, hin, hhome, (Calling.calls_unrecorded rfl rfl hr).2⟩

end Nalang.Session
