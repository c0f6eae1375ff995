import Nalang.WaitingRoom.Coherence

/-!
# The steps of the server

A connection reacts, and its frames come to the pages. Who leaves the queue has
something under way on a socket of the page, as long as the steps are careful.
-/

namespace Nalang.WaitingRoom
open Matchmaking Transition

namespace World

/-! ### The reaction of a connection -/

/-- The connection on `s` has reacted, and what it has sent is on its way. -/
structure Reacted (w w' : World) (s : Socket) (conn : Conn) (action : Action) (r : Reaction) :
    Prop where
  sys : w'.sys = w.sys.reacted s conn r
  components : w'.components = w.components
  retains : Retains everySocket w w'
  pushed : ∀ task request t l, action = .serve none → conn.status = .waiting task request →
    request.To t → w'.links t = some l → l.Live → l.toClient ≠ []
  toClient : ∀ t l, w'.links t = some l → ∀ event ∈ l.toClient, event.Ordinary
  toServer : ∀ t l, w'.links t = some l → ∀ msg ∈ l.toServer, ClientMessage msg

structure Considerate (w : World) (s : Socket) (conn : Conn) (action : Action) : Prop where
  departure : conn.Departs w.sys.state action → ∀ id c, w.components id = some c →
    w.Searches id c → c.user = conn.user.id →
      w.Owns id s ∨ c.Updates ∨ w.UnderWay id everySocket everySocket
  claim : ∀ otherId ws2, conn.Claims w.sys.state otherId action →
    w.sys.state.waitingUsers.get? otherId = some ws2 → ∀ id c, w.components id = some c →
      w.Searches id c → c.user = otherId →
        w.Owns id ws2 ∨ c.Updates ∨ w.UnderWay id everySocket everySocket
  failure : ∀ e t, action = .serve (some e) → conn.status.Announces t →
    ∀ id c, w.components id = some c → w.Searches id c → w.Owns id t →
      w.Owns id s ∨ w.Registered c ∨ c.Updates ∨ w.UnderWay id everySocket fun ws => ws ≠ s

section Reaction
variable {w w' : World} {s : Socket} {conn : Conn} {action : Action} {r : Reaction} {id : ℕ}
  {c : Component}

theorem considerate_of_careful {l : Label} (h : w.Careful l) (hl : l.reacts = some (s, action))
    (hc : w.sys.conns.get? s = some conn) : Considerate w s conn action where
  departure := h.departure s action conn hl hc
  claim otherId ws2 := h.claim s action conn otherId ws2 hl hc
  failure e t ha := by
    refine h.failure s e conn t ?_ hc
    cases l with
    | serve s' failure =>
      cases hl
      rw [Action.serve.injEq] at ha
      rw [ha]
    | resume s' hex drift =>
      cases hl
      cases ha
    | hangup s' =>
      cases hl
      cases ha
    | _ => cases hl

theorem considerate_message (w : World) (s : Socket) (conn : Conn) (msg : Json) :
    Considerate w s conn (.message msg) where
  departure h := absurd h id
  claim _ _ h := absurd h id
  failure _ _ h := by cases h

theorem owned_reacted (h : w.Owned) (hc : w.sys.conns.get? s = some conn)
    (hr : Reacted w w' s conn action r) : w'.Owned where
  owner t l' hl' := by
    obtain ⟨l, hl, hk⟩ := hr.retains.back t l' trivial hl'
    rw [hr.components, hk.owner]
    exact h.owner t l hl
  socketRef id c t hcomp href := by
    rw [hr.components] at hcomp
    obtain ⟨l, hl, howner⟩ := h.socketRef id c t hcomp href
    obtain ⟨l', hl', hk⟩ := hr.retains.forth t l trivial hl
    exact ⟨l', hl', hk.owner.trans howner⟩
  conn t conn' hconn' := by
    rw [hr.sys] at hconn'
    have hold : ∃ conn₀, w.sys.conns.get? t = some conn₀ ∧ conn'.user = conn₀.user := by
      rcases get?_reacted.mp hconn' with ⟨rfl, rfl⟩ | ⟨_, hold⟩
      · exact ⟨conn, hc, rfl⟩
      · exact ⟨conn', hold, rfl⟩
    obtain ⟨conn₀, hconn₀, huser⟩ := hold
    obtain ⟨l, c, hl, hcomp, hid⟩ := h.conn t conn₀ hconn₀
    obtain ⟨l', hl', hk⟩ := hr.retains.forth t l trivial hl
    exact ⟨l', c, hl', by rw [hr.components, hk.owner, hcomp], huser ▸ hid⟩
  toClient := hr.toClient
  toServer := hr.toServer

theorem attended_of_underWay (h : w.Owned) (hc : w.sys.conns.get? s = some conn)
    (hr : Reacted w w' s conn action r) (ha : Attends s conn w.sys.state action r)
    (hcomp : w.components id = some c) (hu : w.UnderWay id everySocket fun ws => ws ≠ s) :
    w'.Attended id c := by
  obtain ⟨t, l, hl, howner, hlive, _, hp⟩ := hu
  obtain ⟨l', hl', hk⟩ := hr.retains.forth t l trivial hl
  have hunderWay : w'.Pending t l' everySocket → w'.Attended id c := fun hp' =>
    .inr (.inr ⟨t, l', hl', hk.owner.trans howner, hk.live.mpr hlive, trivial, hp'⟩)
  have hother : ∀ {ws conn'}, ws ≠ s → w.sys.conns.get? ws = some conn' →
      w'.sys.conns.get? ws = some conn' := by
    intro ws conn' hne hconn'
    rw [hr.sys]
    exact get?_reacted.mpr (.inr ⟨hne, hconn'⟩)
  have hself : w'.sys.conns.get? s = some { conn with status := r.status } := by
    rw [hr.sys]
    exact get?_reacted.mpr (.inl ⟨rfl, rfl⟩)
  cases hp with
  | frame hne => exact hunderWay (.frame (hk.toClient hne))
  | unanswered hout =>
    refine hunderWay (.unanswered fun hin => ?_)
    rw [hr.sys] at hin
    rcases OrderedDict.mem_set.mp hin with rfl | hin
    · exact hout (OrderedDict.mem_of_get? hc)
    · exact hout hin
  | @unsettled conn' hc' hun =>
    by_cases ht : t = s
    · rw [ht, hc, Option.some.injEq] at hc'
      rw [ht] at hl hunderWay
      rcases ha.unsettled (hc' ▸ hun) with hun' | hreg | hann
      · exact hunderWay (.unsettled hself hun')
      · -- the connection has registered the user of its page
        obtain ⟨l₁, c₁, hl₁, hc₁, huser⟩ := h.conn s conn hc
        rw [hl, Option.some.injEq] at hl₁
        rw [← hl₁, howner, hcomp, Option.some.injEq] at hc₁
        refine .inl ?_
        unfold Registered
        rw [hr.sys, hc₁, ← huser]
        exact hreg
      · exact hunderWay (.announced hself hann trivial)
    · exact hunderWay (.unsettled (hother ht hc') hun)
  | announced hc' hann hws => exact hunderWay (.announced (hother hws hc') hann trivial)

theorem attended_reacted (h : w.Coherent) (hc : w.sys.conns.get? s = some conn)
    (hr : Reacted w w' s conn action r) (ha : Attends s conn w.sys.state action r)
    (hcons : Considerate w s conn action) (hcomp : w.components id = some c)
    (hs : w'.Searches id c) : w'.Attended id c := by
  have hsearch : w.Searches id c := hs.of_retains hr.retains rfl rfl
  have hself : w'.sys.conns.get? s = some { conn with status := r.status } := by
    rw [hr.sys]
    exact get?_reacted.mpr (.inl ⟨rfl, rfl⟩)
  have hpending : ∀ t, w.Owns id t →
      (∀ l, w'.links t = some l → l.Live → w'.Pending t l everySocket) → w'.Attended id c := by
    rintro t howns hp
    obtain ⟨l, hl, howner, hlive⟩ := (hr.retains.owns trivial).mpr howns
    exact .inr (.inr ⟨t, l, hl, howner, hlive, trivial, hp l hl hlive⟩)
  have hregistered : c.user ∈ r.state.waitingUsers → w'.Attended id c := by
    intro hin
    refine .inl ?_
    unfold Registered
    rw [hr.sys]
    exact hin
  have hothers : (w.UnderWay id everySocket fun ws => ws ≠ s) → w'.Attended id c :=
    attended_of_underWay h.owned hc hr ha hcomp
  have hannounced : ∀ t, w.Owns id t → conn.status.Announces t → w'.Attended id c := by
    intro t howns hann
    rcases ha.announced t hann
      with hann' | ⟨task, request, hstatus, haction, hto⟩ | ⟨e, haction, hun⟩
    · exact hpending t howns fun _ _ _ => .announced hself hann' trivial
    · exact hpending t howns fun l hl hlive =>
        .frame (hr.pushed task request t l haction hstatus hto hl hlive)
    · rcases hcons.failure e t haction hann id c hcomp hsearch howns with hown | hreg | hup | hu
      · exact hpending s hown fun _ _ _ => .unsettled hself hun
      · -- a failed send changes no table
        rcases ha.waiting c.user hreg with hin | ⟨_, hdep, _⟩ | ⟨_, hclaim, _⟩
        · exact hregistered hin
        · rw [haction] at hdep
          exact absurd hdep fun hno => hno
        · rw [haction] at hclaim
          exact absurd hclaim fun hno => hno
      · exact .inr (.inl hup)
      · exact hothers hu
  have hkept : c.Updates ∨ w.UnderWay id everySocket everySocket → w'.Attended id c := by
    rintro (hup | ⟨t, l, hl, howner, hlive, _, hp⟩)
    · exact .inr (.inl hup)
    · cases hp with
      | frame hne => exact hothers ⟨t, l, hl, howner, hlive, trivial, .frame hne⟩
      | unanswered hout => exact hothers ⟨t, l, hl, howner, hlive, trivial, .unanswered hout⟩
      | unsettled hc' hun => exact hothers ⟨t, l, hl, howner, hlive, trivial, .unsettled hc' hun⟩
      | @announced ws conn' hc' hann _ =>
        by_cases hws : ws = s
        · rw [hws, hc, Option.some.injEq] at hc'
          exact hannounced t ⟨l, hl, howner, hlive⟩ (hc' ▸ hann)
        · exact hothers ⟨t, l, hl, howner, hlive, trivial, .announced hc' hann hws⟩
  rcases h.attended id c hcomp hsearch with hreg | hrest
  · rcases ha.waiting c.user hreg with hin | ⟨huser, hdep, hun⟩ | ⟨ws2, hclaim, hget, hann⟩
    · exact hregistered hin
    · rcases hcons.departure hdep id c hcomp hsearch huser with hown | hrest
      · exact hpending s hown fun _ _ _ => .unsettled hself hun
      · exact hkept hrest
    · rcases hcons.claim c.user ws2 hclaim hget id c hcomp hsearch rfl with hown | hrest
      · exact hpending ws2 hown fun _ _ _ => .announced hself hann trivial
      · exact hkept hrest
  · exact hkept hrest

theorem coherent_reacted (h : w.Coherent) (hc : w.sys.conns.get? s = some conn)
    (hr : Reacted w w' s conn action r) (ha : Attends s conn w.sys.state action r)
    (hcons : Considerate w s conn action) : w'.Coherent where
  owned := owned_reacted h.owned hc hr
  shown id c hcomp := h.shown id c (hr.components ▸ hcomp)
  regular t conn' hconn' := by
    rw [hr.sys] at hconn'
    rcases get?_reacted.mp hconn' with ⟨_, rfl⟩ | ⟨_, hold⟩
    · exact ha.regular
    · exact h.regular t conn' hold
  paired := by
    rw [hr.sys]
    exact ha.paired
  attended id c hcomp := attended_reacted h hc hr ha hcons (hr.components ▸ hcomp)

/-! ### The labels of the server -/

theorem acts_eq_some {action : Action} (h : w.acts s action = some w') :
    ∃ conn r, w.sys.conns.get? s = some conn ∧ Reacts s conn w.sys.state action r ∧
      w' = { w with sys := w.sys.reacted s conn r } := by
  unfold acts at h
  split at h
  · cases h
  · next sys' hstep =>
    rw [Option.some.injEq] at h
    cases steps_of_step (show interleaved.step w.sys (.act s action) sys' from hstep) with
    | @acts _ _ conn r hc hr => exact ⟨conn, r, hc, reacts_of_react hr, h.symm⟩

theorem coherent_acts {w₁ : World} (h : w.Coherent) (hstep : w₁.acts s action = some w')
    (hsys : w₁.sys = w.sys) (hcomp : w₁.components = w.components) (hret : Retains everySocket w w₁)
    (hclient : ∀ t l, w₁.links t = some l → ∀ event ∈ l.toClient, event.Ordinary)
    (hserver : ∀ t l, w₁.links t = some l → ∀ msg ∈ l.toServer, ClientMessage msg)
    (hpushed : ∀ conn task request t l, w.sys.conns.get? s = some conn → action = .serve none →
      conn.status = .waiting task request → request.To t → w₁.links t = some l → l.Live →
        l.toClient ≠ [])
    (hcons : ∀ conn, w.sys.conns.get? s = some conn → Considerate w s conn action)
    (hmsg : ∀ msg, action = .message msg → ClientMessage msg) : w'.Coherent := by
  obtain ⟨conn, r, hc, hr, rfl⟩ := acts_eq_some hstep
  rw [hsys] at hc hr
  have hreacted : Reacted w { w₁ with sys := w₁.sys.reacted s conn r } s conn action r := {
    sys := by rw [hsys]
    components := hcomp
    retains := ⟨hret.forth, hret.back⟩
    pushed := fun task request t l => hpushed conn task request t l hc
    toClient := hclient
    toServer := hserver }
  exact coherent_reacted h hc hreacted (attends_of_reacts hr (h.regular s conn hc) h.paired hmsg)
    (hcons conn hc)

theorem frames_of_received {l l₁ : Link} {msgs : List Json} {t : Socket} (h : w.Owned)
    (hl : w.links s = some l) (hsub : ∀ msg ∈ msgs, msg ∈ l.toServer)
    (hl₁ : (w.setLink s { l with toServer := msgs }).links t = some l₁) :
    (∀ event ∈ l₁.toClient, event.Ordinary) ∧ ∀ msg ∈ l₁.toServer, ClientMessage msg := by
  rcases setLink_links_eq_some.mp hl₁ with ⟨_, rfl⟩ | ⟨_, hold⟩
  · exact ⟨h.toClient s l hl, fun msg hmsg => h.toServer s l hl msg (hsub msg hmsg)⟩
  · exact ⟨h.toClient t l₁ hold, h.toServer t l₁ hold⟩

theorem coherent_handedOver {l : Link} {msgs : List Json} (h : w.Coherent)
    (hl : w.links s = some l) (hsub : ∀ msg ∈ msgs, msg ∈ l.toServer)
    (hserve : ∀ failure, action ≠ .serve failure)
    (hstep : (w.setLink s { l with toServer := msgs }).acts s action = some w')
    (hcons : ∀ conn, w.sys.conns.get? s = some conn → Considerate w s conn action)
    (hmsg : ∀ msg, action = .message msg → msg ∈ l.toServer) : w'.Coherent := by
  refine coherent_acts h hstep rfl rfl (retains_setLink hl ⟨rfl, Iff.rfl, id⟩) ?_ ?_ ?_ hcons ?_
  · exact fun t l₁ hl₁ => (frames_of_received h.owned hl hsub hl₁).1
  · exact fun t l₁ hl₁ => (frames_of_received h.owned hl hsub hl₁).2
  · intro _ _ _ _ _ _ ha
    exact absurd ha (hserve none)
  · exact fun msg ha => h.owned.toServer s l hl msg (hmsg msg ha)

theorem coherent_receive {l : Link} {msg : Json} {rest : List Json} (h : w.Coherent)
    (hl : w.links s = some l) (hmsgs : l.toServer = msg :: rest)
    (hstep : (w.setLink s { l with toServer := rest }).acts s (.message msg) = some w') :
    w'.Coherent := by
  refine coherent_handedOver h hl (fun m hm => hmsgs ▸ List.mem_cons_of_mem _ hm)
    (fun _ ha => by cases ha) hstep (fun conn _ => considerate_message w s conn msg) ?_
  intro m hm
  cases hm
  rw [hmsgs]
  exact List.mem_cons_self

theorem coherent_hangup {l : Link} (h : w.Coherent) (hl : w.links s = some l)
    (hcareful : w.Careful (.hangup s))
    (hstep : (w.setLink s { l with toServer := [] }).acts s .hangup = some w') : w'.Coherent :=
  coherent_handedOver h hl (fun m hm => by cases hm) (fun _ ha => by cases ha) hstep
    (fun conn hc => considerate_of_careful hcareful rfl hc) fun _ ha => by cases ha

theorem coherent_resume {hex : String} {drift : OrderedDict.Drift String} (h : w.Coherent)
    (hcareful : w.Careful (.resume s hex drift)) (hstep : w.acts s (.resume hex drift) = some w') :
    w'.Coherent := by
  refine coherent_acts h hstep rfl rfl (retains_of_links fun _ _ => rfl) h.owned.toClient
    h.owned.toServer ?_ (fun conn hc => considerate_of_careful hcareful rfl hc) ?_
  · intro _ _ _ _ _ _ ha
    cases ha
  · intro m hm
    cases hm

/-! ### The frames of the server -/

theorem retains_push {t : Socket} {event : ServerEvent} :
    Retains everySocket w (w.push t event) := by
  unfold push
  split
  · exact retains_of_links fun _ _ => rfl
  · next l hl =>
    split_ifs
    · exact retains_setLink hl ⟨rfl, Iff.rfl, fun _ => by simp⟩
    · exact retains_of_links fun _ _ => rfl

theorem push_links {t t' : Socket} {event : ServerEvent} {l : Link}
    (hl : (w.push t event).links t' = some l) : ∃ l₀, w.links t' = some l₀ ∧
      l.toServer = l₀.toServer ∧ ∀ e ∈ l.toClient, e ∈ l₀.toClient ∨ e = event := by
  have hsame : w.links t' = some l → ∃ l₀, w.links t' = some l₀ ∧ l.toServer = l₀.toServer ∧
      ∀ e ∈ l.toClient, e ∈ l₀.toClient ∨ e = event :=
    fun hl => ⟨l, hl, rfl, fun _ he => .inl he⟩
  unfold push at hl
  split at hl
  · exact hsame hl
  · next l₁ hl₁ =>
    split_ifs at hl
    · rcases setLink_links_eq_some.mp hl with ⟨rfl, rfl⟩ | ⟨_, hold⟩
      · exact ⟨l₁, hl₁, rfl, fun e he => by simpa using he⟩
      · exact hsame hold
    · exact hsame hl

theorem push_toClient {t : Socket} {event : ServerEvent} {l : Link}
    (hl : (w.push t event).links t = some l) (hlive : l.Live) : l.toClient ≠ [] := by
  unfold push at hl
  split at hl
  · next hnone =>
    rw [hnone] at hl
    cases hl
  · next l₁ hl₁ =>
    split_ifs at hl with h₁
    · rw [setLink_links_self, Option.some.injEq] at hl
      rw [← hl]
      simp
    · rw [hl₁, Option.some.injEq] at hl
      rw [hl] at h₁
      exact absurd hlive h₁

theorem push_frame (t : Socket) (event : ServerEvent) :
    (w.push t event).sys = w.sys ∧ (w.push t event).components = w.components := by
  unfold push
  split
  · exact ⟨rfl, rfl⟩
  · split_ifs <;> exact ⟨rfl, rfl⟩

theorem coherent_serve {failure : Option PyError} (h : w.Coherent)
    (hc : w.sys.conns.get? s = some conn)
    (hstep : (match conn.status, failure with
      | .waiting _ (.send target event), none => (w.push target event).acts s (.serve none)
      | _, _ => w.acts s (.serve failure)) = some w')
    (hcareful : w.Careful (.serve s failure)) : w'.Coherent := by
  have hcons : ∀ conn, w.sys.conns.get? s = some conn → Considerate w s conn (.serve failure) :=
    fun conn hc => considerate_of_careful hcareful rfl hc
  have hmsg : ∀ msg, Action.serve failure = .message msg → ClientMessage msg := by
    intro msg he
    cases he
  by_cases hsend : failure = none ∧
      ∃ task target event, conn.status = .waiting task (.send target event)
  · obtain ⟨rfl, task, target, event, hstatus⟩ := hsend
    rw [hstatus] at hstep
    obtain ⟨hsys, hcomp⟩ := push_frame (w := w) target event
    have hordinary : event.Ordinary := by
      have hreg := h.regular s conn hc
      rw [hstatus] at hreg
      exact hreg.2
    refine coherent_acts h hstep hsys hcomp retains_push ?_ ?_ ?_ hcons hmsg
    · intro t l hl e he
      obtain ⟨l₀, hl₀, _, hevents⟩ := push_links hl
      rcases hevents e he with he | rfl
      · exact h.owned.toClient t l₀ hl₀ e he
      · exact hordinary
    · intro t l hl msg hm
      obtain ⟨l₀, hl₀, hserver, _⟩ := push_links hl
      exact h.owned.toServer t l₀ hl₀ msg (hserver ▸ hm)
    · intro conn' task' request t l hc' _ hstatus' hto hl hlive
      rw [hc, Option.some.injEq] at hc'
      rw [← hc', hstatus] at hstatus'
      cases hstatus'
      obtain rfl : target = t := hto
      exact push_toClient hl hlive
  · have hacts : w.acts s (.serve failure) = some w' := by
      split at hstep
      · next task target event hstatus => exact absurd ⟨rfl, task, target, event, hstatus⟩ hsend
      · exact hstep
    refine coherent_acts h hacts rfl rfl (retains_of_links fun _ _ => rfl) h.owned.toClient
      h.owned.toServer ?_ hcons hmsg
    intro conn' task request t l hc' ha hstatus hto _ _
    rw [hc, Option.some.injEq] at hc'
    rw [Action.serve.injEq] at ha
    cases request with
    | send target event => exact absurd ⟨ha, task, target, event, hc' ▸ hstatus⟩ hsend
    | _ => exact absurd hto fun hno => hno

theorem coherent_elapse (h : w.Coherent) (seconds : ℕ) (today : Python.Date) :
    ({ w with sys := { w.sys with state := { w.sys.state with
      clock := ⟨w.sys.state.clock.now + seconds, today⟩ } } } : World).Coherent where
  owned := ⟨h.owned.owner, h.owned.socketRef, h.owned.conn, h.owned.toClient, h.owned.toServer⟩
  shown := h.shown
  regular := h.regular
  paired := h.paired
  attended id c hcomp hs := by
    rcases h.attended id c hcomp ⟨hs.mounted, hs.matchInfo, hs.linked⟩ with hreg | hup | hu
    · exact .inl hreg
    · exact .inr (.inl hup)
    · obtain ⟨t, l, hl, howner, hlive, _, hp⟩ := hu
      refine .inr (.inr ⟨t, l, hl, howner, hlive, trivial, ?_⟩)
      cases hp with
      | frame hne => exact .frame hne
      | unanswered hout => exact .unanswered hout
      | unsettled hc hun => exact .unsettled hc hun
      | announced hc hann hws => exact .announced hc hann hws

theorem coherent_accept {l : Link} {user : User} {query : QueryParams} {sys : Sys} (h : w.Coherent)
    (hl : w.links s = some l) (hcomp : w.components l.owner = some c) (huser : user.id = c.user)
    (hstep : w.sys.step (.connect s user query) = some sys) :
    (({ w with sys := sys } : World).setLink s { l with requested := false }).Coherent := by
  obtain ⟨hnew, hstate, hget⟩ : ¬ s ∈ w.sys.conns ∧ sys.state = w.sys.state ∧
      ∀ t conn, sys.conns.get? t = some conn ↔
        (t = s ∧ conn = ⟨user, query, .waiting (.connect .storing)
          (.redisSet user.id (recordOf user query))⟩) ∨
            (t ≠ s ∧ w.sys.conns.get? t = some conn) := by
    cases steps_of_step (show interleaved.step w.sys (.connect s user query) sys from hstep) with
    | connects hnew => exact ⟨hnew, rfl, fun t conn => OrderedDict.get?_set_eq_some⟩
  have hsys : (({ w with sys := sys } : World).setLink s { l with requested := false }).sys = sys :=
    rfl
  have hret : Retains everySocket w
      (({ w with sys := sys } : World).setLink s { l with requested := false }) := by
    have hset : Retains everySocket w (w.setLink s { l with requested := false }) :=
      retains_setLink hl ⟨rfl, Iff.rfl, fun hne => hne⟩
    exact ⟨hset.forth, hset.back⟩
  have hpass : Passes l.owner w (w.setLink s { l with requested := false }) :=
    passes_setLink hl ⟨rfl, Iff.rfl, fun hne => hne⟩ (fun _ he => he) rfl
  have hpassed := hpass.moves h.owned
  have hold : ∀ {t conn}, w.sys.conns.get? t = some conn → sys.conns.get? t = some conn :=
    fun hc => (hget _ _).mpr (.inr ⟨fun he => hnew (he ▸ OrderedDict.mem_of_get? hc), hc⟩)
  refine ⟨⟨hpassed.1.owner, hpassed.1.socketRef, ?_, hpassed.1.toClient, hpassed.1.toServer⟩,
    h.shown, ?_, ?_, ?_⟩
  · intro t conn hc
    rcases (hget t conn).mp hc with ⟨rfl, rfl⟩ | ⟨_, hc⟩
    · exact ⟨{ l with requested := false }, c, setLink_links_self, hcomp, huser⟩
    · exact hpassed.1.conn t conn hc
  · intro t conn hc
    rcases (hget t conn).mp hc with ⟨rfl, rfl⟩ | ⟨_, hc⟩
    · exact ⟨trivial, trivial⟩
    · exact h.regular t conn hc
  · rw [hsys, hstate]
    exact h.paired
  · intro id c' hc' hs
    rcases h.attended id c' hc' (hs.of_retains hret rfl rfl) with hreg | hup | hu
    · refine .inl ?_
      unfold Registered
      rw [hsys, hstate]
      exact hreg
    · exact .inr (.inl hup)
    · obtain ⟨t, l₀, hl₀, howner, hlive, _, hp⟩ := hu
      obtain ⟨l', hl', hk⟩ := hret.forth t l₀ trivial hl₀
      refine .inr (.inr ⟨t, l', hl', hk.owner.trans howner, hk.live.mpr hlive, trivial, ?_⟩)
      cases hp with
      | frame hne => exact .frame (hk.toClient hne)
      | unanswered hout =>
        by_cases ht : t = s
        · exact .unsettled ((hget t _).mpr (.inl ⟨ht, rfl⟩)) trivial
        · refine .unanswered fun hin => ?_
          obtain ⟨conn, hc⟩ := OrderedDict.get?_isSome hin
          have hold' := ((hget t conn).mp hc).resolve_left fun he => ht he.1
          exact hout (OrderedDict.mem_of_get? hold'.2)
      | unsettled hc hun => exact .unsettled (hold hc) hun
      | announced hc hann _ => exact .announced (hold hc) hann trivial

end Reaction

end World
end Nalang.WaitingRoom
