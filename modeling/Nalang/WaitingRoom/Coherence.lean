import Nalang.WaitingRoom.Pages

/-!
# The steps of the pages

Every page whose view is the search has something under way at the server, or has
itself something to render, as long as its steps are careful.
-/

namespace Nalang.WaitingRoom
open Matchmaking Transition

/-- What the client has been told agrees with what it shows. -/
structure Component.Shown (c : Component) : Prop where
  ordinary : ∀ event, c.message = some event → event.Ordinary
  told : c.matchInfo ≠ none → c.message ≠ none ∧ (c.stale ∨ ¬ c.Restarts)

structure Component.Renders (c d : Component) : Prop where
  user : d.user = c.user
  socketRef : d.socketRef = c.socketRef
  message : d.message = c.message
  matchInfo : d.matchInfo = c.matchInfo ∨ d.matchInfo = none

theorem Component.Renders.shown {c d : Component} (h : c.Renders d) (hs : c.Shown) :
    (∀ event, d.message = some event → event.Ordinary) ∧
      (c.matchInfo ≠ none → d.message ≠ none) := by
  rw [h.message]
  exact ⟨hs.ordinary, fun hne => (hs.told hne).1⟩

namespace World

structure Coherent (w : World) : Prop where
  owned : w.Owned
  shown : ∀ id c, w.components id = some c → c.Shown
  regular : ∀ s conn, w.sys.conns.get? s = some conn → conn.status.Regular
  paired : w.sys.state.Paired
  attended : ∀ id c, w.components id = some c → w.Searches id c → w.Attended id c

/-! ### The other pages -/

section Transfer
variable {w w' : World} {id id' : ℕ} {c c' : Component} {s : Socket}
  {own announcers : Socket → Prop}

theorem Local.owns (h : Local id w w') (hne : id' ≠ id) : w'.Owns id' s ↔ w.Owns id' s := by
  constructor
  · rintro ⟨l, hl, howner, hlive⟩
    exact ⟨l, (h.links s l (howner ▸ hne)).mp hl, howner, hlive⟩
  · rintro ⟨l, hl, howner, hlive⟩
    exact ⟨l, (h.links s l (howner ▸ hne)).mpr hl, howner, hlive⟩

theorem Local.underWay (h : Local id w w') (hne : id' ≠ id) (hu : w.UnderWay id' own announcers) :
    w'.UnderWay id' own announcers := by
  obtain ⟨s, l, hl, howner, hlive, hs, hp⟩ := hu
  exact ⟨s, l, (h.links s l (howner ▸ hne)).mpr hl, howner, hlive, hs, hp.congr h.sys (.refl l)⟩

theorem Registered.congr (h : w.Registered c) (hsys : w'.sys = w.sys) (hu : c'.user = c.user) :
    w'.Registered c' := by
  unfold Registered
  rw [hsys, hu]
  exact h

theorem Searches.of_retains (hs : w'.Searches id c') (hr : Retains everySocket w w')
    (hm : c'.mounted = c.mounted) (hi : c'.matchInfo = c.matchInfo) : w.Searches id c where
  mounted := hm ▸ hs.mounted
  matchInfo := hi ▸ hs.matchInfo
  linked := by
    obtain ⟨s, howns⟩ := hs.linked
    exact ⟨s, (hr.owns trivial).mp howns⟩

theorem Coherent.local (h : w.Coherent) (hm : Moves id w w') (hc' : w'.components id = some c')
    (hshown : c'.Shown) (hatt : w'.sys = w.sys → w'.Searches id c' → w'.Attended id c') :
    w'.Coherent := by
  obtain ⟨howned, hl⟩ := hm h.owned
  refine ⟨howned, ?_, ?_, ?_, ?_⟩
  · intro id' c₁ hc₁
    by_cases hid : id' = id
    · rw [hid, hc', Option.some.injEq] at hc₁
      exact hc₁ ▸ hshown
    · exact h.shown id' c₁ ((hl.components id' hid).symm.trans hc₁)
  · intro s conn hconn
    exact h.regular s conn (hl.sys ▸ hconn)
  · rw [hl.sys]
    exact h.paired
  · intro id' c₁ hc₁ hs
    by_cases hid : id' = id
    · rw [hid, hc', Option.some.injEq] at hc₁
      rw [← hc₁, hid] at hs ⊢
      exact hatt hl.sys hs
    · obtain ⟨s, howns⟩ := hs.linked
      have hatt' := h.attended id' c₁ ((hl.components id' hid).symm.trans hc₁)
        ⟨hs.mounted, hs.matchInfo, s, (hl.owns hid).mp howns⟩
      rcases hatt' with hreg | hup | hu
      · exact .inl (hreg.congr hl.sys rfl)
      · exact .inr (.inl hup)
      · exact .inr (.inr (hl.underWay hid hu))

theorem Coherent.passes (h : w.Coherent) (hc : w.components id = some c) (hp : Passes id w w') :
    w'.Coherent := by
  obtain ⟨c', hc', hs⟩ := hp.component c hc
  have hshown := h.shown id c hc
  refine h.local hp.moves hc' ⟨?_, ?_⟩ ?_
  · rw [hs.message]
    exact hshown.ordinary
  · unfold Component.Restarts
    rw [hs.message, hs.matchInfo, hs.stale]
    exact hshown.told
  · intro hsys hsearch
    rcases h.attended id c hc (hsearch.of_retains hp.retains hs.mounted hs.matchInfo)
      with hreg | hup | hu
    · exact .inl (hreg.congr hsys hs.user)
    · refine .inr (.inl ⟨hs.stale ▸ hup.1, ?_⟩)
      rw [hs.message]
      exact hup.2
    · exact .inr (.inr (hp.retains.underWay hsys hu))

end Transfer

/-! ### The steps of a component -/

section Steps
variable {w : World} {id : ℕ} {c c₀ : Component} {ws : Option Socket} {s : Socket}

theorem coherent_mount (h : w.Coherent) (hnone : w.components id = none) (user : UserId)
    (hf : w.Fresh ws) :
    ((w.setComponent id (.mount user)).locationEffect id (.mount user) ws).Coherent := by
  have hmount : Moves id w (w.setComponent id (.mount user)) := moves_mount hnone rfl
  have hfresh : (w.setComponent id (.mount user)).Fresh ws := fresh_congr (fun _ h => h) rfl hf
  have hset : (w.setComponent id (.mount user)).components id = some (.mount user) :=
    setComponent_self
  obtain ⟨c', hc', huser, hmounted, hmessage, hinfo⟩ :=
    locationEffect_component (.mount user) ws hset
  have hin : ((w.setComponent id (.mount user)).components id).isSome := by
    rw [hset]
    rfl
  refine h.local (hmount.trans (moves_locationEffect hfresh hin)) hc' ⟨?_, ?_⟩ ?_
  · intro event he
    rw [hmessage] at he
    cases he
  · intro hne
    exact absurd hinfo hne
  · intro hsys hs
    cases ws with
    | some s => exact .inr (.inr (underWay_of_fresh hf hsys locationEffect_link rfl (.inl rfl)))
    | none =>
      -- the new component has no socket
      obtain ⟨s, howns⟩ := hs.linked
      have hret : Retains everySocket w
          ((w.setComponent id (.mount user)).locationEffect id (.mount user) none) :=
        retains_setComponent.trans retains_locationEffect
      obtain ⟨l, hl, howner, _⟩ := (hret.owns trivial).mp howns
      obtain ⟨c₀, hc₀⟩ := h.owned.owner s l hl
      rw [howner, hnone] at hc₀
      cases hc₀

theorem coherent_locate (h : w.Coherent) (hc : w.components id = some c) (hm : c.mounted)
    (hf : w.Fresh ws) (hcareful : w.Careful (.locate id ws)) : (w.located id c ws).Coherent := by
  have hshown := h.shown id c hc
  obtain ⟨c', hc', huser, _, hmessage, hinfo, hstale⟩ := located_component ws hc
  refine h.local (moves_located hc hf) hc' ⟨?_, ?_⟩ ?_
  · intro event he
    exact hshown.ordinary event (hmessage ▸ he)
  · intro hne
    rw [hmessage]
    exact ⟨(hshown.told (hinfo ▸ hne)).1, .inl hstale⟩
  · intro hsys hs
    cases ws with
    | some s =>
      have hlink : (w.located id c (some s)).links s = some ⟨id, .connecting, true, [], []⟩ := by
        rw [located, modify_links, locationEffect_link]
      exact .inr (.inr (underWay_of_fresh hf hsys hlink rfl (.inl rfl)))
    | none =>
      obtain ⟨s, howns⟩ := hs.linked
      have hkept : ¬ c.Drops s := by
        intro hd
        have hlater : Retains everySocket (w.runCleanup id c) (w.located id c none) :=
          retains_locationEffect.trans retains_modify
        exact runCleanup_drops hc hd ((hlater.owns trivial).mp howns)
      have howns₀ : w.Owns id s := ((retains_located hc).owns hkept).mp howns
      have hsearch : w.Searches id c := ⟨hm, hinfo ▸ hs.matchInfo, s, howns₀⟩
      rcases hcareful.relocation id c rfl hc hsearch ⟨s, hkept, howns₀⟩
        with hreg | hmsg | hu
      · exact .inl (hreg.congr hsys huser)
      · exact .inr (.inl ⟨hstale, by rwa [hmessage]⟩)
      · exact .inr (.inr ((retains_located hc).underWay hsys hu))

theorem coherent_unmount (h : w.Coherent) (hc : w.components id = some c) :
    (w.unmounted id c).Coherent := by
  have hshown := h.shown id c hc
  refine h.local moves_unmounted (unmounted_component hc) ⟨hshown.ordinary, hshown.told⟩ ?_
  intro _ hs
  cases hs.mounted

theorem coherent_entered (h : w.Coherent) (hc : w.components id = some c) :
    (w.entered id c).Coherent := by
  have hshown := h.shown id c hc
  have hleft : ((w.disconnect id).modify id
      fun c' => { c' with hasEnteredRoom := true }).components id =
        some { c with hasEnteredRoom := true } := by simp [hc]
  by_cases hm : c.mounted
  · have hc' : (w.entered id c).components id =
        some { c with hasEnteredRoom := true, mounted := false, timer := false } := by
      simp only [entered, hm, if_true]
      exact unmounted_component hleft
    refine h.local moves_entered hc' ⟨hshown.ordinary, hshown.told⟩ fun _ hs => ?_
    cases hs.mounted
  · have hc' : (w.entered id c).components id = some { c with hasEnteredRoom := true } := by
      simp [entered, hm, hc]
    refine h.local moves_entered hc' ⟨hshown.ordinary, hshown.told⟩ fun _ hs => ?_
    exact absurd hs.mounted hm

theorem shows_eq_none (hordinary : ∀ event, c.message = some event → event.Ordinary)
    (hr : ¬ c.Restarts) (h : c.shows = none) : c.message = none := by
  unfold Component.shows at h
  cases hm : c.message with
  | none => rfl
  | some event =>
    rw [hm] at h
    cases event with
    | matchProposal room partnerId =>
      dsimp only at h
      split_ifs at h with hroom
      rw [h] at hroom
      cases hroom
    | disconnected => exact absurd (.inr hm) hr
    | rejected => exact absurd (.inl hm) hr
    | matched room => exact absurd (hordinary _ hm) id

theorem shown_rendered {c' : Component}
    (hordinary : ∀ event, c.message = some event → event.Ordinary)
    (htold : c.matchInfo ≠ none → c.message ≠ none) (hmessage : c'.message = c.message)
    (hinfo : c'.matchInfo = c.shows) : c'.Shown := by
  refine ⟨fun event he => hordinary event (hmessage ▸ he), fun hne => ?_⟩
  rw [hinfo, Component.shows] at hne
  unfold Component.Restarts
  rw [hmessage]
  cases hm : c.message with
  | none =>
    rw [hm] at hne
    exact absurd hm (htold hne)
  | some event =>
    rw [hm] at hne
    refine ⟨by simp, .inr fun hrestart => ?_⟩
    rcases hrestart with he | he <;> cases he <;> exact hne rfl

theorem coherent_rendered {d : Component} (h : w.Coherent) (hc : w.components id = some c)
    (hm : c.mounted) (hd : c.Renders d) (hf : w.Fresh ws)
    (htoken : ws = none → (∃ s, w.Owns id s) → d.Restarts →
      w.Registered c ∨ w.UnderWay id everySocket everySocket) : (w.rendered id d ws).Coherent := by
  obtain ⟨hordinary, htold⟩ := hd.shown (h.shown id c hc)
  have htold' : d.matchInfo ≠ none → d.message ≠ none := fun hne =>
    htold fun hnone => hd.matchInfo.elim (fun he => hne (he.trans hnone)) hne
  obtain ⟨c', hc', huser, _, hmessage, hinfo⟩ := rendered_component (w := w) id d ws
  have huser' : c'.user = c.user := huser.trans hd.user
  refine h.local (moves_rendered hc hd.user hd.socketRef hf) hc' ?_ ?_
  · exact shown_rendered hordinary htold' hmessage hinfo
  · intro hsys hs
    by_cases hr : d.Restarts
    · cases ws with
      | some s =>
        have hlink : ((w.setComponent id { d with stale := false }).messageEffect id d
            (some s)).links s = some ⟨id, .connecting, true, [], []⟩ := messageEffect_link hr
        have hpass : Passes id _ (w.rendered id d (some s)) := passes_countdownEffect
        obtain ⟨l, hl, hk⟩ := hpass.retains.forth s _ trivial hlink
        exact .inr (.inr (underWay_of_fresh hf hsys hl hk.owner (hk.live.mpr (.inl rfl))))
      | none =>
        have hretains : Retains everySocket w (w.rendered id d none) :=
          retains_rendered fun _ => rfl
        obtain ⟨s, howns⟩ := hs.linked
        rcases htoken rfl ⟨s, (hretains.owns trivial).mp howns⟩ hr with hreg | hu
        · exact .inl (hreg.congr hsys huser')
        · exact .inr (.inr (hretains.underWay hsys hu))
    · have hretains : Retains everySocket w (w.rendered id d ws) :=
        retains_rendered fun hr' => absurd hr' hr
      -- the search is on the screen only if no message has come
      have hmsg : d.message = none := shows_eq_none hordinary hr (hinfo ▸ hs.matchInfo)
      have hnone : c.matchInfo = none := by
        by_contra hne
        exact htold hne hmsg
      obtain ⟨s, howns⟩ := hs.linked
      have hsearch : w.Searches id c := ⟨hm, hnone, s, (hretains.owns trivial).mp howns⟩
      rcases h.attended id c hc hsearch with hreg | hup | hu
      · exact .inl (hreg.congr hsys huser')
      · exact absurd (hd.message.symm.trans hmsg) hup.2
      · exact .inr (.inr (hretains.underWay hsys hu))

theorem coherent_render (h : w.Coherent) (hc : w.components id = some c) (hm : c.mounted)
    (hf : w.Fresh ws) (hcareful : w.Careful (.render id ws)) : (w.rendered id c ws).Coherent := by
  refine coherent_rendered h hc hm ⟨rfl, rfl, rfl, .inl rfl⟩ hf fun hws howns hr => ?_
  exact hcareful.token id c (.inl (by rw [hws])) hc howns hr

theorem coherent_tick (h : w.Coherent) (hc : w.components id = some c) (countdown : ℤ) :
    (w.setComponent id
      { c with timer := false, countdown := countdown, stale := true }).Coherent := by
  have hshown := h.shown id c hc
  refine h.local (moves_setComponent hc rfl rfl) setComponent_self
    ⟨hshown.ordinary, fun hne => ⟨(hshown.told hne).1, .inl rfl⟩⟩ ?_
  intro hsys hs
  rcases h.attended id c hc (hs.of_retains retains_setComponent rfl rfl) with hreg | hup | hu
  · exact .inl hreg
  · exact .inr (.inl ⟨rfl, hup.2⟩)
  · exact .inr (.inr (retains_setComponent.underWay hsys hu))

theorem coherent_reject (h : w.Coherent) (hc : w.components id = some c) (hm : c.mounted)
    (p : Proposal) (hf : w.Fresh ws) (hcareful : w.Careful (.reject id ws)) :
    (w.handleReject id c p ws).Coherent := by
  have hsend : Passes id w (w.send id (eventOf "rejected" p.room)) :=
    passes_send (clientMessage_eventOf (.inr rfl))
  have hc₁ : (w.send id (eventOf "rejected" p.room)).components id = some c := by
    rw [send_components, hc]
  have hfresh : (w.send id (eventOf "rejected" p.room)).Fresh ws :=
    fresh_congr (fun _ hs => send_links_none hs) send_sys hf
  refine coherent_rendered (h.passes hc hsend) hc₁ hm ⟨rfl, rfl, rfl, .inr rfl⟩ hfresh ?_
  rintro hws ⟨s, howns⟩ hr
  have howner : ∃ s, w.Owns id s := ⟨s, (hsend.retains.owns trivial).mp howns⟩
  rcases hcareful.token id c (.inr (by rw [hws])) hc howner hr with hreg | hu
  · exact .inl (hreg.congr send_sys rfl)
  · exact .inr (hsend.retains.underWay send_sys hu)

theorem passes_setComponent {c' : Component} (hc : w.components id = some c) (hs : c.Same c') :
    Passes id w (w.setComponent id c') where
  moves := moves_setComponent hc hs.user hs.socketRef
  retains := retains_setComponent
  component c₁ hc₁ := by
    rw [hc, Option.some.injEq] at hc₁
    exact ⟨c', setComponent_self, hc₁ ▸ hs⟩

theorem coherent_callToken (h : w.Coherent) (hc : w.components id = some c) (rest : List String)
    (granted : Bool) :
    (if granted then (w.setComponent id { c with entering := rest }).entered id
        { c with entering := rest }
      else w.setComponent id { c with entering := rest }).Coherent := by
  have hpass : Passes id w (w.setComponent id { c with entering := rest }) :=
    passes_setComponent hc ⟨rfl, rfl, rfl, rfl, rfl, rfl⟩
  have hasked := h.passes hc hpass
  split_ifs
  · exact coherent_entered hasked setComponent_self
  · exact hasked

/-! ### The sockets of a page -/

variable {l : Link}

theorem passes_setLink {l' : Link} (hl : w.links s = some l) (hk : l.Kept l')
    (hclient : ∀ event ∈ l'.toClient, event ∈ l.toClient) (hserver : l'.toServer = l.toServer) :
    Passes l.owner w (w.setLink s l') where
  moves := moves_setLink hl rfl hk.owner hclient fun _ hmsg => .inl (hserver ▸ hmsg)
  retains := retains_setLink hl hk
  component c hc := ⟨c, hc, rfl, rfl, rfl, rfl, rfl, rfl⟩

theorem coherent_setLink {l' : Link} (h : w.Coherent) (hl : w.links s = some l) (hk : l.Kept l')
    (hclient : ∀ event ∈ l'.toClient, event ∈ l.toClient) (hserver : l'.toServer = l.toServer) :
    (w.setLink s l').Coherent := by
  obtain ⟨c, hc⟩ := h.owned.owner s l hl
  exact h.passes hc (passes_setLink hl hk hclient hserver)

theorem coherent_message (h : w.Coherent) (hl : w.links s = some l) {event : ServerEvent}
    {rest : List ServerEvent} (hevents : l.toClient = event :: rest) :
    ((w.setLink s { l with toClient := rest }).onmessage l.owner event).Coherent := by
  obtain ⟨c, hc⟩ := h.owned.owner s l hl
  have hshown := h.shown _ c hc
  have hpop : Moves l.owner w (w.setLink s { l with toClient := rest }) := by
    refine moves_setLink hl rfl rfl (fun e he => ?_) (fun _ hmsg => .inl hmsg)
    rw [hevents]
    exact List.mem_cons_of_mem _ he
  have hmoves : Moves l.owner w
      ((w.setLink s { l with toClient := rest }).onmessage l.owner event) := by
    refine hpop.trans (moves_modify fun c' _ => ?_)
    split_ifs <;> exact ⟨rfl, .inl rfl⟩
  have hordinary : event.Ordinary := h.owned.toClient s l hl event (by simp [hevents])
  by_cases hm : c.mounted
  · have hc' : ((w.setLink s { l with toClient := rest }).onmessage l.owner event).components
        l.owner = some { c with message := some event, stale := true } := by
      simp [onmessage, hc, hm]
    refine h.local hmoves hc' ⟨fun e he => ?_, fun _ => ⟨by simp, .inl rfl⟩⟩ fun _ _ => ?_
    · cases he
      exact hordinary
    · exact .inr (.inl ⟨rfl, by simp⟩)
  · have hc' : ((w.setLink s { l with toClient := rest }).onmessage l.owner event).components
        l.owner = some c := by
      simp [onmessage, hc, hm]
    refine h.local hmoves hc' hshown fun _ hs => ?_
    exact absurd hs.mounted hm

theorem coherent_close (h : w.Coherent) (hl : w.links s = some l)
    (hcareful : w.Careful (.closes s)) :
    ((w.setLink s { l with ready := .closed, toClient := [] }).onclose l.owner).Coherent := by
  obtain ⟨c, hc⟩ := h.owned.owner s l hl
  have hshown := h.shown _ c hc
  have hclosed : Moves l.owner w (w.setLink s { l with ready := .closed, toClient := [] }) := by
    refine moves_setLink hl rfl rfl (fun e he => ?_) (fun _ hmsg => .inl hmsg)
    cases he
  have hmoves : Moves l.owner w
      ((w.setLink s { l with ready := .closed, toClient := [] }).onclose l.owner) := by
    refine hclosed.trans (moves_modify fun c' _ => ?_)
    split_ifs <;> exact ⟨rfl, .inr rfl⟩
  by_cases hm : c.mounted
  · have hc' : ((w.setLink s { l with ready := .closed, toClient := [] }).onclose
        l.owner).components l.owner =
          some { c with
            socketRef := none, connected := false, stale := c.stale || c.connected } := by
      simp [onclose, hc, hm]
    refine h.local hmoves hc' ⟨hshown.ordinary, fun hne => ⟨(hshown.told hne).1, ?_⟩⟩
      fun hsys hs => ?_
    · refine (hshown.told hne).2.imp_left fun hstale => ?_
      simp [hstale]
    · have hretains : Retains (fun s' => s' ≠ s) w
          ((w.setLink s { l with ready := .closed, toClient := [] }).onclose l.owner) := by
        refine retains_of_links fun s' hne => ?_
        rw [onclose, modify_links, setLink_links_ne hne]
      obtain ⟨s', howns⟩ := hs.linked
      have hne : s' ≠ s := by
        rintro rfl
        obtain ⟨l', hl', _, hlive⟩ := howns
        rw [onclose, modify_links, setLink_links_self, Option.some.injEq] at hl'
        rw [← hl'] at hlive
        rcases hlive with hlive | hlive <;> cases hlive
      have howns₀ : w.Owns l.owner s' := (hretains.owns hne).mp howns
      have hsearch : w.Searches l.owner c := ⟨hm, hs.matchInfo, s', howns₀⟩
      by_cases hown : w.Owns l.owner s
      · rcases hcareful.closing s rfl _ c hc hsearch hown ⟨s', hne, howns₀⟩ with hreg | hup | hu
        · exact .inl (hreg.congr hsys rfl)
        · exact .inr (.inl ⟨by simpa using hup.1, hup.2⟩)
        · exact .inr (.inr (hretains.underWay hsys hu))
      · rcases h.attended _ c hc hsearch with hreg | hup | hu
        · exact .inl (hreg.congr hsys rfl)
        · exact .inr (.inl ⟨by simp [hup.1], hup.2⟩)
        · -- what is under way is so on a socket that is not closed
          obtain ⟨t, l', hl', howner, hlive, _, hp⟩ := hu
          have hother : t ≠ s := by
            rintro rfl
            exact hown ⟨l', hl', howner, hlive⟩
          exact .inr (.inr (hretains.underWay hsys ⟨t, l', hl', howner, hlive, hother, hp⟩))
  · have hc' : ((w.setLink s { l with ready := .closed, toClient := [] }).onclose
        l.owner).components l.owner = some { c with socketRef := none } := by
      simp [onclose, hc, hm]
    refine h.local hmoves hc' ⟨hshown.ordinary, hshown.told⟩ fun _ hs => ?_
    exact absurd hs.mounted hm

end Steps

end World
end Nalang.WaitingRoom
