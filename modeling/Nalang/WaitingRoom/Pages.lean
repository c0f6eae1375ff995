import Nalang.WaitingRoom.Attendance

/-!
# What a page does alone

A page changes its own components and sockets. `Moves` is the frame of such a step,
`Retains` says which sockets have kept what was under way on them.
-/

namespace Nalang.WaitingRoom
open Matchmaking Transition

namespace World

/-! ### Primitive operations -/

section Primitives
variable {w : World} {id : ℕ} {f : Component → Component} {s : Socket} {l : Link} {msg : Json}

@[simp] theorem setLink_sys : (w.setLink s l).sys = w.sys := rfl
@[simp] theorem setLink_components : (w.setLink s l).components = w.components := rfl
@[simp] theorem setLink_links_self : (w.setLink s l).links s = some l := Function.update_self _ _ _

theorem setLink_links_ne {s' : Socket} (h : s' ≠ s) : (w.setLink s l).links s' = w.links s' :=
  Function.update_of_ne h _ _

theorem ne_of_links {s' : Socket} (hnone : w.links s = none) (hl : w.links s' = some l) :
    s' ≠ s := by
  rintro rfl
  rw [hnone] at hl
  cases hl

theorem setLink_links_eq_some {s' : Socket} {l' : Link} :
    (w.setLink s l).links s' = some l' ↔ (s' = s ∧ l' = l) ∨ (s' ≠ s ∧ w.links s' = some l') := by
  by_cases hs : s' = s
  · rw [hs, setLink_links_self, Option.some.injEq]
    simp [eq_comm]
  · rw [setLink_links_ne hs]
    simp [hs]

@[simp] theorem modify_sys : (w.modify id f).sys = w.sys := by
  unfold modify
  split <;> rfl

@[simp] theorem modify_links : (w.modify id f).links = w.links := by
  unfold modify
  split <;> rfl

@[simp] theorem modify_components_self :
    (w.modify id f).components id = (w.components id).map f := by
  unfold modify
  split
  · next h => simp [h]
  · next c h => simp [h, setComponent]

theorem modify_components_ne {id' : ℕ} (h : id' ≠ id) :
    (w.modify id f).components id' = w.components id' := by
  unfold modify
  split
  · rfl
  · exact Function.update_of_ne h _ _

theorem setComponent_eq_modify {c c' : Component} (hc : w.components id = some c) :
    w.setComponent id c' = w.modify id fun _ => c' := by
  simp [modify, hc]

theorem current_eq_some (h : w.current id = some (s, l)) :
    ∃ c, w.components id = some c ∧ c.socketRef = some s ∧ w.links s = some l := by
  unfold current at h
  split at h
  · cases h
  · next c hc =>
    split at h
    · cases h
    · next s' hs =>
      obtain ⟨l', hl, he⟩ := Option.map_eq_some_iff.mp h
      cases he
      exact ⟨c, hc, hs, hl⟩

@[simp] theorem send_sys : (w.send id msg).sys = w.sys := by
  unfold send
  split
  · rfl
  · split_ifs <;> rfl

@[simp] theorem send_components : (w.send id msg).components = w.components := by
  unfold send
  split
  · rfl
  · split_ifs <;> rfl

@[simp] theorem disconnect_sys : (w.disconnect id).sys = w.sys := by
  unfold disconnect
  split
  · rfl
  · split_ifs <;> rfl

@[simp] theorem disconnect_components : (w.disconnect id).components = w.components := by
  unfold disconnect
  split
  · rfl
  · split_ifs <;> rfl

theorem inComponent_eq_some {w' : World} {f : Component → Option World}
    (h : w.inComponent id f = some w') :
    ∃ c, w.components id = some c ∧ c.mounted ∧ f c = some w' := by
  unfold inComponent at h
  split at h
  · cases h
  · next c hc =>
    split_ifs at h with hm
    exact ⟨c, hc, hm, h⟩

end Primitives

/-! ### The frame of a page -/

structure Owned (w : World) : Prop where
  owner : ∀ s l, w.links s = some l → ∃ c, w.components l.owner = some c
  socketRef : ∀ id c s, w.components id = some c → c.socketRef = some s →
    ∃ l, w.links s = some l ∧ l.owner = id
  conn : ∀ s conn, w.sys.conns.get? s = some conn → ∃ l c, w.links s = some l ∧
    w.components l.owner = some c ∧ conn.user.id = c.user
  toClient : ∀ s l, w.links s = some l → ∀ event ∈ l.toClient, event.Ordinary
  toServer : ∀ s l, w.links s = some l → ∀ msg ∈ l.toServer, ClientMessage msg

structure Local (id : ℕ) (w w' : World) : Prop where
  sys : w'.sys = w.sys
  components : ∀ id', id' ≠ id → w'.components id' = w.components id'
  links : ∀ s l, l.owner ≠ id → (w'.links s = some l ↔ w.links s = some l)

def Moves (id : ℕ) (w w' : World) : Prop := w.Owned → w'.Owned ∧ Local id w w'

section Moves
variable {w w' w'' : World} {id : ℕ}

theorem Local.trans (h : Local id w w') (h' : Local id w' w'') : Local id w w'' where
  sys := h'.sys.trans h.sys
  components id' hne := (h'.components id' hne).trans (h.components id' hne)
  links s l hne := (h'.links s l hne).trans (h.links s l hne)

theorem Moves.refl : Moves id w w := fun ho => ⟨ho, rfl, fun _ _ => rfl, fun _ _ _ => Iff.rfl⟩

theorem Moves.trans (h : Moves id w w') (h' : Moves id w' w'') : Moves id w w'' := by
  intro ho
  obtain ⟨ho', hl⟩ := h ho
  obtain ⟨ho'', hl'⟩ := h' ho'
  exact ⟨ho'', hl.trans hl'⟩

def Keeps (c c' : Component) : Prop :=
  c'.user = c.user ∧ (c'.socketRef = c.socketRef ∨ c'.socketRef = none)

theorem modify_kept {f : Component → Component} (hf : ∀ c, w.components id = some c → Keeps c (f c))
    {id' : ℕ} {c : Component} (hc : w.components id' = some c) :
    ∃ c', (w.modify id f).components id' = some c' ∧ c'.user = c.user := by
  by_cases hid : id' = id
  · rw [hid] at hc ⊢
    exact ⟨f c, by rw [modify_components_self, hc]; rfl, (hf c hc).1⟩
  · exact ⟨c, by rw [modify_components_ne hid, hc], rfl⟩

theorem owned_modify {f : Component → Component} (ho : w.Owned)
    (hf : ∀ c, w.components id = some c → Keeps c (f c)) : (w.modify id f).Owned where
  owner s l hl := by
    rw [modify_links] at hl
    obtain ⟨c, hc⟩ := ho.owner s l hl
    obtain ⟨c', hc', _⟩ := modify_kept hf hc
    exact ⟨c', hc'⟩
  socketRef id' c' s hc' hs := by
    rw [modify_links]
    by_cases hid : id' = id
    · rw [hid] at hc' ⊢
      rw [modify_components_self, Option.map_eq_some_iff] at hc'
      obtain ⟨c, hc, rfl⟩ := hc'
      rcases (hf c hc).2 with href | href
      · exact ho.socketRef id c s hc (href ▸ hs)
      · rw [href] at hs
        cases hs
    · rw [modify_components_ne hid] at hc'
      exact ho.socketRef id' c' s hc' hs
  conn s conn hconn := by
    rw [modify_sys] at hconn
    obtain ⟨l, c, hl, hc, huser⟩ := ho.conn s conn hconn
    obtain ⟨c', hc', huser'⟩ := modify_kept hf hc
    exact ⟨l, c', by rwa [modify_links], hc', huser.trans huser'.symm⟩
  toClient s l hl := by
    rw [modify_links] at hl
    exact ho.toClient s l hl
  toServer s l hl := by
    rw [modify_links] at hl
    exact ho.toServer s l hl

theorem moves_modify {f : Component → Component}
    (hf : ∀ c, w.components id = some c → Keeps c (f c)) : Moves id w (w.modify id f) := by
  intro ho
  refine ⟨owned_modify ho hf, modify_sys, fun _ hne => modify_components_ne hne, fun s l _ => ?_⟩
  rw [modify_links]

theorem setLink_kept {s s' : Socket} {l l' l₀ : Link} (hl : w.links s = some l)
    (howner : l'.owner = l.owner) (hl₀ : w.links s' = some l₀) :
    ∃ l₁, (w.setLink s l').links s' = some l₁ ∧ l₁.owner = l₀.owner := by
  by_cases hs : s' = s
  · rw [hs, hl, Option.some.injEq] at hl₀
    rw [hs, ← hl₀]
    exact ⟨l', setLink_links_self, howner⟩
  · exact ⟨l₀, by rw [setLink_links_ne hs, hl₀], rfl⟩

theorem owned_setLink {s : Socket} {l l' : Link} (ho : w.Owned) (hl : w.links s = some l)
    (howner : l'.owner = l.owner) (hclient : ∀ event ∈ l'.toClient, event ∈ l.toClient)
    (hserver : ∀ msg ∈ l'.toServer, msg ∈ l.toServer ∨ ClientMessage msg) :
    (w.setLink s l').Owned where
  owner s' l₁ hl₁ := by
    rcases setLink_links_eq_some.mp hl₁ with ⟨_, rfl⟩ | ⟨_, hold⟩
    · rw [howner]
      exact ho.owner s l hl
    · exact ho.owner s' l₁ hold
  socketRef id' c s' hc hs := by
    obtain ⟨l₀, hl₀, howner₀⟩ := ho.socketRef id' c s' hc hs
    obtain ⟨l₁, hl₁, howner₁⟩ := setLink_kept hl howner hl₀
    exact ⟨l₁, hl₁, howner₁.trans howner₀⟩
  conn s' conn hconn := by
    obtain ⟨l₀, c, hl₀, hc, huser⟩ := ho.conn s' conn hconn
    obtain ⟨l₁, hl₁, howner₁⟩ := setLink_kept hl howner hl₀
    exact ⟨l₁, c, hl₁, howner₁ ▸ hc, huser⟩
  toClient s' l₁ hl₁ event hevent := by
    rcases setLink_links_eq_some.mp hl₁ with ⟨_, rfl⟩ | ⟨_, hold⟩
    · exact ho.toClient s l hl event (hclient event hevent)
    · exact ho.toClient s' l₁ hold event hevent
  toServer s' l₁ hl₁ msg hmsg := by
    rcases setLink_links_eq_some.mp hl₁ with ⟨_, rfl⟩ | ⟨_, hold⟩
    · exact (hserver msg hmsg).elim (ho.toServer s l hl msg) fun h => h
    · exact ho.toServer s' l₁ hold msg hmsg

theorem moves_setLink {s : Socket} {l l' : Link} (hl : w.links s = some l) (hid : l.owner = id)
    (ho' : l'.owner = id) (hclient : ∀ event ∈ l'.toClient, event ∈ l.toClient)
    (hserver : ∀ msg ∈ l'.toServer, msg ∈ l.toServer ∨ ClientMessage msg) :
    Moves id w (w.setLink s l') := by
  intro ho
  refine ⟨owned_setLink ho hl (ho'.trans hid.symm) hclient hserver, rfl, fun _ _ => rfl,
    fun s' l'' hne => ?_⟩
  by_cases hs : s' = s
  · rw [hs, setLink_links_self, hl]
    simp only [Option.some.injEq]
    exact ⟨fun h => absurd (h ▸ ho') hne, fun h => absurd (h ▸ hid) hne⟩
  · rw [setLink_links_ne hs]

theorem clientMessage_eventOf {event room : String} (h : event = "entered" ∨ event = "rejected") :
    ClientMessage (eventOf event room) :=
  ⟨event, room, h, rfl, rfl⟩

theorem moves_send {msg : Json} (hm : ClientMessage msg) : Moves id w (w.send id msg) := by
  intro ho
  unfold send
  split
  · exact Moves.refl ho
  · next s l hcur =>
    obtain ⟨c, hc, hs, hl⟩ := current_eq_some hcur
    obtain ⟨l', hl', howner⟩ := ho.socketRef id c s hc hs
    cases hl.symm.trans hl'
    split_ifs
    · refine moves_setLink hl howner howner (fun _ he => he) (fun msg' hmsg => ?_) ho
      rw [List.mem_append, List.mem_singleton] at hmsg
      rcases hmsg with hmsg | rfl
      · exact .inl hmsg
      · exact .inr hm
    · exact Moves.refl ho

theorem moves_disconnect : Moves id w (w.disconnect id) := by
  intro ho
  unfold disconnect
  split
  · exact Moves.refl ho
  · next s l hcur =>
    obtain ⟨c, hc, hs, hl⟩ := current_eq_some hcur
    obtain ⟨l', hl', howner⟩ := ho.socketRef id c s hc hs
    cases hl.symm.trans hl'
    split_ifs
    · refine moves_setLink hl howner howner (fun _ he => ?_) (fun _ hmsg => .inl hmsg) ho
      cases he
    · exact Moves.refl ho

theorem connect_links {s s' : Socket} (h : s' ≠ s) :
    (w.connect id s).links s' = w.links s' := by
  simp [connect, setLink_links_ne h]

@[simp] theorem connect_links_self {s : Socket} :
    (w.connect id s).links s = some ⟨id, .connecting, true, [], []⟩ := by
  simp [connect]

@[simp] theorem connect_sys {s : Socket} : (w.connect id s).sys = w.sys := by
  simp [connect]

theorem connect_components_ne {s : Socket} {id' : ℕ} (h : id' ≠ id) :
    (w.connect id s).components id' = w.components id' :=
  modify_components_ne h

theorem connect_kept {s : Socket} {id' : ℕ} {c : Component} (hc : w.components id' = some c) :
    ∃ c', (w.connect id s).components id' = some c' ∧ c'.user = c.user := by
  by_cases hid : id' = id
  · subst hid
    simp [connect, hc]
  · exact ⟨c, (connect_components_ne hid).trans hc, rfl⟩

theorem owned_connect {s : Socket} (ho : w.Owned) (hnone : w.links s = none)
    (hin : (w.components id).isSome) : (w.connect id s).Owned where
  owner s' l hl := by
    by_cases hs : s' = s
    · rw [hs, connect_links_self, Option.some.injEq] at hl
      rw [← hl]
      obtain ⟨c, hc⟩ := Option.isSome_iff_exists.mp hin
      obtain ⟨c', hc', _⟩ := connect_kept hc
      exact ⟨c', hc'⟩
    · rw [connect_links hs] at hl
      obtain ⟨c, hc⟩ := ho.owner s' l hl
      obtain ⟨c', hc', _⟩ := connect_kept hc
      exact ⟨c', hc'⟩
  socketRef id' c' s' hc' hs' := by
    by_cases hid : id' = id
    · rw [hid, connect, modify_components_self, Option.map_eq_some_iff] at hc'
      obtain ⟨c, _, rfl⟩ := hc'
      cases hs'
      exact ⟨_, connect_links_self, hid.symm⟩
    · rw [connect_components_ne hid] at hc'
      obtain ⟨l, hl, howner⟩ := ho.socketRef id' c' s' hc' hs'
      exact ⟨l, (connect_links (ne_of_links hnone hl)).trans hl, howner⟩
  conn s' conn hconn := by
    rw [connect_sys] at hconn
    obtain ⟨l, c, hl, hc, huser⟩ := ho.conn s' conn hconn
    obtain ⟨c', hc', huser'⟩ := connect_kept hc
    exact ⟨l, c', (connect_links (ne_of_links hnone hl)).trans hl, hc', huser.trans huser'.symm⟩
  toClient s' l hl := by
    by_cases hs : s' = s
    · rw [hs, connect_links_self, Option.some.injEq] at hl
      rw [← hl]
      exact List.forall_mem_nil _
    · exact ho.toClient s' l (connect_links hs ▸ hl)
  toServer s' l hl := by
    by_cases hs : s' = s
    · rw [hs, connect_links_self, Option.some.injEq] at hl
      rw [← hl]
      exact List.forall_mem_nil _
    · exact ho.toServer s' l (connect_links hs ▸ hl)

theorem moves_connect {s : Socket} (hf : w.Fresh (some s)) (hin : (w.components id).isSome) :
    Moves id w (w.connect id s) := by
  intro ho
  have hnone : w.links s = none := Option.isNone_iff_eq_none.mp hf.1
  refine ⟨owned_connect ho hnone hin, connect_sys, fun _ => connect_components_ne,
    fun s' l hne => ?_⟩
  by_cases hs : s' = s
  · rw [hs, connect_links_self, hnone]
    simp only [Option.some.injEq, reduceCtorEq, iff_false]
    exact fun he => hne (he ▸ rfl)
  · rw [connect_links hs]

end Moves

/-! ### Sockets that keep what is under way -/

end World

structure Link.Kept (l l' : Link) : Prop where
  owner : l'.owner = l.owner
  live : l'.Live ↔ l.Live
  toClient : l.toClient ≠ [] → l'.toClient ≠ []

theorem Link.Kept.refl (l : Link) : l.Kept l := ⟨rfl, Iff.rfl, id⟩

theorem Link.Kept.trans {l l' l'' : Link} (h : l.Kept l') (h' : l'.Kept l'') : l.Kept l'' :=
  ⟨h'.owner.trans h.owner, h'.live.trans h.live, fun hne => h'.toClient (h.toClient hne)⟩

namespace World

structure Retains (own : Socket → Prop) (w w' : World) : Prop where
  forth : ∀ s l, own s → w.links s = some l → ∃ l', w'.links s = some l' ∧ l.Kept l'
  back : ∀ s l', own s → w'.links s = some l' → ∃ l, w.links s = some l ∧ l.Kept l'

section Retains
variable {w w' w'' : World} {own : Socket → Prop} {id : ℕ} {s : Socket}

theorem retains_of_links (h : ∀ s, own s → w'.links s = w.links s) : Retains own w w' where
  forth s l hs hl := ⟨l, (h s hs).trans hl, .refl l⟩
  back s l hs hl := ⟨l, (h s hs).symm.trans hl, .refl l⟩

theorem Retains.trans (h : Retains own w w') (h' : Retains own w' w'') : Retains own w w'' where
  forth s l hs hl := by
    obtain ⟨l', hl', hk⟩ := h.forth s l hs hl
    obtain ⟨l'', hl'', hk'⟩ := h'.forth s l' hs hl'
    exact ⟨l'', hl'', hk.trans hk'⟩
  back s l'' hs hl'' := by
    obtain ⟨l', hl', hk'⟩ := h'.back s l'' hs hl''
    obtain ⟨l, hl, hk⟩ := h.back s l' hs hl'
    exact ⟨l, hl, hk.trans hk'⟩

theorem Retains.mono {own' : Socket → Prop} (h : Retains own' w w') (hsub : ∀ s, own s → own' s) :
    Retains own w w' :=
  ⟨fun s l hs => h.forth s l (hsub s hs), fun s l hs => h.back s l (hsub s hs)⟩

theorem retains_modify {f : Component → Component} : Retains own w (w.modify id f) :=
  retains_of_links fun _ _ => by rw [modify_links]

theorem retains_setLink {l l' : Link} (hl : w.links s = some l) (hk : l.Kept l') :
    Retains own w (w.setLink s l') where
  forth s' l₀ _ hl₀ := by
    by_cases hs : s' = s
    · rw [hs, hl, Option.some.injEq] at hl₀
      rw [hs, ← hl₀]
      exact ⟨l', setLink_links_self, hk⟩
    · exact ⟨l₀, (setLink_links_ne hs).trans hl₀, .refl l₀⟩
  back s' l₀ _ hl₀ := by
    by_cases hs : s' = s
    · rw [hs, setLink_links_self, Option.some.injEq] at hl₀
      rw [hs, ← hl₀]
      exact ⟨l, hl, hk⟩
    · exact ⟨l₀, (setLink_links_ne hs).symm.trans hl₀, .refl l₀⟩

theorem retains_send {msg : Json} : Retains own w (w.send id msg) := by
  unfold send
  split
  · exact retains_of_links fun _ _ => rfl
  · next s l hcur =>
    obtain ⟨_, _, _, hl⟩ := current_eq_some hcur
    split_ifs
    · exact retains_setLink hl ⟨rfl, Iff.rfl, fun h => h⟩
    · exact retains_of_links fun _ _ => rfl

theorem retains_disconnect {c : Component} (hc : w.components id = some c) :
    Retains (fun s => c.socketRef ≠ some s) w (w.disconnect id) := by
  unfold disconnect
  split
  · exact retains_of_links fun _ _ => rfl
  · next s l hcur =>
    obtain ⟨c', hc', hs, _⟩ := current_eq_some hcur
    rw [hc, Option.some.injEq] at hc'
    split_ifs
    · refine retains_of_links fun s' hne => setLink_links_ne fun he => hne ?_
      rw [hc', hs, he]
    · exact retains_of_links fun _ _ => rfl

theorem Retains.owns (h : Retains own w w') (hs : own s) : w'.Owns id s ↔ w.Owns id s := by
  constructor
  · rintro ⟨l', hl', howner, hlive⟩
    obtain ⟨l, hl, hk⟩ := h.back s l' hs hl'
    exact ⟨l, hl, hk.owner ▸ howner, hk.live.mp hlive⟩
  · rintro ⟨l, hl, howner, hlive⟩
    obtain ⟨l', hl', hk⟩ := h.forth s l hs hl
    exact ⟨l', hl', hk.owner.trans howner, hk.live.mpr hlive⟩

theorem Pending.congr {l l' : Link} {announcers : Socket → Prop} (h : w.Pending s l announcers)
    (hsys : w'.sys = w.sys) (hk : l.Kept l') : w'.Pending s l' announcers := by
  cases h with
  | frame h => exact .frame (hk.toClient h)
  | unanswered h => exact .unanswered (by rwa [hsys])
  | unsettled hc h => exact .unsettled (by rwa [hsys]) h
  | announced hc h hws => exact .announced (by rwa [hsys]) h hws

theorem Retains.underWay {announcers : Socket → Prop} (h : Retains own w w') (hsys : w'.sys = w.sys)
    (hu : w.UnderWay id own announcers) : w'.UnderWay id everySocket announcers := by
  obtain ⟨s, l, hl, howner, hlive, hs, hp⟩ := hu
  obtain ⟨l', hl', hk⟩ := h.forth s l hs hl
  exact ⟨s, l', hl', hk.owner.trans howner, hk.live.mpr hlive, trivial, hp.congr hsys hk⟩

theorem underWay_of_fresh {l : Link} (hf : w.Fresh (some s)) (hsys : w'.sys = w.sys)
    (hl : w'.links s = some l) (howner : l.owner = id) (hlive : l.Live) :
    w'.UnderWay id everySocket everySocket :=
  ⟨s, l, hl, howner, hlive, trivial, .unanswered (by rw [hsys]; exact hf.2)⟩

end Retains

/-! ### The effects of a component -/

section Effects
variable {w w' : World} {id : ℕ} {c : Component} {ws : Option Socket}

theorem fresh_congr (hlinks : ∀ s, w.links s = none → w'.links s = none) (hsys : w'.sys = w.sys)
    (h : w.Fresh ws) : w'.Fresh ws := by
  cases ws with
  | none => trivial
  | some s =>
    obtain ⟨hnone, hout⟩ := h
    rw [Option.isNone_iff_eq_none] at hnone
    exact ⟨by rw [hlinks s hnone]; rfl, by rwa [hsys]⟩

theorem fresh_modify {f : Component → Component} (h : w.Fresh ws) : (w.modify id f).Fresh ws :=
  fresh_congr (fun s hs => by rwa [modify_links]) modify_sys h

theorem send_links_none {msg : Json} {s : Socket} (h : w.links s = none) :
    (w.send id msg).links s = none := by
  cases hl : (w.send id msg).links s with
  | none => rfl
  | some l =>
    have hret : Retains everySocket w (w.send id msg) := retains_send
    obtain ⟨l₀, hl₀, _⟩ := hret.back s l trivial hl
    rw [h] at hl₀
    cases hl₀

theorem disconnect_links_none {s : Socket} (h : w.links s = none) :
    (w.disconnect id).links s = none := by
  unfold disconnect
  split
  · exact h
  · next s' l hcur =>
    obtain ⟨_, _, _, hl⟩ := current_eq_some hcur
    split_ifs
    · rw [setLink_links_ne (ne_of_links h hl).symm, h]
    · exact h

theorem fresh_runCleanup (h : w.Fresh ws) : (w.runCleanup id c).Fresh ws := by
  unfold runCleanup
  split
  · exact h
  · split
    · exact fresh_congr (fun _ hs => disconnect_links_none hs) disconnect_sys h
    · split_ifs
      · exact fresh_congr (fun _ hs => disconnect_links_none hs) disconnect_sys h
      · exact fresh_congr (fun _ hs => disconnect_links_none (send_links_none hs)) (by simp) h

@[simp] theorem runCleanup_components : (w.runCleanup id c).components = w.components := by
  unfold runCleanup
  split
  · rfl
  · split
    · simp
    · split_ifs <;> simp

theorem moves_runCleanup : Moves id w (w.runCleanup id c) := by
  unfold runCleanup
  split
  · exact .refl
  · split
    · exact moves_disconnect
    · split_ifs
      · exact moves_disconnect
      · exact (moves_send (clientMessage_eventOf (.inr rfl))).trans moves_disconnect

theorem retains_runCleanup (hc : w.components id = some c) :
    Retains (fun s => ¬ c.Drops s) w (w.runCleanup id c) := by
  unfold runCleanup
  split
  · exact retains_of_links fun _ _ => rfl
  · next captured hcleanup =>
    have hdrops : ∀ s, ¬ c.Drops s → c.socketRef ≠ some s := by
      intro s hs href
      exact hs ⟨by simp [hcleanup], href⟩
    have hclose : ∀ w' : World, w'.components id = some c →
        Retains (fun s => ¬ c.Drops s) w' (w'.disconnect id) :=
      fun w' hc' => (retains_disconnect hc').mono hdrops
    split
    · exact hclose w hc
    · split_ifs
      · exact hclose w hc
      · exact retains_send.trans (hclose _ (by simpa using hc))

theorem moves_update {f : Component → Component}
    (hf : ∀ c, (f c).user = c.user ∧ (f c).socketRef = c.socketRef) : Moves id w (w.modify id f) :=
  moves_modify fun c _ => ⟨(hf c).1, .inl (hf c).2⟩

theorem moves_locationEffect (hf : w.Fresh ws) (hin : (w.components id).isSome) :
    Moves id w (w.locationEffect id c ws) := by
  cases ws with
  | none => exact moves_update fun _ => ⟨rfl, rfl⟩
  | some s => exact (moves_connect hf hin).trans (moves_update fun _ => ⟨rfl, rfl⟩)

theorem isSome_modify {f : Component → Component} (hin : (w.components id).isSome) :
    ((w.modify id f).components id).isSome := by
  rw [modify_components_self]
  simpa using hin

theorem moves_reconnect (hf : w.Fresh ws) (hin : (w.components id).isSome) :
    Moves id w (w.reconnect id ws) := by
  unfold reconnect
  cases ws with
  | none => exact moves_update fun _ => ⟨rfl, rfl⟩
  | some s =>
    refine Moves.trans ?_ (moves_connect (fresh_modify hf) (isSome_modify hin))
    exact moves_update fun _ => ⟨rfl, rfl⟩

theorem moves_messageEffect (hf : w.Fresh ws) (hin : (w.components id).isSome) :
    Moves id w (w.messageEffect id c ws) := by
  unfold messageEffect
  split
  · exact .refl
  · split_ifs
    · exact .refl
    · exact moves_update fun _ => ⟨rfl, rfl⟩
  · exact moves_reconnect hf hin
  · exact moves_reconnect hf hin
  · exact .refl

end Effects

/-! ### The countdown -/

end World

structure Component.Same (c c' : Component) : Prop where
  user : c'.user = c.user
  mounted : c'.mounted = c.mounted
  stale : c'.stale = c.stale
  socketRef : c'.socketRef = c.socketRef
  message : c'.message = c.message
  matchInfo : c'.matchInfo = c.matchInfo

namespace World

structure Passes (id : ℕ) (w w' : World) : Prop where
  moves : Moves id w w'
  retains : Retains everySocket w w'
  component : ∀ c, w.components id = some c → ∃ c', w'.components id = some c' ∧ c.Same c'

section Passes
variable {w w' w'' : World} {id : ℕ} {c : Component}

theorem Passes.refl : Passes id w w :=
  ⟨.refl, retains_of_links fun _ _ => rfl, fun c hc => ⟨c, hc, rfl, rfl, rfl, rfl, rfl, rfl⟩⟩

theorem Passes.trans (h : Passes id w w') (h' : Passes id w' w'') : Passes id w w'' where
  moves := h.moves.trans h'.moves
  retains := h.retains.trans h'.retains
  component c hc := by
    obtain ⟨c', hc', hs⟩ := h.component c hc
    obtain ⟨c'', hc'', hs'⟩ := h'.component c' hc'
    exact ⟨c'', hc'', hs'.user.trans hs.user, hs'.mounted.trans hs.mounted,
      hs'.stale.trans hs.stale, hs'.socketRef.trans hs.socketRef, hs'.message.trans hs.message,
      hs'.matchInfo.trans hs.matchInfo⟩

theorem passes_modify {f : Component → Component} (hf : ∀ c : Component, c.Same (f c)) :
    Passes id w (w.modify id f) where
  moves := moves_update fun c => ⟨(hf c).user, (hf c).socketRef⟩
  retains := retains_modify
  component c hc := ⟨f c, by rw [modify_components_self, hc]; rfl, hf c⟩

theorem passes_send {msg : Json} (hm : ClientMessage msg) : Passes id w (w.send id msg) where
  moves := moves_send hm
  retains := retains_send
  component c hc := ⟨c, by rw [send_components, hc], rfl, rfl, rfl, rfl, rfl, rfl⟩

theorem passes_enterVoiceRoom {p : Proposal} {accessToken : Bool} :
    Passes id w (w.enterVoiceRoom id p accessToken) := by
  unfold enterVoiceRoom
  split_ifs
  · refine (passes_send (clientMessage_eventOf (.inl rfl))).trans (passes_modify fun c => ?_)
    exact ⟨rfl, rfl, rfl, rfl, rfl, rfl⟩
  · exact .refl

theorem passes_countdownEffect {accessToken : Bool} :
    Passes id w (w.countdownEffect id c accessToken) := by
  unfold countdownEffect
  by_cases hseen : c.counted = some (c.countdown, c.matchInfo)
  · rw [if_pos hseen]
    exact .refl
  · rw [if_neg hseen]
    cases c.matchInfo with
    | none => exact passes_modify fun c => ⟨rfl, rfl, rfl, rfl, rfl, rfl⟩
    | some p =>
      dsimp only
      split_ifs
      · refine ((passes_modify ?_).trans (passes_modify ?_)).trans passes_enterVoiceRoom
        · exact fun c => ⟨rfl, rfl, rfl, rfl, rfl, rfl⟩
        · exact fun c => ⟨rfl, rfl, rfl, rfl, rfl, rfl⟩
      · refine (passes_modify ?_).trans (passes_modify ?_)
        · exact fun c => ⟨rfl, rfl, rfl, rfl, rfl, rfl⟩
        · exact fun c => ⟨rfl, rfl, rfl, rfl, rfl, rfl⟩

end Passes

end World

/-! ### Rendering -/

def Component.shows (c : Component) : Option Proposal :=
  match c.message with
  | none => c.matchInfo
  | some (.matchProposal room partnerId) =>
    if c.matchInfo.map Proposal.room = some room then c.matchInfo else some ⟨room, partnerId⟩
  | some .disconnected => none
  | some .rejected => none
  | some (.matched _) => c.matchInfo

def Component.Restarts (c : Component) : Prop :=
  c.message = some .rejected ∨ c.message = some .disconnected

namespace World

section Rendering
variable {w w' : World} {id : ℕ} {c c₀ : Component} {ws : Option Socket} {s : Socket}

theorem reconnect_component (hc : w.components id = some c) :
    ∃ c', (w.reconnect id ws).components id = some c' ∧ c'.user = c.user ∧
      c'.mounted = c.mounted ∧ c'.message = c.message ∧ c'.matchInfo = none := by
  unfold reconnect
  cases ws with
  | none => simp [hc]
  | some s => simp [connect, hc]

theorem messageEffect_component (ws : Option Socket) (hc : w.components id = some c₀)
    (hinfo : c₀.matchInfo = c.matchInfo) : ∃ c', (w.messageEffect id c ws).components id = some c' ∧
      c'.user = c₀.user ∧ c'.mounted = c₀.mounted ∧ c'.message = c₀.message ∧
      c'.matchInfo = c.shows := by
  unfold messageEffect Component.shows
  cases c.message with
  | none => exact ⟨c₀, hc, rfl, rfl, rfl, hinfo⟩
  | some event =>
    cases event with
    | matchProposal room partnerId =>
      dsimp only
      split_ifs
      · exact ⟨c₀, hc, rfl, rfl, rfl, hinfo⟩
      · simp [hc]
    | disconnected => exact reconnect_component hc
    | rejected => exact reconnect_component hc
    | matched room => exact ⟨c₀, hc, rfl, rfl, rfl, hinfo⟩

theorem retains_messageEffect {own : Socket → Prop} (h : c.Restarts → ws = none) :
    Retains own w (w.messageEffect id c ws) := by
  unfold messageEffect
  split
  · exact retains_of_links fun _ _ => rfl
  · split_ifs
    · exact retains_of_links fun _ _ => rfl
    · exact retains_modify
  · next hm =>
    rw [h (.inr hm)]
    exact retains_modify
  · next hm =>
    rw [h (.inl hm)]
    exact retains_modify
  · exact retains_of_links fun _ _ => rfl

theorem messageEffect_link (h : c.Restarts) :
    (w.messageEffect id c (some s)).links s = some ⟨id, .connecting, true, [], []⟩ := by
  unfold messageEffect
  rcases h with h | h <;> simp [h, reconnect, connect]

theorem moves_setComponent (hc : w.components id = some c₀) (hu : c.user = c₀.user)
    (hs : c.socketRef = c₀.socketRef) : Moves id w (w.setComponent id c) := by
  rw [setComponent_eq_modify hc]
  refine moves_modify fun c' hc' => ?_
  rw [hc, Option.some.injEq] at hc'
  exact ⟨hc' ▸ hu, .inl (hc' ▸ hs)⟩

@[simp] theorem setComponent_self : (w.setComponent id c).components id = some c :=
  Function.update_self _ _ _

theorem retains_setComponent {own : Socket → Prop} : Retains own w (w.setComponent id c) :=
  retains_of_links fun _ _ => rfl

theorem moves_rendered (hc : w.components id = some c₀) (hu : c.user = c₀.user)
    (hs : c.socketRef = c₀.socketRef) (hf : w.Fresh ws) : Moves id w (w.rendered id c ws) := by
  have hset : Moves id w (w.setComponent id { c with stale := false }) :=
    moves_setComponent hc hu hs
  have hfresh : (w.setComponent id { c with stale := false }).Fresh ws :=
    fresh_congr (fun _ h => h) rfl hf
  have hin : ((w.setComponent id { c with stale := false }).components id).isSome := by
    rw [setComponent_self]
    rfl
  exact (hset.trans (moves_messageEffect hfresh hin)).trans passes_countdownEffect.moves

theorem rendered_component (id : ℕ) (c : Component) (ws : Option Socket) :
    ∃ c', (w.rendered id c ws).components id = some c' ∧ c'.user = c.user ∧
      c'.mounted = c.mounted ∧ c'.message = c.message ∧ c'.matchInfo = c.shows := by
  have hset : (w.setComponent id { c with stale := false }).components id =
      some { c with stale := false } := setComponent_self
  obtain ⟨c₁, hc₁, huser, hmounted, hmessage, hinfo⟩ :=
    messageEffect_component (c := c) ws hset rfl
  obtain ⟨c₂, hc₂, hsame⟩ := passes_countdownEffect.component c₁ hc₁
  exact ⟨c₂, hc₂, hsame.user.trans huser, hsame.mounted.trans hmounted,
    hsame.message.trans hmessage, hsame.matchInfo.trans hinfo⟩

theorem retains_rendered {own : Socket → Prop} (h : c.Restarts → ws = none) :
    Retains own w (w.rendered id c ws) := by
  unfold rendered
  refine Retains.trans ?_ (passes_countdownEffect.retains.mono fun _ _ => trivial)
  exact Retains.trans retains_setComponent (retains_messageEffect h)

end Rendering

/-! ### Mounting, unmounting and other locations -/

section Locations
variable {w : World} {id : ℕ} {c c₀ : Component} {ws : Option Socket} {s : Socket} {l : Link}

theorem moves_mount (hnone : w.components id = none) (hs : c.socketRef = none) :
    Moves id w (w.setComponent id c) := by
  intro ho
  have hne : ∀ {id' c'}, w.components id' = some c' → id' ≠ id := by
    intro id' c' hc' he
    rw [he, hnone] at hc'
    cases hc'
  have hold : ∀ {id' c'}, w.components id' = some c' →
      (w.setComponent id c).components id' = some c' :=
    fun hc' => (Function.update_of_ne (hne hc') _ _).trans hc'
  refine ⟨⟨?_, ?_, ?_, ho.toClient, ho.toServer⟩, rfl, fun id' h => Function.update_of_ne h _ _,
    fun _ _ _ => Iff.rfl⟩
  · intro s l hl
    obtain ⟨c', hc'⟩ := ho.owner s l hl
    exact ⟨c', hold hc'⟩
  · intro id' c' s hc' href
    by_cases hid : id' = id
    · rw [hid, setComponent_self, Option.some.injEq] at hc'
      rw [← hc', hs] at href
      cases href
    · exact ho.socketRef id' c' s ((Function.update_of_ne hid _ _).symm.trans hc') href
  · intro s conn hconn
    obtain ⟨l, c', hl, hc', huser⟩ := ho.conn s conn hconn
    exact ⟨l, c', hl, hold hc', huser⟩

theorem locationEffect_component (c : Component) (ws : Option Socket)
    (hc : w.components id = some c₀) :
    ∃ c', (w.locationEffect id c ws).components id = some c' ∧ c'.user = c₀.user ∧
      c'.mounted = c₀.mounted ∧ c'.message = c₀.message ∧ c'.matchInfo = c₀.matchInfo := by
  cases ws with
  | none => simp [locationEffect, hc]
  | some s => simp [locationEffect, connect, hc]

theorem locationEffect_link :
    (w.locationEffect id c (some s)).links s = some ⟨id, .connecting, true, [], []⟩ := by
  simp [locationEffect, connect]

theorem retains_locationEffect {own : Socket → Prop} :
    Retains own w (w.locationEffect id c none) := retains_modify

theorem disconnect_not_live (hc : w.components id = some c) (hs : c.socketRef = some s)
    (hl : (w.disconnect id).links s = some l) : ¬ l.Live := by
  unfold disconnect at hl
  split at hl
  · next hcur =>
    rw [current, hc] at hcur
    simp only [hs, Option.map_eq_none_iff] at hcur
    rw [hcur] at hl
    cases hl
  · next s' l' hcur =>
    obtain ⟨c', hc', hs', hl'⟩ := current_eq_some hcur
    rw [hc, Option.some.injEq] at hc'
    rw [← hc', hs, Option.some.injEq] at hs'
    rw [← hs'] at hl' hl
    split_ifs at hl with hlive
    · rw [setLink_links_self, Option.some.injEq] at hl
      rw [← hl]
      rintro (h | h) <;> cases h
    · rw [hl', Option.some.injEq] at hl
      rwa [← hl]

theorem moves_located (hc : w.components id = some c) (hf : w.Fresh ws) :
    Moves id w (w.located id c ws) := by
  have hin : ((w.runCleanup id c).components id).isSome := by
    rw [runCleanup_components, hc]
    rfl
  have heffect : Moves id w ((w.runCleanup id c).locationEffect id c ws) :=
    moves_runCleanup.trans (moves_locationEffect (fresh_runCleanup hf) hin)
  exact heffect.trans (moves_update fun _ => ⟨rfl, rfl⟩)

theorem located_component (ws : Option Socket) (hc : w.components id = some c) :
    ∃ c', (w.located id c ws).components id = some c' ∧ c'.user = c.user ∧
      c'.mounted = c.mounted ∧ c'.message = c.message ∧ c'.matchInfo = c.matchInfo ∧ c'.stale := by
  have hc₁ : (w.runCleanup id c).components id = some c := by rw [runCleanup_components, hc]
  obtain ⟨c', hc', hsame⟩ := locationEffect_component c ws hc₁
  exact ⟨{ c' with stale := true }, by simp [located, hc'], hsame.1, hsame.2.1, hsame.2.2.1,
    hsame.2.2.2, rfl⟩

theorem retains_located (hc : w.components id = some c) :
    Retains (fun s => ¬ c.Drops s) w (w.located id c none) :=
  ((retains_runCleanup hc).trans retains_locationEffect).trans retains_modify

theorem runCleanup_drops (hc : w.components id = some c) (hd : c.Drops s) :
    ¬ (w.runCleanup id c).Owns id s := by
  rintro ⟨l, hl, _, hlive⟩
  obtain ⟨hcleanup, hs⟩ := hd
  unfold runCleanup at hl
  split at hl
  · next hnone => exact hcleanup hnone
  · split at hl
    · exact disconnect_not_live hc hs hl hlive
    · split_ifs at hl
      · exact disconnect_not_live hc hs hl hlive
      · exact disconnect_not_live (by simpa using hc) hs hl hlive

theorem moves_unmounted : Moves id w (w.unmounted id c) :=
  moves_runCleanup.trans (moves_update fun _ => ⟨rfl, rfl⟩)

theorem unmounted_component (hc : w.components id = some c₀) :
    (w.unmounted id c).components id = some { c₀ with mounted := false, timer := false } := by
  simp [unmounted, hc]

theorem moves_entered : Moves id w (w.entered id c) := by
  unfold entered
  dsimp only
  have hleft : Moves id w
      ((w.disconnect id).modify id fun c' => { c' with hasEnteredRoom := true }) :=
    moves_disconnect.trans (moves_update fun _ => ⟨rfl, rfl⟩)
  split_ifs
  · exact hleft.trans moves_unmounted
  · exact hleft

end Locations

end World
end Nalang.WaitingRoom
