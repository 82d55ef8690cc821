import SturmRelay.Adapter.Lobby

/-! # Whether host and joiner agree on the mode

The host takes its mode from its configuration and waits, in relay mode, for any packet of the server;
the joiner asks whether the host is registered in the session of the game. A packet only shows that the
host is registered somewhere: with a registration left from an earlier game the host goes on without
one for this game, and with one left in this game's session the joiner takes a host in ICE mode for
one on the relay.

A `joinGame` for a host that has a peer already asks nobody and sets nothing, whatever the host does now.

`modes_agree`: they agree in every run in which the host is registered when `HostGame` is released in
relay mode and stays so, nobody registers a host that is set to official FAF, and the joiner has no peer
for the host when it joins. -/

namespace SturmRelay
namespace Adapter
set_option autoImplicit false

open SessionManager

/-! ## The property and the condition -/

/-- The server has answered the call's request, with 200 or 404, or the lobby is one in which no
request is made. -/
def JoinCall.Answered (lobbyInitMode : ℤ) (call : JoinCall) : Prop :=
  lobbyInitMode = lobbyInitModeAuto ∨ call.status = some 200 ∨ call.status = some 404

instance (lobbyInitMode : ℤ) (call : JoinCall) : Decidable (call.Answered lobbyInitMode) :=
  inferInstanceAs (Decidable (_ ∨ _))

/-- The call has found a peer, and has returned without a request. -/
def JoinCall.Skipped (call : JoinCall) : Prop := call.phase = .done ∧ call.set = none

instance (call : JoinCall) : Decidable call.Skipped := inferInstanceAs (Decidable (_ ∧ _))

/-- The call is past `SetRelayMode`, or has returned. -/
@[simp] def JoinPhase.afterSetting : JoinPhase → Bool
  | .readying | .adding | .done => true
  | _ => false

/-- Where the call looks for a peer, there is none. -/
def LobbyAdapter.Unjoined (a : LobbyAdapter) (call : JoinCall) : Prop :=
  (call.phase = .getPeer → (a.peerMgr.getPeer call.pid).isSome = false) ∧
    (call.phase = .getICEPeer → (a.peerMgr.getICEPeer call.pid).isSome = false)

instance (a : LobbyAdapter) (call : JoinCall) : Decidable (a.Unjoined call) :=
  inferInstanceAs (Decidable (_ ∧ _))

namespace Lobby

/-- Every `joinGame` for the host has set relay mode if the host had released `HostGame` in relay mode
before it, and ICE mode if the host hosts in ICE mode. -/
def ModesAgree (s : Lobby) : Prop :=
  ∀ call ∈ s.joiner.calls, call.pid = s.host.cfg.playerID →
    call.Answered s.joiner.lobbyInitMode ∨ call.Skipped → call.phase.afterSetting = true →
      (call.hostReleased = true → call.set = some true) ∧
        ((∃ g ∈ s.host.hosted, g.relay = false) → call.set = some false)

instance (s : Lobby) : Decidable s.ModesAgree :=
  inferInstanceAs (Decidable (∀ call ∈ s.joiner.calls, _))

/-- A step of the server does not end the registration of a host that has released `HostGame`, and
does not register one that is set to official FAF. `HostGame` is released to a registered host, and the
joiner has no peer for the host when it joins. -/
def Steady (s : Lobby) : LobbyEvent → Prop
  | .server ev =>
    (s.host.hasReleased = true →
      ¬ ev.Evicts s.host.cfg.playerID s.host.cfg.sessionID s.relay.sm) ∧
    (s.host.cfg.useOfficialFAF = true →
      ¬ ev.Registers s.host.cfg.playerID s.host.cfg.sessionID)
  | .release _ =>
    s.host.relayConfirmed = true → Registered s.host.cfg.playerID s.host.cfg.sessionID s.relay.sm
  | .join i _ _ _ =>
    ∀ call ∈ s.joiner.calls[i]?, call.pid = s.host.cfg.playerID → s.joiner.Unjoined call
  | _ => True

instance (s : Lobby) (ev : LobbyEvent) : Decidable (s.Steady ev) :=
  match ev with
  | .server _ => inferInstanceAs (Decidable (_ ∧ _))
  | .release _ => inferInstanceAs (Decidable (_ → _))
  | .run _ => inferInstanceAs (Decidable True)
  | .setup _ _ _ => inferInstanceAs (Decidable True)
  | .hello _ _ _ _ => inferInstanceAs (Decidable True)
  | .transportReady _ => inferInstanceAs (Decidable True)
  | .receive _ _ => inferInstanceAs (Decidable True)
  | .hostGame _ => inferInstanceAs (Decidable True)
  | .joinGame _ _ => inferInstanceAs (Decidable True)
  | .join i _ _ _ => inferInstanceAs (Decidable (∀ call ∈ s.joiner.calls[i]?, _ → _))
  | .disconnectFromPeer _ _ => inferInstanceAs (Decidable True)

end Lobby

/-! ## Requests -/

theorem Config.slash_notMem_sessionID (cfg : Config) : '/' ∉ cfg.sessionID.toList := by
  have hdigits : ∀ n : ℕ, '/' ∉ n.repr.toList := by
    intro n h
    rw [Nat.repr, String.toList_ofList] at h
    have := Nat.isDigit_of_mem_toDigits (by decide) (by decide) h
    exact absurd this (by decide)
  change '/' ∉ (Int.repr cfg.gameID).toList
  unfold Int.repr
  split
  · exact hdigits _
  · rw [String.toList_append, List.mem_append, not_or]
    exact ⟨by decide, hdigits _⟩

theorem Config.joinBody_playerID {cfg : Config} {req : JoinRequest} (h : cfg.joinBody.join = some req) :
    (req.playerID.toNat : ℤ) = cfg.playerID := by
  unfold joinBody at h
  dsimp only at h
  split at h
  · next hrange =>
    cases h
    change ((UInt32.ofInt cfg.playerID).toNat : ℤ) = cfg.playerID
    rw [UInt32.ofInt, UInt32.toNat_ofNat']
    omega
  · cases h

theorem serve_sm (x : Exchange) (route : Route) (method : Method) (body : Body) (now : Instant)
    (relay : Relay) :
    (x.serve route method body now relay).2.sm = relay.sm ∨
      (x.serve route method body now relay).2.sm = (relay.sm.serveMux route method body now).2 := by
  unfold Exchange.serve
  dsimp only
  split
  · exact Or.inr rfl
  · exact Or.inr rfl
  · exact Or.inl rfl

theorem isHostOnRelay_eq_true {resp : Response} {pid : ℤ} : isHostOnRelay (some resp) pid = true ↔
    resp.status = 200 ∧ ∃ id ∈ playerIDsOf resp.payload, (id.toNat : ℤ) = pid := by
  unfold isHostOnRelay
  dsimp only
  split
  · next h => simp [h]
  · split <;> simp_all

/-- An answer of 200 or 404 tells whether the player is registered in the session of the game. -/
theorem isHostOnRelay_serve {x : Exchange} {cfg : Config} {now : Instant} {relay : Relay} (pid : ℤ)
    (hc : Consistent relay.sm)
    (hanswer : let resp := (x.serve (.sessionByID cfg.sessionID) .get {} now relay).1
      resp.map Response.status = some 200 ∨ resp.map Response.status = some 404) :
    isHostOnRelay (x.serve (.sessionByID cfg.sessionID) .get {} now relay).1 pid = true ↔
      Registered pid cfg.sessionID relay.sm := by
  have hinfo := serveMux_info cfg.slash_notMem_sessionID hc {} now
  unfold Exchange.serve at hanswer ⊢
  dsimp only at hanswer hinfo ⊢
  generalize (relay.sm.serveMux (.sessionByID cfg.sessionID) .get {} now) = served at hanswer hinfo ⊢
  split at hanswer
  · simp at hanswer
  · rw [isHostOnRelay_eq_true, registered_iff]
    rcases hinfo with h | ⟨h, hnone⟩ | ⟨maxPlayers, count, ids, h, hids⟩
    · simp [h] at hanswer
    · constructor
      · rintro ⟨hok, -⟩
        rw [h] at hok
        cases hok
      · rintro ⟨p, -, hi⟩
        exact absurd hi (hnone p)
    · rw [h]
      constructor
      · rintro ⟨-, p, hp, hpid⟩
        exact ⟨p, hpid, (hids p).mp hp⟩
      · rintro ⟨p, hpid, hi⟩
        exact ⟨rfl, p, (hids p).mpr hi, hpid⟩
  · simp at hanswer

/-! ## What the server holds -/

/-- The registrations fit what the host does. -/
structure Tells (host : Config) (released : Bool) (sm : SessionManager) : Prop where
  consistent : Consistent sm
  released : released = true → Registered host.playerID host.sessionID sm
  official : host.useOfficialFAF = true → ¬ Registered host.playerID host.sessionID sm

section Tells
variable {host cfg : Config} {released : Bool} {relay : Relay}

theorem Tells.relayStep (h : Tells host released relay.sm) (net : Network) {ev : RelayEvent}
    (hkeep : released = true → ¬ ev.Evicts host.playerID host.sessionID relay.sm)
    (hnew : host.useOfficialFAF = true → ¬ ev.Registers host.playerID host.sessionID) :
    Tells host released (SessionManager.relayStep net relay ev).1.sm where
  consistent := consistent_relayStep h.consistent ev
  released hr := registered_relayStep h.consistent (hkeep hr) (h.released hr)
  official ho hreg := h.official ho (registered_of_relayStep h.consistent (hnew ho) hreg)

theorem Tells.of_index (h : Tells host released relay.sm) {sm : SessionManager} (hc : Consistent sm)
    (hi : sm.playerIndex = relay.sm.playerIndex) : Tells host released sm where
  consistent := hc
  released hr := (registered_congr hi).mpr (h.released hr)
  official ho hreg := h.official ho ((registered_congr hi).mp hreg)

/-- A request that leaves the index alone. -/
theorem Tells.serve (h : Tells host released relay.sm) {x : Exchange} {route : Route} {method : Method}
    {body : Body} {now : Instant}
    (hi : (relay.sm.serveMux route method body now).2.playerIndex = relay.sm.playerIndex) :
    Tells host released (x.serve route method body now relay).2.sm := by
  rcases serve_sm x route method body now relay with he | he
  · rw [he]
    exact h
  · rw [he]
    exact h.of_index (consistent_serveMux h.consistent _ _ _ _) hi

/-- A registration for the same game, of the host or of another player. -/
theorem Tells.serve_join (h : Tells host released relay.sm) (hgame : cfg.sessionID = host.sessionID)
    (hother : host.useOfficialFAF = true → cfg.playerID ≠ host.playerID) (x : Exchange) (now : Instant) :
    Tells host released
      (x.serve (.sessionByID (cfg.sessionID ++ "/join")) .post cfg.joinBody now relay).2.sm := by
  rcases serve_sm x (.sessionByID (cfg.sessionID ++ "/join")) .post cfg.joinBody now relay with he | he
  · rw [he]
    exact h
  · rw [he]
    rcases serveMux_join cfg.slash_notMem_sessionID cfg.joinBody now relay.sm with he | ⟨req, hreq, he⟩
    · rw [he]
      exact h
    · have hpid := Config.joinBody_playerID hreq
      rw [he, hgame]
      refine ⟨h.consistent.call _, fun hr => ?_, fun ho hreg => h.official ho ?_⟩
      · exact registered_call h.consistent (fun hev => hev.2 rfl) (h.released hr)
      · refine registered_of_call h.consistent ?_ hreg
        rintro ⟨hhost, -⟩
        exact hother ho (hpid.symm.trans hhost)

/-- The registration of an adapter for the same game. A host set to official FAF makes none. -/
theorem Tells.setup (h : Tells host released relay.sm) {a : LobbyAdapter}
    (hgame : a.cfg.sessionID = host.sessionID)
    (hother : host.useOfficialFAF = true → a.relaySetup = .idle ∨ a.cfg.playerID ≠ host.playerID)
    (x : Exchange) (now : Instant) : Tells host released (a.setup x now relay).1.sm := by
  unfold LobbyAdapter.setup
  cases hphase : a.relaySetup with
  | health => exact h.serve rfl
  | create => exact h.serve (index_handleSessions _ _ _ _)
  | join =>
    refine h.serve_join hgame (fun ho => (hother ho).resolve_left ?_) x now
    rw [hphase]
    exact SetupPhase.noConfusion
  | idle => exact h
  | hello => exact h
  | done => exact h

/-- The steps of a `joinGame` only read. -/
theorem Tells.join (h : Tells host released relay.sm) (x : Exchange) (now : Instant) (setup : Setup)
    (i : ℕ) (a : LobbyAdapter) : Tells host released (a.join x now setup i relay).1.sm := by
  unfold LobbyAdapter.join
  split
  · exact h
  · dsimp only
    split
    · exact h
    · exact h
    · unfold LobbyAdapter.detect
      split
      · exact h
      · split
        · exact h
        · exact h.serve (congrArg SessionManager.playerIndex (HTTPAPI.serveMux_get _ _ _ _))
    · exact h
    · exact h
    · exact h
    · exact h

end Tells

/-! ## What the adapters hold -/

/-- The steps that are not about hosting and joining. -/
structure Frame (a a' : LobbyAdapter) : Prop where
  cfg : a'.cfg = a.cfg
  lobbyInitMode : a'.lobbyInitMode = a.lobbyInitMode
  waiting : a'.waiting = a.waiting
  hosted : a'.hosted = a.hosted
  calls : a'.calls = a.calls
  idle : a.cfg.useOfficialFAF = true → a.relaySetup = .idle → a'.relaySetup = .idle

namespace LobbyAdapter
variable (a : LobbyAdapter)

theorem frame_run : Frame a a.run := by
  unfold run
  split
  · exact ⟨rfl, rfl, rfl, rfl, rfl, fun _ h => h⟩
  · next hoff =>
    unfold ensureRelayReady
    split <;> exact ⟨rfl, rfl, rfl, rfl, rfl, fun h => absurd h hoff⟩

theorem frame_setup (x : Exchange) (now : Instant) (relay : Relay) :
    Frame a (a.setup x now relay).2 := by
  unfold setup
  cases hphase : a.relaySetup
  case idle => exact ⟨rfl, rfl, rfl, rfl, rfl, fun _ h => h⟩
  all_goals exact ⟨rfl, rfl, rfl, rfl, rfl, fun _ h => by rw [hphase] at h; cases h⟩

theorem frame_sentHello (src : Endpoint) : Frame a (a.sentHello src) :=
  ⟨rfl, rfl, rfl, rfl, rfl, fun _ h => by simp [sentHello, h]⟩

theorem frame_arrive (reply : RelayReply) : Frame a (a.arrive reply) := by
  unfold arrive
  split <;> exact ⟨rfl, rfl, rfl, rfl, rfl, fun _ h => h⟩

theorem frame_receive (k : ℕ) : Frame a (a.receive k) := by
  unfold receive
  repeat' split
  all_goals exact ⟨rfl, rfl, rfl, rfl, rfl, fun _ h => h⟩

end LobbyAdapter

/-- The host's side: every `HostGame`, released or not yet, is in the mode of its configuration. -/
structure Hosts (host : Config) (mode : ℤ) (a : LobbyAdapter) : Prop where
  cfg : a.cfg = host
  lobbyInitMode : a.lobbyInitMode = mode
  idle : host.useOfficialFAF = true → a.relaySetup = .idle
  waiting : a.waiting ≠ [] → host.useRelay mode = true
  hosted : ∀ g ∈ a.hosted, g.relay = host.useRelay mode

section Hosts
variable {host : Config} {mode : ℤ} {a a' : LobbyAdapter}

theorem Frame.hasReleased (hf : Frame a a') : a'.hasReleased = a.hasReleased := by
  unfold LobbyAdapter.hasReleased
  rw [hf.hosted]

theorem Hosts.frame (h : Hosts host mode a) (hf : Frame a a') : Hosts host mode a' where
  cfg := hf.cfg.trans h.cfg
  lobbyInitMode := hf.lobbyInitMode.trans h.lobbyInitMode
  idle ho := hf.idle (h.cfg ▸ ho) (h.idle ho)
  waiting := hf.waiting ▸ h.waiting
  hosted := hf.hosted ▸ h.hosted

theorem Hosts.useRelay (h : Hosts host mode a) (hr : a.hasReleased = true) :
    host.useRelay mode = true := by
  obtain ⟨g, hg, hrelay⟩ := List.any_eq_true.mp hr
  exact (h.hosted g hg).symm.trans hrelay

theorem Hosts.hostGame (h : Hosts host mode a) (mapName : String) :
    Hosts host mode (a.hostGame mapName) := by
  have hmode : a.cfg.useRelay a.lobbyInitMode = host.useRelay mode := by rw [h.cfg, h.lobbyInitMode]
  unfold LobbyAdapter.hostGame
  dsimp only
  split
  · exact h
  · split
    · next hrelay => exact ⟨h.cfg, h.lobbyInitMode, h.idle, fun _ => hmode ▸ hrelay, h.hosted⟩
    · next hrelay =>
      rw [hmode] at hrelay
      refine ⟨h.cfg, h.lobbyInitMode, h.idle, h.waiting, fun g hg => ?_⟩
      rcases List.mem_append.mp hg with hg | hg
      · exact h.hosted g hg
      · rw [List.mem_singleton.mp hg]
        exact (Bool.eq_false_iff.mpr hrelay).symm

theorem Hosts.release (h : Hosts host mode a) (k : ℕ) : Hosts host mode (a.release k) := by
  unfold LobbyAdapter.release
  split
  · exact h
  · next mapName hk =>
    have hrelay : host.useRelay mode = true := h.waiting (List.ne_nil_of_mem (List.mem_of_getElem? hk))
    split
    · refine ⟨h.cfg, h.lobbyInitMode, h.idle, fun _ => hrelay, fun g hg => ?_⟩
      rcases List.mem_append.mp hg with hg | hg
      · exact h.hosted g hg
      · rw [List.mem_singleton.mp hg]
        exact hrelay.symm
    · exact h

/-- In ICE mode nothing is released in relay mode. -/
theorem hasReleased_hostGame (mapName : String) : (a.hostGame mapName).hasReleased = a.hasReleased := by
  unfold LobbyAdapter.hostGame LobbyAdapter.hasReleased
  dsimp only
  split
  · rfl
  · split
    · rfl
    · simp

theorem hasReleased_release {k : ℕ} (hr : (a.release k).hasReleased = true) :
    a.hasReleased = true ∨ a.relayConfirmed = true := by
  unfold LobbyAdapter.release at hr
  split at hr
  · exact Or.inl hr
  · split at hr
    · next hconfirmed => exact Or.inr hconfirmed
    · exact Or.inl hr

theorem hasReleased_release_of_released (k : ℕ) (hr : a.hasReleased = true) :
    (a.release k).hasReleased = true := by
  unfold LobbyAdapter.release
  repeat' split
  · exact hr
  · unfold LobbyAdapter.hasReleased at hr ⊢
    rw [List.any_append, hr, Bool.true_or]
  · exact hr

end Hosts

/-! ## Calls of `joinGame` -/

/-- What the call has found out about the host. -/
def JoinCall.Sound (host : Config) (mode : ℤ) (call : JoinCall) : Prop :=
  call.Answered mode →
    (call.hostReleased = true → call.onRelay = true) ∧ (host.useRelay mode = false → call.onRelay = false)

@[simp] def JoinPhase.beforeAnswer : JoinPhase → Bool
  | .getPeer | .getICEPeer | .detecting => true
  | _ => false

structure JoinCall.Decides (host : Config) (mode : ℤ) (released : Bool) (call : JoinCall) : Prop where
  hostReleased : call.hostReleased = true → released = true
  fresh : call.phase.beforeAnswer = true →
    call.set = none ∧ call.onRelay = false ∧ call.status = none
  set : ∀ m, call.set = some m → call.onRelay = m
  finished : call.phase.afterSetting = true → call.set ≠ none
  sound : call.phase = .setting ∨ call.set ≠ none → call.Sound host mode

section Decides
variable {host : Config} {mode : ℤ} {released released' : Bool} {call : JoinCall}

theorem JoinCall.Decides.mono (h : call.Decides host mode released)
    (hr : released = true → released' = true) : call.Decides host mode released' :=
  ⟨fun hc => hr (h.hostReleased hc), h.fresh, h.set, h.finished, h.sound⟩

/-- A step that neither asks nor sets. -/
theorem JoinCall.Decides.move (h : call.Decides host mode released) {phase : JoinPhase}
    (hbefore : phase.beforeAnswer = true → call.phase.beforeAnswer = true) (hne : phase ≠ .setting)
    (hafter : phase.afterSetting = true → call.phase.afterSetting = true) :
    { call with phase := phase }.Decides host mode released where
  hostReleased := h.hostReleased
  fresh hp := h.fresh (hbefore hp)
  set := h.set
  finished hp := h.finished (hafter hp)
  sound hp := h.sound (Or.inr (hp.resolve_left hne))

/-- A look at one of the peer tables, where there is no peer. -/
theorem JoinCall.Decides.look (h : call.Decides host mode released)
    (hphase : call.phase.beforeAnswer = true) {found : Bool} (hfound : found = false) {next : JoinPhase}
    (hnext : next.beforeAnswer = true) :
    { call with phase := if found then .done else next }.Decides host mode released := by
  rw [hfound]
  refine h.move (fun _ => hphase) ?_ ?_ <;> cases next <;> simp_all

/-- `SetRelayMode`. -/
theorem JoinCall.Decides.setMode (h : call.Decides host mode released) (hphase : call.phase = .setting)
    {phase : JoinPhase} (hafter : phase.beforeAnswer = false) :
    { call with phase := phase, set := some call.onRelay }.Decides host mode released where
  hostReleased := h.hostReleased
  fresh hp := by
    rw [hafter] at hp
    cases hp
  set m hm := Option.some.inj hm
  finished _ := Option.some_ne_none _
  sound _ := h.sound (Or.inl hphase)

/-- The answer: `onRelay` and `status` are there, and the call is about to set the mode. -/
theorem JoinCall.Decides.answer (h : call.Decides host mode released)
    (hphase : call.phase.beforeAnswer = true) {onRelay : Bool} {status : Option ℕ}
    (hsound : { call with phase := .setting, onRelay := onRelay, status := status }.Sound host mode) :
    { call with phase := .setting, onRelay := onRelay, status := status }.Decides host mode released where
  hostReleased := h.hostReleased
  fresh hp := Bool.noConfusion hp
  set m hm := by
    rw [(h.fresh hphase).1] at hm
    cases hm
  finished hp := Bool.noConfusion hp
  sound _ := hsound

end Decides

/-- The joiner's side. -/
structure Joins (host joiner : Config) (mode : ℤ) (released : Bool) (a : LobbyAdapter) : Prop where
  cfg : a.cfg = joiner
  lobbyInitMode : a.lobbyInitMode = mode
  calls : ∀ call ∈ a.calls, call.pid = host.playerID → call.Decides host mode released

section Joins
variable {host joiner : Config} {mode : ℤ} {released released' : Bool} {a a' : LobbyAdapter}

theorem Joins.mono (h : Joins host joiner mode released a) (hr : released = true → released' = true) :
    Joins host joiner mode released' a :=
  ⟨h.cfg, h.lobbyInitMode, fun call hcall hpid => (h.calls call hcall hpid).mono hr⟩

theorem Joins.frame (h : Joins host joiner mode released a) (hf : Frame a a') :
    Joins host joiner mode released a' :=
  ⟨hf.cfg.trans h.cfg, hf.lobbyInitMode.trans h.lobbyInitMode, hf.calls ▸ h.calls⟩

theorem Joins.setCall (h : Joins host joiner mode released a) (i : ℕ) {call : JoinCall}
    (hcall : call.pid = host.playerID → call.Decides host mode released) :
    Joins host joiner mode released (a.setCall i call) := by
  refine ⟨h.cfg, h.lobbyInitMode, fun c hc => ?_⟩
  rcases List.mem_or_eq_of_mem_set hc with hc | rfl
  · exact h.calls c hc
  · exact hcall

theorem Joins.joinGame (h : Joins host joiner mode released a) (login : String) (pid : ℤ) :
    Joins host joiner mode released (a.joinGame login pid released) := by
  unfold LobbyAdapter.joinGame
  split
  · exact h
  · refine ⟨h.cfg, h.lobbyInitMode, fun call hcall hpid => ?_⟩
    rcases List.mem_append.mp hcall with hcall | hcall
    · exact h.calls call hcall hpid
    · rw [List.mem_singleton.mp hcall]
      refine ⟨id, fun _ => ⟨rfl, rfl, rfl⟩, fun m hm => ?_, fun hp => Bool.noConfusion hp, fun hp => ?_⟩
      · cases hm
      · rcases hp with hp | hp
        · cases hp
        · exact absurd rfl hp

/-- The one step that takes the mode from the server: it finds the host where `Tells` puts it. -/
theorem Joins.detect (h : Joins host joiner mode released a) {relay : Relay}
    (ht : Tells host released relay.sm) (hgame : joiner.sessionID = host.sessionID)
    (hrelay : released = true → host.useRelay mode = true) (x : Exchange) (now : Instant) {i : ℕ}
    {call : JoinCall} (hcall : call ∈ a.calls) (hphase : call.phase.beforeAnswer = true) :
    Joins host joiner mode released (a.detect x now i call relay).2 := by
  unfold LobbyAdapter.detect
  rw [h.lobbyInitMode, h.cfg]
  split
  · next hauto =>
    -- nobody asks, and the host of such a lobby is in ICE mode as well
    refine h.setCall i fun hpid => ?_
    have hd := h.calls call hcall hpid
    refine hd.answer hphase fun _ => ⟨fun hr => ?_, fun _ => (hd.fresh hphase).2.1⟩
    have := hrelay (hd.hostReleased hr)
    simp [Config.useRelay, hauto] at this
  · next hauto =>
    split
    · -- without a server to ask there is no answer
      refine h.setCall i fun hpid => ?_
      have hd := h.calls call hcall hpid
      refine hd.answer hphase fun hanswered => ?_
      simp [JoinCall.Answered, hauto, (hd.fresh hphase).2.2] at hanswered
    · refine h.setCall i fun hpid => ?_
      have hd := h.calls call hcall hpid
      refine hd.answer hphase fun hanswered => ?_
      have hiff := isHostOnRelay_serve call.pid ht.consistent (hanswered.resolve_left hauto)
      rw [hgame, hpid] at hiff
      refine ⟨fun hr => ?_, fun hice => ?_⟩
      · dsimp only
        rw [hgame, hpid]
        exact hiff.mpr (ht.released (hd.hostReleased hr))
      · have hofficial : host.useOfficialFAF = true := by
          simpa [Config.useRelay, hauto] using hice
        dsimp only
        rw [hgame, hpid]
        exact Bool.eq_false_iff.mpr fun hon => ht.official hofficial (hiff.mp hon)

theorem Joins.ensureRelayReady (h : Joins host joiner mode released a) :
    Joins host joiner mode released a.ensureRelayReady := by
  unfold LobbyAdapter.ensureRelayReady
  split
  · exact ⟨h.cfg, h.lobbyInitMode, h.calls⟩
  · exact h

theorem Joins.addPeer (h : Joins host joiner mode released a) (setup : Setup) {i : ℕ} {call : JoinCall}
    (hphase : call.phase = .adding) (hd : call.pid = host.playerID → call.Decides host mode released) :
    Joins host joiner mode released (a.addPeer setup i call) := by
  have hpeers : ∀ peerMgr, Joins host joiner mode released { a with peerMgr := peerMgr } :=
    fun _ => ⟨h.cfg, h.lobbyInitMode, h.calls⟩
  refine (hpeers _).setCall i fun hpid => (hd hpid).move Bool.noConfusion JoinPhase.noConfusion fun _ => ?_
  rw [hphase]
  rfl

theorem Joins.join (h : Joins host joiner mode released a) {relay : Relay}
    (ht : Tells host released relay.sm) (hgame : joiner.sessionID = host.sessionID)
    (hrelay : released = true → host.useRelay mode = true) (x : Exchange) (now : Instant)
    (setup : Setup) {i : ℕ} (hnew : ∀ call ∈ a.calls[i]?, call.pid = host.playerID → a.Unjoined call) :
    Joins host joiner mode released (a.join x now setup i relay).2 := by
  unfold LobbyAdapter.join
  split
  · exact h
  · next call hi =>
    have hcall := List.mem_of_getElem? hi
    have hd := h.calls call hcall
    have hnew := hnew call hi
    dsimp only
    split
    · next hphase =>
      exact h.setCall i fun hpid => (hd hpid).look (by rw [hphase]; rfl) ((hnew hpid).1 hphase) rfl
    · next hphase =>
      exact h.setCall i fun hpid => (hd hpid).look (by rw [hphase]; rfl) ((hnew hpid).2 hphase) rfl
    · next hphase => exact h.detect ht hgame hrelay x now hcall (by rw [hphase]; rfl)
    · next hphase =>
      have hmode : Joins host joiner mode released { a with relayMode := call.onRelay } :=
        ⟨h.cfg, h.lobbyInitMode, h.calls⟩
      refine hmode.setCall i fun hpid => (hd hpid).setMode hphase ?_
      split <;> rfl
    · next hphase =>
      split
      · refine h.ensureRelayReady.setCall i fun hpid =>
          (hd hpid).move Bool.noConfusion JoinPhase.noConfusion fun _ => ?_
        rw [hphase]
        rfl
      · exact h.ensureRelayReady
    · next hphase => exact h.addPeer setup hphase hd
    · exact h

end Joins

/-! ## Every run -/

structure Settled (host joiner : Config) (mode : ℤ) (s : Lobby) : Prop where
  hosts : Hosts host mode s.host
  joins : Joins host joiner mode s.host.hasReleased s.joiner
  tells : Tells host s.host.hasReleased s.relay.sm

namespace Settled
variable {host joiner : Config} {mode : ℤ} {s : Lobby}

theorem start (host joiner : Config) (mode : ℤ) :
    Settled host joiner mode (.start host joiner mode) where
  hosts := ⟨rfl, rfl, fun _ => rfl, fun h => absurd rfl h, fun _ hg => absurd hg List.not_mem_nil⟩
  joins := ⟨rfl, rfl, fun _ hc => absurd hc List.not_mem_nil⟩
  tells := by
    refine ⟨consistent_new, fun h => Bool.noConfusion h, fun _ => ?_⟩
    rintro ⟨p, hp, -⟩
    exact absurd hp List.not_mem_nil

/-- A step of one adapter that is not about hosting and joining. -/
theorem frame (h : Settled host joiner mode s) (side : Side) {a : LobbyAdapter}
    (hf : Frame (s.adapter side) a) : Settled host joiner mode (s.setAdapter side a) := by
  cases side with
  | host =>
    have hr : a.hasReleased = s.host.hasReleased := hf.hasReleased
    exact ⟨h.hosts.frame hf, h.joins.mono (hr ▸ id), hr ▸ h.tells⟩
  | joiner => exact ⟨h.hosts, h.joins.frame hf, h.tells⟩

theorem relay (h : Settled host joiner mode s) {relay : Relay}
    (ht : Tells host s.host.hasReleased relay.sm) : Settled host joiner mode { s with relay := relay } :=
  ⟨h.hosts, h.joins, ht⟩

theorem serve (h : Settled host joiner mode s) (net : Network) {ev : RelayEvent}
    (hkeep : s.host.hasReleased = true → ¬ ev.Evicts host.playerID host.sessionID s.relay.sm)
    (hnew : host.useOfficialFAF = true → ¬ ev.Registers host.playerID host.sessionID) :
    Settled host joiner mode (s.serve net ev) := by
  have hr := h.relay (h.tells.relayStep net hkeep hnew)
  have hhost := hr.frame .host (s.host.frame_arrive (relayStep net s.relay ev).2)
  exact hhost.frame .joiner (s.joiner.frame_arrive (relayStep net s.relay ev).2)

theorem setup (h : Settled host joiner mode s) (hgame : joiner.sessionID = host.sessionID)
    (hids : joiner.playerID ≠ host.playerID) (side : Side) (x : Exchange) (now : Instant) :
    Tells host s.host.hasReleased ((s.adapter side).setup x now s.relay).1.sm := by
  cases side with
  | host =>
    have hsession := congrArg Config.sessionID h.hosts.cfg
    exact h.tells.setup hsession (fun ho => Or.inl (h.hosts.idle ho)) x now
  | joiner =>
    have hcfg : (s.adapter .joiner).cfg = joiner := h.joins.cfg
    refine h.tells.setup (by rw [hcfg, hgame]) (fun _ => Or.inr ?_) x now
    rw [hcfg]
    exact hids

theorem step (h : Settled host joiner mode s) (hgame : joiner.sessionID = host.sessionID)
    (hids : joiner.playerID ≠ host.playerID) (net : Network) {ev : LobbyEvent} (hsteady : s.Steady ev) :
    Settled host joiner mode (s.step net ev).1 := by
  cases ev with
  | server ev =>
    obtain ⟨hkeep, hnew⟩ := hsteady
    rw [h.hosts.cfg] at hkeep hnew
    exact h.serve net hkeep hnew
  | run side => exact h.frame side (s.adapter side).frame_run
  | setup side x now =>
    have hf := (s.adapter side).frame_setup x now s.relay
    have hr := h.relay (h.setup hgame hids side x now)
    cases side with
    | host => exact hr.frame .host hf
    | joiner => exact hr.frame .joiner hf
  | hello side src now order =>
    simp only [Lobby.step, Lobby.hello]
    refine (h.frame side ((s.adapter side).frame_sentHello src)).serve net ?_ ?_
    · exact fun _ => not_false
    · exact fun _ => not_false
  | transportReady side => exact h.frame side ⟨rfl, rfl, rfl, rfl, rfl, fun _ hi => hi⟩
  | receive side k => exact h.frame side ((s.adapter side).frame_receive k)
  | hostGame mapName =>
    have hr := hasReleased_hostGame (a := s.host) mapName
    exact ⟨h.hosts.hostGame mapName, h.joins.mono (hr ▸ id), hr ▸ h.tells⟩
  | release k =>
    refine ⟨h.hosts.release k, h.joins.mono (hasReleased_release_of_released k), ?_⟩
    refine ⟨h.tells.consistent, fun hr => ?_, h.tells.official⟩
    rcases hasReleased_release hr with hr | hconfirmed
    · exact h.tells.released hr
    · have hreg := hsteady hconfirmed
      rwa [h.hosts.cfg] at hreg
  | joinGame login pid => exact ⟨h.hosts, h.joins.joinGame login pid, h.tells⟩
  | join i x now setup =>
    change ∀ call ∈ s.joiner.calls[i]?, call.pid = s.host.cfg.playerID → s.joiner.Unjoined call at hsteady
    rw [h.hosts.cfg] at hsteady
    exact ⟨h.hosts, h.joins.join h.tells hgame h.hosts.useRelay x now setup hsteady,
      h.tells.join x now setup i s.joiner⟩
  | disconnectFromPeer pid drain =>
    exact ⟨h.hosts, ⟨h.joins.cfg, h.joins.lobbyInitMode, h.joins.calls⟩, h.tells⟩

theorem modesAgree (h : Settled host joiner mode s) : s.ModesAgree := by
  intro call hcall hpid hanswered hafter
  rw [h.hosts.cfg] at hpid
  rw [h.joins.lobbyInitMode] at hanswered
  have hd := h.joins.calls call hcall hpid
  have hset := hd.finished hafter
  obtain ⟨m, hm⟩ := Option.ne_none_iff_exists'.mp hset
  have hanswered := hanswered.resolve_right fun hskipped => hset hskipped.2
  obtain ⟨hrelay, hice⟩ := hd.sound (Or.inr hset) hanswered
  rw [hd.set m hm] at hrelay hice
  rw [hm]
  refine ⟨fun hr => congrArg some (hrelay hr), ?_⟩
  rintro ⟨g, hg, hmode⟩
  exact congrArg some (hice ((h.hosts.hosted g hg).symm.trans hmode))

end Settled

namespace Lobby

theorem modes_agree (net : Network) (host joiner : Config) (lobbyInitMode : ℤ)
    (hgame : joiner.gameID = host.gameID) (hids : joiner.playerID ≠ host.playerID)
    (events : List LobbyEvent)
    (hsteady : AllSteps (step net) (fun s ev _ => s.Steady ev) (start host joiner lobbyInitMode) events) :
    (runState (step net) (start host joiner lobbyInitMode) events).ModesAgree := by
  have hsession : joiner.sessionID = host.sessionID := congrArg toString hgame
  have hsettled := allSteps_invariant_trace (I := fun _ s => Settled host joiner lobbyInitMode s)
    (Settled.start host joiner lobbyInitMode)
    (fun _ _ _ h hC => h.step hsession hids net hC) hsteady
  exact hsettled.modesAgree

/-! ### Registrations left from an earlier game -/

/-- Player 7 in game 2. -/
def hostConfig (useOfficialFAF : Bool) : Config where
  playerID := 7
  gameID := 2
  login := "host"
  relayServer := ⟨.v4 0x0A000001, 10000⟩
  relayHTTP := "http://relay"
  useOfficialFAF := useOfficialFAF

def joinerConfig : Config := { hostConfig false with playerID := 8, login := "joiner" }

/-- Somebody creates a session and registers player 7 there. -/
def leftOver (sid : SessionID) : List LobbyEvent :=
  [.server (.call (.createSession sid 32 0) 0), .server (.call (.addPlayerToSession sid 7 "host") 0)]

/-- The host starts up; `outcomes` are those of its health check and its two requests. -/
def startUp (outcomes : List Exchange) : List LobbyEvent :=
  .run .host :: outcomes.map fun x => .setup .host x 0

/-- A hello and its echo, and the host hosts a game. -/
def hosting : List LobbyEvent :=
  [.hello .host (.udp ⟨.v4 0x0A000002, 4000⟩) 0 .listed, .receive .host 0, .hostGame "map", .release 0]

/-- The joiner joins the host, up to `SetRelayMode`. -/
def joining : List LobbyEvent :=
  .joinGame "host" 7 :: List.replicate 4 (.join 0 .answered 0 ⟨true, true, true⟩)

/-- The host was in game 1 before. Its registration moves it to game 2, where the joiner finds it. -/
theorem migratedHost_modes_agree :
    let s := runState (step .reliable) (start (hostConfig false) joinerConfig 0)
      (leftOver "1" ++ startUp [.answered, .answered, .answered] ++ hosting ++ joining)
    s.joiner.calls.map (fun c => (c.hostReleased, c.status, c.set)) = [(true, some 200, some true)] ∧
      s.ModesAgree :=
  ⟨by decide +kernel,
    modes_agree .reliable (hostConfig false) joinerConfig 0 rfl (by decide) _ (by decide +kernel)⟩

/-- The joiner joins the host before it hosts, in ICE mode, and again afterwards. -/
def joiningTwice : List LobbyEvent :=
  joining ++ [.join 0 .answered 0 ⟨true, true, true⟩] ++ startUp [.answered, .answered, .answered] ++ hosting ++
    .joinGame "host" 7 :: List.replicate 2 (.join 1 .answered 0 ⟨true, true, true⟩)

/-- The same, but the request that creates the session is lost: the server echoes the hello all the
same, for the registration in game 1. Then a host set to official FAF, with a registration left in
game 2, and a host that the joiner has an ICE peer for already. -/
theorem leftOver_modes_differ :
    (let s := runState (step .reliable) (start (hostConfig false) joinerConfig 0)
      (leftOver "1" ++ startUp [.answered, .lost] ++ hosting ++ joining)
    s.host.hosted = [⟨"map", true⟩] ∧
      s.joiner.calls.map (fun c => (c.hostReleased, c.status, c.set)) =
        [(true, some 404, some false)] ∧ ¬ s.ModesAgree) ∧
    (let s := runState (step .reliable) (start (hostConfig true) joinerConfig 0)
      (leftOver "2" ++ startUp [] ++ [.hostGame "map"] ++ joining)
    s.host.hosted = [⟨"map", false⟩] ∧
      s.joiner.calls.map (fun c => (c.hostReleased, c.status, c.set)) =
        [(false, some 200, some true)] ∧ ¬ s.ModesAgree) ∧
    (let s := runState (step .reliable) (start (hostConfig false) joinerConfig 0) joiningTwice
    s.host.hosted = [⟨"map", true⟩] ∧ s.joiner.relayMode = false ∧
      s.joiner.calls.map (fun c => (c.hostReleased, c.phase, c.set)) =
        [(false, .done, some false), (true, .done, none)] ∧ ¬ s.ModesAgree) := by
  decide +kernel

end Lobby
end Adapter
end SturmRelay
