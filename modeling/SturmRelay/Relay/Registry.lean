import Mathlib.Data.Set.Card
import SturmRelay.Relay.Registration

/-! # The session manager as a registry

What the session manager is for, without its heap, its second map and its counters: which rooms
exist, with how many seats, and which room each player sits in. A `Registry` is two functions, and
the limits of the source are cardinalities of sets of players and rooms.

`registry` reads this off a manager, and every run of the relay is a run of the registry: a call
returns what the abstract call returns and has its effect, a packet changes nobody's seat, and a
pass of the reaper only takes players out of their seats and closes rooms nobody is left in. -/

namespace SturmRelay
set_option autoImplicit false

theorem Table.ncard_keys {K V : Type} [DecidableEq K] (m : Table K V) :
    {k | (m.lookup k).isSome}.ncard = Table.len m := by
  have hkeys : {k | (m.lookup k).isSome} = (m.keys.toFinset : Set K) := by
    ext k
    simp [AList.lookup_isSome, AList.mem_keys]
  rw [hkeys, Set.ncard_coe_finset, List.toFinset_card_of_nodup m.keys_nodup]
  rfl

open SessionManager

/-- The rooms, with their numbers of seats, and the room each player sits in. -/
@[ext] structure Registry where
  rooms : SessionID → Option ℤ
  seat : PlayerID → Option SessionID

namespace Registry

def empty : Registry where
  rooms _ := none
  seat _ := none

noncomputable section

def roomCount (g : Registry) : ℕ := {sid | (g.rooms sid).isSome}.ncard

def playerCount (g : Registry) : ℕ := {p | (g.seat p).isSome}.ncard

def roomSize (g : Registry) (sid : SessionID) : ℕ := {p | g.seat p = some sid}.ncard

def unseat (p : PlayerID) (g : Registry) : Registry :=
  { g with seat := Function.update g.seat p none }

def create (id : SessionID) (maxPlayers : ℤ) (g : Registry) : Except SessionError Unit × Registry :=
  if (g.rooms id).isSome then (.error (.sessionExists id), g)
  else if maxTotalSessions ≤ g.roomCount then (.error (.sessionCapacity maxTotalSessions), g)
  else (.ok (), { g with rooms := Function.update g.rooms id (some maxPlayers) })

def close (id : SessionID) (g : Registry) : Except SessionError Unit × Registry :=
  if (g.rooms id).isSome then
    (.ok (), { rooms := Function.update g.rooms id none
               seat := fun p => if g.seat p = some id then none else g.seat p })
  else (.error (.sessionNotFound id), g)

/-- Give a player without a seat one in the room. -/
def enter (sid : SessionID) (maxPlayers : ℤ) (p : PlayerID) (g : Registry) :
    Except SessionError Unit × Registry :=
  if maxTotalPlayers ≤ g.playerCount then (.error (.playerCapacity maxTotalPlayers), g)
  else if maxPlayers ≤ g.roomSize sid then
    (.error (.sessionFull sid (g.roomSize sid) maxPlayers), g)
  else (.ok (), { g with seat := Function.update g.seat p (some sid) })

/-- A player that changes rooms gives its old seat up before the new room can refuse it. -/
def join (sid : SessionID) (p : PlayerID) (g : Registry) : Except SessionError Unit × Registry :=
  match g.rooms sid with
  | none => (.error (.sessionNotFound sid), g)
  | some maxPlayers =>
    if g.seat p = some sid then (.ok (), g) else (g.unseat p).enter sid maxPlayers p

def leave (sid : SessionID) (p : PlayerID) (g : Registry) : Except SessionError Unit × Registry :=
  if (g.rooms sid).isSome then
    if g.seat p = some sid then (.ok (), g.unseat p) else (.error (.playerNotIn p sid), g)
  else (.error (.sessionNotFound sid), g)

def call (g : Registry) : Call → Except SessionError Unit × Registry
  | .createSession id maxPlayers _ => g.create id maxPlayers
  | .deleteSession id => g.close id
  | .addPlayerToSession sid p _ => g.join sid p
  | .removePlayerFromSession sid p => g.leave sid p

end

/-- Players lose their seats and rooms in which nobody is left are closed; nothing else. -/
structure Expires (g g' : Registry) : Prop where
  rooms : ∀ sid, g'.rooms sid = g.rooms sid ∨ g'.rooms sid = none ∧ ∀ p, g'.seat p ≠ some sid
  seat : ∀ p, g'.seat p = g.seat p ∨ g'.seat p = none

/-- The registry's side of one step of the relay. A relay that has crashed answers nothing more. -/
inductive Step : Registry → RelayEvent → RelayReply → Registry → Prop
  | call (g : Registry) (c : Call) (now : Instant) :
      Step g (.call c now) (.result (g.call c).1) (g.call c).2
  | packet (g : Registry) (pkt : Packet) (verdict : Option PacketVerdict) (sent : List Sent)
      (closed : List Conn) : Step g (.packet pkt) (.handled verdict sent closed) g
  | reap {g g' : Registry} (h : Expires g g') (o : ReapOrder) (clk : ReapClock)
      (players sessions : ℕ) (closed : List Conn) :
      Step g (.reap o clk) (.reaped players sessions closed) g'
  | crashed (g : Registry) (ev : RelayEvent) (f : Fault) : Step g ev (.crashed f) g

inductive Run : Registry → List (RelayEvent × RelayReply) → Registry → Prop
  | nil (g : Registry) : Run g [] g
  | concat {g g' g'' : Registry} {obs : List (RelayEvent × RelayReply)} {ev : RelayEvent}
      {out : RelayReply} (h : Run g obs g') (hs : Step g' ev out g'') :
      Run g (obs ++ [(ev, out)]) g''

end Registry

namespace SessionManager

/-- The registry a manager stands for. -/
def registry (sm : SessionManager) : Registry where
  rooms sid := (sm.sessions.lookup sid).map fun r => (sm.session r).maxPlayers
  seat p := sm.playerIndex.lookup p

section Reading
variable {sm : SessionManager}

theorem registry_rooms {sid : SessionID} {r : SessionRef} (h : sm.sessions.lookup sid = some r) :
    sm.registry.rooms sid = some (sm.session r).maxPlayers := by
  simp only [registry, h, Option.map_some]

theorem registry_rooms_none {sid : SessionID} (h : sm.sessions.lookup sid = none) :
    sm.registry.rooms sid = none := by
  simp only [registry, h, Option.map_none]

theorem isSome_rooms (sm : SessionManager) (sid : SessionID) :
    (sm.registry.rooms sid).isSome = (sm.sessions.lookup sid).isSome := by
  simp only [registry, Option.isSome_map]

theorem roomCount_registry (sm : SessionManager) : sm.registry.roomCount = sm.sessions.len := by
  rw [← Table.ncard_keys]
  simp only [Registry.roomCount, isSome_rooms]

theorem playerCount_registry (sm : SessionManager) :
    sm.registry.playerCount = sm.playerIndex.len :=
  Table.ncard_keys sm.playerIndex

/-- The index counts a room's players as the room itself does. -/
theorem roomSize_registry (hc : Consistent sm) {sid : SessionID} {r : SessionRef}
    (h : sm.sessions.lookup sid = some r) :
    sm.registry.roomSize sid = (sm.session r).players.len := by
  rw [← Table.ncard_keys]
  unfold Registry.roomSize
  congr 1
  ext p
  show sm.playerIndex.lookup p = some sid ↔ ((sm.session r).players.lookup p).isSome
  rw [AList.lookup_isSome, hc.mem_iff h]

/-- Two managers with the same keys, seats and room sizes stand for one registry. -/
theorem registry_congr {sm' : SessionManager} (hs : sm'.sessions = sm.sessions)
    (hi : sm'.playerIndex = sm.playerIndex)
    (hm : ∀ sid r, sm.sessions.lookup sid = some r →
      (sm'.session r).maxPlayers = (sm.session r).maxPlayers) : sm'.registry = sm.registry := by
  ext1
  · funext sid
    show (sm'.sessions.lookup sid).map _ = (sm.sessions.lookup sid).map _
    rw [hs]
    cases h : sm.sessions.lookup sid with
    | none => rfl
    | some r => simp only [Option.map_some, hm sid r h]
  · funext p
    show sm'.playerIndex.lookup p = sm.playerIndex.lookup p
    rw [hi]

theorem maxPlayers_modifySession (r : SessionRef) {f : Session → Session}
    (hf : ∀ s, (f s).maxPlayers = s.maxPlayers) (r' : SessionRef) :
    ((sm.modifySession r f).session r').maxPlayers = (sm.session r').maxPlayers := by
  by_cases h : r' = r
  · rw [h, modifySession_session_self, hf]
  · rw [modifySession_session_ne _ _ _ h]

end Reading

/-! ## The edits -/

section Edits
variable {sm : SessionManager}

theorem registry_dropPlayer (r : SessionRef) (p : PlayerID) :
    (sm.dropPlayer r p).registry = sm.registry.unseat p := by
  have hm : ∀ r', ((sm.dropPlayer r p).session r').maxPlayers = (sm.session r').maxPlayers :=
    maxPlayers_modifySession r (f := fun s => (s.removePlayer p).2) fun _ => rfl
  ext1
  · funext sid
    show (sm.sessions.lookup sid).map _ = (sm.sessions.lookup sid).map _
    simp only [hm]
  · funext q
    show (sm.playerIndex.erase p).lookup q = Function.update sm.registry.seat p none q
    rw [Table.lookup_erase_eq_ite, Function.update_apply]
    rfl

theorem registry_putPlayer (r : SessionRef) (sid : SessionID) (p : PlayerID) (info : PlayerInfo) :
    (sm.putPlayer r sid p info).registry =
      { sm.registry with seat := Function.update sm.registry.seat p (some sid) } := by
  have hm : ∀ r', ((sm.putPlayer r sid p info).session r').maxPlayers =
      (sm.session r').maxPlayers :=
    maxPlayers_modifySession r (f := fun s => { s with players := s.players.insert p info })
      fun _ => rfl
  ext1
  · funext sid'
    show (sm.sessions.lookup sid').map _ = (sm.sessions.lookup sid').map _
    simp only [hm]
  · funext q
    show (sm.playerIndex.insert p sid).lookup q = Function.update sm.registry.seat p (some sid) q
    rw [Table.lookup_insert_eq_ite, Function.update_apply]
    rfl

theorem registry_putSession (hc : Consistent sm) (id : SessionID) (maxPlayers : ℤ) (now : Instant) :
    (sm.putSession id maxPlayers now).registry =
      { sm.registry with rooms := Function.update sm.registry.rooms id (some maxPlayers) } := by
  ext1
  · funext sid
    show ((sm.sessions.insert id sm.heap.next).lookup sid).map
      (fun r => ((sm.heap.alloc (newSession id maxPlayers now)).cell r).maxPlayers) =
      Function.update sm.registry.rooms id (some maxPlayers) sid
    rw [Table.lookup_insert_eq_ite, Function.update_apply]
    by_cases hid : sid = id
    · rw [if_pos hid, if_pos hid, Option.map_some, Heap.alloc_cell_self]
      rfl
    · rw [if_neg hid, if_neg hid]
      -- an older session lies below the new cell
      cases h : sm.sessions.lookup sid with
      | none => exact (registry_rooms_none h).symm
      | some r =>
        rw [registry_rooms h, Option.map_some, Heap.alloc_cell_of_lt _ _ (hc.ref_lt sid r h)]
        rfl
  · rfl

theorem registry_dropSession (hc : Consistent sm) {id : SessionID} {r : SessionRef}
    (h : sm.sessions.lookup id = some r) :
    (sm.dropSession id r).registry =
      { rooms := Function.update sm.registry.rooms id none
        seat := fun p => if sm.registry.seat p = some id then none else sm.registry.seat p } := by
  ext1
  · funext sid
    show ((sm.sessions.erase id).lookup sid).map (fun r => (sm.session r).maxPlayers) =
      Function.update sm.registry.rooms id none sid
    rw [Table.lookup_erase_eq_ite, Function.update_apply]
    by_cases hid : sid = id
    · rw [if_pos hid, if_pos hid, Option.map_none]
    · rw [if_neg hid, if_neg hid]
      rfl
  · funext p
    show (sm.playerIndex.eraseAll (sm.session r).playerIDs).lookup p = _
    have hp : p ∈ (sm.session r).playerIDs ↔ sm.registry.seat p = some id :=
      AList.mem_keys.symm.trans (hc.mem_iff h p)
    rw [Table.lookup_eraseAll]
    simp only [hp]
    rfl

end Edits

/-! ## Calls -/

section Calls
variable {sm : SessionManager}

/-- What an operation returned and left behind is what the registry's operation does. -/
def Matches (out : Except SessionError Unit × SessionManager)
    (spec : Except SessionError Unit × Registry) : Prop :=
  out.1 = spec.1 ∧ out.2.registry = spec.2

theorem matches_createSession (hc : Consistent sm) (id : SessionID) (maxPlayers : ℤ)
    (now : Instant) :
    Matches (sm.call (.createSession id maxPlayers now)) (sm.registry.create id maxPlayers) := by
  have hmem : id ∈ sm.sessions ↔ (sm.registry.rooms id).isSome := by
    rw [isSome_rooms, AList.lookup_isSome]
  unfold call createSession Registry.create
  rw [roomCount_registry]
  by_cases hid : id ∈ sm.sessions
  · simp only [if_pos hid, if_pos (hmem.mp hid)]
    exact ⟨rfl, rfl⟩
  · simp only [if_neg hid, if_neg (mt hmem.mpr hid)]
    by_cases hlen : maxTotalSessions ≤ sm.sessions.len
    · simp only [if_pos hlen]
      exact ⟨rfl, rfl⟩
    · simp only [if_neg hlen]
      exact ⟨rfl, registry_putSession hc id maxPlayers now⟩

theorem matches_deleteSession (hc : Consistent sm) (id : SessionID) :
    Matches (sm.deleteSession id) (sm.registry.close id) := by
  unfold deleteSession Registry.close
  rw [isSome_rooms]
  cases h : sm.sessions.lookup id with
  | none => exact ⟨rfl, rfl⟩
  | some r => exact ⟨rfl, registry_dropSession hc h⟩

theorem matches_admitPlayer (hc : Consistent sm) {sid : SessionID} {r : SessionRef}
    (h : sm.sessions.lookup sid = some r) {p : PlayerID} (hp : sm.playerIndex.lookup p = none)
    (login : String) :
    Matches (sm.admitPlayer r sid p login)
      (sm.registry.enter sid (sm.session r).maxPlayers p) := by
  have hout : p ∉ (sm.session r).players := by
    rw [hc.mem_iff h, hp]
    exact (Option.some_ne_none sid).symm
  unfold admitPlayer Registry.enter Session.addPlayer
  rw [playerCount_registry, roomSize_registry hc h, if_neg hout]
  by_cases hcap : maxTotalPlayers ≤ sm.playerIndex.len
  · rw [if_pos hcap, if_pos hcap]
    exact ⟨rfl, rfl⟩
  · rw [if_neg hcap, if_neg hcap]
    by_cases hfull : (sm.session r).maxPlayers ≤ (sm.session r).players.len
    · rw [if_pos hfull, if_pos hfull, hc.ref_id sid r h]
      exact ⟨rfl, rfl⟩
    · rw [if_neg hfull, if_neg hfull]
      exact ⟨rfl, registry_putPlayer r sid p { playerID := p, login := login }⟩

theorem unseat_of_none {g : Registry} {p : PlayerID} (h : g.seat p = none) : g.unseat p = g := by
  unfold Registry.unseat
  rw [← h, Function.update_eq_self]

theorem matches_addPlayerToSession (hc : Consistent sm) (sid : SessionID) (p : PlayerID)
    (login : String) : Matches (sm.addPlayerToSession sid p login) (sm.registry.join sid p) := by
  unfold addPlayerToSession Registry.join
  cases hr : sm.sessions.lookup sid with
  | none =>
    rw [registry_rooms_none hr]
    exact ⟨rfl, rfl⟩
  | some r =>
    rw [registry_rooms hr]
    cases hi : sm.playerIndex.lookup p with
    | none =>
      have hseat : sm.registry.seat p = none := hi
      simp only [hseat, reduceCtorEq, if_false, unseat_of_none hseat]
      exact matches_admitPlayer hc hr hi login
    | some existing =>
      have hseat : sm.registry.seat p = some existing := hi
      simp only [hseat, Option.some.injEq]
      by_cases hs : existing = sid
      · rw [if_pos hs, if_pos hs]
        exact ⟨rfl, registry_congr rfl rfl fun _ r' _ =>
          maxPlayers_modifySession r (f := (·.resetPlayerTransport p)) (fun _ => rfl) r'⟩
      · rw [if_neg hs, if_neg hs]
        -- the old seat is given up first, whatever the new room says
        obtain ⟨old, hold, hp⟩ := (hc.index_iff p existing).mp hi
        have hne : r ≠ old := fun he => hs (hc.ref_inj hold (he ▸ hr))
        have hgone : (sm.dropPlayer old p).playerIndex.lookup p = none := by
          rw [dropPlayer_playerIndex, Table.lookup_erase_eq_ite, if_pos rfl]
        have hr' : (sm.dropPlayer old p).sessions.lookup sid = some r := hr
        have henter := matches_admitPlayer (hc.dropPlayer hold hp) hr' hgone login
        rw [registry_dropPlayer, dropPlayer_session_ne _ _ _ hne] at henter
        rw [detachPlayer_eq p hold]
        exact henter

theorem matches_removePlayerFromSession (hc : Consistent sm) (sid : SessionID) (p : PlayerID) :
    Matches (sm.removePlayerFromSession sid p) (sm.registry.leave sid p) := by
  unfold removePlayerFromSession Registry.leave
  rw [isSome_rooms]
  cases h : sm.sessions.lookup sid with
  | none => exact ⟨rfl, rfl⟩
  | some r =>
    have hmem : p ∈ (sm.session r).players ↔ sm.registry.seat p = some sid := hc.mem_iff h p
    simp only [Option.isSome_some, if_true, Session.removePlayer_fst]
    by_cases hp : p ∈ (sm.session r).players
    · simp only [hp, decide_true, if_true, if_pos (hmem.mp hp)]
      exact ⟨rfl, registry_dropPlayer r p⟩
    · simp only [hp, decide_false, Bool.false_eq_true, if_false, if_neg (mt hmem.mpr hp),
        modifySession_removePlayer_of_notMem hp]
      exact ⟨rfl, rfl⟩

theorem matches_call (hc : Consistent sm) (c : Call) : Matches (sm.call c) (sm.registry.call c) := by
  cases c with
  | createSession id maxPlayers now => exact matches_createSession hc id maxPlayers now
  | deleteSession id => exact matches_deleteSession hc id
  | addPlayerToSession sid p login => exact matches_addPlayerToSession hc sid p login
  | removePlayerFromSession sid p => exact matches_removePlayerFromSession hc sid p

end Calls

/-! ## Packets, the reaper and runs -/

section Steps
variable {sm : SessionManager}

theorem SameTables.registry {sm' : SessionManager} (h : SameTables sm sm') :
    sm'.registry = sm.registry := by
  refine registry_congr h.sessions h.playerIndex ?_
  intro _ r _
  show (sm'.heap.cell r).maxPlayers = (sm.heap.cell r).maxPlayers
  rw [h.heap]

theorem registry_updatePlayer (src : Endpoint) (r : SessionRef) (p : PlayerID) (now : Instant) :
    (sm.updatePlayer src r p now).2.registry = sm.registry := by
  cases src with
  | udp addr =>
    exact registry_congr rfl rfl fun _ r' _ => maxPlayers_modifySession r
      (fun s => (Session.sameMembers_updatePlayerAddr p addr now s).maxPlayers) r'
  | tcp conn =>
    exact registry_congr rfl rfl fun _ r' _ => maxPlayers_modifySession r
      (fun s => (Session.sameMembers_updatePlayerTCP p conn now s).maxPlayers) r'

theorem registry_handlePacket {net : Network} {o : RangeOrder PlayerID} {src : Endpoint}
    {data : Bytes} {now : Instant} {h : Handled}
    (hok : sm.handlePacket net o src data now = .ok h) : h.sm.registry = sm.registry := by
  rcases handlePacket_tables hok with ⟨hs, -⟩ | ⟨r, -, hs, -⟩
  · exact hs.registry
  · rw [hs.registry, registry_updatePlayer]

theorem maxPlayers_reapStaleSessions (hc : Consistent sm) (o : ReapOrder) (clk : ReapClock)
    (r : SessionRef) :
    ((sm.reapStaleSessions o clk).sm.session r).maxPlayers = (sm.session r).maxPlayers := by
  have e := reapEffect_reapApply clk (distinct_reapCollect hc o clk) sm
  by_cases h : ∃ c ∈ reapCollect o clk sm, r = c.session
  · obtain ⟨c, hcm, rfl⟩ := h
    show ((reapApply clk (reapCollect o clk sm) sm).sm.session c.session).maxPlayers = _
    rw [e.session_mem c hcm]
  · have hother : ∀ c ∈ reapCollect o clk sm, r ≠ c.session := fun c hcm he => h ⟨c, hcm, he⟩
    exact congrArg Session.maxPlayers (e.session_other r hother)

/-- A pass leaves the rooms it does not close as they are, and closes none with a player in it. -/
theorem expires_reapStaleSessions (hc : Consistent sm) (o : ReapOrder) (clk : ReapClock) :
    Registry.Expires sm.registry (sm.reapStaleSessions o clk).sm.registry where
  rooms sid := by
    have hc' := hc.reapStaleSessions o clk
    have e := reapEffect_reapApply clk (distinct_reapCollect hc o clk) sm
    by_cases hid : sid ∈ emptiedIDs clk sm (reapCollect o clk sm)
    · have hnone : (sm.reapStaleSessions o clk).sm.sessions.lookup sid = none := by
        show (reapApply clk (reapCollect o clk sm) sm).sm.sessions.lookup sid = none
        rw [e.sessions, Table.lookup_eraseAll, if_pos hid]
      refine Or.inr ⟨registry_rooms_none hnone, ?_⟩
      -- a seat in the room would have its session in the map
      intro p hp
      obtain ⟨r, hr, -⟩ := (hc'.index_iff p sid).mp hp
      rw [hnone] at hr
      cases hr
    · have hkeep : (sm.reapStaleSessions o clk).sm.sessions.lookup sid = sm.sessions.lookup sid := by
        show (reapApply clk (reapCollect o clk sm) sm).sm.sessions.lookup sid = _
        rw [e.sessions, Table.lookup_eraseAll, if_neg hid]
      left
      show ((sm.reapStaleSessions o clk).sm.sessions.lookup sid).map _ =
        (sm.sessions.lookup sid).map _
      simp only [hkeep, maxPlayers_reapStaleSessions hc]
  seat p := by
    show (sm.reapStaleSessions o clk).sm.playerIndex.lookup p = sm.playerIndex.lookup p ∨
      (sm.reapStaleSessions o clk).sm.playerIndex.lookup p = none
    rw [index_reapStaleSessions hc, Table.lookup_eraseAll]
    by_cases hp : p ∈ reapedAll clk sm (reapCollect o clk sm)
    · exact Or.inr (if_pos hp)
    · exact Or.inl (if_neg hp)

theorem step_relayStep (net : Network) {s : Relay} (hc : Consistent s.sm) (ev : RelayEvent) :
    Registry.Step s.sm.registry ev (relayStep net s ev).2 (relayStep net s ev).1.sm.registry := by
  unfold relayStep
  cases s.fault with
  | some f => exact .crashed _ ev f
  | none =>
    cases ev with
    | call c now =>
      obtain ⟨hres, hreg⟩ := matches_call hc c
      dsimp only
      rw [hres, hreg]
      exact .call _ c now
    | packet pkt =>
      dsimp only
      cases hok : s.sm.handlePacket net pkt.order pkt.src pkt.data pkt.now with
      | ok h =>
        dsimp only
        rw [registry_handlePacket hok]
        exact .packet _ pkt h.verdict h.sent h.closed
      | error f => exact .crashed _ _ f
    | reap o clk => exact .reap (expires_reapStaleSessions hc o clk) o clk _ _ _

/-- Whatever calls, packets and reaper passes a relay has seen, its answers and its tables are
those of a registry that started empty and took the same events. -/
theorem registry_run (net : Network) (events : List RelayEvent) :
    Registry.Run Registry.empty ((trace (relayStep net) Relay.start events).map (·.2))
      (runState (relayStep net) Relay.start events).sm.registry := by
  have hstep : ∀ (tr : List (Relay × RelayEvent × RelayReply)) (s : Relay) (ev : RelayEvent),
      Consistent s.sm ∧ Registry.Run Registry.empty (tr.map (·.2)) s.sm.registry →
      Consistent (relayStep net s ev).1.sm ∧
        Registry.Run Registry.empty ((tr ++ [(s, ev, (relayStep net s ev).2)]).map (·.2))
          (relayStep net s ev).1.sm.registry := by
    rintro tr s ev ⟨hc, hrun⟩
    refine ⟨consistent_relayStep hc ev, ?_⟩
    rw [List.map_append]
    exact .concat hrun (step_relayStep net hc ev)
  exact (run_invariant_trace (relayStep net) (s := Relay.start)
    (I := fun tr s => Consistent s.sm ∧ Registry.Run Registry.empty (tr.map (·.2)) s.sm.registry)
    ⟨consistent_new, .nil _⟩ hstep events).2

end Steps
end SessionManager
end SturmRelay
