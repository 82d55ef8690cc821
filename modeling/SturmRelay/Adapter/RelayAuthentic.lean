import SturmRelay.Adapter.RelayOrigins

/-! # Authenticity on the relay path

* `gameData_authentic`: what an adapter writes to its game on the socket of another adapter's player was
  read by that adapter from its own game, on the socket of a peer whose ID is that of the first
  adapter, and is unchanged. (The peer's ID may also be the one reserved for broadcasts.)
* `rtt_authentic`: what an adapter measures for the player of another adapter is the age of a ping that
  it sent itself, unless one of the two games has sent a packet that looks like an echo frame. -/

namespace SturmRelay
namespace Adapter
set_option autoImplicit false

open SessionManager

/-! ## Every run -/

namespace RelayNet
variable {ι : Type} {rs : Roster ι} {net : Network} {s : RelayNet ι}

/-- A packet written to a game is game data from where the socket says. -/
def Delivered (rs : Roster ι) (log : Journal ι) (m : ToGame ι) : Prop :=
  frameKind m.data = .gameData ∧ ∀ j, m.playerID = (rs.id j).toNat → Arrived rs log j m.adapter m.data

/-- A measurement was made with a pong from where the socket says. -/
def Measured (rs : Roster ι) (log : Journal ι) (m : Measurement ι) : Prop :=
  ∃ pong, frameKind pong = .pong ∧ echoTimestamp pong = m.sentNs ∧
    ∀ j, m.playerID = (rs.id j).toNat → Arrived rs log j m.adapter pong

structure Authentic (rs : Roster ι) (s : RelayNet ι) : Prop where
  consistent : Consistent s.server.sm
  endpoints : EndpointsAll rs.Owns s.server.sm
  adapters : ∀ i, AdapterSound rs s.journal i (s.adapters i)
  up : ∀ d ∈ s.toServer, Uplink rs s.journal d
  down : ∀ d ∈ s.toAdapters, ∀ i, d.1 = rs.addr i → Downlink rs s.journal i d.2
  toGame : ∀ m ∈ s.toGame, Delivered rs s.journal m
  measured : ∀ m ∈ s.measured, Measured rs s.journal m

theorem authentic_start (rs : Roster ι) : Authentic rs (start rs) where
  consistent := consistent_new
  endpoints := endpointsAll_start
  adapters _ := adapterSound_start
  up _ hd := absurd hd List.not_mem_nil
  down _ hd := absurd hd List.not_mem_nil
  toGame _ hm := absurd hm List.not_mem_nil
  measured _ hm := absurd hm List.not_mem_nil

/-- A longer journal explains whatever a shorter one does. -/
theorem Authentic.extend (h : Authentic rs s) {log : Journal ι} (hl : log.Extends s.journal) :
    Authentic rs { s with journal := log } where
  consistent := h.consistent
  endpoints := h.endpoints
  adapters i := (h.adapters i).extend hl
  up d hd := (h.up d hd).extend hl
  down d hd i hi := (h.down d hd i hi).extend hl
  toGame m hm := ⟨(h.toGame m hm).1, fun j hj => ((h.toGame m hm).2 j hj).extend hl⟩
  measured m hm := by
    obtain ⟨pong, hkind, hts, hcome⟩ := h.measured m hm
    exact ⟨pong, hkind, hts, fun j hj => (hcome j hj).extend hl⟩

theorem Authentic.record (h : Authentic rs s) {i : ι} {p : RelayPeer} {t : PeerTask}
    (hf : Faithful rs (s.journal.note i p t) i p (p.perform t)) :
    Authentic rs (s.record i p t) ∧ (s.record i p t).journal = s.journal.note i p t := by
  have hext : (s.journal.note i p t).Extends s.journal := extends_note i p t
  have hx := h.extend hext
  unfold RelayNet.record
  dsimp only
  split
  · next addr data he =>
    refine ⟨{ hx with toGame := fun m hm => ?_ }, rfl⟩
    rcases List.mem_append.mp hm with hm | hm
    · exact hx.toGame m hm
    · cases List.mem_singleton.mp hm
      exact hf.writes addr data he
  · next sentNs nowNs he =>
    refine ⟨{ hx with measured := fun m hm => ?_ }, rfl⟩
    rcases List.mem_append.mp hm with hm | hm
    · exact hx.measured m hm
    · cases List.mem_singleton.mp hm
      exact hf.measures sentNs nowNs he
  · exact ⟨hx, rfl⟩

theorem Authentic.serverStep (h : Authentic rs s) (ev : RelayEvent)
    (hin : ∀ pkt, ev = .packet pkt → Ingress rs s.journal pkt) : Authentic rs (s.serverStep net ev) := by
  refine { h with
    consistent := consistent_relayStep h.consistent ev
    endpoints := endpointsAll_relayStep h.endpoints h.consistent ev fun pkt hev _ => (hin pkt hev).owns
    down := fun d hd i hi => ?_ }
  rcases List.mem_append.mp hd with hd | hd
  · exact h.down d hd i hi
  · obtain ⟨copy, hcopy, hdgram⟩ := List.mem_filterMap.mp hd
    -- only a packet that was handled leaves copies
    cases ev with
    | call c now =>
      unfold relayStep at hcopy
      split at hcopy <;> exact absurd hcopy List.not_mem_nil
    | reap o clk =>
      unfold relayStep at hcopy
      split at hcopy <;> exact absurd hcopy List.not_mem_nil
    | packet pkt =>
      unfold relayStep at hcopy
      split at hcopy
      · exact absurd hcopy List.not_mem_nil
      · dsimp only at hcopy
        split at hcopy
        · next hd hok =>
          split at hdgram
          · next addr he =>
            cases hdgram
            cases hi
            exact downlink_copy h.consistent h.endpoints (hin pkt rfl) hok hcopy he
          · cases hdgram
        · exact absurd hcopy List.not_mem_nil

variable [DecidableEq ι]

theorem Authentic.setAdapter (h : Authentic rs s) {i : ι} {a : RelayAdapter}
    (ha : AdapterSound rs s.journal i a) : Authentic rs (s.setAdapter i a) := by
  refine { h with adapters := fun j => ?_ }
  change AdapterSound rs s.journal j (Function.update s.adapters i a j)
  by_cases hj : j = i
  · subst hj
    rw [Function.update_self]
    exact ha
  · rw [Function.update_of_ne hj]
    exact h.adapters j

theorem Authentic.sends (h : Authentic rs s) {i : ι} {out : RelayAdapter × Option Bytes}
    (hout : Sends rs s.journal i out) :
    Authentic rs { s.setAdapter i out.1 with toServer := s.toServer ++ out.2.toList.map (rs.addr i, ·) } := by
  refine { h.setAdapter hout.sound with up := fun d hd => ?_ }
  rcases List.mem_append.mp hd with hd | hd
  · exact h.up d hd
  · obtain ⟨bytes, hb, rfl⟩ := List.mem_map.mp hd
    exact hout.uplink bytes (Option.mem_toList.mp hb)

theorem Authentic.adapterStep (h : Authentic rs s) (i : ι) (ev : AdapterTask) :
    Authentic rs (s.adapterStep rs i ev) := by
  have ha := h.adapters i
  unfold RelayNet.adapterStep
  cases ev with
  | addPeer playerID => exact h.sends (sends_nothing (ha.addPeer playerID))
  | removePeer playerID => exact h.sends (sends_nothing (ha.removePeer playerID))
  | hello => exact h.sends ha.sendHello
  | task r t =>
    simp only [RelayAdapter.step, observe]
    split
    · next hr =>
      obtain ⟨hrec, hlog⟩ := h.record ((ha.peers r hr).perform t)
      have hout := ha.runTask hr t
      rw [← hlog] at hout
      exact hrec.sends hout
    · exact h.sends (sends_nothing ha)

theorem Authentic.deliver (h : Authentic rs s) (i : ι) (src : AddrPort) {datagram : Bytes}
    (hdown : src.addr = rs.serverAddr.addr → Downlink rs s.journal i datagram) :
    Authentic rs (s.deliver i src datagram) :=
  h.setAdapter ((h.adapters i).receive src hdown)

theorem Authentic.step (h : Authentic rs s) {ev : PathEvent ι} (hev : rs.Honest ev) :
    Authentic rs (s.step rs net ev).1 := by
  cases ev with
  | adapter i ev => exact h.adapterStep i ev
  | serverReads k now o =>
    simp only [RelayNet.step]
    split
    · next d hd =>
      refine h.serverStep _ fun pkt he => ?_
      cases he
      exact (h.up d (List.mem_of_getElem? hd)).ingress now o
    · exact h
  | stranger pkt =>
    refine h.serverStep _ fun pkt' he => ?_
    cases he
    exact .stranger hev.1 hev.2
  | call c now => exact h.serverStep _ fun pkt he => by cases he
  | reap o clk => exact h.serverStep _ fun pkt he => by cases he
  | adapterReads i k =>
    simp only [RelayNet.step]
    split
    · next d hd =>
      dsimp only
      split
      · next hi => exact h.deliver i rs.serverAddr fun _ => h.down d (List.mem_of_getElem? hd) i hi
      · exact h
    · exact h
  | foreign i src datagram => exact h.deliver i src fun he => absurd he hev

theorem authentic_runState (rs : Roster ι) (net : Network) {events : List (PathEvent ι)}
    (hev : ∀ ev ∈ events, rs.Honest ev) : Authentic rs (runState (step rs net) (start rs) events) :=
  allSteps_invariant_trace (I := fun _ s => Authentic rs s) (C := fun _ ev _ => rs.Honest ev)
    (authentic_start rs) (fun _ _ _ h he => h.step he)
    fun x hx => hev x.2.1 (mem_of_mem_trace _ hx)

/-- What an adapter writes to its game on the socket of another adapter's player, the game of that
adapter has sent to it. -/
theorem gameData_authentic (rs : Roster ι) (net : Network) {events : List (PathEvent ι)}
    (hev : ∀ ev ∈ events, rs.Honest ev) {m : ToGame ι}
    (hm : m ∈ (runState (step rs net) (start rs) events).toGame) {j : ι}
    (hj : m.playerID = (rs.id j).toNat) :
    ∃ destID, (destID = rs.id m.adapter ∨ destID = broadcastDest) ∧
      ⟨j, destID, m.data⟩ ∈ (runState (step rs net) (start rs) events).journal.fromGame := by
  obtain ⟨hkind, hcome⟩ := (authentic_runState rs net hev).toGame m hm
  obtain ⟨destID, hfor, hput⟩ := hcome j hj
  exact ⟨destID, hfor, hput.fromGame hkind⟩

/-! ### Two players -/

/-- A host with ID 1 and a guest with ID 2. -/
def duo : Roster Bool where
  id guest := if guest then 2 else 1
  addr guest := ⟨.v4 (if guest then 0x0A000002 else 0x0A000001), 4000⟩
  serverAddr := ⟨.v4 0x0A0000FF, 3479⟩
  id_injective := by decide
  addr_injective := by decide
  id_ne_broadcast := by decide

def gamePort : AddrPort := ⟨.v4 0x7F000001, 6112⟩

/-- Both join a session, say hello, and add each other as peers; the guest's game sends a packet. -/
def meeting : List (PathEvent Bool) :=
  [.call (.createSession "s" 2 0) 0, .call (.addPlayerToSession "s" 1 "host") 0,
    .call (.addPlayerToSession "s" 2 "guest") 0, .adapter false .hello, .adapter true .hello,
    .serverReads 0 0 .listed, .serverReads 1 0 .listed, .adapter false (.addPeer 2),
    .adapter true (.addPeer 1), .adapter true (.task 0 (.gamePacket gamePort [0]))]

/-- The host's game sends two bytes to the guest. -/
def greeting : List (PathEvent Bool) :=
  meeting ++ [.adapter false (.task 0 (.gamePacket gamePort [7, 8])), .adapter false (.task 0 .forward),
    .serverReads 2 0 .listed, .adapterReads true 2, .adapter true (.task 0 .take),
    .adapter true (.task 0 (.handle 0))]

theorem greeting_authentic : ∃ destID, (destID = duo.id true ∨ destID = broadcastDest) ∧
    ⟨false, destID, [7, 8]⟩ ∈ (runState (step duo .reliable) (start duo) greeting).journal.fromGame :=
  gameData_authentic duo .reliable (by simp [greeting, meeting, Roster.Honest])
    (m := ⟨true, 1, [7, 8]⟩) (by decide +kernel) (j := false) rfl

/-! ## Round-trip times -/

/-- The round-trip time a peer stores comes from a measurement, made when one of the `events` had the
peer handle a packet. -/
def RttFrom (events : List (PathEvent ι)) (measured : List (Measurement ι)) (i : ι) (r : PeerPtr)
    (p : RelayPeer) : Prop :=
  p.rttMs = 0 ∨ ∃ m ∈ measured, m.adapter = i ∧ m.playerID = p.playerID ∧
    .adapter i (.task r (.handle m.nowNs)) ∈ events ∧ 0 < GameLink.int64 (m.nowNs - m.sentNs) ∧
    p.rttMs = GameLink.int64 (m.nowNs - m.sentNs) / 1000000

def RttsMeasured (events : List (PathEvent ι)) (s : RelayNet ι) : Prop :=
  ∀ i r, RttFrom events s.measured i r ((s.adapters i).heap.cell r)

section Measured
variable {events : List (PathEvent ι)}

omit [DecidableEq ι] in
theorem RttFrom.subset {l l' : List (Measurement ι)} {i : ι} {r : PeerPtr} {p p' : RelayPeer}
    (h : RttFrom events l i r p) (hl : l ⊆ l') (hrtt : p'.rttMs = p.rttMs)
    (hid : p'.playerID = p.playerID) : RttFrom events l' i r p' := by
  unfold RttFrom
  rw [hrtt, hid]
  rcases h with hzero | ⟨m, hm, hrest⟩
  · exact Or.inl hzero
  · exact Or.inr ⟨m, hl hm, hrest⟩

omit [DecidableEq ι] in
/-- A step of a peer stores nothing, or what it reports. -/
theorem perform_rtt (p : RelayPeer) (t : PeerTask) : (p.perform t).1.playerID = p.playerID ∧
    ((p.perform t).1.rttMs = p.rttMs ∨ ∃ sentNs nowNs, t = .handle nowNs ∧
      (p.perform t).2 = .measured sentNs nowNs ∧ 0 < GameLink.int64 (nowNs - sentNs) ∧
      (p.perform t).1.rttMs = GameLink.int64 (nowNs - sentNs) / 1000000) := by
  cases t with
  | gamePacket remoteAddr datagram =>
    simp only [RelayPeer.perform, RelayPeer.gamePacket]
    split <;> exact ⟨rfl, Or.inl rfl⟩
  | forward =>
    simp only [RelayPeer.perform, RelayPeer.forward]
    split <;> exact ⟨rfl, Or.inl rfl⟩
  | take =>
    simp only [RelayPeer.perform, RelayPeer.take]
    split <;> exact ⟨rfl, Or.inl rfl⟩
  | ping nowNs => exact ⟨rfl, Or.inl rfl⟩
  | handle nowNs =>
    simp only [RelayPeer.perform, RelayPeer.handle]
    split
    · exact ⟨rfl, Or.inl rfl⟩
    · split
      · exact ⟨rfl, Or.inl rfl⟩
      · split
        · next hpos => exact ⟨rfl, Or.inr ⟨_, _, rfl, rfl, hpos, rfl⟩⟩
        · exact ⟨rfl, Or.inl rfl⟩
      · split <;> exact ⟨rfl, Or.inl rfl⟩

omit [DecidableEq ι] in
theorem send_heap (destID : UInt32) (payload : Bytes) (a : RelayAdapter) :
    (a.send destID payload).1.heap = a.heap := by
  unfold RelayAdapter.send
  split <;> rfl

omit [DecidableEq ι] in
theorem sendHello_heap (a : RelayAdapter) : a.sendHello.1.heap = a.heap := by
  unfold RelayAdapter.sendHello
  split <;> rfl

omit [DecidableEq ι] in
theorem runTask_heap (r : PeerPtr) (t : PeerTask) (a : RelayAdapter) :
    (a.runTask r t).1.heap = a.heap.modify r fun _ => ((a.heap.cell r).perform t).1 := by
  unfold RelayAdapter.runTask
  dsimp only
  split
  · exact send_heap _ _ _
  · rfl

omit [DecidableEq ι] in
theorem receive_cell (src : AddrPort) (datagram : Bytes) (a : RelayAdapter) (r : PeerPtr) :
    ((a.receive src datagram).heap.cell r).rttMs = (a.heap.cell r).rttMs ∧
      ((a.receive src datagram).heap.cell r).playerID = (a.heap.cell r).playerID := by
  unfold RelayAdapter.receive
  split
  · split
    · next r' _ =>
      change ((a.heap.modify r' _).cell r).rttMs = _ ∧ ((a.heap.modify r' _).cell r).playerID = _
      by_cases he : r = r'
      · subst he
        rw [Heap.modify_cell_self]
        exact ⟨rfl, rfl⟩
      · rw [Heap.modify_cell_ne _ _ he]
        exact ⟨rfl, rfl⟩
    · exact ⟨rfl, rfl⟩
  · exact ⟨rfl, rfl⟩

omit [DecidableEq ι] in
/-- The observer writes a measurement down. -/
theorem record_measured (i : ι) (p : RelayPeer) (t : PeerTask) (s : RelayNet ι) :
    s.measured ⊆ (s.record i p t).measured ∧ ∀ sentNs nowNs, (p.perform t).2 = .measured sentNs nowNs →
      ⟨i, p.playerID, sentNs, nowNs⟩ ∈ (s.record i p t).measured := by
  unfold record
  dsimp only
  split
  · next he =>
    refine ⟨fun _ h => h, fun sentNs nowNs he' => ?_⟩
    rw [he] at he'
    cases he'
  · next sentNs nowNs he =>
    refine ⟨List.subset_append_left _ _, fun sentNs' nowNs' he' => ?_⟩
    rw [he] at he'
    obtain ⟨rfl, rfl⟩ := PeerReply.measured.inj he'
    exact List.mem_append_right _ (List.mem_singleton.mpr rfl)
  · next hno => exact ⟨fun _ h => h, fun sentNs nowNs he => absurd he (hno sentNs nowNs)⟩

omit [DecidableEq ι] in
theorem record_adapters (i : ι) (p : RelayPeer) (t : PeerTask) (s : RelayNet ι) :
    (s.record i p t).adapters = s.adapters := by
  unfold record
  dsimp only
  split <;> rfl

/-- An adapter is replaced by one whose peers store what they stored, or what was measured. -/
theorem RttsMeasured.setAdapter (h : RttsMeasured events s) {i : ι} {a : RelayAdapter}
    (ha : ∀ r, RttFrom events s.measured i r (a.heap.cell r)) : RttsMeasured events (s.setAdapter i a) := by
  intro j r
  change RttFrom events s.measured j r ((Function.update s.adapters i a j).heap.cell r)
  by_cases hj : j = i
  · subst hj
    rw [Function.update_self]
    exact ha r
  · rw [Function.update_of_ne hj]
    exact h j r

theorem RttsMeasured.task (h : RttsMeasured events s) (i : ι) (r : PeerPtr) (t : PeerTask)
    (hev : .adapter i (.task r t) ∈ events) :
    RttsMeasured events ((s.record i ((s.adapters i).heap.cell r) t).setAdapter i ((s.adapters i).runTask r t).1) := by
  obtain ⟨hsub, hnew⟩ := record_measured i ((s.adapters i).heap.cell r) t s
  have hrec : RttsMeasured events (s.record i ((s.adapters i).heap.cell r) t) := by
    intro j r'
    rw [record_adapters]
    exact (h j r').subset hsub rfl rfl
  refine hrec.setAdapter fun r' => ?_
  rw [runTask_heap]
  by_cases he : r' = r
  · subst he
    rw [Heap.modify_cell_self]
    obtain ⟨hid, hrtt | ⟨sentNs, nowNs, ht, hout, hpos, hrtt⟩⟩ := perform_rtt ((s.adapters i).heap.cell r') t
    · exact (h i r').subset hsub hrtt hid
    · exact Or.inr ⟨_, hnew sentNs nowNs hout, rfl, hid.symm, ht ▸ hev, hpos, hrtt⟩
  · rw [Heap.modify_cell_ne _ _ he]
    exact (h i r').subset hsub rfl rfl

theorem RttsMeasured.adapterStep (h : RttsMeasured events s) (i : ι) (ev : AdapterTask)
    (hev : .adapter i ev ∈ events) : RttsMeasured events (s.adapterStep rs i ev) := by
  unfold RelayNet.adapterStep
  cases ev with
  | addPeer playerID =>
    refine h.setAdapter fun r => ?_
    change RttFrom events s.measured i r (((s.adapters i).addPeer playerID).heap.cell r)
    unfold RelayAdapter.addPeer
    split
    · exact h i r
    · change RttFrom events s.measured i r
        (Function.update (s.adapters i).heap.cell (s.adapters i).heap.next { playerID := playerID } r)
      by_cases he : r = (s.adapters i).heap.next
      · subst he
        rw [Function.update_self]
        exact Or.inl rfl
      · rw [Function.update_of_ne he]
        exact h i r
  | removePeer playerID => exact h.setAdapter fun r => h i r
  | hello =>
    refine h.setAdapter fun r => ?_
    change RttFrom events s.measured i r ((s.adapters i).sendHello.1.heap.cell r)
    rw [sendHello_heap]
    exact h i r
  | task r t =>
    simp only [RelayAdapter.step, observe]
    split
    · exact h.task i r t hev
    · exact h.setAdapter fun r => h i r

theorem RttsMeasured.deliver (h : RttsMeasured events s) (i : ι) (src : AddrPort) (datagram : Bytes) :
    RttsMeasured events (s.deliver i src datagram) :=
  h.setAdapter fun r =>
    (h i r).subset (fun _ hm => hm) (receive_cell src datagram _ r).1 (receive_cell src datagram _ r).2

theorem RttsMeasured.step (h : RttsMeasured events s) {ev : PathEvent ι} (hev : ev ∈ events) :
    RttsMeasured events (s.step rs net ev).1 := by
  cases ev with
  | adapter i ev => exact h.adapterStep i ev hev
  | serverReads k now o =>
    simp only [RelayNet.step]
    split <;> exact h
  | stranger pkt => exact h
  | call c now => exact h
  | reap o clk => exact h
  | adapterReads i k =>
    simp only [RelayNet.step]
    split
    · dsimp only
      split
      · exact h.deliver i _ _
      · exact h
    · exact h
  | foreign i src datagram => exact h.deliver i src datagram

end Measured

/-- What a peer for another adapter's player stores as its round-trip time is the age that a ping of
this adapter to that player had when the peer handled a packet, unless a game has sent a packet with
the shape of an echo frame. -/
theorem rtt_authentic (rs : Roster ι) (net : Network) {events : List (PathEvent ι)}
    (hev : ∀ ev ∈ events, rs.Honest ev) {i j : ι} {r : PeerPtr} {p : RelayPeer}
    (hp : ((runState (step rs net) (start rs) events).adapters i).heap.cell r = p)
    (hj : p.playerID = (rs.id j).toNat) (hrtt : p.rttMs ≠ 0) :
    ∃ sentNs nowNs destID, .adapter i (.task r (.handle nowNs)) ∈ events ∧
      0 < GameLink.int64 (nowNs - sentNs) ∧ p.rttMs = GameLink.int64 (nowNs - sentNs) / 1000000 ∧
      ((destID = rs.id j ∨ destID = broadcastDest) ∧ (∃ builtNs, sentNs = GameLink.int64 builtNs ∧
          ⟨i, destID, builtNs⟩ ∈ (runState (step rs net) (start rs) events).journal.pings) ∨
        ∃ k data, (k = i ∨ k = j) ∧ frameKind data ≠ .gameData ∧ echoTimestamp data = sentNs ∧
          ⟨k, destID, data⟩ ∈ (runState (step rs net) (start rs) events).journal.fromGame) := by
  have hmeasured : RttsMeasured events (runState (RelayNet.step rs net) (start rs) events) :=
    allSteps_invariant_trace (I := fun _ s => RttsMeasured events s) (C := fun _ ev _ => ev ∈ events)
      (fun _ _ => Or.inl rfl) (fun _ _ _ h he => h.step he) fun _ hx => mem_of_mem_trace _ hx
  have hfrom := hmeasured i r
  rw [hp] at hfrom
  obtain ⟨m, hm, rfl, hid, hnow, hpos, hval⟩ := hfrom.resolve_left hrtt
  obtain ⟨pong, hkind, hts, hcome⟩ := (authentic_runState rs net hev).measured m hm
  obtain ⟨d, hfor, hput⟩ := hcome j (hid.trans hj)
  have hecho : ∀ data, frameKind data = .ping ∨ frameKind data = .pong → frameKind data ≠ .gameData := by
    rintro data (h | h) <;> rw [h] <;> decide
  cases hput with
  | made hmade =>
    rcases hmade with hgame | ⟨builtNs, rfl, -⟩
    · exact ⟨m.sentNs, m.nowNs, d, hnow, hpos, hval, Or.inr ⟨j, pong, Or.inr rfl, hecho pong (Or.inr hkind), hts, hgame⟩⟩
    · rw [frameKind_pingFrame] at hkind
      cases hkind
  | answer ping hping hpong hdest horigin =>
    -- the pong was for us, so the ping was ours
    obtain ⟨d', hfor', hmade⟩ := horigin m.adapter (hfor.resolve_right hdest)
    rw [hpong, echoTimestamp_pongFrame] at hts
    refine ⟨m.sentNs, m.nowNs, d', hnow, hpos, hval, ?_⟩
    rcases hmade with hgame | ⟨builtNs, rfl, hsent⟩
    · exact Or.inr ⟨m.adapter, ping, Or.inl rfl, hecho ping (Or.inl hping), hts, hgame⟩
    · rw [echoTimestamp_pingFrame] at hts
      exact Or.inl ⟨hfor', builtNs, hts.symm, hsent⟩

/-- The host pings the guest, and the pong is there after five milliseconds. -/
def pingPong : List (PathEvent Bool) :=
  meeting ++ [.adapter false (.task 0 (.ping 1000)), .serverReads 2 0 .listed, .adapterReads true 2,
    .adapter true (.task 0 .take), .adapter true (.task 0 (.handle 0)), .serverReads 3 0 .listed,
    .adapterReads false 3, .adapter false (.task 0 .take), .adapter false (.task 0 (.handle 5001000))]

theorem pingPong_rtt_authentic :
    (((runState (step duo .reliable) (start duo) pingPong).adapters false).heap.cell 0).rttMs = 5 ∧
    ∃ sentNs nowNs destID, .adapter false (.task (0 : ℕ) (.handle nowNs)) ∈ pingPong ∧
      0 < GameLink.int64 (nowNs - sentNs) ∧
      (((runState (step duo .reliable) (start duo) pingPong).adapters false).heap.cell 0).rttMs =
        GameLink.int64 (nowNs - sentNs) / 1000000 ∧
      ((destID = duo.id true ∨ destID = broadcastDest) ∧ (∃ builtNs, sentNs = GameLink.int64 builtNs ∧
          ⟨false, destID, builtNs⟩ ∈ (runState (step duo .reliable) (start duo) pingPong).journal.pings) ∨
        ∃ k data, (k = false ∨ k = true) ∧ frameKind data ≠ .gameData ∧ echoTimestamp data = sentNs ∧
          ⟨k, destID, data⟩ ∈ (runState (step duo .reliable) (start duo) pingPong).journal.fromGame) := by
  have hrtt : (((runState (step duo .reliable) (start duo) pingPong).adapters false).heap.cell 0).rttMs = 5 := by
    decide +kernel
  have hid : (((runState (step duo .reliable) (start duo) pingPong).adapters false).heap.cell 0).playerID =
      (duo.id true).toNat := by
    decide +kernel
  have hev : ∀ ev ∈ pingPong, duo.Honest ev := by simp [pingPong, meeting, Roster.Honest]
  -- the peer gets a name, so that nothing evaluates the run again
  generalize hp : ((runState (step duo .reliable) (start duo) pingPong).adapters false).heap.cell 0 = p
    at hrtt hid ⊢
  have hne : p.rttMs ≠ 0 := by
    rw [hrtt]
    decide
  exact ⟨hrtt, rtt_authentic duo .reliable hev hp hid hne⟩

end RelayNet

end Adapter
end SturmRelay
