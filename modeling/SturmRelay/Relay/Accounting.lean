import SturmRelay.Relay.Egress

/-! # What the packet counters count

`internal/relay/metrics.go` has five counters for packets, and the two ingress loops add to them one
write at a time. `tally` says what one packet adds, from what can be seen of it: its header, the
verdict, the copies that were written, and for how many players it was meant. `accounts_runState`:
in every state of the server the counters are the sums of these over all packets so far, modulo 2^64 as
the counters are `uint64`, so that

* a packet that is rejected, or whose sender is in no session, counts once, under the reason;
* every player a packet is meant for counts once, as routed or as dropped, and the bytes are those of
  the routed copies; a packet to one player is meant for one, also if there is no such player;
* an echo counts as one routed packet without bytes, over UDP also if it could not be written, over
  TCP only if it was;
* nothing else changes the counters. -/

namespace SturmRelay
namespace SessionManager
set_option autoImplicit false

structure Tally where
  routed : ℕ := 0
  dropped : ℕ := 0
  spoofed : ℕ := 0
  rateLimited : ℕ := 0
  bytes : ℕ := 0
  deriving DecidableEq, Repr

/-- The counters of `sm'` are those of `sm` with the tally added. -/
structure Adds (t : Tally) (sm sm' : SessionManager) : Prop where
  routed : sm'.metrics.packetsRouted = sm.metrics.packetsRouted + .ofNat t.routed
  dropped : sm'.metrics.packetsDropped = sm.metrics.packetsDropped + .ofNat t.dropped
  spoofed : sm'.metrics.packetsSpoofed = sm.metrics.packetsSpoofed + .ofNat t.spoofed
  rateLimited : sm'.metrics.packetsRateLimited = sm.metrics.packetsRateLimited + .ofNat t.rateLimited
  bytes : sm'.metrics.bytesRouted = sm.metrics.bytesRouted + .ofNat t.bytes

/-- The packet counters are left alone. -/
structure SameCounters (sm sm' : SessionManager) : Prop where
  routed : sm'.metrics.packetsRouted = sm.metrics.packetsRouted
  dropped : sm'.metrics.packetsDropped = sm.metrics.packetsDropped
  spoofed : sm'.metrics.packetsSpoofed = sm.metrics.packetsSpoofed
  rateLimited : sm'.metrics.packetsRateLimited = sm.metrics.packetsRateLimited
  bytes : sm'.metrics.bytesRouted = sm.metrics.bytesRouted

theorem add_ofNat_zero (n : UInt64) : n + .ofNat 0 = n := UInt64.add_zero n

theorem add_ofNat_add (n : UInt64) (a b : ℕ) : n + .ofNat a + .ofNat b = n + .ofNat (a + b) := by
  rw [UInt64.ofNat_add, UInt64.add_assoc]

theorem SameCounters.adds {sm sm' : SessionManager} (h : SameCounters sm sm') : Adds {} sm sm' where
  routed := h.routed.trans (add_ofNat_zero _).symm
  dropped := h.dropped.trans (add_ofNat_zero _).symm
  spoofed := h.spoofed.trans (add_ofNat_zero _).symm
  rateLimited := h.rateLimited.trans (add_ofNat_zero _).symm
  bytes := h.bytes.trans (add_ofNat_zero _).symm

theorem SameCounters.trans {sm sm' sm'' : SessionManager} (h : SameCounters sm sm')
    (h' : SameCounters sm' sm'') : SameCounters sm sm'' where
  routed := h'.routed.trans h.routed
  dropped := h'.dropped.trans h.dropped
  spoofed := h'.spoofed.trans h.spoofed
  rateLimited := h'.rateLimited.trans h.rateLimited
  bytes := h'.bytes.trans h.bytes

/-! ## Sending -/

section Sending
variable {net : Network} {data : Bytes} {sm sm' : SessionManager} {sent : List Sent}

/-- For `n` targets, those that got a copy are routed and the others dropped. -/
structure Serves (data : Bytes) (n : ℕ) (sent : List Sent) (sm sm' : SessionManager) : Prop where
  le : sent.length ≤ n
  adds : Adds { routed := sent.length, dropped := n - sent.length, bytes := sent.length * data.length } sm sm'

theorem adds_zero (sm : SessionManager) : Adds {} sm sm := SameCounters.adds ⟨rfl, rfl, rfl, rfl, rfl⟩

theorem adds_countDropped (sm : SessionManager) : Adds { dropped := 1 } sm sm.countDropped :=
  { adds_zero sm with dropped := rfl }

theorem adds_countEchoed (sm : SessionManager) : Adds { routed := 1 } sm sm.countEchoed :=
  { adds_zero sm with routed := rfl }

theorem adds_countRouted (n : ℕ) (sm : SessionManager) :
    Adds { routed := 1, bytes := n } sm (sm.countRouted n) :=
  { adds_zero sm with routed := rfl, bytes := rfl }

theorem serves_dropped (data : Bytes) (sm : SessionManager) : Serves data 1 [] sm sm.countDropped := by
  refine ⟨Nat.zero_le 1, ?_⟩
  change Adds { routed := 0, dropped := 1, bytes := 0 * data.length } sm sm.countDropped
  rw [Nat.zero_mul]
  exact adds_countDropped sm

theorem serves_deliver {t : PlayerSendTarget} (h : deliver net data t sm = .ok (sm', sent)) :
    Serves data 1 sent sm sm' := by
  unfold deliver at h
  cases hsend : sendToTarget net t data with
  | error f =>
    rw [hsend] at h
    cases h
  | ok copy =>
    rw [hsend] at h
    cases copy with
    | none =>
      cases h
      exact serves_dropped data sm
    | some copy =>
      cases h
      refine ⟨Nat.le_refl 1, ?_⟩
      change Adds { routed := 1, dropped := 0, bytes := 1 * data.length } sm (sm.countRouted data.length)
      rw [Nat.one_mul]
      exact adds_countRouted data.length sm

theorem Serves.append {n n' : ℕ} {sent' : List Sent} {sm'' : SessionManager}
    (h : Serves data n sent sm sm') (h' : Serves data n' sent' sm' sm'') :
    Serves data (n + n') (sent ++ sent') sm sm'' := by
  have hle := h.le
  have hle' := h'.le
  refine ⟨?_, ?_, ?_, ?_, ?_, ?_⟩
  · rw [List.length_append]
    omega
  · rw [h'.adds.routed, h.adds.routed, List.length_append, add_ofNat_add]
  · have hdropped : n - sent.length + (n' - sent'.length) = n + n' - (sent.length + sent'.length) := by omega
    rw [h'.adds.dropped, h.adds.dropped, List.length_append, add_ofNat_add, hdropped]
  · rw [h'.adds.spoofed, h.adds.spoofed, add_ofNat_add]
    rfl
  · rw [h'.adds.rateLimited, h.adds.rateLimited, add_ofNat_add]
    rfl
  · rw [h'.adds.bytes, h.adds.bytes, List.length_append, Nat.add_mul, add_ofNat_add]

theorem serves_deliverAll {ts : List PlayerSendTarget} (h : deliverAll net data ts sm = .ok (sm', sent)) :
    Serves data ts.length sent sm sm' := by
  induction ts generalizing sm sm' sent with
  | nil =>
    cases h
    refine ⟨Nat.le_refl 0, ?_⟩
    change Adds { routed := 0, dropped := 0, bytes := 0 * data.length } sm sm
    rw [Nat.zero_mul]
    exact adds_zero sm
  | cons t ts ih =>
    unfold deliverAll at h
    cases hfirst : deliver net data t sm with
    | error f =>
      rw [hfirst] at h
      cases h
    | ok first =>
      cases hrest : deliverAll net data ts first.1 with
      | error f =>
        simp only [hfirst, bind, Except.bind, hrest] at h
        cases h
      | ok rest =>
        simp only [hfirst, bind, Except.bind, hrest, pure, Except.pure] at h
        cases h
        rw [List.length_cons, Nat.add_comm]
        exact (serves_deliver hfirst).append (ih hrest)

/-- A packet that is no echo is meant for all targets of a broadcast, or for one player. -/
theorem serves_route {o : RangeOrder PlayerID} {r : SessionRef} {senderID destID : PlayerID}
    (h : sm.route net o r senderID destID data = .ok (sm', sent)) :
    Serves data (if destID = broadcastDest then
      ((sm.session r).forEachOtherPlayerTarget o senderID).length else 1) sent sm sm' := by
  unfold route at h
  split at h
  · next hb =>
    rw [if_pos hb]
    exact serves_deliverAll h
  · next hb =>
    rw [if_neg hb]
    unfold unicast at h
    split at h
    · cases h
      exact serves_dropped data sm
    · exact serves_deliver h

end Sending

/-! ## One packet -/

/-- For how many players a packet that is no echo is meant. -/
def addressees (sm : SessionManager) (data : Bytes) : ℕ :=
  if destOf data = broadcastDest then
    match sm.findSessionByPlayer (senderOf data) with
    | none => 0
    | some r => ((sm.session r).forEachOtherPlayerTarget .listed (senderOf data)).length
  else 1

/-- What a packet adds to the counters. -/
def tally (sm : SessionManager) (src : Endpoint) (data : Bytes) (sent : List Sent) :
    Option PacketVerdict → Tally
  | none => { dropped := 1 }
  | some .unknown => { dropped := 1 }
  | some .spoofed => { spoofed := 1 }
  | some .rateLimited => { rateLimited := 1 }
  | some _ =>
    if destOf data = senderOf data then
      match src with
      | .udp _ => { routed := 1 }
      | .tcp _ => { routed := sent.length }
    else
      { routed := sent.length, dropped := addressees sm data - sent.length,
        bytes := sent.length * data.length }

section Packet
variable {net : Network} {o : RangeOrder PlayerID} {src : Endpoint} {data : Bytes} {now : Instant}
  {sm sm' : SessionManager} {r : SessionRef} {v : PacketVerdict} {h : Handled}

theorem tally_accepted (hv : v.accepted = true) (sent : List Sent) : tally sm src data sent (some v) =
    if destOf data = senderOf data then
      match src with
      | .udp _ => { routed := 1 }
      | .tcp _ => { routed := sent.length }
    else
      { routed := sent.length, dropped := addressees sm data - sent.length,
        bytes := sent.length * data.length } := by
  cases v <;> first | rfl | cases hv

theorem adds_countRejected (hv : v.accepted = false) (sm₀ : SessionManager) (sent : List Sent) :
    Adds (tally sm₀ src data sent (some v)) sm (sm.countRejected v) := by
  cases v with
  | ok => cases hv
  | firstAddr => cases hv
  | unknown => exact adds_countDropped sm
  | spoofed => exact { adds_zero sm with spoofed := rfl }
  | rateLimited => exact { adds_zero sm with rateLimited := rfl }

/-- The targets of a broadcast are the same before and after the sender's update. -/
theorem length_targets_update (hr : sm.findSessionByPlayer (senderOf data) = some r) (info' : PlayerInfo)
    (hdest : destOf data = broadcastDest) :
    (((sm.modifySession r fun s => { s with players := s.players.insert (senderOf data) info' }).session
      r).forEachOtherPlayerTarget o (senderOf data)).length = addressees sm data := by
  rw [addressees, if_pos hdest, hr]
  refine ((List.perm_ext_iff_of_nodup ?_ ?_).mpr fun t => ?_).length_eq
  · exact (nodup_forEachOtherPlayerTarget _).of_map
  · exact (nodup_forEachOtherPlayerTarget _).of_map
  · rw [mem_forEachOtherPlayerTarget, mem_forEachOtherPlayerTarget]
    constructor
    · rintro ⟨p, info, hp, hne, hend, rfl⟩
      rw [lookup_after_update hne] at hp
      exact ⟨p, info, hp, hne, hend, rfl⟩
    · rintro ⟨p, info, hp, hne, hend, rfl⟩
      refine ⟨p, info, ?_, hne, hend, rfl⟩
      rw [lookup_after_update hne]
      exact hp

/-- The end of a turn, for a packet that is routed. -/
theorem adds_route (hr : sm.findSessionByPlayer (senderOf data) = some r) {info' : PlayerInfo}
    (hsm' : sm' = sm.modifySession r fun s => { s with players := s.players.insert (senderOf data) info' })
    {sm'' : SessionManager} {sent : List Sent}
    (hroute : sm'.route net o r (senderOf data) (destOf data) data = .ok (sm'', sent)) :
    sent.length ≤ addressees sm data ∧
      Adds { routed := sent.length, dropped := addressees sm data - sent.length,
             bytes := sent.length * data.length } sm' sm'' := by
  have hserve := serves_route hroute
  have hcount : (if destOf data = broadcastDest then
      ((sm'.session r).forEachOtherPlayerTarget o (senderOf data)).length else 1) = addressees sm data := by
    split
    · next hdest =>
      rw [hsm']
      exact length_targets_update hr info' hdest
    · next hdest => rw [addressees, if_neg hdest]
  rw [hcount] at hserve
  exact ⟨hserve.le, hserve.adds⟩

/-- No more copies than addressees, if the packet is routed. -/
def Balanced (sm : SessionManager) (data : Bytes) (v : PacketVerdict) (sent : List Sent) : Prop :=
  v.accepted = true → destOf data ≠ senderOf data → sent.length ≤ addressees sm data

section Answer
variable (hr : sm.findSessionByPlayer (senderOf data) = some r) {info' : PlayerInfo}
  (hsm' : sm' = sm.modifySession r fun s => { s with players := s.players.insert (senderOf data) info' })
include hr hsm'

theorem adds_routed (hv : v.accepted = true) (hecho : destOf data ≠ senderOf data) (src : Endpoint)
    {sm'' : SessionManager} {sent : List Sent}
    (hroute : sm'.route net o r (senderOf data) (destOf data) data = .ok (sm'', sent)) :
    Adds (tally sm src data sent (some v)) sm' sm'' ∧ Balanced sm data v sent := by
  rw [tally_accepted hv, if_neg hecho]
  obtain ⟨hle, hadds⟩ := adds_route hr hsm' hroute
  exact ⟨hadds, fun _ _ => hle⟩

theorem adds_answerDatagram (remoteAddr : AddrPort)
    (hok : sm'.answerDatagram net o remoteAddr data (senderOf data) (destOf data) r v = .ok h) :
    Adds (tally sm (.udp remoteAddr) data h.sent (some v)) sm' h.sm ∧ Balanced sm data v h.sent := by
  unfold answerDatagram at hok
  split at hok
  · next hv =>
    split at hok
    · next hecho =>
      cases hok
      rw [tally_accepted hv, if_pos hecho]
      exact ⟨adds_countEchoed sm', fun _ hne => absurd hecho hne⟩
    · next hecho =>
      cases hroute : sm'.route net o r (senderOf data) (destOf data) data with
      | error f =>
        rw [hroute] at hok
        cases hok
      | ok out =>
        rw [hroute] at hok
        cases hok
        exact adds_routed hr hsm' hv hecho _ hroute
  · next hv =>
    cases hok
    exact ⟨adds_countRejected (Bool.eq_false_iff.mpr hv) sm _, fun h _ => absurd h hv⟩

theorem adds_answerFrame (conn : Conn) (old : Option Conn)
    (hok : sm'.answerFrame net o conn data (senderOf data) (destOf data) r v old = .ok h) :
    Adds (tally sm (.tcp conn) data h.sent (some v)) sm' h.sm ∧ Balanced sm data v h.sent := by
  unfold answerFrame at hok
  dsimp only at hok
  split at hok
  · next hv =>
    split at hok
    · next hecho =>
      rw [tally_accepted hv, if_pos hecho]
      cases hframe : writeTCPFrame data with
      | error f =>
        rw [hframe] at hok
        cases hok
      | ok frame =>
        simp only [hframe, bind, Except.bind, pure, Except.pure] at hok
        split at hok
        · cases hok
          exact ⟨adds_countEchoed sm', fun _ hne => absurd hecho hne⟩
        · cases hok
          exact ⟨adds_zero sm', fun _ hne => absurd hecho hne⟩
    · next hecho =>
      cases hroute : sm'.route net o r (senderOf data) (destOf data) data with
      | error f =>
        rw [hroute] at hok
        cases hok
      | ok out =>
        rw [hroute] at hok
        cases hok
        exact adds_routed hr hsm' hv hecho _ hroute
  · next hv =>
    cases hok
    exact ⟨adds_countRejected (Bool.eq_false_iff.mpr hv) sm _, fun h _ => absurd h hv⟩

theorem AnswerOf.adds {res : Except Fault Handled} (ha : AnswerOf net o data r v sm' src res)
    (hok : res = .ok h) :
    Adds (tally sm src data h.sent (some v)) sm' h.sm ∧ Balanced sm data v h.sent := by
  cases ha with
  | datagram remoteAddr => exact adds_answerDatagram hr hsm' remoteAddr hok
  | frame conn old => exact adds_answerFrame hr hsm' conn old hok

end Answer

theorem adds_handlePacket (hc : Consistent sm) (hok : sm.handlePacket net o src data now = .ok h) :
    Adds (tally sm src data h.sent h.verdict) sm h.sm ∧
      ∀ v, h.verdict = some v → Balanced sm data v h.sent := by
  obtain ⟨-, rfl⟩ | ⟨r, hlen, hr, hh⟩ := handlePacket_cases hok
  · exact ⟨adds_countDropped sm, fun v hv => by cases hv⟩
  · obtain ⟨-, -, -, hmem⟩ := hc.of_findSessionByPlayer hr
    obtain ⟨info, hinfo⟩ := Table.lookup_of_mem hmem
    obtain ⟨v, info', hu, -⟩ := updatePlayer_of_lookup src hinfo now
    have hverdict := hh.verdict
    rw [hu] at hverdict
    obtain ⟨hadds, hbal⟩ := (handlePacket_answer net o hlen hr hu).adds hr rfl hok
    rw [hverdict]
    -- the update of the sender leaves the counters alone
    refine ⟨⟨hadds.routed, hadds.dropped, hadds.spoofed, hadds.rateLimited, hadds.bytes⟩, fun v' hv' => ?_⟩
    cases hv'
    exact hbal

end Packet

/-! ## What leaves the counters alone -/

theorem CallOutcome.sameCounters {sm sm' : SessionManager} {c : Call} {res : Except SessionError Unit}
    (ho : CallOutcome sm c res sm') : SameCounters sm sm' := by
  cases ho <;> exact ⟨rfl, rfl, rfl, rfl, rfl⟩

theorem sameCounters_reapPlayer (clk : ReapClock) (c : ReapCandidate) (st : ReapState) (pid : PlayerID) :
    SameCounters st.sm (reapPlayer clk c st pid).sm := by
  unfold reapPlayer
  split <;> exact ⟨rfl, rfl, rfl, rfl, rfl⟩

theorem sameCounters_reapPlayers (clk : ReapClock) (c : ReapCandidate) (pids : List PlayerID)
    (st : ReapState) : SameCounters st.sm (pids.foldl (reapPlayer clk c) st).sm := by
  induction pids generalizing st with
  | nil => exact ⟨rfl, rfl, rfl, rfl, rfl⟩
  | cons pid pids ih => exact (sameCounters_reapPlayer clk c st pid).trans (ih _)

theorem sameCounters_reapSession (clk : ReapClock) (st : ReapState) (c : ReapCandidate) :
    SameCounters st.sm (reapSession clk st c).sm := by
  have h := sameCounters_reapPlayers clk c c.stalePIDs st
  unfold reapSession
  dsimp only
  split
  · exact h.trans ⟨rfl, rfl, rfl, rfl, rfl⟩
  · exact h

theorem sameCounters_reapApply (clk : ReapClock) (candidates : List ReapCandidate) (st : ReapState) :
    SameCounters st.sm (candidates.foldl (reapSession clk) st).sm := by
  induction candidates generalizing st with
  | nil => exact ⟨rfl, rfl, rfl, rfl, rfl⟩
  | cons c candidates ih => exact (sameCounters_reapSession clk st c).trans (ih _)

/-! ## Every run -/

abbrev APITurn := Relay × APIEvent × APIReply

/-- What a turn of the server adds to the counters. -/
def tallyOf (x : APITurn) : Tally :=
  match x.2.1, x.2.2 with
  | .packet pkt, .relay (.handled verdict sent _) => tally x.1.sm pkt.src pkt.data sent verdict
  | _, _ => {}

theorem adds_apiStep (net : Network) {s : Relay} (hc : Consistent s.sm) (ev : APIEvent) :
    Adds (tallyOf (s, ev, (apiStep net s ev).2)) s.sm (apiStep net s ev).1.sm := by
  cases ev with
  | request route method body now =>
    simp only [apiStep, tallyOf]
    split
    · exact adds_zero s.sm
    · rcases serveMux_effect route method body now s.sm with heq | ⟨c, -, heq⟩
      · rw [heq]
        exact adds_zero s.sm
      · rw [heq]
        exact (call_outcome hc c).sameCounters.adds
  | packet pkt =>
    simp only [apiStep, relayStep]
    split
    · exact adds_zero s.sm
    · split
      · next h hok => exact (adds_handlePacket hc hok).1
      · exact adds_zero s.sm
  | reap o clk =>
    simp only [apiStep, relayStep, tallyOf]
    split
    · exact adds_zero s.sm
    · exact (sameCounters_reapApply clk _ { sm := s.sm }).adds

/-- The counters are the sums of what the turns so far have added, modulo 2^64. -/
structure Accounts (tr : List APITurn) (m : Metrics) : Prop where
  routed : m.packetsRouted = .ofNat (tr.map fun x => (tallyOf x).routed).sum
  dropped : m.packetsDropped = .ofNat (tr.map fun x => (tallyOf x).dropped).sum
  spoofed : m.packetsSpoofed = .ofNat (tr.map fun x => (tallyOf x).spoofed).sum
  rateLimited : m.packetsRateLimited = .ofNat (tr.map fun x => (tallyOf x).rateLimited).sum
  bytes : m.bytesRouted = .ofNat (tr.map fun x => (tallyOf x).bytes).sum

theorem ofNat_sum_concat {α : Type} (f : α → ℕ) (l : List α) (a : α) :
    UInt64.ofNat ((l ++ [a]).map f).sum = .ofNat (l.map f).sum + .ofNat (f a) := by
  rw [List.map_append, List.sum_append, List.map_singleton, List.sum_singleton, UInt64.ofNat_add]

theorem Accounts.concat {tr : List APITurn} {x : APITurn} {sm' : SessionManager}
    (h : Accounts tr x.1.sm.metrics) (ha : Adds (tallyOf x) x.1.sm sm') : Accounts (tr ++ [x]) sm'.metrics where
  routed := by rw [ha.routed, h.routed, ofNat_sum_concat]
  dropped := by rw [ha.dropped, h.dropped, ofNat_sum_concat]
  spoofed := by rw [ha.spoofed, h.spoofed, ofNat_sum_concat]
  rateLimited := by rw [ha.rateLimited, h.rateLimited, ofNat_sum_concat]
  bytes := by rw [ha.bytes, h.bytes, ofNat_sum_concat]

/-- A packet that is routed has no more copies than addressees. -/
def BalancedTurn (s : Relay) (ev : APIEvent) (out : APIReply) : Prop :=
  ∀ pkt v, ev = .packet pkt → out.verdict = some v → Balanced s.sm pkt.data v out.sent

theorem balanced_apiStep (net : Network) {s : Relay} (hc : Consistent s.sm) (ev : APIEvent) :
    BalancedTurn s ev (apiStep net s ev).2 := by
  rintro pkt v rfl hv
  simp only [apiStep, relayStep] at hv ⊢
  split at hv
  · cases hv
  · split at hv
    · next h hok => exact (adds_handlePacket hc hok).2 v hv
    · cases hv

/-- Whatever the requests, packets and passes of a run, and whatever the network does with the writes,
the counters say what has happened. -/
theorem accounts_runState (net : Network) (events : List APIEvent) :
    Accounts (trace (apiStep net) .start events) (runState (apiStep net) .start events).sm.metrics ∧
      AllSteps (apiStep net) BalancedTurn .start events := by
  constructor
  · refine (run_invariant_trace (apiStep net)
      (I := fun tr s => Consistent s.sm ∧ Accounts tr s.sm.metrics) ?_ ?_ events).2
    · exact ⟨consistent_new, rfl, rfl, rfl, rfl, rfl⟩
    · rintro tr s ev ⟨hc, ha⟩
      exact ⟨consistent_apiStep hc ev, ha.concat (adds_apiStep net hc ev)⟩
  · exact allSteps_of_invariant (I := fun s : Relay => Consistent s.sm) (C := fun _ _ _ => True)
      (fun _ ev hc _ => consistent_apiStep hc ev) (fun _ ev hc _ => balanced_apiStep net hc ev)
      consistent_new fun _ _ => trivial

end SessionManager
end SturmRelay
