import SturmRelay.Relay.DatagramSafety
import SturmRelay.Relay.SessionView

/-! # Sessions do not interfere

`soloPart S M` picks from the events of the server those that concern the session `S` and the players
`M` that belong to it. A run of the whole server then looks to `S` like the run of a session on its
own on these events (`Refines`), so two runs with the same events for `S` end with the same session
and show its players the same things (`sessions_isolated`).

There are two ways in which the rest of the server reaches into `S` all the same, and `Harmless`
excludes them. A packet that overruns the frame buffer stops the server for everybody. And a TCP
connection is not tied to a player: if frames of a member of `S` and of somebody else come over the
same connection, the server closes it on behalf of either. -/

namespace SturmRelay
namespace SessionManager
set_option autoImplicit false

/-! ## The part of a run that concerns a session -/

/-- The packet bears the ID of a player in `M`. -/
def ofMember (M : PlayerID → Bool) (pkt : Packet) : Bool :=
  decide (relayHeaderSize ≤ pkt.data.length) && M (senderOf pkt.data)

def soloPart (S : SessionID) (M : PlayerID → Bool) (e : NetEvent) : Option SoloEvent :=
  match e.ev with
  | .call c _ => if c.sessionID = S then some (.call c) else none
  | .packet pkt => if ofMember M pkt then some (.packet e.net pkt) else none
  | .reap o clk => some (.reap (o.players S) (clk.solo S))

/-- What the players in `M` notice: what becomes of their packets, and the copies they get. -/
inductive Noticed
  | verdict (playerID : PlayerID) (verdict : Option PacketVerdict)
  | copy (sent : Sent)
  deriving DecidableEq, Repr

def noticed (M : PlayerID → Bool) (e : NetEvent) (reply : RelayReply) : List Noticed :=
  (match e.ev with
    | .packet pkt => if ofMember M pkt then [.verdict (senderOf pkt.data) reply.verdict] else []
    | _ => []) ++ (reply.sent.filter fun copy => M copy.playerID).map .copy

def soloNoticed : SoloEvent → SoloReply → List Noticed
  | .packet _ pkt, .handled verdict sent => .verdict (senderOf pkt.data) verdict :: sent.map .copy
  | .packet _ pkt, _ => [.verdict (senderOf pkt.data) none]
  | _, _ => []

/-- The session as it is served: a server that is down serves none. -/
def Server.view (S : SessionID) (s : Server) : Option Session :=
  if s.relay.fault.isSome then none else s.relay.sm.view S

/-- Two runs are the same to the session `S` and its players. -/
structure SameFor (S : SessionID) (M : PlayerID → Bool) (es es' : List NetEvent) : Prop where
  session : (runState netStep {} es).view S = (runState netStep {} es').view S
  noticed : (trace netStep {} es).flatMap (fun x => noticed M x.2.1 x.2.2) =
    (trace netStep {} es').flatMap fun x => noticed M x.2.1 x.2.2

/-! ## Conditions -/

/-- Who joins `S` is in `M`, and nobody in `M` joins another session. -/
def JoinsApart (S : SessionID) (M : PlayerID → Bool) (c : Call) (res : Except SessionError Unit) : Prop :=
  match c with
  | .addPlayerToSession sid p _ => if sid = S then res.isOk = true → M p = true else M p = false
  | _ => True

instance (S : SessionID) (M : PlayerID → Bool) (c : Call) (res : Except SessionError Unit) :
    Decidable (JoinsApart S M c res) :=
  match c with
  | .addPlayerToSession sid p _ =>
    inferInstanceAs (Decidable (if sid = S then res.isOk = true → M p = true else M p = false))
  | .createSession _ _ _ => .isTrue trivial
  | .deleteSession _ => .isTrue trivial
  | .removePlayerFromSession _ _ => .isTrue trivial

/-- The joins of a step keep `S` apart, and the limits on the whole server refuse nothing. -/
def Separate (S : SessionID) (M : PlayerID → Bool) (_ : Server) (e : NetEvent) (reply : RelayReply) :
    Prop :=
  match e.ev, reply with
  | .call c _, .result res => atCapacity res = false ∧ JoinsApart S M c res
  | _, _ => True

instance (S : SessionID) (M : PlayerID → Bool) (s : Server) (e : NetEvent) (reply : RelayReply) :
    Decidable (Separate S M s e reply) :=
  match e, reply with
  | ⟨_, .call c _⟩, .result res => inferInstanceAs (Decidable (atCapacity res = false ∧ JoinsApart S M c res))
  | ⟨_, .call _ _⟩, .handled _ _ _ => .isTrue trivial
  | ⟨_, .call _ _⟩, .reaped _ _ _ => .isTrue trivial
  | ⟨_, .call _ _⟩, .crashed _ => .isTrue trivial
  | ⟨_, .packet _⟩, _ => .isTrue trivial
  | ⟨_, .reap _ _⟩, _ => .isTrue trivial

/-- The packet bears the ID of somebody else. -/
def foreign (M : PlayerID → Bool) (pkt : Packet) : Bool :=
  decide (relayHeaderSize ≤ pkt.data.length) && !M (senderOf pkt.data)

/-- The packet is short enough for a frame, or it is a datagram that reaches nobody over TCP. -/
def Fitting (sm : SessionManager) (pkt : Packet) : Prop :=
  pkt.data.length ≤ maxTCPFramePayload ∨
    ∀ remoteAddr, pkt.src = .udp remoteAddr → ¬ ReachesTCP remoteAddr pkt.data pkt.now sm

instance (sm : SessionManager) (pkt : Packet) : Decidable (Fitting sm pkt) :=
  match hsrc : pkt.src with
  | .udp remoteAddr =>
    decidable_of_iff (pkt.data.length ≤ maxTCPFramePayload ∨ ¬ ReachesTCP remoteAddr pkt.data pkt.now sm)
      (or_congr_right ⟨fun h addr he => by cases hsrc.symm.trans he; exact h, fun h => h remoteAddr hsrc⟩)
  | .tcp _ => .isTrue (Or.inr fun _ he => by cases hsrc.symm.trans he)

/-- A packet of somebody outside `M` does not overrun the frame buffer, and does not come over one of
the connections in `K`. -/
def Harmless (M : PlayerID → Bool) (K : List Conn) (s : Server) (e : NetEvent) (_ : RelayReply) : Prop :=
  match e.ev with
  | .packet pkt => foreign M pkt = true → Fitting s.relay.sm pkt ∧ ∀ conn ∈ K, pkt.src ≠ .tcp conn
  | _ => True

instance (M : PlayerID → Bool) (K : List Conn) (s : Server) (e : NetEvent) (reply : RelayReply) :
    Decidable (Harmless M K s e reply) :=
  match e with
  | ⟨_, .packet pkt⟩ => inferInstanceAs (Decidable (foreign M pkt = true →
      Fitting s.relay.sm pkt ∧ ∀ conn ∈ K, pkt.src ≠ .tcp conn))
  | ⟨_, .call _ _⟩ => .isTrue trivial
  | ⟨_, .reap _ _⟩ => .isTrue trivial

/-- The connection a member's packet comes over. -/
def memberConn (M : PlayerID → Bool) (e : NetEvent) : Option Conn :=
  match e.ev with
  | .packet pkt => if ofMember M pkt then pkt.src.conn? else none
  | _ => none

def memberConns (M : PlayerID → Bool) (es : List NetEvent) : List Conn := es.filterMap (memberConn M)

/-! ## One step -/

section Refines
variable {S : SessionID} {M : PlayerID → Bool} {K : List Conn}

/-- The server is, to the session `S`, the session on its own. -/
structure Refines (S : SessionID) (M : PlayerID → Bool) (K : List Conn) (s : Server) (st : Solo) :
    Prop where
  isolated : Isolated S M K s.relay.sm
  down : st.down = s.relay.fault.isSome
  session : st.session = s.relay.sm.view S
  closed : ∀ conn ∈ K, conn ∈ s.closed ↔ conn ∈ st.closed

theorem refines_start : Refines S M K {} {} where
  isolated := ⟨consistent_new, fun sid r hr => by simp [Relay.start, newSessionManager] at hr⟩
  down := rfl
  session := rfl
  closed _ _ := Iff.rfl

theorem ofMember_or_foreign {pkt : Packet} (hlen : relayHeaderSize ≤ pkt.data.length)
    (hm : ofMember M pkt = false) : foreign M pkt = true ∧ M (senderOf pkt.data) = false := by
  unfold ofMember at hm
  unfold foreign
  simp only [hlen, decide_true, Bool.true_and] at hm ⊢
  rw [hm]
  exact ⟨rfl, rfl⟩

theorem soloPart_call (S : SessionID) (M : PlayerID → Bool) (net : Network) (c : Call) (now : Instant) :
    soloPart S M ⟨net, .call c now⟩ = if c.sessionID = S then some (.call c) else none := rfl

theorem soloPart_packet (S : SessionID) (M : PlayerID → Bool) (net : Network) (pkt : Packet) :
    soloPart S M ⟨net, .packet pkt⟩ = if ofMember M pkt then some (.packet net pkt) else none := rfl

theorem ofMember_of_part_none {net : Network} {pkt : Packet}
    (h : soloPart S M ⟨net, .packet pkt⟩ = none) : ofMember M pkt = false := by
  rw [soloPart_packet] at h
  cases hm : ofMember M pkt with
  | false => rfl
  | true =>
    rw [if_pos hm] at h
    cases h

/-- Of an event that does not concern `S`, its players can only notice copies. -/
theorem noticed_of_part_none {e : NetEvent} {reply : RelayReply} (h : soloPart S M e = none)
    (hsent : ∀ copy ∈ reply.sent, M copy.playerID = false) : noticed M e reply = [] := by
  have hcopies : (reply.sent.filter fun copy => M copy.playerID) = [] :=
    List.filter_eq_nil_iff.mpr fun copy hin => by simp [hsent copy hin]
  obtain ⟨net, ev⟩ := e
  unfold noticed
  rw [hcopies]
  cases ev with
  | call c now => rfl
  | packet pkt => simp [ofMember_of_part_none h]
  | reap o clk => rfl

theorem JoinsApart.joined {c : Call} {res : Except SessionError Unit} (h : JoinsApart S M c res)
    (sid : SessionID) (p : PlayerID) (hj : joinedBy c res = some (sid, p)) : sid = S ↔ M p = true := by
  cases c with
  | addPlayerToSession sid' p' login =>
    cases res with
    | error e => cases hj
    | ok u =>
      cases hj
      unfold JoinsApart at h
      dsimp only at h
      by_cases hs : sid = S
      · rw [if_pos hs] at h
        exact iff_of_true hs (h rfl)
      · rw [if_neg hs] at h
        exact iff_of_false hs (by simp [h])
  | createSession id maxPlayers now => cases res <;> cases hj
  | deleteSession id => cases res <;> cases hj
  | removePlayerFromSession sid' p' => cases res <;> cases hj

section NetStep
variable {s : Server} {net : Network}

theorem netStep_down {f : Fault} (hf : s.relay.fault = some f) (e : NetEvent) :
    netStep s e = (s, .crashed f) := by
  obtain ⟨relay, closed⟩ := s
  unfold netStep relayStep
  dsimp only at hf ⊢
  rw [hf]
  simp only [RelayReply.closed, List.append_nil]

theorem netStep_call (hf : s.relay.fault = none) (c : Call) (now : Instant) :
    netStep s ⟨net, .call c now⟩ =
      ({ s with relay := { s.relay with sm := (s.relay.sm.call c).2 } }, .result (s.relay.sm.call c).1) := by
  unfold netStep relayStep
  simp only [hf, RelayReply.closed, List.append_nil]

theorem netStep_handled (hf : s.relay.fault = none) {pkt : Packet} {h : Handled}
    (hok : s.relay.sm.handlePacket (net.without s.closed) pkt.order pkt.src pkt.data pkt.now = .ok h) :
    netStep s ⟨net, .packet pkt⟩ =
      (⟨{ s.relay with sm := h.sm }, s.closed ++ h.closed⟩, .handled h.verdict h.sent h.closed) := by
  unfold netStep relayStep
  simp only [hf, hok, RelayReply.closed]

theorem netStep_panicked (hf : s.relay.fault = none) {pkt : Packet} {f : Fault}
    (herr : s.relay.sm.handlePacket (net.without s.closed) pkt.order pkt.src pkt.data pkt.now = .error f) :
    netStep s ⟨net, .packet pkt⟩ = ({ s with relay := { s.relay with fault := some f } }, .crashed f) := by
  unfold netStep relayStep
  simp only [hf, herr, RelayReply.closed, List.append_nil]

end NetStep

/-- Copies of a packet stay on the sender's side. -/
theorem Isolated.copy_player {sm : SessionManager} (h : Isolated S M K sm) {sid : SessionID}
    {r : SessionRef} (hsid : sm.sessions.lookup sid = some r) {net : Network} {o : RangeOrder PlayerID}
    {src : Endpoint} {data : Bytes} {v : PacketVerdict} (hsender : sid = S ↔ M (senderOf data) = true)
    {copy : Sent} (hin : copy ∈ copiesOf net o src data v (sm.session r)) :
    sid = S ↔ M copy.playerID = true := by
  rcases mem_copiesOf hin with hp | hp
  · rw [hp]
    exact hsender
  · obtain ⟨info, hinfo⟩ := Table.lookup_of_mem hp
    exact (h.players sid r hsid copy.playerID info hinfo).1

/-! ### Packets from outside -/

/-- A packet of somebody else changes nothing that `S` sees. -/
theorem Isolated.handlePacket_other {sm : SessionManager} (h : Isolated S M K sm) {net : Network}
    {pkt : Packet} {hd : Handled}
    (hok : sm.handlePacket net pkt.order pkt.src pkt.data pkt.now = .ok hd)
    (hm : ofMember M pkt = false) (hsrc : foreign M pkt = true → ∀ conn ∈ K, pkt.src ≠ .tcp conn) :
    Isolated S M K hd.sm ∧ hd.sm.view S = sm.view S ∧ (∀ conn ∈ K, conn ∉ hd.closed) ∧
      ∀ copy ∈ hd.sent, M copy.playerID = false := by
  by_cases hun : Unroutable pkt.data sm
  · rw [handlePacket_dropped hun] at hok
    cases hok
    have hs := sameTables_countDropped sm
    exact ⟨h.sameTables hs, view_sameTables hs, fun _ _ => List.not_mem_nil,
      fun _ hin => absurd hin List.not_mem_nil⟩
  · obtain ⟨hlen, hfound⟩ := not_or.mp hun
    obtain ⟨r, hr⟩ := Option.ne_none_iff_exists'.mp hfound
    obtain ⟨sid, hi, hsid, hmem⟩ := h.consistent.of_findSessionByPlayer hr
    obtain ⟨hforeign, hM⟩ := ofMember_or_foreign (Nat.le_of_not_lt hlen) hm
    have hne : sid ≠ S := fun he => by
      rw [(h.index hi).mp he] at hM
      cases hM
    have hconn : ∀ c, pkt.src = .tcp c → (c ∈ K ↔ sid = S) := fun c hc =>
      iff_of_false (fun hK => hsrc hforeign c hK hc) hne
    have hiso := h.updateSender hsid hmem hconn pkt.now
    obtain ⟨info, hinfo⟩ := Table.lookup_of_mem hmem
    obtain ⟨info', hupd, -, hold⟩ := Session.updateSender_of_lookup pkt.src hinfo pkt.now
    obtain ⟨v, old, s', hrecv⟩ : ∃ v old s', (sm.session r).updateSender pkt.src (senderOf pkt.data) pkt.now =
      (v, old, s') := ⟨_, _, _, rfl⟩
    have hself : (sm.modifySession r fun _ => s').session r = s' := modifySession_session_self ..
    obtain ⟨hpanic, hgood⟩ := handlePacket_found net pkt.order (Nat.le_of_not_lt hlen) hr hrecv
    by_cases hover : Overruns pkt.order pkt.src pkt.data v s'
    · obtain ⟨f, hf⟩ := hpanic hover
      rw [hf] at hok
      cases hok
    · obtain ⟨hd', hok', hh, hclosed⟩ := hgood hover
      rw [hok] at hok'
      cases hok'
      rw [hrecv] at hiso hupd hold
      refine ⟨hiso.sameTables hh.tables, ?_, fun conn hK hin => ?_, fun copy hin => ?_⟩
      · rw [view_sameTables hh.tables, view_modifySession h.consistent hsid, if_neg hne]
      · rw [hclosed] at hin
        rcases mem_closedBy hin with hconn' | hconn'
        · exact hne (((h.players sid r hsid _ info hinfo).2 conn (hold conn hconn')).mp hK)
        · exact hsrc hforeign conn hK hconn'
      · rw [hh.sent] at hin
        have hcopy := hiso.copy_player hsid (h.index hi) (hself.symm ▸ hin)
        exact Bool.eq_false_iff.mpr fun hM' => hne (hcopy.mpr hM')

/-- The server survives a packet that fits. A frame that was read always does. -/
theorem handlePacket_ok_of_fitting {sm : SessionManager} {pkt : Packet} (h : Fitting sm pkt)
    (net : Network) : ∃ hd, sm.handlePacket net pkt.order pkt.src pkt.data pkt.now = .ok hd := by
  by_cases hun : Unroutable pkt.data sm
  · exact ⟨_, handlePacket_dropped hun⟩
  obtain ⟨hlen, hfound⟩ := not_or.mp hun
  obtain ⟨r, hr⟩ := Option.ne_none_iff_exists'.mp hfound
  have hlen' := Nat.le_of_not_lt hlen
  obtain ⟨v, sm', hu⟩ : ∃ v sm', sm.updatePlayer pkt.src r (senderOf pkt.data) pkt.now = (v, sm') :=
    ⟨_, _, rfl⟩
  have ha := handlePacket_answer net pkt.order hlen' hr hu
  cases hv : v.accepted with
  | false =>
    obtain ⟨hd, hok, -⟩ := ha.rejected hv
    exact ⟨hd, hok⟩
  | true =>
    have hfits : ∀ t ∈ recipients pkt.order pkt.src pkt.data (sm'.session r), FitsFrame pkt.data t := by
      rcases h with hshort | hreach
      · exact fun _ _ _ => hshort
      cases hsrc : pkt.src with
      | tcp conn =>
        have hread := pkt.readable
        rw [hsrc] at hread
        exact fun _ _ _ => hread.2
      | udp remoteAddr =>
        have hnot := hreach remoteAddr hsrc
        rw [hsrc] at hu
        cases hp : (sm.session r).players.lookup (senderOf pkt.data) with
        | none =>
          rw [updatePlayer_of_notMem _ hp] at hu
          cases hu
          cases hv
        | some info =>
          obtain ⟨v', info', hu', -⟩ := updatePlayer_of_lookup (.udp remoteAddr) hp pkt.now
          have hverdict : (sm.updatePlayerAddr r (senderOf pkt.data) remoteAddr pkt.now).1 = v :=
            congrArg Prod.fst hu
          rw [reachesTCP_iff hlen' hr, hverdict] at hnot
          rw [hu] at hu'
          cases hu'
          exact fits_recipients_iff.mpr (Or.inr fun htcp => hnot ⟨hv, htcp⟩)
    obtain ⟨hd, hok, -⟩ := ha.accepted hv hfits
    exact ⟨hd, hok⟩

theorem Refines.skip_packet {s : Server} {st : Solo} (h : Refines S M K s st)
    (hf : s.relay.fault = none) {net : Network} {pkt : Packet}
    (hharm : Harmless M K s ⟨net, .packet pkt⟩ (netStep s ⟨net, .packet pkt⟩).2)
    (hm : ofMember M pkt = false) :
    Refines S M K (netStep s ⟨net, .packet pkt⟩).1 st ∧
      ∀ copy ∈ (netStep s ⟨net, .packet pkt⟩).2.sent, M copy.playerID = false := by
  cases hres : s.relay.sm.handlePacket (net.without s.closed) pkt.order pkt.src pkt.data pkt.now with
  | error f =>
    exfalso
    by_cases hlen : relayHeaderSize ≤ pkt.data.length
    · obtain ⟨hd, hok⟩ := handlePacket_ok_of_fitting (hharm (ofMember_or_foreign hlen hm).1).1
        (net.without s.closed)
      rw [hres] at hok
      cases hok
    · rw [handlePacket_dropped (Or.inl (Nat.lt_of_not_le hlen))] at hres
      cases hres
  | ok hd =>
    obtain ⟨hiso, hview, hclosed, hsent⟩ := h.isolated.handlePacket_other hres hm
      fun hforeign => (hharm hforeign).2
    rw [netStep_handled hf hres]
    refine ⟨⟨hiso, h.down, h.session.trans hview.symm, fun conn hK => ?_⟩, hsent⟩
    rw [List.mem_append, h.closed conn hK, or_iff_left (hclosed conn hK)]

theorem Refines.skip_call {s : Server} {st : Solo} (h : Refines S M K s st)
    (hf : s.relay.fault = none) {net : Network} {c : Call} {now : Instant}
    (hsep : Separate S M s ⟨net, .call c now⟩ (netStep s ⟨net, .call c now⟩).2)
    (hother : c.sessionID ≠ S) : Refines S M K (netStep s ⟨net, .call c now⟩).1 st := by
  rw [netStep_call hf] at hsep ⊢
  refine ⟨h.isolated.call hsep.2.joined, h.down, h.session.trans ?_, h.closed⟩
  refine (h.isolated.view_outcome (call_outcome h.isolated.consistent c) hother ?_).symm
  rintro sid p login rfl
  exact (if_neg hother).mp hsep.2

/-- An event that does not concern `S` leaves it alone. -/
theorem Refines.skip {s : Server} {st : Solo} (h : Refines S M K s st) {e : NetEvent}
    (hsep : Separate S M s e (netStep s e).2) (hharm : Harmless M K s e (netStep s e).2)
    (hpart : soloPart S M e = none) :
    Refines S M K (netStep s e).1 st ∧ noticed M e (netStep s e).2 = [] := by
  obtain ⟨net, ev⟩ := e
  cases hf : s.relay.fault with
  | some f =>
    rw [netStep_down hf]
    exact ⟨h, noticed_of_part_none hpart fun _ hin => absurd hin List.not_mem_nil⟩
  | none =>
    cases ev with
    | call c now =>
      have hother := ite_eq_right_iff.mp ((soloPart_call S M net c now).symm.trans hpart)
      refine ⟨h.skip_call hf hsep (fun hs => by cases hother hs), ?_⟩
      rw [netStep_call hf]
      exact noticed_of_part_none hpart fun _ hin => absurd hin List.not_mem_nil
    | packet pkt =>
      obtain ⟨href, hsent⟩ := h.skip_packet hf hharm (ofMember_of_part_none hpart)
      exact ⟨href, noticed_of_part_none hpart hsent⟩
    | reap o clk => cases hpart

/-! ### Events of the session -/

theorem without_congr {closed closed' : List Conn} (h : ∀ conn ∈ K, conn ∈ closed ↔ conn ∈ closed')
    (net : Network) {e : Endpoint} (he : ∀ conn, e = .tcp conn → conn ∈ K) :
    net.without closed e = net.without closed' e := by
  funext bytes
  cases e with
  | udp addr => rfl
  | tcp conn => simp only [Network.without, h conn (he conn rfl)]

/-- The connections packets of the session are written to. -/
theorem Isolated.recipient_conn {sm : SessionManager} (h : Isolated S M K sm) {r : SessionRef}
    (hr : sm.sessions.lookup S = some r) {o : RangeOrder PlayerID} {src : Endpoint} {data : Bytes}
    (hsrc : ∀ conn, src = .tcp conn → conn ∈ K) {t : PlayerSendTarget}
    (ht : t ∈ recipients o src data (sm.session r)) {conn : Conn} (he : t.endpoint = some (.tcp conn)) :
    conn ∈ K := by
  rcases mem_recipients ht with rfl | ⟨info, hinfo, htarget⟩
  · rw [echoTarget_endpoint] at he
    exact hsrc conn (Option.some.inj he)
  · have htcp : info.tcpConn = some conn := by
      rw [htarget, endpoint_targetOf, PlayerInfo.endpoint] at he
      cases hc : info.tcpConn with
      | some conn' =>
        rw [hc] at he
        cases he
        rfl
      | none =>
        rw [hc] at he
        obtain ⟨_, -, hno⟩ := Option.map_eq_some_iff.mp he
        cases hno
    exact ((h.players S r hr _ info hinfo).2 conn htcp).mpr rfl

theorem copiesOf_congr {net net' : Network} {o : RangeOrder PlayerID} {src : Endpoint} {data : Bytes}
    {v : PacketVerdict} {s : Session}
    (h : ∀ t ∈ recipients o src data s, ∀ e, t.endpoint = some e → net e = net' e) :
    copiesOf net o src data v s = copiesOf net' o src data v s := by
  unfold copiesOf
  split
  · refine List.filterMap_congr fun t ht => ?_
    unfold copyFor
    cases he : t.endpoint with
    | none => rfl
    | some e => rw [Option.bind_some, Option.bind_some, h t ht e he]
  · rfl

theorem closedBy_congr {net net' : Network} {src : Endpoint} (h : net src = net' src) (data : Bytes)
    (v : PacketVerdict) (old : Option Conn) : closedBy net src data v old = closedBy net' src data v old := by
  unfold closedBy
  cases src with
  | udp addr => rfl
  | tcp conn => rw [h]

theorem noticed_of_member {net : Network} {pkt : Packet} (hm : ofMember M pkt = true) {reply : RelayReply}
    (hsent : ∀ copy ∈ reply.sent, M copy.playerID = true) : noticed M ⟨net, .packet pkt⟩ reply =
      .verdict (senderOf pkt.data) reply.verdict :: reply.sent.map .copy := by
  have hcopies : (reply.sent.filter fun copy => M copy.playerID) = reply.sent :=
    List.filter_eq_self.mpr hsent
  unfold noticed
  rw [hcopies]
  simp [hm]

theorem Solo.packet_of_absent {net : Network} {pkt : Packet} {st : Solo}
    (h : ∀ s, st.session = some s → senderOf pkt.data ∉ s.players) :
    Solo.packet net pkt st = (st, .handled none []) := by
  unfold Solo.packet
  cases hs : st.session with
  | none => rfl
  | some s => exact if_neg (h s hs)

/-- A packet with the ID of a member who is not in the session. -/
theorem Refines.step_absent {s : Server} {st : Solo} (h : Refines S M K s st)
    (hf : s.relay.fault = none) (net : Network) {pkt : Packet} (hm : ofMember M pkt = true)
    (hr : s.relay.sm.findSessionByPlayer (senderOf pkt.data) = none) :
    Refines S M K (netStep s ⟨net, .packet pkt⟩).1 (Solo.packet net pkt st).1 ∧
      noticed M ⟨net, .packet pkt⟩ (netStep s ⟨net, .packet pkt⟩).2 =
        soloNoticed (.packet net pkt) (Solo.packet net pkt st).2 := by
  have hc := h.isolated.consistent
  have hok : s.relay.sm.handlePacket (net.without s.closed) pkt.order pkt.src pkt.data pkt.now =
      .ok { sm := s.relay.sm.countDropped } := handlePacket_dropped (Or.inr hr)
  have habsent : ∀ sess, st.session = some sess → senderOf pkt.data ∉ sess.players := by
    intro sess hsess hmem
    rw [h.session] at hsess
    obtain ⟨r, hS, rfl⟩ := Option.map_eq_some_iff.mp hsess
    obtain ⟨r', hfound, -⟩ := hc.findSessionByPlayer_of_index ((hc.mem_iff hS _).mp hmem)
    rw [hr] at hfound
    cases hfound
  have hs := sameTables_countDropped s.relay.sm
  rw [Solo.packet_of_absent habsent, netStep_handled hf hok]
  refine ⟨⟨h.isolated.sameTables hs, h.down, h.session.trans (view_sameTables hs).symm, ?_⟩, ?_⟩
  · simpa using h.closed
  · exact noticed_of_member hm fun _ hin => absurd hin List.not_mem_nil

theorem Refines.step_heard {s : Server} {st : Solo} (h : Refines S M K s st)
    (hf : s.relay.fault = none) (net : Network) {pkt : Packet} (hm : ofMember M pkt = true)
    (hsrc : ∀ conn, pkt.src = .tcp conn → conn ∈ K) {r : SessionRef}
    (hr : s.relay.sm.findSessionByPlayer (senderOf pkt.data) = some r)
    (hS : s.relay.sm.sessions.lookup S = some r)
    (hmem : senderOf pkt.data ∈ (s.relay.sm.session r).players) :
    Refines S M K (netStep s ⟨net, .packet pkt⟩).1
        (Solo.hear (net.without st.closed) pkt (s.relay.sm.session r) st).1 ∧
      noticed M ⟨net, .packet pkt⟩ (netStep s ⟨net, .packet pkt⟩).2 =
        soloNoticed (.packet net pkt) (Solo.hear (net.without st.closed) pkt (s.relay.sm.session r) st).2 := by
  have hc := h.isolated.consistent
  obtain ⟨hlen, hM⟩ := (Bool.and_eq_true _ _).mp hm
  have hiso := h.isolated.updateSender hS hmem (fun c hc' => iff_of_true (hsrc c hc') rfl) pkt.now
  obtain ⟨v, old, s', hrecv⟩ : ∃ v old s',
    (s.relay.sm.session r).updateSender pkt.src (senderOf pkt.data) pkt.now = (v, old, s') := ⟨_, _, _, rfl⟩
  have hself : (s.relay.sm.modifySession r fun _ => s').session r = s' := modifySession_session_self ..
  obtain ⟨hpanic, hgood⟩ :=
    handlePacket_found (net.without s.closed) pkt.order (of_decide_eq_true hlen) hr hrecv
  rw [Solo.hear, hrecv]
  rw [hrecv] at hiso
  dsimp only at hiso ⊢
  by_cases hover : Overruns pkt.order pkt.src pkt.data v s'
  · obtain ⟨f, herr⟩ := hpanic hover
    rw [if_pos hover, netStep_panicked hf herr]
    exact ⟨⟨h.isolated, rfl, h.session, h.closed⟩,
      noticed_of_member hm fun _ hin => absurd hin List.not_mem_nil⟩
  · obtain ⟨hd, hok, hh, hclosed⟩ := hgood hover
    -- the connections written to are in `K`, where both sides agree on what is closed
    have hcopies : copiesOf (net.without s.closed) pkt.order pkt.src pkt.data v s' =
        copiesOf (net.without st.closed) pkt.order pkt.src pkt.data v s' :=
      copiesOf_congr fun t ht e he => without_congr h.closed net fun conn hconn =>
        hiso.recipient_conn hS hsrc (hself.symm ▸ ht) (hconn ▸ he)
    rw [if_neg hover, netStep_handled hf hok]
    refine ⟨⟨hiso.sameTables hh.tables, h.down, ?_, fun conn hK => ?_⟩, ?_⟩
    · rw [view_sameTables hh.tables, view_modifySession hc hS, if_pos rfl]
    · dsimp only
      rw [List.mem_append, List.mem_append, h.closed conn hK, hclosed,
        closedBy_congr (without_congr h.closed net hsrc)]
    · rw [noticed_of_member hm]
      · change Noticed.verdict _ hd.verdict :: hd.sent.map Noticed.copy = _
        rw [hh.verdict, hh.sent, hcopies]
        rfl
      · intro copy hin
        change copy ∈ hd.sent at hin
        rw [hh.sent] at hin
        exact (hiso.copy_player hS (iff_of_true rfl hM) (hself.symm ▸ hin)).mp rfl

theorem Refines.step_packet {s : Server} {st : Solo} (h : Refines S M K s st)
    (hf : s.relay.fault = none) (net : Network) {pkt : Packet} (hm : ofMember M pkt = true)
    (hsrc : ∀ conn, pkt.src = .tcp conn → conn ∈ K) :
    Refines S M K (netStep s ⟨net, .packet pkt⟩).1 (Solo.packet net pkt st).1 ∧
      noticed M ⟨net, .packet pkt⟩ (netStep s ⟨net, .packet pkt⟩).2 =
        soloNoticed (.packet net pkt) (Solo.packet net pkt st).2 := by
  cases hr : s.relay.sm.findSessionByPlayer (senderOf pkt.data) with
  | none => exact h.step_absent hf net hm hr
  | some r =>
    obtain ⟨sid, hi, hS, hmem⟩ := h.isolated.consistent.of_findSessionByPlayer hr
    obtain rfl : sid = S := (h.isolated.index hi).mpr ((Bool.and_eq_true _ _).mp hm).2
    have hsolo : Solo.packet net pkt st = Solo.hear (net.without st.closed) pkt (s.relay.sm.session r) st := by
      unfold Solo.packet
      rw [h.session.trans (view_of_lookup hS)]
      exact if_pos hmem
    rw [hsolo]
    exact h.step_heard hf net hm hsrc hr hS hmem

theorem Refines.step_call {s : Server} {st : Solo} (h : Refines S M K s st)
    (hf : s.relay.fault = none) {net : Network} {c : Call} {now : Instant}
    (hsep : Separate S M s ⟨net, .call c now⟩ (netStep s ⟨net, .call c now⟩).2)
    (hs : c.sessionID = S) :
    Refines S M K (netStep s ⟨net, .call c now⟩).1 { st with session := (Solo.call c st.session).2 } := by
  rw [netStep_call hf] at hsep ⊢
  obtain ⟨-, hview⟩ := call_solo h.isolated.consistent hs hsep.1
  refine ⟨h.isolated.call hsep.2.joined, h.down, ?_, h.closed⟩
  rw [h.session]
  exact hview.symm

theorem Refines.step_reap {s : Server} {st : Solo} (h : Refines S M K s st)
    (hf : s.relay.fault = none) (net : Network) (o : ReapOrder) (clk : ReapClock) :
    Refines S M K (netStep s ⟨net, .reap o clk⟩).1 { st with
      session := (Solo.reap (o.players S) (clk.solo S) st.session).1
      closed := st.closed ++ (Solo.reap (o.players S) (clk.solo S) st.session).2 } := by
  have hstep : netStep s ⟨net, .reap o clk⟩ =
      (⟨{ s.relay with sm := (s.relay.sm.reapStaleSessions o clk).sm },
        s.closed ++ (s.relay.sm.reapStaleSessions o clk).closed⟩,
      .reaped (s.relay.sm.reapStaleSessions o clk).removedPlayers
        (s.relay.sm.reapStaleSessions o clk).removedSessions
        (s.relay.sm.reapStaleSessions o clk).closed) := by
    unfold netStep relayStep
    simp only [hf, RelayReply.closed]
  rw [hstep, h.session]
  refine ⟨h.isolated.reap o clk, h.down, (view_reap h.isolated.consistent o clk).symm, fun conn hK => ?_⟩
  dsimp only
  rw [List.mem_append, List.mem_append, h.closed conn hK, h.isolated.closed_reap o clk hK]

/-- An event that concerns `S` does to it what it does to the session on its own. -/
theorem Refines.step {s : Server} {st : Solo} (h : Refines S M K s st) {e : NetEvent} {a : SoloEvent}
    (hsep : Separate S M s e (netStep s e).2) (hconn : ∀ conn ∈ memberConn M e, conn ∈ K)
    (hpart : soloPart S M e = some a) :
    Refines S M K (netStep s e).1 (Solo.step st a).1 ∧
      noticed M e (netStep s e).2 = soloNoticed a (Solo.step st a).2 := by
  obtain ⟨net, ev⟩ := e
  cases hf : s.relay.fault with
  | some f =>
    have hstep : Solo.step st a = (st, .crashed) := if_pos (by rw [h.down, hf]; rfl)
    rw [netStep_down hf, hstep]
    refine ⟨h, ?_⟩
    cases ev with
    | call c now =>
      cases (Option.ite_none_right_eq_some.mp hpart).2
      rfl
    | packet pkt =>
      obtain ⟨hm, ha⟩ := Option.ite_none_right_eq_some.mp hpart
      cases ha
      exact noticed_of_member hm fun _ hin => absurd hin List.not_mem_nil
    | reap o clk =>
      cases hpart
      rfl
  | none =>
    have hup : ¬ st.down = true := by simp [h.down, hf]
    unfold Solo.step
    rw [if_neg hup]
    cases ev with
    | call c now =>
      obtain ⟨hs, ha⟩ := Option.ite_none_right_eq_some.mp hpart
      cases ha
      refine ⟨h.step_call hf hsep hs, ?_⟩
      rw [netStep_call hf]
      rfl
    | packet pkt =>
      obtain ⟨hm, ha⟩ := Option.ite_none_right_eq_some.mp hpart
      cases ha
      refine h.step_packet hf net hm fun conn hsrc => hconn conn ?_
      unfold memberConn
      rw [Option.mem_def]
      dsimp only
      rw [if_pos hm, hsrc]
      rfl
    | reap o clk =>
      cases hpart
      refine ⟨h.step_reap hf net o clk, ?_⟩
      unfold netStep relayStep
      simp only [hf]
      rfl

/-! ## Whole runs -/

/-- To the session, a run of the server is a run of the session on its own. -/
theorem refines_run {es : List NetEvent} (hsep : AllSteps netStep (Separate S M) {} es)
    (hharm : AllSteps netStep (Harmless M (memberConns M es)) {} es) :
    Refines S M (memberConns M es) (runState netStep {} es)
      (runState Solo.step {} (es.filterMap (soloPart S M))) ∧
    (trace netStep {} es).flatMap (fun x => noticed M x.2.1 x.2.2) =
      (trace Solo.step {} (es.filterMap (soloPart S M))).flatMap fun x => soloNoticed x.2.1 x.2.2 := by
  have hC : AllSteps netStep (fun s e reply => Separate S M s e reply ∧
      Harmless M (memberConns M es) s e reply ∧ ∀ conn ∈ memberConn M e, conn ∈ memberConns M es) {} es := by
    intro x hx
    refine ⟨hsep x hx, hharm x hx, fun conn hconn => ?_⟩
    exact List.mem_filterMap.mpr ⟨_, mem_of_mem_trace _ hx, hconn⟩
  refine run_simulates (R := Refines S M (memberConns M es)) ?_ ?_ refines_start hC
  · exact fun s st e h hc hpart => h.skip hc.1 hc.2.1 hpart
  · exact fun s st e a h hc hpart => h.step hc.1 hc.2.2 hpart

theorem Refines.view {s : Server} {st : Solo} (h : Refines S M K s st) :
    s.view S = if st.down then none else st.session := by
  rw [Server.view, h.down, h.session]

end Refines

theorem sessions_isolated (S : SessionID) (M : PlayerID → Bool) (es es' : List NetEvent)
    (hsame : es.filterMap (soloPart S M) = es'.filterMap (soloPart S M))
    (hsep : AllSteps netStep (Separate S M) {} es) (hsep' : AllSteps netStep (Separate S M) {} es')
    (hharm : AllSteps netStep (Harmless M (memberConns M es)) {} es)
    (hharm' : AllSteps netStep (Harmless M (memberConns M es')) {} es') : SameFor S M es es' := by
  obtain ⟨href, hnoticed⟩ := refines_run hsep hharm
  obtain ⟨href', hnoticed'⟩ := refines_run hsep' hharm'
  constructor
  · rw [href.view, href'.view, hsame]
  · rw [hnoticed, hnoticed', hsame]

/-! ### A second game -/

/-- Players 1 and 2, who play `game`. -/
def lobbyPlayers (p : PlayerID) : Bool := p == 1 || p == 2

def otherGame : List RelayEvent :=
  [.call (.createSession "other" 12 0) 0, .call (.addPlayerToSession "other" 3 "third") 0,
    .call (.addPlayerToSession "other" 4 "fourth") 0]

/-- A connection from the same host as `guestConn`. -/
def secondConn : Conn := ⟨8, some ⟨.v4 0x0A000002#32, 50001⟩⟩

def hello (p : PlayerID) (src : Endpoint) (h : src.Delivers (putUint32BE p ++ putUint32BE p)) : Packet where
  src := src
  data := putUint32BE p ++ putUint32BE p
  readable := h
  now := second
  order := .listed

/-- Player 3 names player 2 of the other session as the destination. -/
def acrossGames : Packet where
  src := .tcp secondConn
  data := putUint32BE 3 ++ putUint32BE 2 ++ [42]
  readable := by decide
  now := second
  order := .listed

/-- The lobby, then the events of the other game, then a packet from player 1 to player 2, on a
network where every write succeeds. -/
def around (others : List RelayEvent) : List NetEvent :=
  (lobby ++ others ++ [RelayEvent.packet hostToGuest]).map fun ev => ⟨.reliable, ev⟩

/-- A datagram of 1401 bytes from player 3 to player 4. -/
def oversizedToFourth : Packet where
  src := .udp ⟨.v4 0x0A000003#32, 6112⟩
  data := putUint32BE 3 ++ putUint32BE 4 ++ List.replicate 1393 0
  readable := by decide +kernel
  now := second
  order := .listed

/-- Player 3 connects, names a player of the other game, and sends an oversized datagram that reaches
nobody. -/
def peaceful : List RelayEvent :=
  otherGame ++ [.packet (hello 3 (.tcp secondConn) (by decide)), .packet acrossGames,
    .packet oversizedToFourth, .call (.deleteSession "other") 0]

theorem soloPart_oversizedToFourth (net : Network) :
    soloPart "game" lobbyPlayers ⟨net, .packet oversizedToFourth⟩ = none := by
  have hforeign : lobbyPlayers (senderOf oversizedToFourth.data) = false := by decide +kernel
  rw [soloPart_packet, ofMember, hforeign, Bool.and_false]
  rfl

theorem peaceful_isolated :
    AllSteps netStep (Separate "game" lobbyPlayers) {} (around peaceful) ∧
      SameFor "game" lobbyPlayers (around []) (around peaceful) := by
  have hsplit : around peaceful = (lobby ++ peaceful.take 5).map (fun ev => ⟨.reliable, ev⟩) ++
      ⟨.reliable, .packet oversizedToFourth⟩ :: [⟨.reliable, .call (.deleteSession "other") 0⟩,
        ⟨.reliable, .packet hostToGuest⟩] := rfl
  have hsame : (around []).filterMap (soloPart "game" lobbyPlayers) =
      (around peaceful).filterMap (soloPart "game" lobbyPlayers) := by
    rw [hsplit, List.filterMap_append, List.filterMap_cons_none (soloPart_oversizedToFourth _)]
    rfl
  exact ⟨by decide +kernel, sessions_isolated "game" lobbyPlayers (around []) (around peaceful) hsame
    (by decide +kernel) (by decide +kernel) (by decide +kernel) (by decide +kernel)⟩

/-- The same datagram, when player 4 is connected over TCP. -/
def overrun : List RelayEvent :=
  otherGame ++ [.packet (hello 4 (.tcp secondConn) (by decide)), .packet oversizedToFourth]

/-- Player 3 says hello over the connection of player 2, and then over one of its own. -/
def sharedConn : List RelayEvent :=
  otherGame ++ [.packet (hello 3 (.tcp guestConn) (by decide)),
    .packet (hello 3 (.tcp secondConn) (by decide))]

/-- Both runs have the same events for `game` as the run without the other game. In the first one
the server is down when player 1 sends its packet, in the second one the connection of player 2 has
been closed. -/
theorem other_game_interferes :
    ((around overrun).filterMap (soloPart "game" lobbyPlayers) =
        (around []).filterMap (soloPart "game" lobbyPlayers) ∧
      AllSteps netStep (Separate "game" lobbyPlayers) {} (around overrun) ∧
      ¬ SameFor "game" lobbyPlayers (around []) (around overrun)) ∧
    ((around sharedConn).filterMap (soloPart "game" lobbyPlayers) =
        (around []).filterMap (soloPart "game" lobbyPlayers) ∧
      AllSteps netStep (Separate "game" lobbyPlayers) {} (around sharedConn) ∧
      ¬ SameFor "game" lobbyPlayers (around []) (around sharedConn)) := by
  refine ⟨⟨?_, by decide +kernel, fun h => absurd h.noticed (by decide +kernel)⟩,
    rfl, by decide +kernel, fun h => absurd h.noticed (by decide +kernel)⟩
  have hsplit : around overrun = (lobby ++ overrun.dropLast).map (fun ev => ⟨.reliable, ev⟩) ++
      ⟨.reliable, .packet oversizedToFourth⟩ :: [⟨.reliable, .packet hostToGuest⟩] := rfl
  rw [hsplit, List.filterMap_append, List.filterMap_cons_none (soloPart_oversizedToFourth _)]
  rfl

end SessionManager
end SturmRelay
