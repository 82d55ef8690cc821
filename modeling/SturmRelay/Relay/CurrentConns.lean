import SturmRelay.Relay.EntryConns
import SturmRelay.Relay.TCPHandler

/-! # The connection a player is reached by

`UpdatePlayerTCP` notes the connection of every accepted frame as its sender's `TCPConn`, and nothing but
another packet of the player or a re-join takes it back. A handler that returns closes its connection and
tells nobody. An evicted connection is closed by a goroutine of its own, and its handler may have read a
frame before: that frame makes the old connection the current one again, and evicts the new one.

`currentConn_alive`: if a handler returns only after its connection has been evicted or its players have
gone elsewhere, frames of evicted connections are not taken up, and a connection that is evicted is nobody
else's, then every `TCPConn` is a connection with a running handler, packets are written to such connections
only, and two connections never evict each other.

What the condition asks of a handler that returns is a matter of the past (`Retired`): which frames were
accepted, which connections were evicted, who has left. That no entry names the connection then is the
invariant (`Orderly.not_used`). -/

namespace SturmRelay
set_option autoImplicit false

/-! ## Running connections -/

/-- The session a handler works on. -/
def HandlerPhase.session? : HandlerPhase → Option SessionRef
  | .updating _ r => some r
  | .answering _ r => some r
  | _ => none

/-- The connections a handler is about to write a packet to. -/
def HandlerPhase.pending : HandlerPhase → List Conn
  | .sending _ targets => targets.filterMap (·.tcpConn)
  | _ => []

/-- The session the router works on. -/
def RouterPhase.session? : RouterPhase → Option SessionRef
  | .updating _ _ r => some r
  | .answering _ r => some r
  | _ => none

/-- The connections the router is about to write a packet to. -/
def RouterPhase.pending : RouterPhase → List Conn
  | .sending _ targets => targets.filterMap (·.tcpConn)
  | _ => []

namespace TCPServer
open SessionManager
variable {s s' : TCPServer} {c : Conn} {i : ℕ} {h : ConnHandler} {r : SessionRef}

/-- The connections some goroutine is about to write to. -/
def pending (s : TCPServer) : List Conn := s.handlers.flatMap (·.phase.pending) ++ s.router.pending

/-- The session objects some goroutine works on. -/
def held (s : TCPServer) : List SessionRef :=
  s.handlers.filterMap (·.phase.session?) ++ s.router.session?.toList

/-- The session objects in the map, and the deleted ones some goroutine still works on. -/
def reached (s : TCPServer) : List SessionRef := s.sm.live ++ s.held

/-- The connections of the players of these sessions. -/
def conns (s : TCPServer) : List Conn := s.sm.entryConns fun r _ => decide (r ∈ s.reached)

/-- The connections of everybody but one player of one session. -/
def otherConns (r : SessionRef) (p : PlayerID) (s : TCPServer) : List Conn :=
  s.sm.entryConns fun r' p' => decide (r' ∈ s.reached) && !(r' = r && p' = p)

/-- Some player is reached by the connection, or a packet is on its way to it. -/
def Used (s : TCPServer) (c : Conn) : Prop := c ∈ s.conns ∨ c ∈ s.pending

/-- The server has not closed the connection, and its handler is running. -/
def Alive (s : TCPServer) (c : Conn) : Prop :=
  c ∉ s.closed ∧ ∃ h ∈ s.handlers, h.conn = c ∧ h.phase ≠ .exited

/-- The player of an installation is not in the session any more, or the session is not there any more. -/
def Gone (s : TCPServer) (x : Installation) : Prop :=
  x.ref ∉ s.reached ∨ x.player ∉ (s.sm.session x.ref).players

/-- The connection has been evicted, or no packet is on its way to it and the players whose frames came over
it have left, joined again or been heard over UDP since. -/
def Retired (s : TCPServer) (c : Conn) : Prop :=
  (∃ e ∈ s.evictions, e.old = c) ∨ (c ∉ s.pending ∧ ∀ x ∈ s.installations, x.conn = c → s.Gone x)

/-- The echo of handler `h` cannot be written. -/
def EchoFails (s : TCPServer) (h : ConnHandler) (data : Bytes) (net : Network) : Prop :=
  destOf data = senderOf data ∧
    net.without s.closed (.tcp h.conn) ((Endpoint.tcp h.conn).wire data) = false

/-- Handler `h` is about to install its connection for the sender of the frame: it has not been evicted or
closed itself, and the connection it replaces is used by nobody else. If the frame is a spoofed one
and the handler returns, its own connection is retired. -/
structure InstallsTidily (s : TCPServer) (h : ConnHandler) (data : Bytes) (r : SessionRef) : Prop where
  spoofed : s.sm.PinnedElsewhere r (senderOf data) h.conn → s.Retired h.conn
  notClosed : h.conn ∉ s.closed
  notEvicted : ∀ e ∈ s.evictions, e.old ≠ h.conn
  alone : ∀ info ∈ (s.sm.session r).players.lookup (senderOf data), ∀ old ∈ info.tcpConn,
    old ≠ h.conn → old ∉ s.otherConns r (senderOf data) ∧ old ∉ s.pending

/-- What is asked of a step of handler `h`: it returns only if its connection is retired, and installs
tidily. -/
def TidyTurn (s : TCPServer) (h : ConnHandler) (net : Network) : HandlerPhase → Prop
  | .top => s.cancelled = true → s.Retired h.conn
  | .updating data r => s.InstallsTidily h data r
  | .answering data _ => s.EchoFails h data net → s.Retired h.conn
  | _ => True

def Tidy (s : TCPServer) : TCPEvent → Prop
  | .readError i => ∀ h ∈ s.handlers[i]?, h.phase = .reading → s.Retired h.conn
  | .handle i _ net _ => ∀ h ∈ s.handlers[i]?, s.TidyTurn h net h.phase
  | _ => True

instance (s : TCPServer) (c : Conn) : Decidable (s.Alive c) := inferInstanceAs (Decidable (_ ∧ _))

instance (s : TCPServer) (x : Installation) : Decidable (s.Gone x) := inferInstanceAs (Decidable (_ ∨ _))

instance (s : TCPServer) (c : Conn) : Decidable (s.Retired c) := inferInstanceAs (Decidable (_ ∨ _))

instance (s : TCPServer) (h : ConnHandler) (data : Bytes) (net : Network) :
    Decidable (s.EchoFails h data net) := inferInstanceAs (Decidable (_ ∧ _))

instance (s : TCPServer) (h : ConnHandler) (data : Bytes) (r : SessionRef) :
    Decidable (s.InstallsTidily h data r) :=
  decidable_of_iff (_ ∧ _ ∧ _ ∧ _)
    ⟨fun ⟨h1, h2, h3, h4⟩ => ⟨h1, h2, h3, h4⟩, fun ⟨h1, h2, h3, h4⟩ => ⟨h1, h2, h3, h4⟩⟩

instance (s : TCPServer) (h : ConnHandler) (net : Network) :
    (phase : HandlerPhase) → Decidable (s.TidyTurn h net phase)
  | .top => inferInstanceAs (Decidable (_ → _))
  | .updating data r => inferInstanceAs (Decidable (s.InstallsTidily h data r))
  | .answering data _ => inferInstanceAs (Decidable (s.EchoFails h data net → _))
  | .reading => .isTrue trivial
  | .finding _ => .isTrue trivial
  | .sending _ _ => .isTrue trivial
  | .exited => .isTrue trivial

instance (s : TCPServer) : (ev : TCPEvent) → Decidable (s.Tidy ev)
  | .readError i => inferInstanceAs (Decidable (∀ h ∈ s.handlers[i]?, _ → _))
  | .handle i _ net _ => inferInstanceAs (Decidable (∀ h ∈ s.handlers[i]?, s.TidyTurn h net h.phase))
  | .accept _ => .isTrue trivial
  | .frame _ _ => .isTrue trivial
  | .datagram _ _ => .isTrue trivial
  | .route _ _ _ => .isTrue trivial
  | .closeOld _ => .isTrue trivial
  | .cancel => .isTrue trivial
  | .call _ => .isTrue trivial

theorem mem_conns : c ∈ s.conns ↔ ∃ r p, r < s.sm.heap.next ∧ r ∈ s.reached ∧ s.sm.Names r p c := by
  simp only [conns, mem_entryConns, decide_eq_true_eq]

theorem mem_otherConns {q : PlayerID} : c ∈ s.otherConns r q ↔
    ∃ r' p, r' < s.sm.heap.next ∧ (r' ∈ s.reached ∧ ¬ (r' = r ∧ p = q)) ∧ s.sm.Names r' p c := by
  simp [otherConns, mem_entryConns, imp_iff_not_or]

theorem used_of_otherConns {q : PlayerID} (hc : c ∈ s.otherConns r q ∨ c ∈ s.pending) : s.Used c := by
  refine hc.imp_left fun hc => ?_
  obtain ⟨r', p, hr, ⟨hreached, -⟩, hn⟩ := mem_otherConns.mp hc
  exact mem_conns.mpr ⟨r', p, hr, hreached, hn⟩

theorem held_setHandler {phase : HandlerPhase} (hr : r ∈ (s.setHandler i h phase).held) :
    r ∈ s.held ∨ phase.session? = some r := by
  rcases List.mem_append.mp hr with hr | hr
  · obtain ⟨h', hmem, hh'⟩ := List.mem_filterMap.mp hr
    rcases List.mem_or_eq_of_mem_set hmem with hold | rfl
    · exact Or.inl (List.mem_append_left _ (List.mem_filterMap.mpr ⟨h', hold, hh'⟩))
    · exact Or.inr hh'
  · exact Or.inl (List.mem_append_right _ hr)

theorem pending_setHandler {phase : HandlerPhase} (hc : c ∈ (s.setHandler i h phase).pending) :
    c ∈ s.pending ∨ c ∈ phase.pending := by
  rcases List.mem_append.mp hc with hc | hc
  · obtain ⟨h', hmem, hh'⟩ := List.mem_flatMap.mp hc
    rcases List.mem_or_eq_of_mem_set hmem with hold | rfl
    · exact Or.inl (List.mem_append_left _ (List.mem_flatMap.mpr ⟨h', hold, hh'⟩))
    · exact Or.inr hh'
  · exact Or.inl (List.mem_append_right _ hc)

theorem held_of_handler (hi : s.handlers[i]? = some h) (hr : h.phase.session? = some r) : r ∈ s.held :=
  List.mem_append_left _ (List.mem_filterMap.mpr ⟨h, List.mem_of_getElem? hi, hr⟩)

theorem pending_of_handler (hi : s.handlers[i]? = some h) (hc : c ∈ h.phase.pending) : c ∈ s.pending :=
  List.mem_append_left _ (List.mem_flatMap.mpr ⟨h, List.mem_of_getElem? hi, hc⟩)

theorem held_router {phase : RouterPhase} (hr : r ∈ { s with router := phase }.held) :
    r ∈ s.held ∨ phase.session? = some r := by
  rcases List.mem_append.mp hr with hr | hr
  · exact Or.inl (List.mem_append_left _ hr)
  · exact Or.inr (Option.mem_toList.mp hr)

theorem pending_router {phase : RouterPhase} (hc : c ∈ { s with router := phase }.pending) :
    c ∈ s.pending ∨ c ∈ phase.pending := by
  rcases List.mem_append.mp hc with hc | hc
  · exact Or.inl (List.mem_append_left _ hc)
  · exact Or.inr hc

theorem held_of_router (hr : s.router.session? = some r) : r ∈ s.held :=
  List.mem_append_right _ (Option.mem_toList.mpr hr)

theorem pending_of_router (hc : c ∈ s.router.pending) : c ∈ s.pending := List.mem_append_right _ hc

/-- Nothing is reached that was not reached before. -/
theorem used_of_shrinks (hsm : Shrinks s.sm s'.sm) (hheld : ∀ r ∈ s'.held, r ∈ s.reached)
    (hpend : ∀ c ∈ s'.pending, s.Used c) (hc : s'.Used c) : s.Used c := by
  rcases hc with hc | hc
  · obtain ⟨r, p, hr, hreached, hn⟩ := mem_conns.mp hc
    obtain ⟨hlt, hn⟩ := hsm.names r p c hr hn
    refine Or.inl (mem_conns.mpr ⟨r, p, hlt, ?_, hn⟩)
    rcases List.mem_append.mp hreached with hlive | hr
    · exact List.mem_append_left _ (hsm.live r hlive hlt)
    · exact hheld r hr
  · exact hpend c hc

theorem mem_set_of_ne {α : Type} {l : List α} {i : ℕ} {a b x : α} (hi : l[i]? = some a) (hb : b ∈ l)
    (hne : b ≠ a) : b ∈ l.set i x := by
  obtain ⟨j, hj⟩ := List.mem_iff_getElem?.mp hb
  have hij : i ≠ j := by
    rintro rfl
    exact hne (Option.some.inj (hj.symm.trans hi))
  exact List.mem_iff_getElem?.mpr ⟨j, (List.getElem?_set_ne hij).trans hj⟩

theorem alive_setHandler (hi : s.handlers[i]? = some h) {phase : HandlerPhase} (hphase : phase ≠ .exited)
    (ha : s.Alive c) : (s.setHandler i h phase).Alive c := by
  obtain ⟨hclosed, h', hmem, hconn, hrunning⟩ := ha
  refine ⟨hclosed, ?_⟩
  by_cases he : h' = h
  · subst he
    exact ⟨{ h' with phase := phase }, List.mem_set (List.getElem?_eq_some_iff.mp hi).1 _, hconn, hphase⟩
  · exact ⟨h', mem_set_of_ne hi hmem he, hconn, hrunning⟩

/-- The connection that is replaced, if it is another one. -/
theorem evicts_replaced {tcpConn : Option Conn} {conn : Conn} {e : Eviction}
    (he : e ∈ (tcpConn.filter (· ≠ conn)).toList.map (Eviction.mk · conn)) :
    tcpConn = some e.old ∧ e.old ≠ conn ∧ e.successor = conn := by
  obtain ⟨old, hold, rfl⟩ := List.mem_map.mp he
  rw [Option.mem_toList, Option.filter_eq_some_iff] at hold
  exact ⟨hold.1, of_decide_eq_true hold.2, rfl⟩

/-- The targets of a packet are players of the session. -/
theorem names_of_passTargets {order : RangeOrder PlayerID} {data : Bytes} {sm : SessionManager}
    {targets : List PlayerSendTarget} (ht : (sm.session r).passTargets order data = some targets)
    (hc : c ∈ targets.filterMap (·.tcpConn)) : ∃ p, sm.Names r p c := by
  obtain ⟨t, hmem, hconn⟩ := List.mem_filterMap.mp hc
  unfold Session.passTargets at ht
  split at ht
  · cases ht
    obtain ⟨p, info, hp, -, -, rfl⟩ := mem_forEachOtherPlayerTarget.mp hmem
    exact ⟨p, info, hp, hconn⟩
  · obtain ⟨t', ht', rfl⟩ := Option.map_eq_some_iff.mp ht
    cases List.mem_singleton.mp hmem
    obtain ⟨info, hp, rfl⟩ := Option.map_eq_some_iff.mp ht'
    exact ⟨destOf data, info, hp, hconn⟩

/-! ## The invariant -/

/-- The connections in use are alive and have not been evicted, and each entry that names a connection has
its installation on the observer's list. -/
structure Orderly (s : TCPServer) : Prop where
  consistent : Consistent s.sm
  fresh : ∀ h ∈ s.handlers, h.conn.id < s.accepted
  refs : ∀ r ∈ s.held, r < s.sm.heap.next
  alive : ∀ c, s.Used c → s.Alive c
  kept : ∀ c, s.Used c → ∀ e ∈ s.evictions, e.old ≠ c
  noted : ∀ r p c, r < s.sm.heap.next → s.sm.Names r p c → ⟨c, r, p⟩ ∈ s.installations
  older : ∀ e ∈ s.evictions, ⟨e.successor, e.old⟩ ∉ s.evictions

namespace Orderly

theorem shrinks_refl (ho : Orderly s) : Shrinks s.sm s.sm := (SameTables.refl s.sm).shrinks ho.consistent

theorem ref_lt (ho : Orderly s) (hr : r ∈ s.reached) : r < s.sm.heap.next := by
  rcases List.mem_append.mp hr with hr | hr
  · obtain ⟨sid, hsid⟩ := mem_live.mp hr
    exact ho.consistent.ref_lt sid r hsid
  · exact ho.refs r hr

/-- A retired connection is not in use. -/
theorem not_used (ho : Orderly s) (hc : s.Retired c) : ¬ s.Used c := by
  intro hused
  rcases hc with ⟨e, he, hold⟩ | ⟨hpend, hgone⟩
  · exact ho.kept c hused e he hold
  · rcases hused with hconns | hc
    · obtain ⟨r, p, hr, hreached, hn⟩ := mem_conns.mp hconns
      rcases hgone ⟨c, r, p⟩ (ho.noted r p c hr hn) rfl with hr | hp
      · exact hr hreached
      · obtain ⟨info, hinfo, -⟩ := hn
        exact hp (AList.lookup_isSome.mp (Option.isSome_of_mem hinfo))
    · exact hpend hc

/-- A step after which nothing is reached that was not reached before. -/
theorem advance (ho : Orderly s) (hsm : Shrinks s.sm s'.sm) (hheld : ∀ r ∈ s'.held, r ∈ s.reached)
    (hpend : ∀ c ∈ s'.pending, s.Used c) (hfresh : ∀ h ∈ s'.handlers, h.conn.id < s'.accepted)
    (halive : ∀ c, s.Used c → s.Alive c → s'.Alive c) (hevictions : s'.evictions = s.evictions)
    (hnoted : ∀ r p c, s'.sm.Names r p c → ⟨c, r, p⟩ ∈ s.installations → ⟨c, r, p⟩ ∈ s'.installations) :
    Orderly s' where
  consistent := hsm.consistent
  fresh := hfresh
  refs r hr := (ho.ref_lt (hheld r hr)).trans_le hsm.next
  alive c hc := by
    have hused := used_of_shrinks hsm hheld hpend hc
    exact halive c hused (ho.alive c hused)
  kept c hc e he := ho.kept c (used_of_shrinks hsm hheld hpend hc) e (hevictions ▸ he)
  noted r p c hr hn := by
    obtain ⟨hr', hn'⟩ := hsm.names r p c hr hn
    exact hnoted r p c hn (ho.noted r p c hr' hn')
  older e he he' := ho.older e (hevictions ▸ he) (hevictions ▸ he')

theorem fresh_setHandler (ho : Orderly s) (hi : s.handlers[i]? = some h) (phase : HandlerPhase) :
    ∀ h' ∈ s.handlers.set i { h with phase := phase }, h'.conn.id < s.accepted := by
  intro h' hmem
  rcases List.mem_or_eq_of_mem_set hmem with hold | rfl
  · exact ho.fresh h' hold
  · exact ho.fresh h (List.mem_of_getElem? hi)

/-- A step of a handler that goes on. -/
theorem walk (ho : Orderly s) (hi : s.handlers[i]? = some h) {phase : HandlerPhase} {sm' : SessionManager}
    (hsm : Shrinks s.sm sm') (hphase : phase ≠ .exited) (href : ∀ r ∈ phase.session?, r ∈ s.reached)
    (hpend : ∀ c ∈ phase.pending, s.Used c) : Orderly { s.setHandler i h phase with sm := sm' } := by
  refine ho.advance hsm (fun r hr => ?_) (fun c hc => ?_) (ho.fresh_setHandler hi phase)
    (fun c _ ha => alive_setHandler hi hphase ha) rfl (fun _ _ _ _ hx => hx)
  · rcases held_setHandler hr with hold | hnew
    · exact List.mem_append_right _ hold
    · exact href r hnew
  · rcases pending_setHandler hc with hold | hnew
    · exact Or.inr hold
    · exact hpend c hnew

/-- A step of the router. -/
theorem turn (ho : Orderly s) {phase : RouterPhase} {sm' : SessionManager} (hsm : Shrinks s.sm sm')
    (href : ∀ r ∈ phase.session?, r ∈ s.reached) (hpend : ∀ c ∈ phase.pending, s.Used c) :
    Orderly { s with sm := sm', router := phase } := by
  refine ho.advance hsm (fun r hr => ?_) (fun c hc => ?_) ho.fresh (fun c _ ha => ha) rfl
    (fun _ _ _ _ hx => hx)
  · rcases held_router hr with hold | hnew
    · exact List.mem_append_right _ hold
    · exact href r hnew
  · rcases pending_router hc with hold | hnew
    · exact Or.inr hold
    · exact hpend c hnew

/-- A handler returns, and its connection is retired. -/
theorem exit (ho : Orderly s) (hi : s.handlers[i]? = some h) (hretired : s.Retired h.conn)
    {sm' : SessionManager} (hsm : Shrinks s.sm sm') : Orderly { s.exit i h with sm := sm' } := by
  refine ho.advance hsm (fun r hr => ?_) (fun c hc => ?_) (ho.fresh_setHandler hi .exited)
    (fun c hused ha => ?_) rfl (fun _ _ _ _ hx => hx)
  · have hr : r ∈ (s.setHandler i h .exited).held := hr
    rcases held_setHandler hr with hold | hnew
    · exact List.mem_append_right _ hold
    · cases hnew
  · have hc : c ∈ (s.setHandler i h .exited).pending := hc
    rcases pending_setHandler hc with hold | hnew
    · exact Or.inr hold
    · cases hnew
  · have hne : c ≠ h.conn := by
      rintro rfl
      exact ho.not_used hretired hused
    obtain ⟨hclosed, h', hmem, hconn, hrunning⟩ := ha
    have hother : h' ≠ h := by
      rintro rfl
      exact hne hconn.symm
    exact ⟨by simp [TCPServer.exit, hclosed, hne], h', mem_set_of_ne hi hmem hother, hconn, hrunning⟩

/-- The player has no connection after the step, and the observer's list forgets its installations. -/
theorem release (ho : Orderly s) {p : PlayerID} (hnames : ∀ c, ¬ s.sm.Names r p c) :
    Orderly (s.release r p) := by
  refine ⟨ho.consistent, ho.fresh, ho.refs, ho.alive, ho.kept, fun r' p' c hr hn => ?_, ho.older⟩
  refine List.mem_filter.mpr ⟨ho.noted r' p' c hr hn, ?_⟩
  have hother : ¬ (r' = r ∧ p' = p) := by
    rintro ⟨rfl, rfl⟩
    exact hnames c hn
  simpa [not_and_or, imp_iff_not_or] using hother

theorem fault (ho : Orderly s) (f : Fault) : Orderly { s with fault := some f } :=
  ⟨ho.consistent, ho.fresh, ho.refs, ho.alive, ho.kept, ho.noted, ho.older⟩

/-- A new connection is none of those in use. -/
theorem ne_new (ho : Orderly s) (hc : s.Used c) (remoteAddr : Option AddrPort) :
    c ≠ ⟨s.accepted, remoteAddr⟩ := by
  rintro rfl
  obtain ⟨-, h, hmem, hconn, -⟩ := ho.alive _ hc
  have hid := ho.fresh h hmem
  rw [hconn] at hid
  exact Nat.lt_irrefl _ hid

theorem accept (ho : Orderly s) (remoteAddr : Option AddrPort) : Orderly (s.accept remoteAddr) := by
  unfold TCPServer.accept
  dsimp only
  split
  · refine ho.advance ho.shrinks_refl (fun r hr => List.mem_append_right _ hr) (fun c hc => Or.inr hc)
      (fun h hmem => Nat.lt_succ_of_lt (ho.fresh h hmem)) (fun c hused ha => ?_) rfl (fun _ _ _ _ hx => hx)
    exact ⟨by simp [ha.1, ho.ne_new hused remoteAddr], ha.2⟩
  · refine ho.advance ho.shrinks_refl (fun r hr => List.mem_append_right _ ?_) (fun c hc => Or.inr ?_)
      (fun h hmem => ?_) (fun c _ ha => ?_) rfl (fun _ _ _ _ hx => hx)
    · simpa [held, HandlerPhase.session?] using hr
    · simpa [pending, HandlerPhase.pending] using hc
    · rcases List.mem_append.mp hmem with hold | hnew
      · exact Nat.lt_succ_of_lt (ho.fresh h hold)
      · rw [List.mem_singleton.mp hnew]
        exact Nat.lt_succ_self _
    · obtain ⟨hclosed, h, hmem, hconn, hrunning⟩ := ha
      exact ⟨hclosed, h, List.mem_append_left _ hmem, hconn, hrunning⟩

section Install
variable {data : Bytes} {info : PlayerInfo} {sm' : SessionManager}

/-- The server when the connection of an accepted frame has taken the place of the one its sender had. -/
abbrev installed (s : TCPServer) (i : ℕ) (h : ConnHandler) (data : Bytes) (r : SessionRef) (info : PlayerInfo)
    (sm' : SessionManager) : TCPServer :=
  { { s with sm := sm', evictions := s.evictions ++
      (info.tcpConn.filter (· ≠ h.conn)).toList.map (Eviction.mk · h.conn) }.setHandler i h
        (.answering data r) with installations := s.installations ++ [⟨h.conn, r, senderOf data⟩] }

/-- The handler worked on the session before. -/
theorem held_installed (hi : s.handlers[i]? = some h) (hphase : h.phase = .updating data r) {r' : SessionRef}
    (hr' : r' ∈ (installed s i h data r info sm').held) : r' ∈ s.held := by
  have hr' : r' ∈ (s.setHandler i h (.answering data r)).held := hr'
  rcases held_setHandler hr' with hold | hnew
  · exact hold
  · cases hnew
    exact held_of_handler hi (by rw [hphase]; rfl)

variable (hnext : sm'.heap.next = s.sm.heap.next) (hlive : sm'.live = s.sm.live)
  (hnames : ∀ r' p c, sm'.Names r' p c → (r' = r ∧ p = senderOf data ∧ c = h.conn) ∨
    (¬ (r' = r ∧ p = senderOf data) ∧ s.sm.Names r' p c))
include hnext hlive hnames

/-- Who is reached by a connection then. -/
theorem used_installed (hi : s.handlers[i]? = some h) (hphase : h.phase = .updating data r)
    (hc : Used (installed s i h data r info sm') c) :
    c = h.conn ∨ c ∈ s.otherConns r (senderOf data) ∨ c ∈ s.pending := by
  rcases hc with hc | hc
  · obtain ⟨r', p, hr', hreached, hn⟩ := mem_conns.mp hc
    rcases hnames r' p c hn with ⟨-, -, hnew⟩ | ⟨hother, hn'⟩
    · exact Or.inl hnew
    · refine Or.inr (Or.inl (mem_otherConns.mpr ⟨r', p, hnext ▸ hr', ⟨?_, hother⟩, hn'⟩))
      rcases List.mem_append.mp hreached with hl | hh
      · exact List.mem_append_left _ (hlive ▸ hl)
      · exact List.mem_append_right _ (held_installed hi hphase hh)
  · have hc : c ∈ (s.setHandler i h (.answering data r)).pending := hc
    rcases pending_setHandler hc with hold | hnew
    · exact Or.inr (Or.inr hold)
    · cases hnew

theorem install (ho : Orderly s) (hi : s.handlers[i]? = some h) (hphase : h.phase = .updating data r)
    (htidy : s.InstallsTidily h data r)
    (hq : (s.sm.session r).players.lookup (senderOf data) = some info) (hconsistent : Consistent sm') :
    Orderly (installed s i h data r info sm') := by
  have hmem := List.mem_of_getElem? hi
  have hused : ∀ c, Used (installed s i h data r info sm') c →
      c = h.conn ∨ c ∈ s.otherConns r (senderOf data) ∨ c ∈ s.pending := fun c hc =>
    used_installed hnext hlive hnames hi hphase hc
  refine ⟨hconsistent, ho.fresh_setHandler hi _, fun r' hr' => ?_, fun c hc => ?_, fun c hc e he => ?_,
    fun r' p c hr' hn => ?_, fun e he he' => ?_⟩
  · exact (ho.refs r' (held_installed hi hphase hr')).trans_eq hnext.symm
  · rcases hused c hc with rfl | hold
    · exact alive_setHandler hi (by simp) ⟨htidy.notClosed, h, hmem, rfl, by simp [hphase]⟩
    · exact alive_setHandler hi (by simp) (ho.alive c (used_of_otherConns hold))
  · rcases List.mem_append.mp he with hold | hnew
    · rcases hused c hc with rfl | hc
      · exact htidy.notEvicted e hold
      · exact ho.kept c (used_of_otherConns hc) e hold
    · obtain ⟨hconn, hne, -⟩ := evicts_replaced hnew
      obtain ⟨halone, hpending⟩ := htidy.alone info hq e.old hconn hne
      rintro rfl
      rcases hused _ hc with hc | hc | hc
      · exact hne hc
      · exact halone hc
      · exact hpending hc
  · rcases hnames r' p c hn with ⟨rfl, rfl, rfl⟩ | ⟨-, hn'⟩
    · exact List.mem_append_right _ (List.mem_singleton.mpr rfl)
    · exact List.mem_append_left _ (ho.noted r' p c (hnext ▸ hr') hn')
  · rcases List.mem_append.mp he with hold | hnew <;> rcases List.mem_append.mp he' with hold' | hnew'
    · exact ho.older e hold hold'
    · obtain ⟨-, -, hsucc⟩ := evicts_replaced hnew'
      exact htidy.notEvicted e hold hsucc
    · obtain ⟨-, -, hsucc⟩ := evicts_replaced hnew
      exact htidy.notEvicted _ hold' hsucc
    · obtain ⟨-, -, hsucc⟩ := evicts_replaced hnew
      obtain ⟨-, hne, -⟩ := evicts_replaced hnew'
      exact hne hsucc

end Install

theorem update (ho : Orderly s) (hi : s.handlers[i]? = some h) {data : Bytes}
    (hphase : h.phase = .updating data r) (htidy : s.InstallsTidily h data r) (now : Instant) :
    Orderly (s.update i h data r now) := by
  have hrep := replaces_updatePlayerTCP ho.consistent r (senderOf data) h.conn now
  unfold TCPServer.update
  generalize s.sm.updatePlayerTCP r (senderOf data) h.conn now = out at hrep
  cases hrep with
  | @refused v sm' hv hspoofed hshrinks =>
    have hcounted := hshrinks.trans ((sameTables_countRejected v sm').shrinks hshrinks.consistent)
    simp only [hv, Option.filter_none, Option.toList_none, List.map_nil, List.append_nil,
      Bool.false_eq_true, if_false]
    split
    · next hs => exact ho.exit hi (htidy.spoofed (hspoofed hs)) hcounted
    · exact ho.walk hi hcounted (by simp) nofun nofun
  | installed hv hq hconsistent hnext hlive hnames =>
    simp only [hv, if_true]
    exact install hnext hlive hnames ho hi hphase htidy hq hconsistent

theorem frame (ho : Orderly s) (i : ℕ) (data : Bytes) : Orderly (s.frame i data) := by
  unfold TCPServer.frame
  split
  · next h hi =>
    split
    · split
      · exact ho.walk hi ((sameTables_countDropped s.sm).shrinks ho.consistent) (by simp) nofun nofun
      · exact ho.walk hi ho.shrinks_refl (by simp) nofun nofun
    · exact ho
  · exact ho

theorem readError (ho : Orderly s) (htidy : s.Tidy (.readError i)) : Orderly (s.readError i) := by
  unfold TCPServer.readError
  split
  · next h hi =>
    split
    · next hphase => exact ho.exit hi (htidy h hi hphase) ho.shrinks_refl
    · exact ho
  · exact ho

/-- `FindSessionByPlayer` returns a session of the map. -/
theorem reached_of_find (ho : Orderly s) {p : PlayerID} (hr : s.sm.findSessionByPlayer p = some r) :
    r ∈ s.reached := by
  obtain ⟨sid, -, hsid, -⟩ := ho.consistent.of_findSessionByPlayer hr
  exact List.mem_append_left _ (mem_live.mpr ⟨sid, hsid⟩)

theorem find (ho : Orderly s) (hi : s.handlers[i]? = some h) (data : Bytes) : Orderly (s.find i h data) := by
  unfold TCPServer.find
  split
  · exact ho.walk hi ((sameTables_countDropped s.sm).shrinks ho.consistent) (by simp) nofun nofun
  · next r hr =>
    refine ho.walk hi ho.shrinks_refl (by simp) (fun r' hr' => ?_) nofun
    cases hr'
    exact ho.reached_of_find hr

/-- A write, after which the goroutine goes on as in `s'`. -/
theorem send (ho : Orderly s) {net : Network} {data : Bytes} {t : PlayerSendTarget}
    (hnext : ∀ sm', Shrinks s.sm sm' → Orderly { s' with sm := sm' }) : Orderly (s.send net data t s') := by
  unfold TCPServer.send
  split
  · next sm' sent hok => exact hnext sm' ((sameTables_deliver hok).shrinks ho.consistent)
  · exact ho.fault _

theorem echo (ho : Orderly s) (hi : s.handlers[i]? = some h) {data : Bytes} {net : Network}
    (hecho : destOf data = senderOf data) (htidy : s.EchoFails h data net → s.Retired h.conn) :
    Orderly (s.echo i h data net) := by
  unfold TCPServer.echo
  split
  · exact ho.fault _
  · next bytes hbytes =>
    split
    · exact ho.walk hi ((sameTables_countEchoed s.sm).shrinks ho.consistent) (by simp) nofun nofun
    · next hfail =>
      refine ho.exit hi (htidy ⟨hecho, ?_⟩) ho.shrinks_refl
      rw [wire_of_writeTCPFrame hbytes h.conn]
      exact Bool.eq_false_iff.mpr hfail

/-- The targets a goroutine finds in the session it works on are in use. -/
theorem used_of_passTargets (ho : Orderly s) (hr : r ∈ s.held) {order : RangeOrder PlayerID} {data : Bytes}
    {targets : List PlayerSendTarget} (ht : (s.sm.session r).passTargets order data = some targets)
    (hc : c ∈ targets.filterMap (·.tcpConn)) : s.Used c := by
  obtain ⟨p, hn⟩ := names_of_passTargets ht hc
  exact Or.inl (mem_conns.mpr ⟨r, p, ho.refs r hr, List.mem_append_right _ hr, hn⟩)

theorem handle (ho : Orderly s) {now : Instant} {net : Network} {order : RangeOrder PlayerID}
    (htidy : s.Tidy (.handle i now net order)) : Orderly (s.handle i now net order).1 := by
  have hdropped := (sameTables_countDropped s.sm).shrinks ho.consistent
  unfold TCPServer.handle
  split
  · exact ho
  · next h hi =>
    have htidy := htidy h hi
    cases hphase : h.phase with
    | top =>
      rw [hphase] at htidy
      dsimp only
      split
      · next hcancelled => exact ho.exit hi (htidy hcancelled) ho.shrinks_refl
      · exact ho.walk hi ho.shrinks_refl (by simp) nofun nofun
    | reading => exact ho
    | finding data => exact ho.find hi data
    | updating data r =>
      rw [hphase] at htidy
      exact ho.update hi hphase htidy now
    | answering data r =>
      rw [hphase] at htidy
      dsimp only
      split
      · next hecho => exact ho.echo hi hecho htidy
      · split
        · exact ho.walk hi hdropped (by simp) nofun nofun
        · next targets ht =>
          have hr : r ∈ s.held := held_of_handler hi (by rw [hphase]; rfl)
          exact ho.walk hi ho.shrinks_refl (by simp) nofun fun c hc => ho.used_of_passTargets hr ht hc
    | sending data targets =>
      cases targets with
      | nil => exact ho.walk hi ho.shrinks_refl (by simp) nofun nofun
      | cons t rest =>
        refine ho.send fun sm' hsm => ho.walk hi hsm (by simp) nofun fun c hc => Or.inr ?_
        refine pending_of_handler hi ?_
        obtain ⟨t', hmem, hconn⟩ := List.mem_filterMap.mp hc
        rw [hphase]
        exact List.mem_filterMap.mpr ⟨t', List.mem_cons_of_mem _ hmem, hconn⟩
    | exited => exact ho

theorem datagram (ho : Orderly s) (remoteAddr : AddrPort) (data : Bytes) :
    Orderly (s.datagram remoteAddr data) := by
  unfold TCPServer.datagram
  split
  · next hread =>
    split
    · refine ho.advance ((sameTables_countDropped s.sm).shrinks ho.consistent)
        (fun r hr => List.mem_append_right _ hr) (fun c hc => Or.inr hc) ho.fresh (fun _ _ ha => ha) rfl
        (fun _ _ _ _ hx => hx)
    · exact ho.turn ho.shrinks_refl nofun nofun
  · exact ho

theorem updateAddr (ho : Orderly s) {remoteAddr : AddrPort} {data : Bytes}
    (hphase : s.router = .updating remoteAddr data r) (now : Instant) :
    Orderly (s.updateAddr remoteAddr data r now) := by
  have hsm := shrinks_updatePlayerAddr ho.consistent r (senderOf data) remoteAddr now
  have hr : r ∈ s.held := held_of_router (by rw [hphase]; rfl)
  unfold TCPServer.updateAddr
  dsimp only
  split
  · next hv =>
    have hturn : Orderly { s with
        sm := (s.sm.updatePlayerAddr r (senderOf data) remoteAddr now).2
        router := .answering data r } := by
      refine ho.turn hsm (fun r' hr' => ?_) nofun
      cases hr'
      exact List.mem_append_right _ hr
    exact hturn.release fun c => not_names_of_heard hv
  · exact ho.turn (hsm.trans ((sameTables_countRejected _ _).shrinks hsm.consistent)) nofun nofun

theorem route (ho : Orderly s) (now : Instant) (net : Network) (order : RangeOrder PlayerID) :
    Orderly (s.route now net order).1 := by
  have hdropped := (sameTables_countDropped s.sm).shrinks ho.consistent
  unfold TCPServer.route
  cases hphase : s.router with
  | reading => exact ho
  | finding remoteAddr data =>
    dsimp only
    split
    · exact ho.turn hdropped nofun nofun
    · next r hr =>
      refine ho.turn ho.shrinks_refl (fun r' hr' => ?_) nofun
      cases hr'
      exact ho.reached_of_find hr
  | updating remoteAddr data r => exact ho.updateAddr hphase now
  | answering data r =>
    dsimp only
    split
    · exact ho.turn ((sameTables_countEchoed s.sm).shrinks ho.consistent) nofun nofun
    · split
      · exact ho.turn hdropped nofun nofun
      · next targets ht =>
        have hr : r ∈ s.held := held_of_router (by rw [hphase]; rfl)
        exact ho.turn ho.shrinks_refl nofun fun c hc => ho.used_of_passTargets hr ht hc
  | sending data targets =>
    cases targets with
    | nil => exact ho.turn ho.shrinks_refl nofun nofun
    | cons t rest =>
      refine ho.send fun sm' hsm => ho.turn hsm nofun fun c hc => Or.inr (pending_of_router ?_)
      obtain ⟨t', hmem, hconn⟩ := List.mem_filterMap.mp hc
      rw [hphase]
      exact List.mem_filterMap.mpr ⟨t', List.mem_cons_of_mem _ hmem, hconn⟩

theorem call (ho : Orderly s) (c : Call) : Orderly (s.call c) := by
  have hcalled : Orderly { s with sm := (s.sm.call c).2 } :=
    ho.advance (shrinks_call ho.consistent c) (fun r hr => List.mem_append_right _ hr)
      (fun c hc => Or.inr hc) ho.fresh (fun _ _ ha => ha) rfl (fun _ _ _ _ hx => hx)
  unfold TCPServer.call
  dsimp only
  split
  · next sid p login _ hok =>
    split
    · next r hr => exact hcalled.release fun c => not_names_of_joined ho.consistent hr hok
    · exact hcalled
  · exact hcalled

theorem step (ho : Orderly s) {ev : TCPEvent} (htidy : s.Tidy ev) : Orderly (s.step ev).1 := by
  unfold TCPServer.step
  split
  · exact ho
  · cases ev with
    | accept remoteAddr => exact ho.accept remoteAddr
    | frame i data => exact ho.frame i data
    | readError i => exact ho.readError htidy
    | handle i now net order => exact ho.handle htidy
    | datagram remoteAddr data => exact ho.datagram remoteAddr data
    | route now net order => exact ho.route now net order
    | closeOld j =>
      dsimp only
      split
      · next e he =>
        refine ho.advance ho.shrinks_refl (fun r hr => List.mem_append_right _ hr) (fun c hc => Or.inr hc)
          ho.fresh (fun c hused ha => ?_) rfl (fun _ _ _ _ hx => hx)
        have hne := ho.kept c hused e (List.mem_of_getElem? he)
        exact ⟨by simp [ha.1, hne.symm], ha.2⟩
      · exact ho
    | cancel => exact ⟨ho.consistent, ho.fresh, ho.refs, ho.alive, ho.kept, ho.noted, ho.older⟩
    | call c => exact ho.call c

end Orderly

/-- The hello of player 1. -/
def helloFrame : Bytes := [0, 0, 0, 1, 0, 0, 0, 1]

def playerAddr (port : UInt16) : Option AddrPort := some ⟨.v4 0x7F000001, port⟩

def handleEvent (i : ℕ) : TCPEvent := .handle i 0 .reliable .listed

def routeEvent : TCPEvent := .route 0 .reliable .listed

/-- Connection `i` says hello: the frame is read, its sender found and updated. -/
def helloEvents (i : ℕ) : List TCPEvent :=
  [handleEvent i, .frame i helloFrame, handleEvent i, handleEvent i]

/-- Player 1 joins and says hello over a first connection. -/
def firstConnEvents : List TCPEvent :=
  [.call (.createSession "game" 8 0), .call (.addPlayerToSession "game" 1 "one"),
    .accept (playerAddr 4000)] ++ helloEvents 0 ++ [handleEvent 0]

/-- Player 2 joins and sends player 1 a datagram, up to the write. -/
def datagramEvents : List TCPEvent :=
  [.call (.addPlayerToSession "game" 2 "two"), .datagram ⟨.v4 0x7F000002, 5000⟩ [0, 0, 0, 2, 0, 0, 0, 1, 42]] ++
    List.replicate 3 routeEvent

/-- The player comes back over a second connection; the first is closed, and its handler returns. Then a
datagram is passed on to the player. -/
def reconnectEvents : List TCPEvent :=
  firstConnEvents ++ [handleEvent 0, .accept (playerAddr 4001)] ++ helloEvents 1 ++
    [.closeOld 0, .readError 0] ++ datagramEvents

end TCPServer
end SturmRelay
