import Mathlib.Data.List.Nodup
import Mathlib.Data.List.Perm.Subperm
import SturmRelay.Foundations.Heap
import SturmRelay.Foundations.Runs
import SturmRelay.Protocol.JSONRPC

/-! # The RPC server

`internal/adapter/rpcserver.go`, with the reader and writer of `internal/protocol/jsonrpc.go`. The accept
loop, one goroutine for each client and any number of callers of `SendNotification` run side by side;
each step below is what one of them does between two accesses to what they share. A message is written
under the writer's mutex: no other comes between its bytes, and a `bufio.Writer` that has failed, perhaps
in the middle of a message, fails from then on.

JSON values are a parameter, as are `json.Unmarshal` of a request (`parse`) and whether `json.Marshal`
takes a result (`marshals`; an id comes from a request, and the rest of a reply are numbers and strings).
What `HandleRequest` answers and whether the connection takes a write comes with the event. -/

namespace SturmRelay
namespace Adapter
set_option autoImplicit false

def maxRPCClients : ℤ := 4

/-- `id` is missing when it is absent or null. -/
structure JSONRPCRequest (V : Type) where
  id : Option V
  method : String
  params : List V

inductive JSONRPCMessage (V : Type)
  | response (id result : V)
  | error (id : V) (code : ℤ) (message : String)
  | notification (method : String) (params : List V)

def JSONRPCMessage.isReply {V : Type} : JSONRPCMessage V → Bool
  | .notification _ _ => false
  | _ => true

/-- `handleConnection`; the last three are its deferred calls. -/
inductive RPCPhase (V : Type)
  | starting
  | polling
  | reading
  | handling (req : JSONRPCRequest V)
  | replying (msg : JSONRPCMessage V)
  | leaving
  | closing
  | leavingCount
  | ended

/-- A client's connection. `stream` is what the client sends, `input` what is left of it. -/
structure RPCConn (V : Type) where
  stream : Bytes := []
  input : Bytes := []
  /-- Writes fail from now on. -/
  broken : Bool := false
  phase : RPCPhase V := .ended

/-- The accept loop with the connection it holds. -/
inductive RPCAcceptor
  | accepting
  | accepted (stream : Bytes)
  | allowed (stream : Bytes)
  | counted (stream : Bytes)
  | returned

/-- A call of `SendNotification`: its copy of the clients, and how many it has dealt with. -/
structure RPCNotifier (V : Type) where
  method : String := ""
  params : List V := []
  clients : List ℕ := []
  next : ℕ := 0

structure RPCServer (V : Type) where
  cancelled : Bool := false
  acceptor : RPCAcceptor := .accepting
  activeClients : ℤ := 0
  clients : List ℕ := []
  conns : Heap (RPCConn V) := ⟨0, fun _ => {}⟩
  notifiers : Heap (RPCNotifier V) := ⟨0, fun _ => {}⟩

inductive RPCEvent (V : Type)
  | cancel
  | accept (stream : Bytes)
  | acceptError
  | acceptor
  | handler (i : ℕ) (answer : Except String V) (taken : Bool)
  | notify (method : String) (params : List V)
  | deliver (n : ℕ) (taken : Bool)

namespace RPCServer
variable {V : Type} (parse : Bytes → Option (JSONRPCRequest V)) (marshals : V → Bool)

/-- `ReadRequest`. -/
def readRequest (stream : Bytes) : Option (JSONRPCRequest V) × Bytes :=
  match JSONRPC.readRaw () stream with
  | (.error _, rest) => (none, rest)
  | (.ok raw, rest) => (parse raw, rest)

/-- What `handleConnection` makes of an answer. A request without an id is not answered. -/
def reply (req : JSONRPCRequest V) (answer : Except String V) : Option (JSONRPCMessage V) :=
  match answer, req.id with
  | _, none => none
  | .error text, some id => some (.error id (-32603) text)
  | .ok result, some id => some (.response id result)

def marshalable : JSONRPCMessage V → Bool
  | .response _ result => marshals result
  | _ => true

/-- `writeJSON`: whether the message has gone out. A writer that has failed once goes on failing. -/
def sends (msg : JSONRPCMessage V) (taken : Bool) (c : RPCConn V) : Bool :=
  marshalable marshals msg && !c.broken && taken

def write (msg : JSONRPCMessage V) (taken : Bool) (c : RPCConn V) : RPCConn V :=
  { c with broken := c.broken || (marshalable marshals msg && !taken) }

def setPhase (i : ℕ) (p : RPCPhase V) (s : RPCServer V) : RPCServer V :=
  { s with conns := s.conns.modify i fun c => { c with phase := p } }

/-- The next step of the accept loop. -/
def acceptorStep (s : RPCServer V) : RPCServer V :=
  match s.acceptor with
  | .accepted stream =>
    if maxRPCClients ≤ s.activeClients then { s with acceptor := .accepting }
    else { s with acceptor := .allowed stream }
  | .allowed stream => { s with activeClients := s.activeClients + 1, acceptor := .counted stream }
  | .counted stream =>
    { s with conns := s.conns.alloc { stream, input := stream, phase := .starting }, acceptor := .accepting }
  | .accepting => s
  | .returned => s

/-- After a reply has been tried: a response that cannot be written ends the loop, an error does not. -/
def afterReply (msg : JSONRPCMessage V) (sent : Bool) : RPCPhase V :=
  match msg with
  | .response _ _ => if sent then .polling else .leaving
  | _ => .polling

/-- The next step of `handleConnection`. -/
def handlerStep (i : ℕ) (answer : Except String V) (taken : Bool) (s : RPCServer V) :
    RPCServer V × Option (ℕ × JSONRPCMessage V) :=
  match (s.conns.cell i).phase with
  | .starting => ({ s with clients := s.clients ++ [i] }.setPhase i .polling, none)
  | .polling => (s.setPhase i (if s.cancelled then .leaving else .reading), none)
  | .reading =>
    ({ s with conns := s.conns.modify i fun c =>
        { c with
          input := (readRequest parse c.input).2
          phase := ((readRequest parse c.input).1.map RPCPhase.handling).getD .leaving } }, none)
  | .handling req => (s.setPhase i (((reply req answer).map RPCPhase.replying).getD .polling), none)
  | .replying msg =>
    let sent := sends marshals msg taken (s.conns.cell i)
    ({ s with conns := s.conns.modify i fun c =>
        { write marshals msg taken c with phase := afterReply msg sent } },
      if sent then some (i, msg) else none)
  | .leaving => ({ s with clients := s.clients.erase i }.setPhase i .closing, none)
  | .closing =>
    ({ s with conns := s.conns.modify i fun c => { c with broken := true, phase := .leavingCount } }, none)
  | .leavingCount => ({ s with activeClients := s.activeClients - 1 }.setPhase i .ended, none)
  | .ended => (s, none)

/-- `SendNotification` writes to the next client of its copy. -/
def deliverStep (n : ℕ) (taken : Bool) (s : RPCServer V) : RPCServer V × Option (ℕ × JSONRPCMessage V) :=
  let notifier := s.notifiers.cell n
  match notifier.clients[notifier.next]? with
  | none => (s, none)
  | some i =>
    let msg := .notification notifier.method notifier.params
    ({ s with
        conns := s.conns.modify i (write marshals msg taken)
        notifiers := s.notifiers.modify n fun notifier => { notifier with next := notifier.next + 1 } },
      if sends marshals msg taken (s.conns.cell i) then some (i, msg) else none)

def step (s : RPCServer V) : RPCEvent V → RPCServer V × Option (ℕ × JSONRPCMessage V)
  | .cancel => ({ s with cancelled := true }, none)
  | .accept stream =>
    match s.acceptor with
    | .accepting => ({ s with acceptor := .accepted stream }, none)
    | _ => (s, none)
  | .acceptError =>
    match s.acceptor with
    | .accepting => (if s.cancelled then { s with acceptor := .returned } else s, none)
    | _ => (s, none)
  | .acceptor => (s.acceptorStep, none)
  | .handler i answer taken => s.handlerStep parse marshals i answer taken
  | .notify method params =>
    ({ s with notifiers := s.notifiers.alloc { method, params, clients := s.clients } }, none)
  | .deliver n taken => s.deliverStep marshals n taken

/-! ## The clients -/

/-- The goroutine has not ended. -/
def alive (c : RPCConn V) : Bool :=
  match c.phase with
  | .ended => false
  | _ => true

/-- Between entering the list of clients and leaving it. -/
def registered (c : RPCConn V) : Bool :=
  match c.phase with
  | .polling | .reading | .handling _ | .replying _ | .leaving => true
  | _ => false

theorem alive_of_registered {c : RPCConn V} (h : registered c = true) : alive c = true := by
  unfold registered at h
  unfold alive
  cases hp : c.phase <;> simp_all

/-- The accept loop has counted a client whose goroutine it has not started yet. -/
def ahead : RPCAcceptor → ℕ
  | .counted _ => 1
  | _ => 0

/-- The counter counts the goroutines, the list holds the registered ones, and there is room for a
connection that has been let in. -/
structure Tracked (s : RPCServer V) : Prop where
  unused : ∀ i, s.conns.next ≤ i → (s.conns.cell i).phase = .ended
  active : s.activeClients = s.conns.count alive + ahead s.acceptor
  room : s.activeClients ≤ maxRPCClients
  allowed : ∀ stream, s.acceptor = .allowed stream → s.activeClients < maxRPCClients
  nodup : s.clients.Nodup
  mem : ∀ i, i ∈ s.clients ↔ registered (s.conns.cell i) = true

theorem tracked_init : Tracked ({} : RPCServer V) where
  unused _ _ := rfl
  active := rfl
  room := show (0 : ℤ) ≤ 4 by decide
  allowed stream h := by cases h
  nodup := List.nodup_nil
  mem i := by simp [registered]

section Tracked
variable {s : RPCServer V}

theorem Tracked.lt_next (h : Tracked s) {i : ℕ} (halive : alive (s.conns.cell i) = true) :
    i < s.conns.next := by
  by_contra hge
  unfold alive at halive
  rw [h.unused i (Nat.le_of_not_lt hge)] at halive
  cases halive

/-- A step of one goroutine: it stays or ends, and enters or leaves the list. -/
theorem Tracked.move {s' : RPCServer V} (h : Tracked s) {i : ℕ} (f : RPCConn V → RPCConn V)
    (halive : alive (s.conns.cell i) = true) (hconns : s'.conns = s.conns.modify i f)
    (hacceptor : s'.acceptor = s.acceptor)
    (hactive : s'.activeClients = s.activeClients - 1 + (alive (f (s.conns.cell i))).toNat)
    (hnodup : s'.clients.Nodup)
    (hself : i ∈ s'.clients ↔ registered (f (s.conns.cell i)) = true)
    (hother : ∀ j, j ≠ i → (j ∈ s'.clients ↔ j ∈ s.clients)) : Tracked s' := by
  have hlt := h.lt_next halive
  have hcount := Heap.count_modify alive s.conns f hlt
  rw [halive, ← hconns] at hcount
  have hle : s'.activeClients ≤ s.activeClients := by
    rw [hactive]
    have := Bool.toNat_le (alive (f (s.conns.cell i)))
    omega
  have hold := h.active
  refine ⟨fun j hj => ?_, ?_, hle.trans h.room, fun stream hs => ?_, hnodup, fun j => ?_⟩
  · rw [hconns] at hj ⊢
    have hne : j ≠ i := fun he => absurd hlt (Nat.not_lt_of_le (he ▸ hj))
    rw [Heap.modify_cell_ne _ _ hne]
    exact h.unused j hj
  · rw [hactive, hacceptor]
    have htrue : Bool.toNat true = 1 := rfl
    omega
  · exact lt_of_le_of_lt hle (h.allowed stream (hacceptor ▸ hs))
  · by_cases hj : j = i
    · rw [hj, hself, hconns, Heap.modify_cell_self]
    · rw [hother j hj, h.mem, hconns, Heap.modify_cell_ne _ _ hj]

/-- A step that changes neither the list nor the counter. -/
theorem Tracked.stay {s' : RPCServer V} (h : Tracked s) {i : ℕ} (f : RPCConn V → RPCConn V)
    (hreg : registered (s.conns.cell i) = true) (hreg' : registered (f (s.conns.cell i)) = true)
    (hs' : s' = { s with conns := s.conns.modify i f }) : Tracked s' := by
  subst hs'
  refine h.move f (alive_of_registered hreg) rfl rfl ?_ h.nodup ?_ (fun j _ => Iff.rfl)
  · rw [alive_of_registered hreg']
    exact (sub_add_cancel s.activeClients 1).symm
  · rw [h.mem, hreg, hreg']

theorem Tracked.handlerStep (h : Tracked s) (i : ℕ) (answer : Except String V) (taken : Bool) :
    Tracked (s.handlerStep parse marshals i answer taken).1 := by
  unfold RPCServer.handlerStep
  cases hp : (s.conns.cell i).phase with
  | starting =>
    have hfresh : i ∉ s.clients := by
      rw [h.mem]
      simp [registered, hp]
    refine h.move (fun c => { c with phase := .polling }) (by simp [alive, hp]) rfl rfl ?_ ?_ ?_ ?_
    · exact (sub_add_cancel s.activeClients 1).symm
    · show (s.clients ++ [i]).Nodup
      rw [← List.concat_eq_append]
      exact h.nodup.concat hfresh
    · simp [registered, setPhase]
    · intro j hj
      simp [setPhase, hj]
  | polling =>
    refine h.stay _ (by simp [registered, hp]) ?_ rfl
    cases s.cancelled <;> rfl
  | reading =>
    refine h.stay _ (by simp [registered, hp]) ?_ rfl
    cases (readRequest parse (s.conns.cell i).input).1 <;> rfl
  | handling req =>
    refine h.stay _ (by simp [registered, hp]) ?_ rfl
    cases reply req answer <;> rfl
  | replying msg =>
    refine h.stay _ (by simp [registered, hp]) ?_ rfl
    cases msg with
    | response id result =>
      dsimp only [afterReply]
      split <;> rfl
    | _ => rfl
  | leaving =>
    have hmem : i ∈ s.clients := by
      rw [h.mem]
      simp [registered, hp]
    refine h.move (fun c => { c with phase := .closing }) (by simp [alive, hp]) rfl rfl ?_ ?_ ?_ ?_
    · exact (sub_add_cancel s.activeClients 1).symm
    · exact h.nodup.erase i
    · simp [registered, setPhase, h.nodup.mem_erase_iff]
    · intro j hj
      simp [setPhase, h.nodup.mem_erase_iff, hj]
  | closing =>
    have hfresh : i ∉ s.clients := by
      rw [h.mem]
      simp [registered, hp]
    refine h.move (fun c => { c with broken := true, phase := .leavingCount }) (by simp [alive, hp]) rfl rfl
      ?_ h.nodup ?_ (fun j _ => Iff.rfl)
    · exact (sub_add_cancel s.activeClients 1).symm
    · simpa [registered] using hfresh
  | leavingCount =>
    have hfresh : i ∉ s.clients := by
      rw [h.mem]
      simp [registered, hp]
    refine h.move (fun c => { c with phase := .ended }) (by simp [alive, hp]) rfl rfl ?_ h.nodup ?_
      (fun j _ => Iff.rfl)
    · simp [alive, setPhase]
    · simpa [registered, setPhase] using hfresh
  | ended => exact h

theorem Tracked.acceptorStep (h : Tracked s) : Tracked s.acceptorStep := by
  have hactive := h.active
  unfold RPCServer.acceptorStep
  cases ha : s.acceptor with
  | accepted stream =>
    rw [ha] at hactive
    dsimp only
    split
    · exact ⟨h.unused, hactive, h.room, fun _ hx => (by cases hx), h.nodup, h.mem⟩
    · rename_i hroom
      exact ⟨h.unused, hactive, h.room, fun _ _ => lt_of_not_ge hroom, h.nodup, h.mem⟩
  | allowed stream =>
    rw [ha] at hactive
    have hroom := h.allowed stream ha
    refine ⟨h.unused, ?_, by dsimp only; omega, fun _ hx => (by cases hx), h.nodup, h.mem⟩
    simp only [ahead] at hactive ⊢
    omega
  | counted stream =>
    rw [ha] at hactive
    have hnext : registered (s.conns.cell s.conns.next) = false := by
      simp [registered, h.unused _ (Nat.le_refl _)]
    refine ⟨fun i hi => ?_, ?_, h.room, fun _ hx => (by cases hx), h.nodup, fun i => ?_⟩
    · have hlt : s.conns.next < i := hi
      show (Function.update s.conns.cell s.conns.next _ i).phase = .ended
      rw [Function.update_of_ne (Nat.ne_of_gt hlt)]
      exact h.unused i (Nat.le_of_lt hlt)
    · show s.activeClients = _
      rw [Heap.count_alloc, hactive]
      rfl
    · show i ∈ s.clients ↔ registered (Function.update s.conns.cell s.conns.next _ i) = true
      by_cases hi : i = s.conns.next
      · rw [hi, Function.update_self, h.mem, hnext]
        rfl
      · rw [Function.update_of_ne hi]
        exact h.mem i
  | accepting => exact h
  | returned => exact h

/-- Writing to a connection moves no goroutine. -/
theorem phase_write (msg : JSONRPCMessage V) (taken : Bool) (i j : ℕ) (conns : Heap (RPCConn V)) :
    ((conns.modify i (write marshals msg taken)).cell j).phase = (conns.cell j).phase := by
  by_cases hj : j = i
  · rw [hj, Heap.modify_cell_self]
    rfl
  · rw [Heap.modify_cell_ne _ _ hj]

theorem Tracked.deliverStep (h : Tracked s) (n : ℕ) (taken : Bool) :
    Tracked (s.deliverStep marshals n taken).1 := by
  unfold RPCServer.deliverStep
  dsimp only
  cases (s.notifiers.cell n).clients[(s.notifiers.cell n).next]? with
  | none => exact h
  | some i =>
    dsimp only
    set msg : JSONRPCMessage V := .notification (s.notifiers.cell n).method (s.notifiers.cell n).params
    have hphase := phase_write marshals msg taken i
    refine ⟨fun j hj => ?_, ?_, h.room, h.allowed, h.nodup, fun j => ?_⟩
    · rw [hphase]
      exact h.unused j hj
    · have hcount : (s.conns.modify i (write marshals msg taken)).count alive = s.conns.count alive := by
        refine List.countP_congr fun j _ => ?_
        unfold alive
        rw [hphase]
      rw [hcount]
      exact h.active
    · unfold registered
      rw [hphase]
      exact h.mem j

theorem Tracked.step (h : Tracked s) (e : RPCEvent V) : Tracked (s.step parse marshals e).1 := by
  cases e with
  | cancel => exact ⟨h.unused, h.active, h.room, h.allowed, h.nodup, h.mem⟩
  | accept stream =>
    unfold RPCServer.step
    dsimp only
    split
    · rename_i ha
      have hactive := h.active
      rw [ha] at hactive
      exact ⟨h.unused, hactive, h.room, fun _ hx => (by cases hx), h.nodup, h.mem⟩
    · exact h
  | acceptError =>
    unfold RPCServer.step
    dsimp only
    split
    · rename_i ha
      have hactive := h.active
      rw [ha] at hactive
      split
      · exact ⟨h.unused, hactive, h.room, fun _ hx => (by cases hx), h.nodup, h.mem⟩
      · exact h
    · exact h
  | acceptor => exact h.acceptorStep
  | handler i answer taken => exact h.handlerStep parse marshals i answer taken
  | notify method params => exact ⟨h.unused, h.active, h.room, h.allowed, h.nodup, h.mem⟩
  | deliver n taken => exact h.deliverStep marshals n taken

end Tracked

theorem tracked_runState (events : List (RPCEvent V)) :
    Tracked (runState (step parse marshals) {} events) :=
  run_invariant (I := Tracked) (fun _ e h => h.step parse marshals e) tracked_init events

/-- A registered client's goroutine is one of the counted ones. -/
theorem Tracked.length_clients_le {s : RPCServer V} (h : Tracked s) :
    s.clients.length ≤ s.conns.count alive := by
  unfold Heap.count
  rw [List.countP_eq_length_filter]
  refine (List.Nodup.subperm h.nodup fun i hi => ?_).length_le
  have halive := alive_of_registered ((h.mem i).mp hi)
  exact List.mem_filter.mpr ⟨List.mem_range.mpr (h.lt_next halive), halive⟩

/-- However the accept loop, the clients' goroutines and notifications interleave: the counter is the number
of goroutines, with one more only between its increment and the start of the goroutine, and never exceeds
four; the list holds exactly the registered goroutines, each once; and a connection is turned away exactly
when four are served. -/
theorem clients_exact (events : List (RPCEvent V)) :
    let s := runState (step parse marshals) {} events
    s.activeClients = s.conns.count alive + ahead s.acceptor ∧ s.activeClients ≤ 4 ∧
    s.clients.Nodup ∧ (∀ i, i ∈ s.clients ↔ registered (s.conns.cell i) = true) ∧
    s.clients.length ≤ 4 ∧
    ∀ stream, s.acceptor = .accepted stream →
      (s.acceptorStep.acceptor = .accepting ↔ s.conns.count alive = 4) := by
  intro s
  have h : Tracked s := tracked_runState parse marshals events
  have hactive := h.active
  have hroom : s.activeClients ≤ 4 := h.room
  have hlength := h.length_clients_le
  refine ⟨hactive, hroom, h.nodup, h.mem, by omega, fun stream ha => ?_⟩
  have hcount : s.activeClients = s.conns.count alive := by
    rw [hactive, ha]
    rfl
  unfold acceptorStep
  rw [ha]
  dsimp only
  split
  · rename_i hfull
    have hfull : 4 ≤ s.activeClients := hfull
    exact ⟨fun _ => by omega, fun _ => rfl⟩
  · rename_i hfull
    have hfull : ¬ 4 ≤ s.activeClients := hfull
    exact ⟨fun hx => (by cases hx), fun _ => absurd hcount (by omega)⟩

end RPCServer
end Adapter
end SturmRelay
