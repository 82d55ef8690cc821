import SturmRelay.Adapter.RPCServer

/-! # What RPC clients are told

Every message that an `RPCServer` writes is a reply to a request or a notification. Replies are read off
the run: `handledAt` is a request of one client with the answer of `HandleRequest`, `repliedAt` a reply
that has gone out to it. -/

namespace SturmRelay
namespace Adapter
namespace RPCServer
set_option autoImplicit false
variable {V : Type} (parse : Bytes → Option (JSONRPCRequest V)) (marshals : V → Bool)

/-! ## The requests of a stream -/

/-- The first `n` requests, or fewer when a read fails before. -/
def readRequests : ℕ → Bytes → List (JSONRPCRequest V) × Bytes
  | 0, stream => ([], stream)
  | n + 1, stream =>
    match readRequest parse stream with
    | (none, rest) => ([], rest)
    | (some req, rest) => (req :: (readRequests n rest).1, (readRequests n rest).2)

/-- A stream begins with the requests `reqs` and goes on with `rest`. -/
def Begins (stream : Bytes) (reqs : List (JSONRPCRequest V)) (rest : Bytes) : Prop :=
  readRequests parse reqs.length stream = (reqs, rest)

variable {parse} in
theorem Begins.concat {stream rest rest' : Bytes} {reqs : List (JSONRPCRequest V)}
    {req : JSONRPCRequest V} (h : Begins parse stream reqs rest)
    (hread : readRequest parse rest = (some req, rest')) :
    Begins parse stream (reqs ++ [req]) rest' := by
  unfold Begins at h ⊢
  rw [List.length_append, List.length_singleton]
  induction reqs generalizing stream with
  | nil =>
    have hstream : stream = rest := congrArg Prod.snd h
    subst hstream
    simp only [List.length_nil, List.nil_append, readRequests, hread]
  | cons r reqs ih =>
    rw [List.length_cons] at h ⊢
    rw [readRequests] at h
    rw [Nat.add_right_comm, readRequests]
    rcases hr : readRequest parse stream with ⟨_ | r', mid⟩
    · simp [hr] at h
    · simp only [hr, Prod.mk.injEq, List.cons.injEq] at h
      obtain ⟨⟨rfl, hreqs⟩, hrest⟩ := h
      have hmid := ih (Prod.ext hreqs hrest)
      simp only [hmid, List.cons_append]

variable {parse} in
theorem Begins.initial {stream rest : Bytes} {reqs more : List (JSONRPCRequest V)}
    (h : Begins parse stream (reqs ++ more) rest) :
    (readRequests parse reqs.length stream).1 = reqs := by
  unfold Begins at h
  induction reqs generalizing stream with
  | nil => rfl
  | cons r reqs ih =>
    rw [List.cons_append, List.length_cons, readRequests] at h
    rw [List.length_cons, readRequests]
    rcases hr : readRequest parse stream with ⟨_ | r', mid⟩
    · simp [hr] at h
    · simp only [hr, Prod.mk.injEq, List.cons.injEq] at h
      obtain ⟨⟨rfl, hreqs⟩, hrest⟩ := h
      dsimp only
      rw [ih (Prod.ext hreqs hrest)]

/-! ## One client -/

/-- A request together with what `HandleRequest` returned. -/
abbrev Handled (V : Type) := JSONRPCRequest V × Except String V

def replies (handled : List (Handled V)) : List (JSONRPCMessage V) :=
  handled.filterMap fun x => reply x.1 x.2

/-- The request that has been read and not handled yet. -/
def pending : RPCPhase V → List (JSONRPCRequest V)
  | .handling req => [req]
  | _ => []

/-- The reply that has been made and not tried yet. -/
def inflight : RPCPhase V → List (JSONRPCMessage V)
  | .replying msg => [msg]
  | _ => []

/-- The loop of `handleConnection` has not been left. -/
def serving : RPCPhase V → Bool
  | .starting | .polling | .reading | .handling _ | .replying _ => true
  | _ => false

/-- What one step does to a connection, with the request it handles and the reply it gets out. -/
inductive Move : RPCConn V → Option (Handled V) → Option (JSONRPCMessage V) → RPCConn V → Prop
  | idle (c : RPCConn V) : Move c none none c
  | notified (c : RPCConn V) (msg : JSONRPCMessage V) (taken : Bool) :
      Move c none none (write marshals msg taken c)
  | moves (c : RPCConn V) (p : RPCPhase V) (broken : Bool) (hc : pending c.phase = [])
      (hc' : inflight c.phase = []) (hp : pending p = []) (hp' : inflight p = [])
      (hserving : serving p = true → serving c.phase = true ∧ broken = c.broken) :
      Move c none none { c with phase := p, broken := broken }
  | reads (c : RPCConn V) (hc : c.phase = .reading) :
      Move c none none { c with
        input := (readRequest parse c.input).2
        phase := ((readRequest parse c.input).1.map RPCPhase.handling).getD .leaving }
  | handles (c : RPCConn V) (req : JSONRPCRequest V) (answer : Except String V)
      (hc : c.phase = .handling req) :
      Move c (some (req, answer)) none
        { c with phase := ((reply req answer).map RPCPhase.replying).getD .polling }
  | replies (c : RPCConn V) (msg : JSONRPCMessage V) (taken : Bool) (hc : c.phase = .replying msg) :
      Move c none (if sends marshals msg taken c then some msg else none)
        { write marshals msg taken c with phase := afterReply msg (sends marshals msg taken c) }

/-- What has been handled and what has been replied so far, for a connection in its present state. -/
structure Conversation (handled : List (Handled V)) (sent : List (JSONRPCMessage V)) (c : RPCConn V) :
    Prop where
  read : ∃ rest, Begins parse c.stream (handled.map Prod.fst ++ pending c.phase) rest ∧
    (serving c.phase = true → rest = c.input)
  initial : sent <+: replies handled
  complete : serving c.phase = true → c.broken = false → sent ++ inflight c.phase = replies handled
  isReply : ∀ msg, c.phase = .replying msg → msg.isReply = true

section Conversation
variable {parse marshals}
variable {handled : List (Handled V)} {sent : List (JSONRPCMessage V)} {c c' : RPCConn V}

theorem conversation_start (stream : Bytes) :
    Conversation parse [] [] { stream := stream, input := stream, phase := .starting } where
  read := ⟨stream, rfl, fun _ => rfl⟩
  initial := List.nil_prefix
  complete _ _ := rfl
  isReply msg h := by cases h

theorem isReply_of_reply {req : JSONRPCRequest V} {answer : Except String V} {msg : JSONRPCMessage V}
    (h : reply req answer = some msg) : msg.isReply = true := by
  unfold reply at h
  split at h
  · cases h
  · cases h
    rfl
  · cases h
    rfl

theorem replies_concat (req : JSONRPCRequest V) (answer : Except String V) :
    replies (handled ++ [(req, answer)]) = replies handled ++ (reply req answer).toList := by
  unfold replies
  rw [filterMap_concat]

/-- A read: the request becomes the pending one, or the loop is left. -/
theorem Conversation.reads (h : Conversation parse handled sent c) (hc : c.phase = .reading) :
    Conversation parse handled sent { c with
      input := (readRequest parse c.input).2
      phase := ((readRequest parse c.input).1.map RPCPhase.handling).getD .leaving } := by
  obtain ⟨⟨rest, hbegins, hrest⟩, hinitial, hcomplete, -⟩ := h
  rw [hc] at hbegins hrest hcomplete
  obtain rfl := hrest rfl
  have hbegins : Begins parse c.stream (handled.map Prod.fst) c.input := by
    simpa only [pending, List.append_nil] using hbegins
  rcases hread : readRequest parse c.input with ⟨_ | req, rest⟩
  · refine ⟨⟨c.input, by simpa [pending] using hbegins, fun hs => ?_⟩, hinitial, fun hs => ?_, fun _ hm => ?_⟩
    · cases hs
    · cases hs
    · cases hm
  · refine ⟨⟨rest, hbegins.concat hread, fun _ => rfl⟩, hinitial, fun _ hb => hcomplete rfl hb, fun _ hm => ?_⟩
    cases hm

/-- A request is handled: its reply, if it gets one, is next. -/
theorem Conversation.handles (h : Conversation parse handled sent c) {req : JSONRPCRequest V}
    (answer : Except String V) (hc : c.phase = .handling req) :
    Conversation parse (handled ++ [(req, answer)]) sent
      { c with phase := ((reply req answer).map RPCPhase.replying).getD .polling } := by
  obtain ⟨⟨rest, hbegins, hrest⟩, hinitial, hcomplete, -⟩ := h
  rw [hc] at hbegins hrest hcomplete
  have hsent : c.broken = false → sent = replies handled := by
    intro hb
    simpa only [inflight, List.append_nil] using hcomplete rfl hb
  have hbegins' : Begins parse c.stream ((handled ++ [(req, answer)]).map Prod.fst) rest := by
    rw [List.map_append]
    exact hbegins
  have hinitial' : sent <+: replies (handled ++ [(req, answer)]) := by
    rw [replies_concat]
    exact hinitial.trans (List.prefix_append _ _)
  cases hr : reply req answer with
  | none =>
    refine ⟨⟨rest, ?_, fun _ => hrest rfl⟩, hinitial', fun _ hb => ?_, fun _ hm => ?_⟩
    · simpa only [Option.map_none, Option.getD_none, pending, List.append_nil] using hbegins'
    · rw [replies_concat, hr, hsent hb]
      rfl
    · cases hm
  | some msg =>
    refine ⟨⟨rest, ?_, fun _ => hrest rfl⟩, hinitial', fun _ hb => ?_, fun _ hm => ?_⟩
    · simpa only [Option.map_some, Option.getD_some, pending, List.append_nil] using hbegins'
    · rw [replies_concat, hr, hsent hb]
      rfl
    · cases hm
      exact isReply_of_reply hr

theorem sends_eq_true {msg : JSONRPCMessage V} {taken : Bool} :
    sends marshals msg taken c = true ↔
      marshalable marshals msg = true ∧ c.broken = false ∧ taken = true := by
  unfold sends
  simp [and_assoc]

/-- A message that does not get out leaves the writer broken, unless it could not be marshalled. -/
theorem broken_of_not_sends {msg : JSONRPCMessage V} {taken : Bool}
    (hmarshal : marshalable marshals msg = true) (hsends : ¬ sends marshals msg taken c = true) :
    (write marshals msg taken c).broken = true := by
  rw [sends_eq_true] at hsends
  cases hb : c.broken with
  | true => simp [write, hb]
  | false => cases taken <;> simp_all [write]

theorem afterReply_settled (msg : JSONRPCMessage V) (out : Bool) :
    pending (afterReply msg out) = [] ∧ inflight (afterReply msg out) = [] := by
  cases msg with
  | response id result => cases out <;> exact ⟨rfl, rfl⟩
  | _ => exact ⟨rfl, rfl⟩

/-- A reply is tried. If it does not get out, none will: the writer stays broken, or the loop is left. -/
theorem Conversation.replies (h : Conversation parse handled sent c) {msg : JSONRPCMessage V}
    (taken : Bool) (hc : c.phase = .replying msg) :
    Conversation parse handled
      (sent ++ (if sends marshals msg taken c then some msg else none).toList)
      { write marshals msg taken c with phase := afterReply msg (sends marshals msg taken c) } := by
  obtain ⟨⟨rest, hbegins, hrest⟩, hinitial, hcomplete, -⟩ := h
  rw [hc] at hbegins hrest hcomplete
  obtain ⟨hpending, hinflight⟩ := afterReply_settled msg (sends marshals msg taken c)
  refine ⟨⟨rest, ?_, fun _ => hrest rfl⟩, ?_, fun hserving hb => ?_, fun msg' hm => ?_⟩
  · rw [hpending]
    exact hbegins
  · by_cases hsends : sends marshals msg taken c = true
    · rw [if_pos hsends, ← hcomplete rfl (sends_eq_true.mp hsends).2.1]
      exact List.prefix_refl _
    · rw [if_neg hsends, Option.toList_none, List.append_nil]
      exact hinitial
  · rw [hinflight, List.append_nil]
    by_cases hsends : sends marshals msg taken c = true
    · rw [if_pos hsends]
      exact hcomplete rfl (sends_eq_true.mp hsends).2.1
    · exfalso
      cases hmarshal : marshalable marshals msg with
      | true =>
        have hbroken := broken_of_not_sends hmarshal hsends
        exact absurd (hbroken.symm.trans hb) (by simp)
      | false =>
        cases msg with
        | response id result =>
          rw [eq_false_of_ne_true hsends] at hserving
          cases hserving
        | _ => cases hmarshal
  · have hm : afterReply msg (sends marshals msg taken c) = .replying msg' := hm
    rw [hm] at hinflight
    cases hinflight

/-- A notification leaves the conversation alone, but may find the writer broken or break it. -/
theorem Conversation.notified (h : Conversation parse handled sent c) (msg : JSONRPCMessage V)
    (taken : Bool) : Conversation parse handled sent (write marshals msg taken c) where
  read := h.read
  initial := h.initial
  complete hserving hb := by
    refine h.complete hserving ?_
    unfold write at hb
    exact (Bool.or_eq_false_iff.mp hb).1
  isReply := h.isReply

theorem Conversation.moves (h : Conversation parse handled sent c) {p : RPCPhase V} {broken : Bool}
    (hc : pending c.phase = []) (hc' : inflight c.phase = []) (hp : pending p = [])
    (hp' : inflight p = []) (hserving : serving p = true → serving c.phase = true ∧ broken = c.broken) :
    Conversation parse handled sent { c with phase := p, broken := broken } := by
  obtain ⟨⟨rest, hbegins, hrest⟩, hinitial, hcomplete, -⟩ := h
  refine ⟨⟨rest, ?_, fun hs => hrest (hserving hs).1⟩, hinitial, fun hs hb => ?_, fun msg hm => ?_⟩
  · rw [hp, ← hc]
    exact hbegins
  · obtain ⟨hs', rfl⟩ := hserving hs
    rw [hp', ← hc']
    exact hcomplete hs' hb
  · have hm : p = .replying msg := hm
    rw [hm] at hp'
    cases hp'

theorem Conversation.move (h : Conversation parse handled sent c) {x : Option (Handled V)}
    {y : Option (JSONRPCMessage V)} (hmove : Move parse marshals c x y c') :
    Conversation parse (handled ++ x.toList) (sent ++ y.toList) c' := by
  cases hmove with
  | idle => simpa using h
  | notified msg taken => simpa using h.notified msg taken
  | moves p broken hc hc' hp hp' hserving => simpa using h.moves hc hc' hp hp' hserving
  | reads hc => simpa using h.reads hc
  | handles req answer hc => simpa using h.handles answer hc
  | replies msg taken hc => simpa using h.replies taken hc

end Conversation

/-! ## Every client of a run -/

/-- The request that this step handles for client `i`, with its answer. -/
def handledAt (i : ℕ) (x : RPCServer V × RPCEvent V × Option (ℕ × JSONRPCMessage V)) :
    Option (Handled V) :=
  match x.2.1 with
  | .handler j answer _ =>
    if j = i then
      match (x.1.conns.cell i).phase with
      | .handling req => some (req, answer)
      | _ => none
    else none
  | _ => none

/-- The reply that this step gets out to client `i`. -/
def repliedAt (i : ℕ) (x : RPCServer V × RPCEvent V × Option (ℕ × JSONRPCMessage V)) :
    Option (JSONRPCMessage V) :=
  match x.2.2 with
  | some (j, msg) => if j = i ∧ msg.isReply = true then some msg else none
  | none => none

section Steps
variable {s : RPCServer V} {i : ℕ}

variable {parse marshals} in
theorem Move.of_eq {c c₁ c₂ : RPCConn V} {x x' : Option (Handled V)}
    {y y' : Option (JSONRPCMessage V)} (h : Move parse marshals c x y c₁) (hx : x' = x) (hy : y' = y)
    (hc : c₂ = c₁) : Move parse marshals c x' y' c₂ := by
  rw [hx, hy, hc]
  exact h

theorem handledAt_self (answer : Except String V) (taken : Bool)
    (out : Option (ℕ × JSONRPCMessage V)) :
    handledAt i (s, .handler i answer taken, out) =
      match (s.conns.cell i).phase with
      | .handling req => some (req, answer)
      | _ => none :=
  if_pos rfl

/-- A step of a client's goroutine, seen at that client. -/
theorem handlerStep_move (answer : Except String V) (taken : Bool)
    (hreply : ∀ msg, (s.conns.cell i).phase = .replying msg → msg.isReply = true) :
    Move parse marshals (s.conns.cell i)
      (handledAt i (s, .handler i answer taken, (s.handlerStep parse marshals i answer taken).2))
      (repliedAt i (s, .handler i answer taken, (s.handlerStep parse marshals i answer taken).2))
      ((s.handlerStep parse marshals i answer taken).1.conns.cell i) := by
  rw [handledAt_self]
  unfold handlerStep
  -- the phases in which the goroutine only moves on
  have hmoves : ∀ (p : RPCPhase V) (broken : Bool), pending (s.conns.cell i).phase = [] →
      inflight (s.conns.cell i).phase = [] → pending p = [] → inflight p = [] →
      (serving p = true → serving (s.conns.cell i).phase = true ∧ broken = (s.conns.cell i).broken) →
      Move parse marshals (s.conns.cell i) none none
        { s.conns.cell i with phase := p, broken := broken } := Move.moves (s.conns.cell i)
  cases hp : (s.conns.cell i).phase with
  | starting =>
    rw [hp] at hmoves
    exact (hmoves .polling _ rfl rfl rfl rfl fun _ => ⟨rfl, rfl⟩).of_eq rfl rfl (by simp [setPhase])
  | polling =>
    rw [hp] at hmoves
    have hnext : pending (if s.cancelled = true then RPCPhase.leaving else .reading : RPCPhase V) = [] ∧
        inflight (if s.cancelled = true then RPCPhase.leaving else .reading : RPCPhase V) = [] := by
      split <;> exact ⟨rfl, rfl⟩
    exact (hmoves _ _ rfl rfl hnext.1 hnext.2 fun _ => ⟨rfl, rfl⟩).of_eq rfl rfl (by simp [setPhase])
  | reading => exact (Move.reads _ hp).of_eq rfl rfl (by simp)
  | handling req => exact (Move.handles _ req answer hp).of_eq rfl rfl (by simp [setPhase])
  | replying msg =>
    refine (Move.replies _ msg taken hp).of_eq rfl ?_ (by simp)
    dsimp only
    split
    · show (if i = i ∧ msg.isReply = true then some msg else none) = some msg
      rw [if_pos ⟨rfl, hreply msg hp⟩]
    · rfl
  | leaving =>
    rw [hp] at hmoves
    exact (hmoves .closing (s.conns.cell i).broken rfl rfl rfl rfl fun h => (by cases h)).of_eq rfl rfl (by simp [setPhase])
  | closing =>
    rw [hp] at hmoves
    exact (hmoves .leavingCount true rfl rfl rfl rfl fun h => (by cases h)).of_eq rfl rfl (by simp)
  | leavingCount =>
    rw [hp] at hmoves
    exact (hmoves .ended (s.conns.cell i).broken rfl rfl rfl rfl fun h => (by cases h)).of_eq rfl rfl (by simp [setPhase])
  | ended => exact Move.idle _

/-- The goroutines of the other clients, seen at client `i`. -/
theorem handlerStep_other (j : ℕ) (hj : i ≠ j) (answer : Except String V) (taken : Bool) :
    handledAt i (s, .handler j answer taken, (s.handlerStep parse marshals j answer taken).2) = none ∧
    repliedAt i (s, .handler j answer taken, (s.handlerStep parse marshals j answer taken).2) = none ∧
    (s.handlerStep parse marshals j answer taken).1.conns.cell i = s.conns.cell i := by
  refine ⟨if_neg (Ne.symm hj), ?_⟩
  have hcell : ∀ f, (s.conns.modify j f).cell i = s.conns.cell i := fun f => Heap.modify_cell_ne _ f hj
  unfold handlerStep
  cases (s.conns.cell j).phase with
  | replying msg =>
    dsimp only
    refine ⟨?_, hcell _⟩
    split
    · show (if j = i ∧ msg.isReply = true then some msg else none) = none
      rw [if_neg fun h => hj h.1.symm]
    · rfl
  | ended => exact ⟨rfl, rfl⟩
  | _ =>
    dsimp only [setPhase]
    exact ⟨rfl, hcell _⟩

/-- Notifications, seen at client `i`. -/
theorem deliverStep_move (n : ℕ) (taken : Bool) :
    Move parse marshals (s.conns.cell i) none
      (repliedAt i (s, .deliver n taken, (s.deliverStep marshals n taken).2))
      ((s.deliverStep marshals n taken).1.conns.cell i) := by
  unfold deliverStep
  dsimp only
  cases (s.notifiers.cell n).clients[(s.notifiers.cell n).next]? with
  | none => exact Move.idle _
  | some j =>
    dsimp only
    set msg : JSONRPCMessage V := .notification (s.notifiers.cell n).method (s.notifiers.cell n).params
      with hmsg
    have hnone : repliedAt i (s, .deliver n taken,
        if sends marshals msg taken (s.conns.cell j) = true then some (j, msg) else none) = none := by
      unfold repliedAt
      dsimp only
      split
      · rename_i j' msg' hout
        split at hout
        · cases hout
          rw [if_neg]
          simp [hmsg, JSONRPCMessage.isReply]
        · cases hout
      · rfl
    rw [hnone]
    by_cases hj : i = j
    · subst hj
      exact (Move.notified _ msg taken).of_eq rfl rfl (Heap.modify_cell_self _ _ _)
    · exact (Move.idle _).of_eq rfl rfl (Heap.modify_cell_ne _ _ hj)

end Steps

/-- At every client the run so far is a conversation, and where no client is yet there is none. -/
structure Conversations (tr : List (RPCServer V × RPCEvent V × Option (ℕ × JSONRPCMessage V)))
    (s : RPCServer V) : Prop where
  tracked : Tracked s
  each : ∀ i, Conversation parse (tr.filterMap (handledAt i)) (tr.filterMap (repliedAt i)) (s.conns.cell i)
  unused : ∀ i, s.conns.next ≤ i → tr.filterMap (handledAt i) = [] ∧ tr.filterMap (repliedAt i) = []

section Run
variable {s : RPCServer V} {tr : List (RPCServer V × RPCEvent V × Option (ℕ × JSONRPCMessage V))}

/-- The accept loop starts the goroutine of a new client, or leaves all connections alone. -/
theorem acceptorStep_conns (s : RPCServer V) :
    s.acceptorStep.conns = s.conns ∨ ∃ stream,
      s.acceptorStep.conns = s.conns.alloc { stream := stream, input := stream, phase := .starting } := by
  unfold acceptorStep
  cases s.acceptor with
  | counted stream => exact Or.inr ⟨stream, rfl⟩
  | accepted stream =>
    dsimp only
    split <;> exact Or.inl rfl
  | _ => exact Or.inl rfl

theorem next_le_step (s : RPCServer V) (e : RPCEvent V) :
    s.conns.next ≤ (s.step parse marshals e).1.conns.next := by
  cases e with
  | acceptor =>
    show s.conns.next ≤ s.acceptorStep.conns.next
    rcases acceptorStep_conns s with hconns | ⟨stream, hconns⟩
    · rw [hconns]
    · rw [hconns]
      exact Nat.le_succ _
  | handler i answer taken =>
    show s.conns.next ≤ (s.handlerStep parse marshals i answer taken).1.conns.next
    unfold handlerStep
    cases (s.conns.cell i).phase <;> exact Nat.le_refl _
  | deliver n taken =>
    show s.conns.next ≤ (s.deliverStep marshals n taken).1.conns.next
    unfold deliverStep
    dsimp only
    split <;> exact Nat.le_refl _
  | accept stream =>
    unfold step
    dsimp only
    split <;> exact Nat.le_refl _
  | acceptError =>
    unfold step
    dsimp only
    split
    · split <;> exact Nat.le_refl _
    · exact Nat.le_refl _
  | _ => exact Nat.le_refl _

/-- Every step moves every client, or starts it. -/
theorem step_move (e : RPCEvent V) (i : ℕ)
    (hreply : ∀ msg, (s.conns.cell i).phase = .replying msg → msg.isReply = true) :
    Move parse marshals (s.conns.cell i) (handledAt i (s, e, (s.step parse marshals e).2))
      (repliedAt i (s, e, (s.step parse marshals e).2)) ((s.step parse marshals e).1.conns.cell i) ∨
    i = s.conns.next ∧ handledAt i (s, e, (s.step parse marshals e).2) = none ∧
      repliedAt i (s, e, (s.step parse marshals e).2) = none ∧ ∃ stream,
        (s.step parse marshals e).1.conns.cell i =
          { stream := stream, input := stream, phase := .starting } := by
  cases e with
  | acceptor =>
    rcases acceptorStep_conns s with hconns | ⟨stream, hconns⟩
    · exact Or.inl ((Move.idle _).of_eq rfl rfl (congrArg (Heap.cell · i) hconns))
    · have hcell := congrArg (Heap.cell · i) hconns
      by_cases hi : i = s.conns.next
      · refine Or.inr ⟨hi, rfl, rfl, stream, hcell.trans ?_⟩
        rw [hi]
        exact Heap.alloc_cell_self _ _
      · exact Or.inl ((Move.idle _).of_eq rfl rfl (hcell.trans (Function.update_of_ne hi _ _)))
  | handler j answer taken =>
    by_cases hj : i = j
    · subst hj
      exact Or.inl (handlerStep_move parse marshals answer taken hreply)
    · obtain ⟨hhandled, hreplied, hcell⟩ := handlerStep_other parse marshals (s := s) j hj answer taken
      exact Or.inl ((Move.idle _).of_eq hhandled hreplied hcell)
  | deliver n taken => exact Or.inl (deliverStep_move parse marshals n taken)
  | accept stream =>
    left
    unfold step
    dsimp only
    split <;> exact Move.idle _
  | acceptError =>
    left
    unfold step
    dsimp only
    split
    · split <;> exact Move.idle _
    · exact Move.idle _
  | _ => exact Or.inl (Move.idle _)

variable {parse marshals} in
/-- A connection without a goroutine takes no part. -/
theorem Move.none_of_ended {c c' : RPCConn V} {x : Option (Handled V)} {y : Option (JSONRPCMessage V)}
    (h : Move parse marshals c x y c') (hc : c.phase = .ended) : x = none ∧ y = none := by
  cases h with
  | handles req answer hc' =>
    rw [hc] at hc'
    cases hc'
  | replies msg taken hc' =>
    rw [hc] at hc'
    cases hc'
  | _ => exact ⟨rfl, rfl⟩

theorem conversations_step (h : Conversations parse tr s) (e : RPCEvent V) :
    Conversations parse (tr ++ [(s, e, (s.step parse marshals e).2)]) (s.step parse marshals e).1 := by
  have hmove := fun i => step_move parse marshals e i (h.each i).isReply
  refine ⟨h.tracked.step parse marshals e, fun i => ?_, fun i hi => ?_⟩
  · rw [filterMap_concat, filterMap_concat]
    rcases hmove i with hm | ⟨hi, hhandled, hreplied, stream, hcell⟩
    · exact (h.each i).move hm
    · obtain ⟨hx, hy⟩ := h.unused i (Nat.le_of_eq hi.symm)
      rw [hx, hy, hhandled, hreplied, hcell]
      exact conversation_start stream
  · have hold : s.conns.next ≤ i := (next_le_step parse marshals s e).trans hi
    obtain ⟨hx, hy⟩ := h.unused i hold
    rw [filterMap_concat, filterMap_concat, hx, hy]
    rcases hmove i with hm | ⟨-, hhandled, hreplied, -⟩
    · obtain ⟨hhandled, hreplied⟩ := hm.none_of_ended (h.tracked.unused i hold)
      rw [hhandled, hreplied]
      exact ⟨rfl, rfl⟩
    · rw [hhandled, hreplied]
      exact ⟨rfl, rfl⟩

theorem conversations_init : Conversations parse [] ({} : RPCServer V) where
  tracked := tracked_init
  each i := ⟨⟨[], rfl, fun _ => rfl⟩, List.nil_prefix, fun hs => (by cases hs), fun _ hm => (by cases hm)⟩
  unused _ _ := ⟨rfl, rfl⟩

end Run

/-- For every client, whatever the others and the notifications do: the requests handled for it are the first
ones of its stream, in order and each once; the replies that reach it are the first ones of the replies to
these, in order, one for each request with an id and none for the others; and while the writer works and
the goroutine waits for the next request, no reply is missing. -/
theorem replies_in_order (events : List (RPCEvent V)) (i : ℕ) :
    let tr := trace (step parse marshals) {} events
    let c := (runState (step parse marshals) {} events).conns.cell i
    let handled := tr.filterMap (handledAt i)
    (readRequests parse handled.length c.stream).1 = handled.map Prod.fst ∧
    tr.filterMap (repliedAt i) <+: replies handled ∧
    (c.phase = .polling ∨ c.phase = .reading → c.broken = false →
      tr.filterMap (repliedAt i) = replies handled) := by
  intro tr c handled
  have h : Conversations parse tr (runState (step parse marshals) {} events) :=
    run_invariant_trace (step parse marshals) (conversations_init parse)
      (fun _ _ e hc => conversations_step parse marshals hc e) events
  obtain ⟨⟨rest, hbegins, -⟩, hinitial, hcomplete, -⟩ := h.each i
  refine ⟨?_, hinitial, fun hphase hb => ?_⟩
  · have hfirst := hbegins.initial
    rw [List.length_map] at hfirst
    exact hfirst
  · have hsettled : serving c.phase = true ∧ inflight c.phase = [] := by
      rcases hphase with hp | hp <;> rw [hp] <;> exact ⟨rfl, rfl⟩
    have hall := hcomplete hsettled.1 hb
    rw [hsettled.2, List.append_nil] at hall
    exact hall

/-! ## Notifications -/

/-- The client that this step of notification `n` tries. -/
def triedBy (n : ℕ) (x : RPCServer V × RPCEvent V × Option (ℕ × JSONRPCMessage V)) : Option ℕ :=
  match x.2.1 with
  | .deliver m _ =>
    if m = n then (x.1.notifiers.cell n).clients[(x.1.notifiers.cell n).next]? else none
  | _ => none

/-- The message that this step of notification `n` gets out, with its client. -/
def notifiedBy (n : ℕ) (x : RPCServer V × RPCEvent V × Option (ℕ × JSONRPCMessage V)) :
    Option (ℕ × JSONRPCMessage V) :=
  match x.2.1 with
  | .deliver m _ => if m = n then x.2.2 else none
  | _ => none

/-- The client that this step of notification `n` tries in vain: its writer is broken, or fails now. -/
def lostBy (n : ℕ) (x : RPCServer V × RPCEvent V × Option (ℕ × JSONRPCMessage V)) : Option ℕ :=
  match x.2.1 with
  | .deliver _ taken => (triedBy n x).filter fun i => (x.1.conns.cell i).broken || !taken
  | _ => none

/-- Notification `n`, called as `call`, has tried the first clients of its copy, in order, and has got its
message out to some of them. -/
structure Notifies (n : ℕ) (call : RPCNotifier V)
    (tr : List (RPCServer V × RPCEvent V × Option (ℕ × JSONRPCMessage V))) (s : RPCServer V) : Prop where
  same : s.notifiers.cell n = { call with next := (s.notifiers.cell n).next }
  tried : tr.filterMap (triedBy n) = call.clients.take (s.notifiers.cell n).next
  reached : ((tr.filterMap (notifiedBy n)).map Prod.fst).Sublist (tr.filterMap (triedBy n))
  lost : (tr.filterMap (triedBy n)).Perm
    ((tr.filterMap (notifiedBy n)).map Prod.fst ++ tr.filterMap (lostBy n))
  message : ∀ y ∈ tr.filterMap (notifiedBy n), y.2 = .notification call.method call.params

section Notifies
variable {s : RPCServer V} {n : ℕ} {call : RPCNotifier V}
variable {tr : List (RPCServer V × RPCEvent V × Option (ℕ × JSONRPCMessage V))}

theorem handlerStep_notifiers (i : ℕ) (answer : Except String V) (taken : Bool) :
    (s.handlerStep parse marshals i answer taken).1.notifiers = s.notifiers := by
  unfold handlerStep
  cases (s.conns.cell i).phase <;> rfl

theorem acceptorStep_notifiers : s.acceptorStep.notifiers = s.notifiers := by
  unfold acceptorStep
  cases s.acceptor with
  | accepted stream =>
    dsimp only
    split <;> rfl
  | _ => rfl

theorem lostBy_none {x : RPCServer V × RPCEvent V × Option (ℕ × JSONRPCMessage V)}
    (h : triedBy n x = none) : lostBy n x = none := by
  unfold lostBy
  rw [h]
  split <;> rfl

/-- A step that is not one of notification `n`. -/
theorem Notifies.idle (h : Notifies n call tr s) {s' : RPCServer V}
    {x : RPCServer V × RPCEvent V × Option (ℕ × JSONRPCMessage V)} (htried : triedBy n x = none)
    (hnotified : notifiedBy n x = none) (hcell : s'.notifiers.cell n = s.notifiers.cell n) :
    Notifies n call (tr ++ [x]) s' := by
  have htr : (tr ++ [x]).filterMap (triedBy n) = tr.filterMap (triedBy n) := by
    rw [filterMap_concat, htried, Option.toList_none, List.append_nil]
  have htr' : (tr ++ [x]).filterMap (notifiedBy n) = tr.filterMap (notifiedBy n) := by
    rw [filterMap_concat, hnotified, Option.toList_none, List.append_nil]
  have hlost : (tr ++ [x]).filterMap (lostBy n) = tr.filterMap (lostBy n) := by
    rw [filterMap_concat, lostBy_none htried, Option.toList_none, List.append_nil]
  refine ⟨?_, ?_, ?_, ?_, ?_⟩
  · rw [hcell]
    exact h.same
  · rw [htr, hcell]
    exact h.tried
  · rw [htr, htr']
    exact h.reached
  · rw [htr, htr', hlost]
    exact h.lost
  · rw [htr']
    exact h.message

/-- A step of notification `n` itself. -/
theorem Notifies.deliver (h : Notifies n call tr s) (taken : Bool) :
    Notifies n call (tr ++ [(s, .deliver n taken, (s.deliverStep marshals n taken).2)])
      (s.deliverStep marshals n taken).1 := by
  set x : RPCServer V × RPCEvent V × Option (ℕ × JSONRPCMessage V) :=
    (s, .deliver n taken, (s.deliverStep marshals n taken).2) with hx
  have htried : triedBy n x = (s.notifiers.cell n).clients[(s.notifiers.cell n).next]? := if_pos rfl
  have hnotified : notifiedBy n x = (s.deliverStep marshals n taken).2 := if_pos rfl
  unfold deliverStep at hnotified ⊢
  dsimp only at hnotified ⊢
  have hclients : (s.notifiers.cell n).clients = call.clients := by
    rw [h.same]
  have hmethod : (s.notifiers.cell n).method = call.method := by
    rw [h.same]
  have hparams : (s.notifiers.cell n).params = call.params := by
    rw [h.same]
  rw [hclients] at htried
  rw [hclients, hmethod, hparams] at hnotified ⊢
  cases hget : call.clients[(s.notifiers.cell n).next]? with
  | none =>
    rw [hget] at htried hnotified
    exact h.idle htried hnotified rfl
  | some i =>
    rw [hget] at htried hnotified
    set msg : JSONRPCMessage V := .notification call.method call.params
    dsimp only at hnotified ⊢
    have htr : (tr ++ [x]).filterMap (triedBy n) = tr.filterMap (triedBy n) ++ [i] := by
      rw [filterMap_concat, htried]
      rfl
    have htr' : (tr ++ [x]).filterMap (notifiedBy n) = tr.filterMap (notifiedBy n) ++
        (if sends marshals msg taken (s.conns.cell i) = true then some (i, msg) else none).toList := by
      rw [filterMap_concat, hnotified]
    have hlost : (tr ++ [x]).filterMap (lostBy n) = tr.filterMap (lostBy n) ++
        (if sends marshals msg taken (s.conns.cell i) = true then none else some i).toList := by
      rw [filterMap_concat]
      show _ ++ ((triedBy n x).filter fun i => (s.conns.cell i).broken || !taken).toList = _
      rw [htried]
      cases hb : (s.conns.cell i).broken <;> cases taken <;>
        simp [Option.filter, sends, marshalable, msg, hb]
    refine ⟨?_, ?_, ?_, ?_, ?_⟩
    · rw [Heap.modify_cell_self]
      conv_lhs => rw [h.same]
    · rw [htr, h.tried, Heap.modify_cell_self, List.take_add_one, hget]
      rfl
    · rw [htr, htr', List.map_append]
      refine h.reached.append ?_
      split
      · exact List.Sublist.refl _
      · exact List.nil_sublist _
    · rw [htr, htr', hlost, List.map_append]
      refine (h.lost.append_right [i]).trans ?_
      split
      · simp only [Option.toList_some, Option.toList_none, List.append_nil, List.append_assoc]
        exact List.perm_append_comm.append_left _
      · simp only [Option.toList_some, Option.toList_none, List.map_nil, List.append_nil, List.append_assoc]
        exact List.Perm.refl _
    · rw [htr']
      intro y hy
      rcases List.mem_append.mp hy with hy | hy
      · exact h.message y hy
      · split at hy
        · cases List.mem_singleton.mp hy
          rfl
        · cases hy

theorem Notifies.step (h : Notifies n call tr s) (e : RPCEvent V)
    (hmade : ∀ method params, e = .notify method params → n ≠ s.notifiers.next) :
    Notifies n call (tr ++ [(s, e, (s.step parse marshals e).2)]) (s.step parse marshals e).1 := by
  cases e with
  | cancel => exact h.idle rfl rfl rfl
  | accept stream =>
    refine h.idle rfl rfl ?_
    unfold RPCServer.step
    dsimp only
    split <;> rfl
  | acceptError =>
    refine h.idle rfl rfl ?_
    unfold RPCServer.step
    dsimp only
    split
    · split <;> rfl
    · rfl
  | acceptor => exact h.idle rfl rfl (congrArg (Heap.cell · n) acceptorStep_notifiers)
  | handler i answer taken =>
    exact h.idle rfl rfl (congrArg (Heap.cell · n) (handlerStep_notifiers parse marshals i answer taken))
  | notify method params =>
    exact h.idle rfl rfl (Function.update_of_ne (hmade method params rfl) _ _)
  | deliver m taken =>
    by_cases hm : m = n
    · subst hm
      exact h.deliver marshals taken
    · refine h.idle (if_neg hm) (if_neg hm) ?_
      have hcell : ∀ f, (s.notifiers.modify m f).cell n = s.notifiers.cell n :=
        fun f => Heap.modify_cell_ne _ f (Ne.symm hm)
      show (s.deliverStep marshals m taken).1.notifiers.cell n = _
      unfold deliverStep
      dsimp only
      split
      · rfl
      · dsimp only
        exact hcell _

theorem notifiers_next_le (e : RPCEvent V) :
    s.notifiers.next ≤ (s.step parse marshals e).1.notifiers.next := by
  cases e with
  | acceptor => exact Nat.le_of_eq (congrArg Heap.next acceptorStep_notifiers).symm
  | handler i answer taken =>
    exact Nat.le_of_eq (congrArg Heap.next (handlerStep_notifiers parse marshals i answer taken)).symm
  | deliver m taken =>
    show s.notifiers.next ≤ (s.deliverStep marshals m taken).1.notifiers.next
    unfold deliverStep
    dsimp only
    split <;> exact Nat.le_refl _
  | notify method params => exact Nat.le_succ _
  | accept stream =>
    unfold RPCServer.step
    dsimp only
    split <;> exact Nat.le_refl _
  | acceptError =>
    unfold RPCServer.step
    dsimp only
    split
    · split <;> exact Nat.le_refl _
    · exact Nat.le_refl _
  | cancel => exact Nat.le_refl _

end Notifies

section Notified
variable {n : ℕ}

/-- A notification that has not been made has no clients, and tries none. -/
theorem notifies_unmade (events : List (RPCEvent V))
    (hn : (runState (step parse marshals) {} events).notifiers.next ≤ n) :
    Notifies n {} (trace (step parse marshals) {} events) (runState (step parse marshals) {} events) := by
  refine run_invariant_trace (step parse marshals)
    (I := fun tr s => s.notifiers.next ≤ n → Notifies n {} tr s) ?_ ?_ events hn
  · intro _
    exact ⟨rfl, rfl, List.Sublist.refl _, List.Perm.refl _, fun y hy => absurd hy List.not_mem_nil⟩
  · intro tr s e h hnext
    have hle := notifiers_next_le parse marshals (s := s) e
    refine (h (hle.trans hnext)).step parse marshals e fun method params he => ?_
    subst he
    exact Nat.ne_of_gt hnext

/-- Once made, a notification only works through its copy of the clients. -/
theorem notifies_runState {call : RPCNotifier V} {s : RPCServer V}
    {tr : List (RPCServer V × RPCEvent V × Option (ℕ × JSONRPCMessage V))}
    (h : Notifies n call tr s) (hn : n < s.notifiers.next) (events : List (RPCEvent V)) :
    Notifies n call (tr ++ trace (step parse marshals) s events)
      (runState (step parse marshals) s events) := by
  induction events generalizing s tr with
  | nil =>
    rw [trace, List.append_nil]
    exact h
  | cons e events ih =>
    have hstep := h.step parse marshals e fun _ _ _ => Nat.ne_of_lt hn
    have htail := ih hstep (Nat.lt_of_lt_of_le hn (notifiers_next_le parse marshals e))
    rw [List.append_assoc] at htail
    exact htail

/-- A notification starts at the first of the present clients. -/
theorem notifies_made (s : RPCServer V)
    {tr : List (RPCServer V × RPCEvent V × Option (ℕ × JSONRPCMessage V))} (method : String)
    (params : List V) (h : Notifies s.notifiers.next {} tr s) :
    Notifies s.notifiers.next { method, params, clients := s.clients }
      (tr ++ [(s, .notify method params, none)]) (s.step parse marshals (.notify method params)).1 := by
  have hcell : (s.step parse marshals (.notify method params)).1.notifiers.cell s.notifiers.next =
      { method, params, clients := s.clients } := Heap.alloc_cell_self _ _
  have htried : (tr ++ [(s, RPCEvent.notify method params, none)]).filterMap (triedBy s.notifiers.next) = [] := by
    rw [filterMap_concat, h.tried, List.take_nil]
    rfl
  have hnotified : (tr ++ [(s, RPCEvent.notify method params, none)]).filterMap
      (notifiedBy s.notifiers.next) = [] := by
    have hnone := h.reached
    rw [h.tried, List.take_nil, List.sublist_nil, List.map_eq_nil_iff] at hnone
    rw [filterMap_concat, hnone]
    rfl
  have hlost : (tr ++ [(s, RPCEvent.notify method params, none)]).filterMap
      (lostBy s.notifiers.next) = [] := by
    have hperm := h.lost
    rw [h.tried, List.take_nil, List.nil_perm, List.append_eq_nil_iff] at hperm
    rw [filterMap_concat, hperm.2]
    rfl
  refine ⟨?_, ?_, ?_, ?_, ?_⟩
  · rw [hcell]
  · rw [htried, hcell]
    rfl
  · rw [hnotified]
    exact List.nil_sublist _
  · rw [htried, hnotified, hlost]
    exact List.Perm.refl _
  · rw [hnotified]
    exact fun y hy => absurd hy List.not_mem_nil

/-- A notification is tried at the clients registered when it was made, in the order in which they had
registered, each at most once and nobody else; it reaches them in that order with exactly its message, all
but those whose writer was broken or failed. -/
theorem notified_once (before after : List (RPCEvent V)) (method : String) (params : List V) :
    let s₀ := runState (step parse marshals) {} before
    let n := s₀.notifiers.next
    let events := before ++ .notify method params :: after
    let tr := trace (step parse marshals) {} events
    let k := ((runState (step parse marshals) {} events).notifiers.cell n).next
    s₀.clients.Nodup ∧ (∀ i, i ∈ s₀.clients ↔ registered (s₀.conns.cell i) = true) ∧
    tr.filterMap (triedBy n) = s₀.clients.take k ∧
    ((tr.filterMap (notifiedBy n)).map Prod.fst).Sublist (s₀.clients.take k) ∧
    (s₀.clients.take k).Perm ((tr.filterMap (notifiedBy n)).map Prod.fst ++ tr.filterMap (lostBy n)) ∧
    ∀ y ∈ tr.filterMap (notifiedBy n), y.2 = .notification method params := by
  intro s₀ n events tr k
  have htracked : Tracked s₀ := tracked_runState parse marshals before
  have hunmade := notifies_unmade parse marshals before (Nat.le_refl n)
  have hmade := notifies_made parse marshals s₀ method params hunmade
  have hrun := notifies_runState parse marshals hmade (Nat.lt_succ_self n) after
  have htr : tr = trace (step parse marshals) {} before ++ [(s₀, .notify method params, none)] ++
      trace (step parse marshals) (s₀.step parse marshals (.notify method params)).1 after := by
    show trace (step parse marshals) {} (before ++ .notify method params :: after) = _
    rw [trace_append, List.append_assoc]
    rfl
  have hstate : runState (step parse marshals) {} events =
      runState (step parse marshals) (s₀.step parse marshals (.notify method params)).1 after := by
    show runState (step parse marshals) {} (before ++ .notify method params :: after) = _
    rw [runState_append]
    rfl
  rw [← htr, ← hstate] at hrun
  refine ⟨htracked.nodup, htracked.mem, hrun.tried, ?_, ?_, hrun.message⟩
  · rw [← hrun.tried]
    exact hrun.reached
  · rw [← hrun.tried]
    exact hrun.lost

end Notified

end RPCServer
end Adapter
end SturmRelay
