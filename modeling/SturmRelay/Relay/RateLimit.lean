import SturmRelay.Relay.Connections

/-! # The packet rate of a player

`PlayerInfo.CheckRate` keeps one second and one counter for a player, and starts the counter again
whenever a packet is stamped with another second than the one it keeps. Callers read their clocks
before they take the session lock, so a stamp can be older than the one before it: the counter then
starts again for a second of which packets have been accepted already, and the second gets more than
`MaxPacketsPerSecond` of them (`udp_packet_overtaken`). It does not as long as the counter never goes
back to such a second (`packetRate_limited`), as when the stamps are in the order of the lock. -/

namespace SturmRelay
set_option autoImplicit false

namespace PlayerInfo

/-! ## One call -/

/-- The counter as a packet of the second `sec` finds it. -/
def rateAt (p : PlayerInfo) (sec : ℤ) : UInt32 := if p.rateSecond = sec then p.ratePkts else 0

/-- The packet is counted, and accepted exactly when the count is within the limit. -/
structure Counted (p : PlayerInfo) (sec : ℤ) (v : PacketVerdict) (p' : PlayerInfo) : Prop where
  rateSecond : p'.rateSecond = sec
  ratePkts : p'.ratePkts = p.rateAt sec + 1
  accepted : v.accepted = decide (p.rateAt sec + 1 ≤ maxPacketsPerSecond)

theorem checkRate_eq (p : PlayerInfo) (sec : ℤ) : p.checkRate sec =
    (decide (p.rateAt sec + 1 ≤ maxPacketsPerSecond),
      { p with rateSecond := sec, ratePkts := p.rateAt sec + 1 }) := by
  unfold checkRate rateAt
  by_cases h : p.rateSecond = sec
  · rw [if_neg (not_not.mpr h), if_pos h, ← h]
  · rw [if_pos h, if_neg h]

theorem counted_accepted {p p' : PlayerInfo} {sec : ℤ} {v : PacketVerdict}
    (h : p.rateAt sec + 1 ≤ maxPacketsPerSecond) (hv : v.accepted = true) (hsecond : p'.rateSecond = sec)
    (hpkts : p'.ratePkts = p.rateAt sec + 1) : Counted p sec v p' :=
  ⟨hsecond, hpkts, hv.trans (decide_eq_true h).symm⟩

theorem counted_receiveUDP_accept (p : PlayerInfo) (addr : AddrPort) (now : Instant) :
    Counted p (unix now) (receiveUDP.accept addr now p).1 (receiveUDP.accept addr now p).2 := by
  rw [receiveUDP.accept, checkRate_eq]
  by_cases h : p.rateAt (unix now) + 1 ≤ maxPacketsPerSecond
  · rw [decide_eq_true h]
    exact counted_accepted h (SessionManager.accepted_firstAddr_or_ok _) rfl rfl
  · rw [decide_eq_false h]
    exact ⟨rfl, rfl, (decide_eq_false h).symm⟩

/-- The packet passes the check of its transport's pin. -/
def PassesPin (p : PlayerInfo) : Endpoint → Prop
  | .udp addr => ∀ pinned, p.addr = some pinned → pinned.addr = addr.addr
  | .tcp conn => ∀ pinned, p.tcpIP = some pinned → tcpConnIP conn = some pinned

theorem receiveTCP_rate (p : PlayerInfo) (conn : Conn) (now : Instant)
    (hpin : p.PassesPin (.tcp conn)) :
    Counted p (unix now) (p.receiveTCP conn now).1 (p.receiveTCP conn now).2.2 := by
  have hnot : ¬ (p.tcpIP.isSome ∧ p.tcpIP ≠ tcpConnIP conn) := by
    rintro ⟨hsome, hne⟩
    obtain ⟨pinned, hpinned⟩ := Option.isSome_iff_exists.mp hsome
    exact hne (hpinned.trans (hpin pinned hpinned).symm)
  rw [receiveTCP, if_neg hnot, checkRate_eq]
  by_cases h : p.rateAt (unix now) + 1 ≤ maxPacketsPerSecond
  · rw [decide_eq_true h]
    exact counted_accepted h (SessionManager.accepted_firstAddr_or_ok _) rfl rfl
  · rw [decide_eq_false h]
    exact ⟨rfl, rfl, (decide_eq_false h).symm⟩

/-- A packet that its pin turns away is not counted. -/
theorem receive_rate (p : PlayerInfo) (src : Endpoint) (now : Instant) :
    (¬ p.PassesPin src ∧ p.receive src now = (.spoofed, p)) ∨
    (p.PassesPin src ∧ Counted p (unix now) (p.receive src now).1 (p.receive src now).2) := by
  cases src with
  | udp addr =>
    rcases receiveUDP_cases p addr now with ⟨⟨pinned, hpinned, hne⟩, heq⟩ | ⟨hpin, heq⟩
    · exact Or.inl ⟨fun h => hne (h pinned hpinned), heq⟩
    · refine Or.inr ⟨hpin, ?_⟩
      rw [receive, heq]
      exact counted_receiveUDP_accept p addr now
  | tcp conn =>
    rcases receiveTCP_cases p conn now with ⟨pinned, hpinned, hne, heq⟩ | ⟨hpin, -⟩
    · refine Or.inl ⟨fun h => hne (h pinned hpinned), ?_⟩
      rw [receive, heq]
    · exact Or.inr ⟨hpin, receiveTCP_rate p conn now hpin⟩

end PlayerInfo

/-! ## Sequences of calls -/

/-- A call of `UpdatePlayerAddr` or `UpdatePlayerTCP`. -/
structure UpdateCall where
  player : PlayerID
  src : Endpoint
  now : Instant

namespace Session

def updateStep (s : Session) (c : UpdateCall) : Session × PacketVerdict :=
  ((s.updateSender c.src c.player c.now).2.2, (s.updateSender c.src c.player c.now).1)

theorem updateStep_of_lookup {s : Session} {c : UpdateCall} {p : PlayerInfo}
    (hp : s.players.lookup c.player = some p) :
    (s.updateStep c).1.players.lookup c.player = some (p.receive c.src c.now).2 ∧
      (s.updateStep c).2 = (p.receive c.src c.now).1 := by
  unfold updateStep updateSender
  cases c.src with
  | udp addr =>
    simp only [updatePlayerAddr, hp, AList.lookup_insert]
    exact ⟨rfl, rfl⟩
  | tcp conn =>
    simp only [updatePlayerTCP, hp, AList.lookup_insert]
    exact ⟨rfl, rfl⟩

theorem updateStep_lookup_other {s : Session} {c : UpdateCall} {pid : PlayerID} (hne : c.player ≠ pid) :
    (s.updateStep c).1.players.lookup pid = s.players.lookup pid := by
  unfold updateStep updateSender
  cases c.src with
  | udp addr =>
    unfold updatePlayerAddr
    cases s.players.lookup c.player with
    | none => rfl
    | some p => exact AList.lookup_insert_ne hne.symm
  | tcp conn =>
    unfold updatePlayerTCP
    cases s.players.lookup c.player with
    | none => rfl
    | some p => exact AList.lookup_insert_ne hne.symm

/-- How many calls for the player, stamped with the second `sec`, have been answered with OK or
FirstAddr. -/
def acceptedAt (pid : PlayerID) (sec : ℤ) (s : Session) (calls : List UpdateCall) : ℕ :=
  (trace updateStep s calls).countP fun x =>
    x.2.1.player = pid ∧ unix x.2.1.now = sec ∧ x.2.2.accepted = true

theorem acceptedAt_concat (pid : PlayerID) (sec : ℤ) (s : Session) (calls : List UpdateCall)
    (c : UpdateCall) : acceptedAt pid sec s (calls ++ [c]) = acceptedAt pid sec s calls +
      if c.player = pid ∧ unix c.now = sec ∧
        ((runState updateStep s calls).updateStep c).2.accepted = true then 1 else 0 := by
  unfold acceptedAt
  rw [trace_append, List.countP_append, trace, trace, List.countP_singleton]
  simp only [decide_eq_true_eq]

/-- When a packet starts the player's counter for another second, no packet stamped with that second
has been accepted before. -/
def SecondsNew (pid : PlayerID) (s : Session) (calls : List UpdateCall) : Prop :=
  ∀ before c after, calls = before ++ c :: after → c.player = pid →
    ∀ p, (runState updateStep s before).players.lookup pid = some p → p.PassesPin c.src →
      p.rateSecond = unix c.now ∨ acceptedAt pid (unix c.now) s before = 0

/-- The calls made so far for one player. -/
def callsFor (pid : PlayerID) (calls : List UpdateCall) : ℕ := calls.countP (·.player = pid)

/-- The player during a run: what it has accepted of the present second is in its counter. -/
structure WithinLimit (pid : PlayerID) (s : Session) (calls : List UpdateCall) (start : ℕ)
    (p : PlayerInfo) : Prop where
  lookup : (runState updateStep s calls).players.lookup pid = some p
  count_le : p.ratePkts.toNat ≤ start + callsFor pid calls
  present : acceptedAt pid p.rateSecond s calls ≤ p.ratePkts.toNat
  within : ∀ sec, acceptedAt pid sec s calls ≤ maxPacketsPerSecond.toNat

section Step
variable {pid : PlayerID} {s : Session} {calls : List UpdateCall} {start : ℕ} {p : PlayerInfo}
  {c : UpdateCall}

theorem acceptedAt_of_rejected (h : c.player ≠ pid ∨
      ((runState updateStep s calls).updateStep c).2.accepted = false) (sec : ℤ) :
    acceptedAt pid sec s (calls ++ [c]) = acceptedAt pid sec s calls := by
  rw [acceptedAt_concat, if_neg, Nat.add_zero]
  rintro ⟨hpid, -, hv⟩
  rcases h with h | h
  · exact h hpid
  · rw [h] at hv
    cases hv

theorem callsFor_concat (pid : PlayerID) (calls : List UpdateCall) (c : UpdateCall) :
    callsFor pid (calls ++ [c]) = callsFor pid calls + if c.player = pid then 1 else 0 := by
  unfold callsFor
  rw [List.countP_append, List.countP_singleton]
  simp only [decide_eq_true_eq]

theorem lookup_concat_of_ne (hc : c.player ≠ pid) :
    (runState updateStep s (calls ++ [c])).players.lookup pid =
      (runState updateStep s calls).players.lookup pid := by
  rw [runState_append]
  exact updateStep_lookup_other hc

theorem lookup_concat_of_eq (hc : c.player = pid)
    (hp : (runState updateStep s calls).players.lookup pid = some p) :
    (runState updateStep s (calls ++ [c])).players.lookup pid = some (p.receive c.src c.now).2 ∧
      ((runState updateStep s calls).updateStep c).2 = (p.receive c.src c.now).1 := by
  subst hc
  rw [runState_append]
  exact updateStep_of_lookup hp

theorem WithinLimit.other (h : WithinLimit pid s calls start p) (hc : c.player ≠ pid) :
    WithinLimit pid s (calls ++ [c]) start p where
  lookup := (lookup_concat_of_ne hc).trans h.lookup
  count_le := by
    rw [callsFor_concat, if_neg hc]
    exact h.count_le
  present := by
    rw [acceptedAt_of_rejected (Or.inl hc)]
    exact h.present
  within sec := by
    rw [acceptedAt_of_rejected (Or.inl hc)]
    exact h.within sec

theorem WithinLimit.spoofed (h : WithinLimit pid s calls start p) (hc : c.player = pid)
    (hv : p.receive c.src c.now = (.spoofed, p)) : WithinLimit pid s (calls ++ [c]) start p := by
  obtain ⟨hlookup, hverdict⟩ := lookup_concat_of_eq hc h.lookup
  rw [hv] at hlookup hverdict
  have hrejected : ((runState updateStep s calls).updateStep c).2.accepted = false := by
    rw [hverdict]
    rfl
  refine ⟨hlookup, ?_, ?_, fun sec => ?_⟩
  · rw [callsFor_concat, if_pos hc]
    exact h.count_le.trans (Nat.le_succ _)
  · rw [acceptedAt_of_rejected (Or.inr hrejected)]
    exact h.present
  · rw [acceptedAt_of_rejected (Or.inr hrejected)]
    exact h.within sec

/-- The packets accepted of the second a packet is stamped with are in the counter it finds. -/
theorem WithinLimit.acceptedAt_le (h : WithinLimit pid s calls start p) {sec : ℤ}
    (hnew : p.rateSecond = sec ∨ acceptedAt pid sec s calls = 0) :
    acceptedAt pid sec s calls ≤ (p.rateAt sec).toNat := by
  unfold PlayerInfo.rateAt
  rcases hnew with rfl | hzero
  · rw [if_pos rfl]
    exact h.present
  · rw [hzero]
    exact Nat.zero_le _

theorem WithinLimit.counted (h : WithinLimit pid s calls start p) (hc : c.player = pid)
    (hroom : start + callsFor pid (calls ++ [c]) < 2 ^ 32)
    (hnew : p.rateSecond = unix c.now ∨ acceptedAt pid (unix c.now) s calls = 0)
    (hcount : p.Counted (unix c.now) (p.receive c.src c.now).1 (p.receive c.src c.now).2) :
    WithinLimit pid s (calls ++ [c]) start (p.receive c.src c.now).2 := by
  obtain ⟨hlookup, hverdict⟩ := lookup_concat_of_eq hc h.lookup
  have hcalls := callsFor_concat pid calls c
  rw [if_pos hc] at hcalls
  have hfound : (p.rateAt (unix c.now)).toNat ≤ p.ratePkts.toNat := by
    unfold PlayerInfo.rateAt
    split
    · exact le_rfl
    · exact Nat.zero_le _
  have hle := h.count_le
  -- the counter does not wrap
  have hnext : (p.rateAt (unix c.now) + 1).toNat = (p.rateAt (unix c.now)).toNat + 1 := by
    rw [UInt32.toNat_add]
    exact Nat.mod_eq_of_lt (by simp only [UInt32.reduceToNat]; omega)
  have hbefore := h.acceptedAt_le hnew
  have hafter : acceptedAt pid (unix c.now) s (calls ++ [c]) ≤ (p.rateAt (unix c.now)).toNat + 1 := by
    rw [acceptedAt_concat]
    split <;> omega
  refine ⟨hlookup, ?_, ?_, fun sec => ?_⟩
  · rw [hcount.ratePkts, hnext]
    omega
  · rw [hcount.rateSecond, hcount.ratePkts, hnext]
    exact hafter
  · by_cases hnow : unix c.now = sec ∧ (p.receive c.src c.now).1.accepted = true
    · obtain ⟨rfl, hv⟩ := hnow
      rw [hcount.accepted, decide_eq_true_eq, UInt32.le_iff_toNat_le, hnext] at hv
      exact hafter.trans hv
    · rw [acceptedAt_concat, if_neg, Nat.add_zero]
      · exact h.within sec
      · rintro ⟨-, hsec, hv⟩
        rw [hverdict] at hv
        exact hnow ⟨hsec, hv⟩

end Step

theorem SecondsNew.of_concat {pid : PlayerID} {s : Session} {calls : List UpdateCall} {c : UpdateCall}
    (h : SecondsNew pid s (calls ++ [c])) : SecondsNew pid s calls := by
  intro before d after hsplit
  refine h before d (after ++ [c]) ?_
  rw [hsplit, List.append_assoc]
  rfl

theorem withinLimit_runState {pid : PlayerID} {s : Session} {p : PlayerInfo}
    (hp : s.players.lookup pid = some p) {calls : List UpdateCall}
    (hroom : p.ratePkts.toNat + callsFor pid calls < 2 ^ 32) (hnew : SecondsNew pid s calls) :
    ∃ p', WithinLimit pid s calls p.ratePkts.toNat p' := by
  induction calls using List.reverseRecOn with
  | nil => exact ⟨p, hp, le_rfl, Nat.zero_le _, fun _ => Nat.zero_le _⟩
  | append_singleton calls c ih =>
    have hcalls := callsFor_concat pid calls c
    obtain ⟨p', hlimit⟩ := ih (by omega) hnew.of_concat
    by_cases hc : c.player = pid
    · rcases p'.receive_rate c.src c.now with ⟨-, hspoofed⟩ | ⟨hpin, hcount⟩
      · exact ⟨p', hlimit.spoofed hc hspoofed⟩
      · exact ⟨_, hlimit.counted hc hroom (hnew calls c [] rfl hc p' hlimit.lookup hpin) hcount⟩
    · exact ⟨p', hlimit.other hc⟩

theorem packetRate_limited (pid : PlayerID) (s : Session) (p : PlayerInfo)
    (hp : s.players.lookup pid = some p) (calls : List UpdateCall)
    (hroom : p.ratePkts.toNat + callsFor pid calls < 2 ^ 32) (hnew : SecondsNew pid s calls) (sec : ℤ) :
    acceptedAt pid sec s calls ≤ maxPacketsPerSecond.toNat := by
  obtain ⟨_, hlimit⟩ := withinLimit_runState hp hroom hnew
  exact hlimit.within sec

/-! ## Stamps in the order of the lock -/

/-- If the stamps so far are in order, the counter stands at the last second with an accepted packet
or at a later one. -/
theorem rateSecond_of_sorted {pid : PlayerID} {s : Session} {p : PlayerInfo}
    (hp : s.players.lookup pid = some p) {calls : List UpdateCall}
    (hsorted : calls.Pairwise fun c c' => unix c.now ≤ unix c'.now) :
    ∃ p', (runState updateStep s calls).players.lookup pid = some p' ∧
      ∀ sec, acceptedAt pid sec s calls ≠ 0 →
        sec ≤ p'.rateSecond ∧ ∃ c ∈ calls, unix c.now = p'.rateSecond := by
  induction calls using List.reverseRecOn with
  | nil => exact ⟨p, hp, fun sec h => absurd rfl h⟩
  | append_singleton calls c ih =>
    obtain ⟨hbefore, -, hlast⟩ := List.pairwise_append.mp hsorted
    obtain ⟨p', hp', hrate⟩ := ih hbefore
    -- a call that is not accepted leaves the counter where it was
    have hkeep : ∀ {sec}, acceptedAt pid sec s (calls ++ [c]) = acceptedAt pid sec s calls →
        acceptedAt pid sec s (calls ++ [c]) ≠ 0 →
        sec ≤ p'.rateSecond ∧ ∃ c' ∈ calls ++ [c], unix c'.now = p'.rateSecond := by
      intro sec hsame hne
      obtain ⟨hle, c', hc', hat⟩ := hrate sec (hsame ▸ hne)
      exact ⟨hle, c', List.mem_append_left _ hc', hat⟩
    by_cases hc : c.player = pid
    · obtain ⟨hlookup, hverdict⟩ := lookup_concat_of_eq hc hp'
      refine ⟨_, hlookup, fun sec hne => ?_⟩
      rcases p'.receive_rate c.src c.now with ⟨-, hspoofed⟩ | ⟨-, hcount⟩
      · rw [hspoofed] at hverdict ⊢
        exact hkeep (acceptedAt_of_rejected (Or.inr (by rw [hverdict]; rfl)) sec) hne
      · rw [hcount.rateSecond]
        refine ⟨?_, c, List.mem_append_right _ (List.mem_singleton.mpr rfl), rfl⟩
        by_cases hsec : unix c.now = sec
        · exact hsec.ge
        · rw [acceptedAt_concat, if_neg fun h => hsec h.2.1, Nat.add_zero] at hne
          obtain ⟨hle, c', hc', hat⟩ := hrate sec hne
          exact (hle.trans hat.ge).trans (hlast c' hc' c (List.mem_singleton.mpr rfl))
    · exact ⟨p', (lookup_concat_of_ne hc).trans hp', fun sec hne =>
        hkeep (acceptedAt_of_rejected (Or.inl hc) sec) hne⟩

theorem secondsNew_of_sorted {pid : PlayerID} {s : Session} {p : PlayerInfo}
    (hp : s.players.lookup pid = some p) {calls : List UpdateCall}
    (hsorted : calls.Pairwise fun c c' => unix c.now ≤ unix c'.now) : SecondsNew pid s calls := by
  rintro before c after rfl - p' hp' -
  obtain ⟨hbefore, -, hlast⟩ := List.pairwise_append.mp hsorted
  obtain ⟨p'', hp'', hrate⟩ := rateSecond_of_sorted hp hbefore
  obtain rfl : p'' = p' := Option.some.inj (hp''.symm.trans hp')
  refine Classical.or_iff_not_imp_right.mpr fun hne => ?_
  obtain ⟨hle, c', hc', hat⟩ := hrate _ hne
  have hge := hlast c' hc' c List.mem_cons_self
  exact le_antisymm (hat ▸ hge) hle

/-! ## A packet overtaken at the lock -/

/-- One player, who has just joined. -/
def joinedGame : Session :=
  { newSession "game1" 12 0 with players := AList.insert 1 { playerID := 1, login := "p1" } ∅ }

def playerAddr : AddrPort := ⟨.v4 0x0A000001, 5000⟩

/-- A datagram that the UDP loop stamps with second 100. -/
def datagram : UpdateCall := ⟨1, .udp playerAddr, 100 * second⟩

/-- A frame of the same player that its handler stamps with second 101. -/
def frame : UpdateCall := ⟨1, .tcp ⟨0, some playerAddr⟩, 101 * second⟩

theorem joinedGame_lookup : joinedGame.players.lookup 1 = some { playerID := 1, login := "p1" } := rfl

theorem callsFor_le_length (pid : PlayerID) (calls : List UpdateCall) : callsFor pid calls ≤ calls.length :=
  List.countP_le_length

theorem datagrams_few {n : ℕ} (hn : n < 2 ^ 32) :
    ({ playerID := 1, login := "p1" } : PlayerInfo).ratePkts.toNat +
      callsFor 1 (List.replicate n datagram) < 2 ^ 32 := by
  have hlen := callsFor_le_length 1 (List.replicate n datagram)
  rw [List.length_replicate] at hlen
  exact (Nat.zero_add _).trans_lt (hlen.trans_lt hn)

/-- Three thousand datagrams of one second. -/
theorem flood_limited : SecondsNew 1 joinedGame (List.replicate 3000 datagram) ∧
    acceptedAt 1 100 joinedGame (List.replicate 3000 datagram) ≤ maxPacketsPerSecond.toNat := by
  have hnew : SecondsNew 1 joinedGame (List.replicate 3000 datagram) :=
    secondsNew_of_sorted joinedGame_lookup List.pairwise_replicate_of_refl
  exact ⟨hnew, packetRate_limited 1 joinedGame _ joinedGame_lookup _ (datagrams_few (by decide)) hnew 100⟩

/-- The player after `n` of the datagrams. -/
def flooded (n : ℕ) : PlayerInfo where
  playerID := 1
  login := "p1"
  addr := some playerAddr
  transport := .udp
  lastSeen := some (100 * second)
  ratePkts := UInt32.ofNat n
  rateSecond := 100

theorem flooded_receive {n : ℕ} (h : n < 2000) :
    (flooded n).receive datagram.src datagram.now = (.ok, flooded (n + 1)) := by
  have hnext : UInt32.ofNat n + 1 = UInt32.ofNat (n + 1) := (UInt32.ofNat_add n 1).symm
  have hle : UInt32.ofNat (n + 1) ≤ maxPacketsPerSecond := by
    rw [UInt32.le_iff_toNat_le, UInt32.toNat_ofNat_of_lt' (by simp [UInt32.size]; omega)]
    exact h
  have hrate : (flooded n).checkRate (unix (100 * second)) =
      (true, { flooded n with ratePkts := UInt32.ofNat (n + 1) }) := by
    rw [PlayerInfo.checkRate_eq, ← hnext, ← decide_eq_true hle, ← hnext]
    rfl
  have haccept : (flooded n).receive datagram.src datagram.now =
      PlayerInfo.receiveUDP.accept playerAddr (100 * second) (flooded n) := rfl
  rw [haccept, PlayerInfo.receiveUDP.accept, hrate]
  rfl

theorem runState_flood {n : ℕ} (h : n < 2000) :
    (runState updateStep joinedGame (List.replicate (n + 1) datagram)).players.lookup 1 =
      some (flooded (n + 1)) ∧
    acceptedAt 1 100 joinedGame (List.replicate (n + 1) datagram) = n + 1 := by
  induction n with
  | zero => decide
  | succ n ih =>
    obtain ⟨hp, hcount⟩ := ih (by omega)
    obtain ⟨hlookup, hverdict⟩ := lookup_concat_of_eq (c := datagram) rfl hp
    rw [flooded_receive h] at hlookup hverdict
    rw [List.replicate_succ', acceptedAt_concat, hverdict, hcount]
    exact ⟨hlookup, rfl⟩

theorem udp_packet_overtaken : ¬ ∀ (pid : PlayerID) (login : String) (s : Session)
    (calls : List UpdateCall), s.players.lookup pid = some { playerID := pid, login := login } →
    callsFor pid calls < 2 ^ 32 → ∀ sec, acceptedAt pid sec s calls ≤ maxPacketsPerSecond.toNat := by
  intro hclaim
  obtain ⟨hp, hcount⟩ := runState_flood (n := 1999) (by decide)
  obtain ⟨hframe, -⟩ := lookup_concat_of_eq (c := frame) rfl hp
  obtain ⟨-, hlast⟩ := lookup_concat_of_eq (c := datagram) rfl hframe
  have hfew := callsFor_le_length 1 (List.replicate (1999 + 1) datagram ++ [frame] ++ [datagram])
  rw [List.length_append, List.length_append, List.length_replicate] at hfew
  have hle := hclaim 1 "p1" joinedGame (List.replicate (1999 + 1) datagram ++ [frame] ++ [datagram])
    joinedGame_lookup (hfew.trans_lt (by decide)) 100
  rw [acceptedAt_concat, acceptedAt_concat, hcount, hlast] at hle
  revert hle
  decide

end Session
end SturmRelay
