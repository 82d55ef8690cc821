import SturmRelay.Foundations.Runs
import SturmRelay.Relay.Router

/-! # The two IP pins of a player

A player's UDP address and its TCP IP are pinned separately: `UpdatePlayerAddr` compares with
`Addr` only and `UpdatePlayerTCP` with `tcpIP` only. From a join on, packets bearing the player's
ID are kept from impostors (`NoSpoofing`) exactly as long as no packet arrives over a transport
that has no pin yet from an IP other than the one the other transport has pinned
(`noSpoofing_iff_pinsAgree`). In that gap the impostor is not only let in: its packet becomes the
player's address (`impostor_over_udp`). -/

namespace SturmRelay
set_option autoImplicit false

/-! ## IP addresses -/

/-- An IP address with its zone, whatever the family it is written in. -/
abbrev IP := NetIP × String

def Addr.ip : Addr → IP
  | .v4 bits => ((Addr.v4 bits).as16, "")
  | .v6 bits zone => (bits, zone)

/-- The IP a packet comes from, if it can be told. -/
def Endpoint.ip : Endpoint → Option IP
  | .udp addr => some addr.addr.ip
  | .tcp conn => (tcpConnIP conn).map fun ip => (ip, "")

/-! ## One packet -/

namespace PlayerInfo

structure SamePins (p p' : PlayerInfo) : Prop where
  addr : p'.addr = p.addr
  tcpConn : p'.tcpConn = p.tcpConn
  tcpIP : p'.tcpIP = p.tcpIP

theorem samePins_checkRate (p : PlayerInfo) (nowUnix : ℤ) : SamePins p (p.checkRate nowUnix).2 := by
  unfold checkRate
  dsimp only
  split <;> exact ⟨rfl, rfl, rfl⟩

/-- A packet that has passed the pin check is accepted, or is one too many for this second. -/
theorem receiveUDP_accept (p : PlayerInfo) (addr : AddrPort) (now : Instant) :
    ∃ v p', receiveUDP.accept addr now p = (v, p') ∧ v ≠ .spoofed ∧
      ((v.accepted = false ∧ SamePins p p') ∨
        (v.accepted = true ∧ p'.addr = some addr ∧ (p'.tcpIP = none ∨ p'.tcpIP = p.tcpIP))) := by
  have hpins := samePins_checkRate p (unix now)
  unfold receiveUDP.accept
  cases hrate : p.checkRate (unix now) with
  | mk fine p1 =>
    rw [hrate] at hpins
    cases fine with
    | false => exact ⟨_, _, rfl, by decide, Or.inl ⟨rfl, hpins⟩⟩
    | true =>
      refine ⟨_, _, rfl, ?_, Or.inr ⟨?_, rfl, ?_⟩⟩
      · split <;> decide
      · split <;> rfl
      · dsimp only
        split
        · exact Or.inl rfl
        · exact Or.inr hpins.tcpIP

theorem receiveUDP_cases (p : PlayerInfo) (addr : AddrPort) (now : Instant) :
    ((∃ pinned, p.addr = some pinned ∧ pinned.addr ≠ addr.addr) ∧
      p.receiveUDP addr now = (.spoofed, p)) ∨
    ((∀ pinned, p.addr = some pinned → pinned.addr = addr.addr) ∧
      p.receiveUDP addr now = receiveUDP.accept addr now p) := by
  unfold receiveUDP
  cases hp : p.addr with
  | none => exact Or.inr ⟨(fun _ h => nomatch h), rfl⟩
  | some pinned =>
    by_cases hne : pinned.addr ≠ addr.addr
    · exact Or.inl ⟨⟨pinned, rfl, hne⟩, if_pos hne⟩
    · refine Or.inr ⟨fun pinned' h => ?_, if_neg hne⟩
      cases h
      exact not_not.mp hne

theorem receiveTCP_cases (p : PlayerInfo) (conn : Conn) (now : Instant) :
    (∃ pinned, p.tcpIP = some pinned ∧ tcpConnIP conn ≠ some pinned ∧
      p.receiveTCP conn now = (.spoofed, none, p)) ∨
    ((∀ pinned, p.tcpIP = some pinned → tcpConnIP conn = some pinned) ∧
      ∃ v old p', p.receiveTCP conn now = (v, old, p') ∧ v ≠ .spoofed ∧
        ((v.accepted = false ∧ SamePins p p') ∨
          (v.accepted = true ∧ p'.addr = p.addr ∧ p'.tcpIP = tcpConnIP conn))) := by
  have hpins := samePins_checkRate p (unix now)
  unfold receiveTCP
  by_cases hspoof : p.tcpIP.isSome ∧ p.tcpIP ≠ tcpConnIP conn
  · obtain ⟨pinned, hpinned⟩ := Option.isSome_iff_exists.mp hspoof.1
    refine Or.inl ⟨pinned, hpinned, ?_, if_pos hspoof⟩
    rw [← hpinned]
    exact hspoof.2.symm
  · have hpin : ∀ pinned, p.tcpIP = some pinned → tcpConnIP conn = some pinned := by
      intro pinned hpinned
      by_contra hne
      refine hspoof ⟨by rw [hpinned]; rfl, ?_⟩
      rw [hpinned]
      exact Ne.symm hne
    refine Or.inr ⟨hpin, ?_⟩
    rw [if_neg hspoof]
    cases hrate : p.checkRate (unix now) with
    | mk fine p1 =>
      rw [hrate] at hpins
      cases fine with
      | false => exact ⟨_, _, _, rfl, by decide, Or.inl ⟨rfl, hpins⟩⟩
      | true =>
        refine ⟨_, _, _, rfl, ?_, Or.inr ⟨?_, hpins.addr, ?_⟩⟩
        · split <;> decide
        · split <;> rfl
        · dsimp only at hpins ⊢
          rw [hpins.tcpIP]
          cases hip : p.tcpIP with
          | none => rfl
          | some pinned => exact (hpin pinned hip).symm

/-- The player after a packet, and the verdict. -/
def receive (p : PlayerInfo) (src : Endpoint) (now : Instant) : PacketVerdict × PlayerInfo :=
  match src with
  | .udp addr => p.receiveUDP addr now
  | .tcp conn => ((p.receiveTCP conn now).1, (p.receiveTCP conn now).2.2)

/-- Right after a join nothing is known of the player. -/
structure Unlearned (p : PlayerInfo) : Prop where
  addr : p.addr = none
  tcpConn : p.tcpConn = none
  tcpIP : p.tcpIP = none

theorem unlearned_new (playerID : PlayerID) (login : String) :
    Unlearned { playerID := playerID, login := login } := ⟨rfl, rfl, rfl⟩

/-- If the packet's transport has no pin, the other transport's pin is the packet's IP. -/
def PinsAgree (p : PlayerInfo) : Endpoint → Prop
  | .udp addr => p.addr = none → ∀ pinned, p.tcpIP = some pinned → addr.addr.ip = (pinned, "")
  | .tcp conn => p.tcpIP = none → ∀ pinned, p.addr = some pinned →
      (Endpoint.tcp conn).ip = some pinned.addr.ip

/-- The pins of a player whose accepted packets have all come from `a`. -/
structure PinnedTo (p : PlayerInfo) (a : IP) : Prop where
  addr : ∀ pinned, p.addr = some pinned → pinned.addr.ip = a
  tcpIP : ∀ pinned, p.tcpIP = some pinned → (pinned, "") = a
  some_pin : p.addr ≠ none ∨ p.tcpIP ≠ none

/-- The pins of a player, given the IP its accepted packets have come from so far. -/
def Pinned (p : PlayerInfo) : Option IP → Prop
  | none => p.addr = none ∧ p.tcpIP = none
  | some a => PinnedTo p a

theorem Pinned.samePins {p p' : PlayerInfo} {seen : Option IP} (h : Pinned p seen)
    (hs : SamePins p p') : Pinned p' seen := by
  cases seen with
  | none => exact ⟨hs.addr.trans h.1, hs.tcpIP.trans h.2⟩
  | some a =>
    refine ⟨?_, ?_, ?_⟩
    · rw [hs.addr]
      exact h.addr
    · rw [hs.tcpIP]
      exact h.tcpIP
    · rw [hs.addr, hs.tcpIP]
      exact h.some_pin

/-- A packet from another IP than the one seen so far is turned away, if the pins agree. -/
theorem receive_other {p : PlayerInfo} {a b : IP} (h : PinnedTo p a) {src : Endpoint}
    (hb : src.ip = some b) (hne : a ≠ b) (hagree : PinsAgree p src) (now : Instant) :
    p.receive src now = (.spoofed, p) := by
  cases src with
  | udp addr =>
    cases hb
    rcases receiveUDP_cases p addr now with ⟨-, heq⟩ | ⟨hpin, -⟩
    · exact heq
    · exfalso
      cases hp : p.addr with
      | some pinned => exact hne ((h.addr pinned hp).symm.trans (congrArg Addr.ip (hpin pinned hp)))
      | none =>
        obtain ⟨pinned, hip⟩ := Option.ne_none_iff_exists'.mp (h.some_pin.resolve_left (not_not.mpr hp))
        exact hne ((h.tcpIP pinned hip).symm.trans (hagree hp pinned hip).symm)
  | tcp conn =>
    rcases receiveTCP_cases p conn now with ⟨-, -, -, heq⟩ | ⟨hpin, -⟩
    · change ((p.receiveTCP conn now).1, (p.receiveTCP conn now).2.2) = _
      rw [heq]
    · exfalso
      cases hip : p.tcpIP with
      | some pinned =>
        rw [Endpoint.ip, hpin pinned hip, Option.map_some] at hb
        exact hne ((h.tcpIP pinned hip).symm.trans (Option.some.inj hb))
      | none =>
        obtain ⟨pinned, hp⟩ := Option.ne_none_iff_exists'.mp (h.some_pin.resolve_right (not_not.mpr hip))
        rw [hagree hip pinned hp] at hb
        exact hne ((h.addr pinned hp).symm.trans (Option.some.inj hb))

/-- Every pin is of the IP that all packets seen so far came from. -/
theorem Pinned.pins {p : PlayerInfo} {seen : Option IP} (h : Pinned p seen) {b : IP}
    (hseen : ∀ a, seen = some a → a = b) :
    (∀ pinned, p.addr = some pinned → pinned.addr.ip = b) ∧
      ∀ pinned, p.tcpIP = some pinned → (pinned, "") = b := by
  cases seen with
  | none =>
    refine ⟨fun pinned hp => ?_, fun pinned hp => ?_⟩
    · rw [h.1] at hp
      cases hp
    · rw [h.2] at hp
      cases hp
  | some a =>
    have hab := hseen a rfl
    exact ⟨fun pinned hp => (h.addr pinned hp).trans hab, fun pinned hp => (h.tcpIP pinned hp).trans hab⟩

theorem receiveUDP_same {p : PlayerInfo} {seen : Option IP} (h : Pinned p seen) {addr : AddrPort}
    (hseen : ∀ a, seen = some a → a = addr.addr.ip) (now : Instant) :
    Pinned (p.receiveUDP addr now).2
      (if (p.receiveUDP addr now).1.accepted then some addr.addr.ip else seen) := by
  obtain ⟨-, htcp⟩ := h.pins hseen
  rcases receiveUDP_cases p addr now with ⟨-, heq⟩ | ⟨-, heq⟩
  · rw [heq]
    exact h
  · obtain ⟨v, p', hacc, -, ⟨hv, hs⟩ | ⟨hv, ha, ht⟩⟩ := receiveUDP_accept p addr now
    · rw [heq, hacc, hv]
      exact h.samePins hs
    · rw [heq, hacc, hv]
      refine ⟨?_, ?_, Or.inl (by rw [ha]; exact Option.some_ne_none _)⟩
      · intro pinned hp
        rw [ha] at hp
        cases hp
        rfl
      · intro pinned hp
        rcases ht with ht | ht
        · rw [ht] at hp
          cases hp
        · exact htcp pinned (ht.symm.trans hp)

theorem receiveTCP_same {p : PlayerInfo} {seen : Option IP} (h : Pinned p seen) {conn : Conn}
    {ip : NetIP} (hip : tcpConnIP conn = some ip) (hseen : ∀ a, seen = some a → a = (ip, ""))
    (now : Instant) :
    Pinned (p.receiveTCP conn now).2.2
      (if (p.receiveTCP conn now).1.accepted then some (ip, "") else seen) := by
  obtain ⟨haddr, -⟩ := h.pins hseen
  rcases receiveTCP_cases p conn now with ⟨-, -, -, heq⟩ | ⟨-, v, old, p', heq, -, ⟨hv, hs⟩ | ⟨hv, ha, ht⟩⟩
  · rw [heq]
    exact h
  · rw [heq, hv]
    exact h.samePins hs
  · rw [heq, hv]
    rw [hip] at ht
    refine ⟨?_, ?_, Or.inr (by rw [ht]; exact Option.some_ne_none _)⟩
    · intro pinned hp
      exact haddr pinned (ha.symm.trans hp)
    · intro pinned hp
      rw [ht] at hp
      cases hp
      rfl

/-- A packet from the IP seen so far, or the first one, keeps the pins in line. -/
theorem receive_same {p : PlayerInfo} {seen : Option IP} (h : Pinned p seen) {src : Endpoint} {b : IP}
    (hb : src.ip = some b) (hseen : ∀ a, seen = some a → a = b) (now : Instant) :
    Pinned (p.receive src now).2 (if (p.receive src now).1.accepted then some b else seen) := by
  cases src with
  | udp addr =>
    cases hb
    exact receiveUDP_same h hseen now
  | tcp conn =>
    obtain ⟨ip, hip, rfl⟩ := Option.map_eq_some_iff.mp hb
    exact receiveTCP_same h hip hseen now

/-- What one packet does to the pins, where they agree. -/
theorem Pinned.receive {p : PlayerInfo} {seen : Option IP} (h : p.Pinned seen)
    {src : Endpoint} {b : IP} (hb : src.ip = some b) (hagree : p.PinsAgree src) (now : Instant) :
    (p.receive src now).2.Pinned (if (p.receive src now).1.accepted then some b else seen) ∧
      ∀ a, seen = some a → a ≠ b → p.receive src now = (.spoofed, p) := by
  have hother : ∀ a, seen = some a → a ≠ b → p.receive src now = (.spoofed, p) := by
    rintro a rfl hne
    exact receive_other h hb hne hagree now
  refine ⟨?_, hother⟩
  by_cases hseen : ∀ a, seen = some a → a = b
  · exact receive_same h hb hseen now
  · simp only [not_forall] at hseen
    obtain ⟨a, ha, hne⟩ := hseen
    rw [hother a ha hne]
    exact h

/-- Where the pins do not agree, a packet from another IP is not turned away. -/
theorem receive_gap {p : PlayerInfo} {seen : Option IP} (h : Pinned p seen) {src : Endpoint} {b : IP}
    (hb : src.ip = some b) (hgap : ¬ PinsAgree p src) (now : Instant) :
    (∃ a, seen = some a ∧ a ≠ b) ∧ (p.receive src now).1 ≠ .spoofed := by
  cases src with
  | udp addr =>
    cases hb
    simp only [PinsAgree, Classical.not_imp, not_forall] at hgap
    obtain ⟨hp, pinned, hip, hne⟩ := hgap
    refine ⟨?_, ?_⟩
    · cases seen with
      | none => exact absurd (hip.symm.trans h.2) (Option.some_ne_none _)
      | some a => exact ⟨a, rfl, fun he => hne ((h.tcpIP pinned hip).trans he).symm⟩
    · rcases receiveUDP_cases p addr now with ⟨⟨pinned', hp', -⟩, -⟩ | ⟨-, heq⟩
      · rw [hp] at hp'
        cases hp'
      · obtain ⟨v, p', hacc, hv, -⟩ := receiveUDP_accept p addr now
        change (p.receiveUDP addr now).1 ≠ .spoofed
        rw [heq, hacc]
        exact hv
  | tcp conn =>
    simp only [PinsAgree, Classical.not_imp, not_forall] at hgap
    obtain ⟨hip, pinned, hp, hne⟩ := hgap
    refine ⟨?_, ?_⟩
    · cases seen with
      | none => exact absurd (hp.symm.trans h.1) (Option.some_ne_none _)
      | some a =>
        refine ⟨a, rfl, fun he => hne ?_⟩
        rw [hb, h.addr pinned hp, he]
    · rcases receiveTCP_cases p conn now with ⟨pinned', hip', -, -⟩ | ⟨-, v, old, p', heq, hv, -⟩
      · rw [hip] at hip'
        cases hip'
      · change (p.receiveTCP conn now).1 ≠ .spoofed
        rw [heq]
        exact hv

end PlayerInfo

/-! ## Runs of packets -/

namespace Session

/-- One packet bearing the player's ID. -/
def receive (playerID : PlayerID) (s : Session) (e : Endpoint × Instant) : Session × PacketVerdict :=
  match e.1 with
  | .udp addr => ((s.updatePlayerAddr playerID addr e.2).2, (s.updatePlayerAddr playerID addr e.2).1)
  | .tcp conn => ((s.updatePlayerTCP playerID conn e.2).2.2, (s.updatePlayerTCP playerID conn e.2).1)

/-- The packet is taken for an impostor's, and the player's target stays what it was. -/
def TurnedAway (playerID : PlayerID) (x : Session × (Endpoint × Instant) × PacketVerdict) : Prop :=
  x.2.2 = .spoofed ∧
    (x.1.receive playerID x.2.1).1.getPlayerTarget playerID = x.1.getPlayerTarget playerID

/-- Once a packet has been accepted, every later packet from another IP is turned away. -/
def NoSpoofing (playerID : PlayerID) (s : Session) (packets : List (Endpoint × Instant)) : Prop :=
  (trace (receive playerID) s packets).Pairwise fun x y =>
    x.2.2.accepted = true → x.2.1.1.ip ≠ y.2.1.1.ip → TurnedAway playerID y

/-- `PlayerInfo.PinsAgree` of the player's entry. -/
def PinsAgree (playerID : PlayerID) (s : Session) (src : Endpoint) : Prop :=
  ∀ p, s.players.lookup playerID = some p → p.PinsAgree src

theorem receive_eq {playerID : PlayerID} {s : Session} {p : PlayerInfo}
    (h : s.players.lookup playerID = some p) (e : Endpoint × Instant) :
    s.receive playerID e = ({ s with players := s.players.insert playerID (p.receive e.1 e.2).2 },
      (p.receive e.1 e.2).1) := by
  obtain ⟨src, now⟩ := e
  cases src with
  | udp addr => simp only [receive, updatePlayerAddr, h, PlayerInfo.receive]
  | tcp conn => simp only [receive, updatePlayerTCP, h, PlayerInfo.receive]

/-- No spoofing in the rest of a run, `seen` being the IP of the packets accepted so far. -/
def Guarded (playerID : PlayerID) (s : Session) (packets : List (Endpoint × Instant))
    (seen : Option IP) : Prop :=
  NoSpoofing playerID s packets ∧ ∀ y ∈ trace (receive playerID) s packets, ∀ a, seen = some a →
    some a ≠ y.2.1.1.ip → TurnedAway playerID y

theorem guarded_cons {playerID : PlayerID} {s : Session} {e : Endpoint × Instant}
    {es : List (Endpoint × Instant)} {seen : Option IP} {b : IP} (hb : e.1.ip = some b)
    (hsame : (s.receive playerID e).2.accepted = true → ∀ a, seen = some a → a = b) :
    Guarded playerID s (e :: es) seen ↔
      (∀ a, seen = some a → a ≠ b → TurnedAway playerID (s, e, (s.receive playerID e).2)) ∧
      Guarded playerID (s.receive playerID e).1 es
        (if (s.receive playerID e).2.accepted then some b else seen) := by
  have hip : ∀ a : IP, some a ≠ e.1.ip ↔ a ≠ b := fun a => by rw [hb]; simp
  unfold Guarded NoSpoofing
  rw [trace, List.pairwise_cons, List.forall_mem_cons]
  simp only [hip]
  cases hacc : (s.receive playerID e).2.accepted with
  | false =>
    simp only [Bool.false_eq_true, false_implies, implies_true, true_and, if_false]
    exact ⟨fun h => ⟨h.2.1, h.1, h.2.2⟩, fun h => ⟨h.2.1, h.1, h.2.2⟩⟩
  | true =>
    -- What has been seen before is this packet's IP, so from here on it alone counts.
    have hseen := hsame hacc
    simp only [true_implies, if_true, hb]
    constructor
    · rintro ⟨⟨hnew, hrest⟩, hfirst, -⟩
      refine ⟨hfirst, hrest, fun y hy a ha hne => hnew y hy ?_⟩
      cases ha
      exact hne
    · rintro ⟨hfirst, hrest, hnew⟩
      refine ⟨⟨fun y hy hne => hnew y hy b rfl hne, hrest⟩, hfirst, fun y hy a ha hne => ?_⟩
      exact hnew y hy b rfl (hseen a ha ▸ hne)

/-- The induction over the packets; `seen` carries what the pins stand for. -/
theorem guarded_iff_of_pinned (playerID : PlayerID) (packets : List (Endpoint × Instant))
    (hip : ∀ e ∈ packets, e.1.ip ≠ none) {s : Session} {p : PlayerInfo}
    (hp : s.players.lookup playerID = some p) {seen : Option IP} (hpin : p.Pinned seen) :
    Guarded playerID s packets seen ↔
      AllSteps (receive playerID) (fun s e _ => s.PinsAgree playerID e.1) s packets := by
  induction packets generalizing s p seen with
  | nil => simp [Guarded, NoSpoofing, trace, AllSteps]
  | cons e es ih =>
    obtain ⟨he, hes⟩ := List.forall_mem_cons.mp hip
    obtain ⟨b, hb⟩ := Option.ne_none_iff_exists'.mp he
    have hrec := receive_eq hp e
    have hagree : s.PinsAgree playerID e.1 ↔ p.PinsAgree e.1 := by
      unfold PinsAgree
      rw [hp]
      exact ⟨fun h => h p rfl, fun h p' he => by cases he; exact h⟩
    rw [allSteps_cons, hagree]
    by_cases hok : p.PinsAgree e.1
    · obtain ⟨hpin', hother⟩ := hpin.receive hb hok e.2
      have hlook : (s.receive playerID e).1.players.lookup playerID = some (p.receive e.1 e.2).2 := by
        rw [hrec]
        exact AList.lookup_insert _
      have hverdict : (s.receive playerID e).2 = (p.receive e.1 e.2).1 := by rw [hrec]
      have hsame : (s.receive playerID e).2.accepted = true → ∀ a, seen = some a → a = b := by
        intro hacc a ha
        by_contra hne
        rw [hverdict, hother a ha hne] at hacc
        cases hacc
      have hfirst : ∀ a, seen = some a → a ≠ b →
          TurnedAway playerID (s, e, (s.receive playerID e).2) := by
        intro a ha hne
        have hsp := hother a ha hne
        refine ⟨by rw [hverdict, hsp], ?_⟩
        simp only [hrec, hsp, getPlayerTarget, AList.lookup_insert, hp]
      have hrest := ih hes hlook hpin'
      rw [← hverdict] at hrest
      rw [guarded_cons hb hsame, hrest]
      exact ⟨fun h => ⟨hok, h.2⟩, fun h => ⟨hfirst, h.2⟩⟩
    · obtain ⟨⟨a, ha, hne⟩, hns⟩ := PlayerInfo.receive_gap hpin hb hok e.2
      refine iff_of_false (fun h => ?_) (fun h => hok h.1)
      have hta := (h.2 _ List.mem_cons_self a ha (by rw [hb]; exact fun he => hne (Option.some.inj he))).1
      rw [hrec] at hta
      exact hns hta

/-- From a join on, sender IDs cannot be spoofed exactly if the pins agree at every packet. -/
theorem noSpoofing_iff_pinsAgree (playerID : PlayerID) (s : Session) (p : PlayerInfo)
    (hp : s.players.lookup playerID = some p) (hfresh : p.Unlearned)
    (packets : List (Endpoint × Instant)) (hip : ∀ e ∈ packets, e.1.ip ≠ none) :
    NoSpoofing playerID s packets ↔
      AllSteps (receive playerID) (fun s e _ => s.PinsAgree playerID e.1) s packets := by
  have hpin : p.Pinned none := ⟨hfresh.addr, hfresh.tcpIP⟩
  rw [← guarded_iff_of_pinned playerID packets hip hp hpin]
  refine ⟨fun h => ⟨h, fun _ _ a ha => ?_⟩, fun h => h.1⟩
  cases ha

/-! ### The gap between the pins -/

/-- A session that player 1 has just joined. -/
def justJoined : Session :=
  { newSession "game" 12 0 with
    players := (∅ : Table PlayerID PlayerInfo).insert 1 { playerID := 1, login := "p1" } }

def ownConn : Conn := ⟨7, some ⟨.v4 0x0A000002#32, 50000⟩⟩

def ownAddr : AddrPort := ⟨.v4 0x0A000002#32, 6112⟩

def impostorAddr : AddrPort := ⟨.v4 0x0A000063#32, 6112⟩

/-- Over UDP alone the impostor is turned away. -/
theorem noSpoofing_over_udp :
    NoSpoofing 1 justJoined [(.udp ownAddr, second), (.udp impostorAddr, 2 * second)] := by
  refine (noSpoofing_iff_pinsAgree 1 justJoined { playerID := 1, login := "p1" } rfl
    (PlayerInfo.unlearned_new 1 "p1") _ (by decide)).mpr ?_
  refine allSteps_cons.mpr ⟨fun p hp => ?_, allSteps_cons.mpr ⟨fun p hp => ?_, fun x hx => nomatch hx⟩⟩
  · cases (Option.some.inj hp : _ = p)
    exact fun _ _ h => nomatch h
  · cases (Option.some.inj hp : _ = p)
    exact fun h => nomatch h

/-- The player talks over TCP; one datagram from elsewhere is accepted and becomes its address. -/
theorem impostor_over_udp :
    ¬ NoSpoofing 1 justJoined [(.tcp ownConn, second), (.udp impostorAddr, 2 * second)] ∧
    (runState (receive 1) justJoined [(.tcp ownConn, second), (.udp impostorAddr, 2 * second)]).getPlayerTarget 1 =
      some { playerID := 1, udpAddr := some impostorAddr, tcpConn := none } := by
  refine ⟨fun h => ?_, by decide⟩
  have hta := (List.pairwise_cons.mp h).1 _ (List.mem_cons_self ..) (by decide) (by decide)
  exact absurd hta.1 (by decide)

end Session
end SturmRelay
