import SturmRelay.Adapter.GameData

/-! # The ICE link of two adapters

`internal/adapter/icepeer.go`: `iceToGame`, `gameToICE` and the two echo loops, at both ends of one ICE
connection. The offerer sends an `e` echo every second and the answerer an `f` echo; each end sends the
other's echoes back unchanged and takes the age of its own as the round-trip time. The offerer reports
what it has measured, and an answerer without a measurement estimates one from the clock of the offerer.

The connection is the network: what has been sent can arrive in any order, more than once or never.
Packets of third parties are left out, and so are the STUN packets of the ICE agents themselves. -/

namespace SturmRelay
namespace Adapter
set_option autoImplicit false

/-- The receive buffer of `gameToICE`. -/
def gameBufLen : ℕ := 65536

/-- An echo with its time in milliseconds, as the loops build it. -/
def echoPacket (kind : UInt8) (nowMs : ℤ) : Bytes := kind :: beEncode 8 (nowMs % 2 ^ 64).toNat

/-- What the echo loop of an end sends: `sendEchoLoop` at the offerer, `sendAnswerEchoLoop` at the
answerer. -/
def echoKind (offerer : Bool) : UInt8 := if offerer then fafPrefixEcho else fafPrefixAnswerEcho

def rttReport (rtt : ℤ) : Bytes := fafPrefixRTTReport :: beEncode 4 rtt.toNat

/-- How old an echo is when it is read. -/
def echoAge (packet : Bytes) (nowMs : ℤ) : ℤ :=
  GameLink.int64 (nowMs - GameLink.int64 (beDecode packet.tail))

theorem echoAge_echoPacket (kind : UInt8) (sentMs nowMs : ℤ) :
    echoAge (echoPacket kind sentMs) nowMs = GameLink.int64 (nowMs - sentMs) := by
  have hnonneg : 0 ≤ sentMs % 2 ^ 64 := Int.emod_nonneg _ (by decide)
  have hval : ((beDecode (beEncode 8 (sentMs % 2 ^ 64).toNat) : ℕ) : ℤ) = sentMs % 2 ^ 64 := by
    rw [beDecode_beEncode]
    omega
  have hmod : Int.bmod (sentMs % 2 ^ 64) (2 ^ 64) = Int.bmod sentMs (2 ^ 64) :=
    Int.emod_bmod sentMs (2 ^ 64)
  unfold echoAge echoPacket
  rw [List.tail_cons, hval]
  unfold GameLink.int64
  rw [hmod, Int.sub_bmod_bmod]

theorem beDecode_rttReport {rtt : ℤ} (hnonneg : 0 ≤ rtt) (hlt : rtt < 60000) :
    ((beDecode (rttReport rtt).tail : ℕ) : ℤ) = rtt := by
  unfold rttReport
  rw [List.tail_cons, beDecode_beEncode]
  omega

namespace GameLink

/-- A tick of the echo loop. -/
def sendEcho (nowMs : ℤ) (s : GameLink) : GameLink := s.send (echoPacket (echoKind s.offerer) nowMs)

/-! ## What a packet makes an end do -/

/-- What is sent in answer to a packet, and the round-trip time after it. -/
inductive Reacts (s : GameLink) (packet : Bytes) (nowMs : ℤ) : List Bytes → ℤ → Bool → Prop
  | quiet : Reacts s packet nowMs [] s.rttMs s.rttEstimated
  | measured (ho : s.offerer = true) (hkind : packet.head? = some fafPrefixEcho)
      (hnonneg : 0 ≤ echoAge packet nowMs) (hlt : echoAge packet nowMs < 60000) :
      Reacts s packet nowMs [rttReport (echoAge packet nowMs)] (echoAge packet nowMs) s.rttEstimated
  | mirrored (ho : s.offerer = false) (hkind : packet.head? = some fafPrefixEcho) :
      Reacts s packet nowMs [packet] s.rttMs s.rttEstimated
  | estimated (ho : s.offerer = false) (hkind : packet.head? = some fafPrefixEcho)
      (hnonneg : 0 ≤ echoAge packet nowMs) (hlt : echoAge packet nowMs < 30000) :
      Reacts s packet nowMs [packet] (echoAge packet nowMs * 2) true
  | reflected (ho : s.offerer = true) (hkind : packet.head? = some fafPrefixAnswerEcho) :
      Reacts s packet nowMs [packet] s.rttMs s.rttEstimated
  | timed (ho : s.offerer = false) (hkind : packet.head? = some fafPrefixAnswerEcho)
      (hnonneg : 0 ≤ echoAge packet nowMs) (hlt : echoAge packet nowMs < 60000) :
      Reacts s packet nowMs [] (echoAge packet nowMs) false
  | reported (ho : s.offerer = false) (hkind : packet.head? = some fafPrefixRTTReport)
      (hlt : (beDecode packet.tail : ℤ) < 60000) :
      Reacts s packet nowMs [] (beDecode packet.tail) false

/-- The step from `s` to `s'` answers the packet. -/
def Answers (s : GameLink) (packet : Bytes) (nowMs : ℤ) (s' : GameLink) : Prop :=
  s'.offerer = s.offerer ∧ ∃ sent, s'.toRemote = s.toRemote ++ sent ∧
    Reacts s packet nowMs sent s'.rttMs s'.rttEstimated

theorem answers_quiet {s s' : GameLink} {packet : Bytes} {nowMs : ℤ} (ho : s'.offerer = s.offerer)
    (hsent : s'.toRemote = s.toRemote) (hrtt : s'.rttMs = s.rttMs)
    (hest : s'.rttEstimated = s.rttEstimated) : Answers s packet nowMs s' := by
  refine ⟨ho, [], ?_, ?_⟩
  · rw [hsent, List.append_nil]
  · rw [hrtt, hest]
    exact .quiet

section Read
variable {s : GameLink} {p : ICEPacket} {nowMs : ℤ}

theorem take_read (p : ICEPacket) (s : GameLink) : (s.read p).buf.take p.bytes.length = p.bytes :=
  List.take_left

theorem timestamp_read (h : p.bytes.length = fafEchoLen) :
    (s.read p).timestamp = int64 (beDecode p.bytes.tail) := by
  unfold timestamp
  rw [← h, take_read, List.drop_one]

/-- An end sends back the packet it has read. -/
theorem toRemote_send_read {s' : GameLink} (hbuf : s'.buf = (s.read p).buf)
    (hsent : s'.toRemote = s.toRemote) :
    (s'.send (s'.buf.take p.bytes.length)).toRemote = s.toRemote ++ [p.bytes] := by
  show s'.toRemote ++ [s'.buf.take p.bytes.length] = _
  rw [hbuf, take_read, hsent]

theorem answers_receiveEcho (hkind : p.bytes.head? = some fafPrefixEcho) :
    Answers s p.bytes nowMs ((s.read p).receiveEcho p.bytes.length nowMs) := by
  unfold receiveEcho
  by_cases hlen : p.bytes.length = fafEchoLen
  · rw [if_neg (not_not.mpr hlen), timestamp_read hlen]
    by_cases ho : s.offerer = true
    · rw [if_pos (show (s.read p).offerer = true from ho)]
      by_cases hrange : 0 ≤ echoAge p.bytes nowMs ∧ echoAge p.bytes nowMs < 60000
      · dsimp only
        rw [if_pos (show 0 ≤ int64 _ ∧ int64 _ < 60000 from hrange)]
        exact ⟨rfl, _, rfl, .measured ho hkind hrange.1 hrange.2⟩
      · dsimp only
        rw [if_neg (show ¬ (0 ≤ int64 _ ∧ int64 _ < 60000) from hrange)]
        exact answers_quiet rfl rfl rfl rfl
    · have ho' : s.offerer = false := Bool.eq_false_iff.mpr ho
      rw [if_neg (show ¬ (s.read p).offerer = true from ho)]
      dsimp only
      split
      · next hrange =>
        exact ⟨rfl, _, toRemote_send_read rfl rfl, .estimated ho' hkind hrange.1 hrange.2.1⟩
      · exact ⟨rfl, _, toRemote_send_read rfl rfl, .mirrored ho' hkind⟩
  · rw [if_pos hlen]
    exact answers_quiet rfl rfl rfl rfl

theorem answers_receiveAnswerEcho (hkind : p.bytes.head? = some fafPrefixAnswerEcho) :
    Answers s p.bytes nowMs ((s.read p).receiveAnswerEcho p.bytes.length nowMs) := by
  unfold receiveAnswerEcho
  by_cases hlen : p.bytes.length = fafEchoLen
  · rw [if_neg (not_not.mpr hlen), timestamp_read hlen]
    by_cases ho : s.offerer = true
    · rw [if_pos (show (s.read p).offerer = true from ho)]
      exact ⟨rfl, _, toRemote_send_read rfl rfl, .reflected ho hkind⟩
    · have ho' : s.offerer = false := Bool.eq_false_iff.mpr ho
      rw [if_neg (show ¬ (s.read p).offerer = true from ho)]
      dsimp only
      split
      · next hrange =>
        exact ⟨rfl, [], (List.append_nil _).symm, .timed ho' hkind hrange.1 hrange.2⟩
      · exact answers_quiet rfl rfl rfl rfl
  · rw [if_pos hlen]
    exact answers_quiet rfl rfl rfl rfl

theorem answers_receiveRTTReport (hkind : p.bytes.head? = some fafPrefixRTTReport) :
    Answers s p.bytes nowMs ((s.read p).receiveRTTReport p.bytes.length) := by
  unfold receiveRTTReport
  by_cases hguard : p.bytes.length = fafRTTReportLen ∧ s.offerer = false
  · rw [if_pos (show _ ∧ (s.read p).offerer = false from hguard), ← hguard.1, take_read,
      List.drop_one]
    dsimp only
    split
    · next hrange =>
      exact ⟨rfl, [], (List.append_nil _).symm, .reported hguard.2 hkind hrange.2⟩
    · exact answers_quiet rfl rfl rfl rfl
  · rw [if_neg (show ¬ (_ ∧ (s.read p).offerer = false) from hguard)]
    exact answers_quiet rfl rfl rfl rfl

theorem answers_receiveData (n : ℕ) : Answers s p.bytes nowMs ((s.read p).receiveData n) := by
  unfold receiveData
  repeat' split
  all_goals exact answers_quiet rfl rfl rfl rfl

/-- Everything a packet can make an end do. -/
theorem answers_receive (s : GameLink) (p : ICEPacket) (nowMs : ℤ) :
    Answers s p.bytes nowMs (s.receive p nowMs) := by
  unfold receive
  cases hbytes : p.bytes with
  | nil =>
    rw [if_pos List.length_nil]
    exact answers_quiet rfl rfl rfl rfl
  | cons kind payload =>
    have hhead : (s.read p).buf.head? = some kind := by
      show (p.bytes ++ s.buf.drop p.bytes.length).head? = some kind
      rw [hbytes]
      rfl
    have hpkt : p.bytes.head? = some kind := by rw [hbytes]; rfl
    rw [if_neg (by simp), ← hbytes]
    unfold dispatch
    rw [hhead]
    dsimp only
    split
    · exact answers_receiveData _
    · split
      · next he => exact answers_receiveEcho (he ▸ hpkt)
      · split
        · next he => exact answers_receiveAnswerEcho (he ▸ hpkt)
        · split
          · next he => exact answers_receiveRTTReport (he ▸ hpkt)
          · exact answers_quiet rfl rfl rfl rfl

end Read
end GameLink

/-! ## The two ends -/

/-- The ends, the offerer under `true`, and the packets on their way to each. -/
structure ICELink where
  ends : Bool → GameLink
  flight : Bool → List Bytes := fun _ => []

/-- `arrive` has an end read a packet that is on its way to it; with `again` it arrives once more
later. -/
inductive ICEEvent
  | tick (o : Bool) (nowMs : ℤ)
  | game (o : Bool) (remoteAddr : AddrPort) (datagram : Bytes)
  | advance (o : Bool)
  | arrive (o : Bool) (k : ℕ) (again : Bool) (nowMs : ℤ)
  | lose (o : Bool) (k : ℕ)

namespace ICELink

/-- Both ends when the connection is up; an end may know its game's address already. -/
def start (gameAddr : Bool → Option AddrPort) : ICELink where
  ends o := GameLink.start o (gameAddr o)

/-- The end `o` has become `e`, and what it has sent meanwhile is on its way. -/
def setEnd (o : Bool) (e : GameLink) (s : ICELink) : ICELink where
  ends := Function.update s.ends o e
  flight := Function.update s.flight (!o)
    (s.flight (!o) ++ e.toRemote.drop (s.ends o).toRemote.length)

def remove (o : Bool) (k : ℕ) (s : ICELink) : ICELink :=
  { s with flight := Function.update s.flight o ((s.flight o).eraseIdx k) }

/-- `Read` is called only when the packet before has been dealt with. -/
def arrive (o : Bool) (k : ℕ) (again : Bool) (nowMs : ℤ) (s : ICELink) : ICELink :=
  match (s.flight o)[k]? with
  | none => s
  | some packet =>
    if h : packet.length ≤ iceBufLen ∧ (s.ends o).phase = .reading then
      (if again then s else s.remove o k).setEnd o ((s.ends o).receive ⟨packet, h.1⟩ nowMs)
    else s

def step (s : ICELink) : ICEEvent → ICELink × Unit
  | .tick o nowMs => (s.setEnd o ((s.ends o).sendEcho nowMs), ())
  | .game o remoteAddr datagram =>
    (s.setEnd o ((s.ends o).gamePacket remoteAddr (datagram.take gameBufLen)), ())
  | .advance o => (s.setEnd o (s.ends o).advance, ())
  | .arrive o k again nowMs => (s.arrive o k again nowMs, ())
  | .lose o k => (s.remove o k, ())

section Fields
variable (s : ICELink) (o : Bool) (e : GameLink)

theorem other_ne (o : Bool) : (!o) ≠ o := by
  cases o <;> decide

@[simp] theorem setEnd_ends_self : (s.setEnd o e).ends o = e := by
  unfold setEnd
  exact Function.update_self ..

@[simp] theorem setEnd_ends_other : (s.setEnd o e).ends (!o) = s.ends (!o) := by
  unfold setEnd
  exact Function.update_of_ne (other_ne o) ..

@[simp] theorem setEnd_flight_self : (s.setEnd o e).flight o = s.flight o := by
  unfold setEnd
  exact Function.update_of_ne (other_ne o).symm ..

theorem setEnd_flight_other {sent : List Bytes} (h : e.toRemote = (s.ends o).toRemote ++ sent) :
    (s.setEnd o e).flight (!o) = s.flight (!o) ++ sent := by
  unfold setEnd
  dsimp only
  rw [Function.update_self, h, List.drop_left]

@[simp] theorem remove_ends (k : ℕ) : (s.remove o k).ends = s.ends := rfl

@[simp] theorem remove_flight_self (k : ℕ) : (s.remove o k).flight o = (s.flight o).eraseIdx k := by
  unfold remove
  exact Function.update_self ..

@[simp] theorem remove_flight_other (k : ℕ) : (s.remove o k).flight (!o) = s.flight (!o) := by
  unfold remove
  exact Function.update_of_ne (other_ne o) ..

end Fields
end ICELink
end Adapter
end SturmRelay
