import SturmRelay.Adapter.Framing
import SturmRelay.Foundations.Deadlines

/-! # Read timeouts in the adapter

`receiveTCP` renews its read deadline before each frame. When the deadline expires it takes the
connection to be alive and calls `readTCPFrame` again, on the same connection. `readTCPFrame` reads with
`io.ReadFull`, which gives up what it has read so far; if the deadline expires inside a frame, the next
call starts in the middle of it. -/

namespace SturmRelay
namespace Adapter
set_option autoImplicit false

namespace RelayConnection

/-- The calls of `dispatchTopeer` that some frames lead to. -/
def dispatched (rc : RelayConnection) (frames : List Bytes) : List (UInt32 × Bytes × ℕ) :=
  frames.filterMap fun data =>
    match rc.receive data with
    | .ok (.dispatch senderID payload totalBytes) => some (senderID, payload, totalBytes)
    | _ => none

/-- The inner loop of `receiveTCP` when `readTCPFrame` has returned `k` times. -/
def receiveTCP (tape : List (Option UInt8)) (k : ℕ) : ReadLoop UInt8 Bytes :=
  (readTCPFrame packetBufferSize).turn^[k] ⟨tape, [], false⟩

/-- At any time the frames read are the first frames of the stream, the loop stands between two frames,
and the packets passed on are those of the frames read. -/
def FramesInOrder (rc : RelayConnection) (frames : List Bytes) (tape : List (Option UInt8)) : Prop :=
  ∀ k, InStep tcpFrame frames tape.reduceOption (receiveTCP tape k) ∧
    rc.dispatched (receiveTCP tape k).values <+: rc.dispatched frames

theorem dispatched_take (rc : RelayConnection) (frames : List Bytes) (j : ℕ) :
    rc.dispatched (frames.take j) <+: rc.dispatched frames :=
  (List.take_prefix j frames).filterMap _

theorem framesInOrder_iff (rc : RelayConnection) (frames : List Bytes)
    (hframes : ∀ data ∈ frames, data.length ≤ maxTCPFramePayload) (tape : List (Option UInt8))
    (htape : tape.reduceOption <+: (frames.map tcpFrame).flatten) :
    FramesInOrder rc frames tape ↔ AtBoundaries tcpFrame frames tape := by
  have hloop : (∀ k, InStep tcpFrame frames tape.reduceOption (receiveTCP tape k)) ↔
      AtBoundaries tcpFrame frames tape := by
    refine inStep_iff_atBoundaries (fun _ => rfl) rfl ?_ ?_ htape
    · exact fun data hdata rest => readTCPFrame_tcpFrame (hframes data hdata) rest
    · intro data _ hnil
      have hlen := congrArg List.length hnil
      rw [tcpFrame, List.length_append, length_beEncode] at hlen
      cases Nat.add_eq_zero_iff.mp hlen |>.1
  rw [← hloop]
  refine ⟨fun h k => (h k).1, fun h k => ⟨h k, ?_⟩⟩
  obtain ⟨-, j, hvalues, -⟩ := h k
  rw [hvalues]
  exact rc.dispatched_take frames j

/-- A packet of player 1 whose payload looks like a frame of player 7. -/
def chatPacket : Bytes := [0, 0, 0, 1, 0, 0, 0, 2, 0, 8, 0, 0, 0, 7, 0, 0, 0, 2]

/-- A deadline expires before the frame; then the frame arrives. -/
def lateTape : List (Option UInt8) := none :: (tcpFrame chatPacket).map some

theorem lateTape_inOrder : AtBoundaries tcpFrame [chatPacket] lateTape ∧
    FramesInOrder (newRelayConnection ⟨.v4 0, 10000⟩ 2) [chatPacket] lateTape := by
  have hat : AtBoundaries tcpFrame [chatPacket] lateTape :=
    atBoundaries_timeout.mpr (atBoundaries_whole _ _)
  exact ⟨hat, (framesInOrder_iff _ _ (by decide) lateTape (by decide)).mpr hat⟩

/-- A deadline expires after the header of the packet. -/
def cutTape : List (Option UInt8) :=
  ((tcpFrame chatPacket).take 10).map some ++ none :: ((tcpFrame chatPacket).drop 10).map some

/-- What is passed on is a packet of player 7, who has not sent any. -/
theorem payload_dispatched : ¬ ∀ (rc : RelayConnection) (frames : List Bytes) (tape : List (Option UInt8)),
    (∀ data ∈ frames, data.length ≤ maxTCPFramePayload) →
    tape.reduceOption <+: (frames.map tcpFrame).flatten →
    ∀ k, rc.dispatched (receiveTCP tape k).values <+: rc.dispatched frames := by
  intro h
  have hlast := h (newRelayConnection ⟨.v4 0, 10000⟩ 2) [chatPacket] cutTape (by decide) (by decide) 2
  revert hlast
  decide

end RelayConnection
end Adapter
end SturmRelay
